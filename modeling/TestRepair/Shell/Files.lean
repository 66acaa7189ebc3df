import TestRepair.FileTree.Write
import TestRepair.Shell.Filter

/-!
Tools that look at files as a whole or change them: `ls`, `mkdir`, `touch`, `rm`, `cp`, `mv`, `ln`,
`chmod`, `tee`, and those that take paths apart.
-/

namespace TestRepair

namespace Shell

/-- The path that an argument names, if it is a text at all. -/
def pathOf? (s : Raw) : Option Path := (Raw.toString? s).map (⟨·⟩)

/-- What a tool that changes files leaves. -/
structure Changed where
  printed : Printed := {}
  tree : FileTree

namespace Changed

def complain (c : Changed) (text : Raw) : Changed :=
  { c with printed := { c.printed with status := 1, err := c.printed.err ++ text ++ ['\n'] } }

def each (t : FileTree) (args : List Raw) (step : Changed → Raw → Changed) : Changed :=
  args.foldl step { tree := t }

end Changed

def complaint (what : String) (file : Raw) (e : FileError) : Raw :=
  what.toList ++ " \x27".toList ++ file ++ "\x27: ".toList ++ reason e

/-- The names that `ls` shows for a directory. -/
def listed (t : FileTree) (options : Raw) (p : Path) : List Raw :=
  let names := (((t.canonical p).toOption.map t.children).getD []).map (·.1)
  let all := options.contains 'a'
  let shown := names.filter fun n => all || options.contains 'A' || !n.startsWith "."
  (if all then [['.'], ['.', '.']] else []) ++ shown.map Raw.ofString

/-- The tool `ls`. -/
def ls (t : FileTree) (args : List Raw) : Printed :=
  let (options, files) := splitOptions args
  let files := if files.isEmpty then [['.']] else files
  let (dirs, others) := files.partition fun f => (pathOf? f).any fun p =>
    t.isDir p && !options.contains 'd'
  let (there, missing) := others.partition fun f => (pathOf? f).any t.exists
  let header (f : Raw) : Raw := if files.length > 1 then f ++ [':', '\n'] else []
  let blocks := dirs.map fun f => header f ++ Raw.unlines (((pathOf? f).map (listed t options)).getD [])
  let blocks := if there.isEmpty then blocks else Raw.unlines there :: blocks
  { status := if missing.isEmpty then 0 else 2
    out := Text.joinWith ['\n'] blocks
    err := missing.flatMap fun f => complaint "ls: cannot access" f .notFound ++ ['\n'] }

/-- The tool `mkdir`. -/
def mkdir (t : FileTree) (args : List Raw) : Changed :=
  let (options, dirs) := splitOptions args
  Changed.each t dirs fun c d =>
    match pathOf? d with
    | none => c.complain (complaint "mkdir: cannot create directory" d .notFound)
    | some p =>
      if options.contains 'p' then
        match c.tree.makeDirs p with
        | (.ok (), t) => { c with tree := t }
        | (.error e, t) =>
          { c with tree := t }.complain (complaint "mkdir: cannot create directory" d e)
      else
        match c.tree.makeDir p with
        | .ok t => { c with tree := t }
        | .error e => c.complain (complaint "mkdir: cannot create directory" d e)

/-- The tool `touch`. -/
def touch (t : FileTree) (args : List Raw) : Changed :=
  Changed.each t (splitOptions args).2 fun c f =>
    match pathOf? f with
    | none => c.complain (complaint "touch: cannot touch" f .notFound)
    | some p =>
      if c.tree.exists p then c
      else
        match c.tree.writeText p "" with
        | .ok t => { c with tree := t }
        | .error e => c.complain (complaint "touch: cannot touch" f e)

def removeAll (t : FileTree) (p : Place) : FileTree :=
  ((t.under p).foldl (fun t e => t.remove (p ++ e.1)) t).remove p

/-- The tool `rm`. -/
def rm (t : FileTree) (args : List Raw) : Changed :=
  let (options, files) := splitOptions args
  let recursive := options.contains 'r' || options.contains 'R'
  Changed.each t files fun c f =>
    match (pathOf? f).map (c.tree.goal false) with
    | some (.ok (.node p)) =>
      if (c.tree.get? p).any Node.isDir && !recursive then
        c.complain (complaint "rm: cannot remove" f .isDirectory)
      else { c with tree := removeAll c.tree p }
    | some (.error e) =>
      if options.contains 'f' then c else c.complain (complaint "rm: cannot remove" f e)
    | _ => if options.contains 'f' then c else c.complain (complaint "rm: cannot remove" f .notFound)

/-- The tool `rmdir`. -/
def rmdir (t : FileTree) (args : List Raw) : Changed :=
  Changed.each t (splitOptions args).2 fun c f =>
    match (pathOf? f).map c.tree.canonical with
    | some (.ok p) =>
      if !(c.tree.get? p).any Node.isDir then c.complain (complaint "rmdir: failed to remove" f .notDirectory)
      else if (c.tree.under p).isEmpty then { c with tree := c.tree.remove p }
      else c.complain ("rmdir: failed to remove \x27".toList ++ f ++ "\x27: Directory not empty".toList)
    | _ => c.complain (complaint "rmdir: failed to remove" f .notFound)

def baseName (s : Raw) : Raw :=
  let trimmed := (s.reverse.dropWhile (· == '/')).reverse
  if trimmed.isEmpty then s.take 1
  else ((Text.splitLast? '/' trimmed).map (·.2)).getD trimmed

def dirName (s : Raw) : Raw :=
  let trimmed := (s.reverse.dropWhile (· == '/')).reverse
  if trimmed.isEmpty then (if s.isEmpty then ['.'] else ['/'])
  else
    match Text.splitLast? '/' trimmed with
    | none => ['.']
    | some (dir, _) =>
      let dir := (dir.reverse.dropWhile (· == '/')).reverse
      if dir.isEmpty then ['/'] else dir

/-- Where a file goes that is copied or moved to `dest`. -/
def destination (t : FileTree) (source dest : Raw) : Raw :=
  if (pathOf? dest).any t.isDir then dest ++ ['/'] ++ baseName source else dest

def copyNodes (t : FileTree) (source dest : Place) : FileTree :=
  match t.get? source with
  | none => t
  | some n => (t.under source).foldl (fun t e => t.set (dest ++ e.1) e.2) (t.set dest n)

/-- The place that a path names or could name, links on the way followed. -/
def placeFor? (t : FileTree) (s : Raw) : Option Place :=
  match (pathOf? s).map (t.goal true) with
  | some (.ok (.node p)) => some p
  | some (.ok (.free dir name)) => some (dir ++ [name])
  | _ => none

/-- The tools `cp` and `mv`. -/
def transfer (moves : Bool) (t : FileTree) (args : List Raw) : Changed :=
  let tool := if moves then "mv" else "cp"
  let (options, files) := splitOptions args
  match files.getLast? with
  | none => { tree := t, printed := { status := 1, err := (tool ++ ": missing file operand\n").toList } }
  | some dest =>
    Changed.each t files.dropLast fun c f =>
      match (pathOf? f).map c.tree.canonical with
      | some (.ok p) =>
        if (c.tree.get? p).any Node.isDir && !moves && !(options.contains 'r' || options.contains 'R' ||
            options.contains 'a') then
          c.complain ("cp: -r not specified; omitting directory \x27".toList ++ f ++ ['\x27'])
        else
          match placeFor? c.tree (destination c.tree f dest) with
          | some q =>
            let t := copyNodes c.tree p q
            { c with tree := if moves && p != q then removeAll t p else t }
          | none => c.complain (complaint (tool ++ ": cannot create regular file") dest .notFound)
      | _ => c.complain (complaint (tool ++ ": cannot stat") f .notFound)

/-- The tool `ln`, which makes links that name their target. -/
def ln (t : FileTree) (args : List Raw) : Changed :=
  let (options, files) := splitOptions args
  match files with
  | [target, name] =>
    let name := destination t target name
    let linked (dir : Place) (last : String) : Changed :=
      { tree := t.set (dir ++ [last]) (.link ⟨(Raw.toString? target).getD ""⟩) }
    match (pathOf? name).map (t.goal false) with
    | some (.ok (.free dir last)) => linked dir last
    | some (.ok (.node p)) =>
      if options.contains 'f' then { tree := t.set p (.link ⟨(Raw.toString? target).getD ""⟩) }
      else Changed.complain { tree := t } (complaint "ln: failed to create symbolic link" name .exists)
    | _ => Changed.complain { tree := t } (complaint "ln: failed to create symbolic link" name .notFound)
  | _ => Changed.complain { tree := t } "ln: missing file operand".toList

/-- The bits that the letters of a change of modes stand for, of each of the three classes. -/
def modeBits (letters : Raw) : Nat :=
  (if letters.contains 'r' then 4 else 0) + (if letters.contains 'w' then 2 else 0) +
    (if letters.contains 'x' then 1 else 0)

/-- The mode behind a change of modes, such as `755`, `+x` or `u-w`. -/
def changedMode? (change : Raw) (mode : Nat) : Option Nat :=
  if !change.isEmpty && change.all fun c => '0' ≤ c && c ≤ '7' then
    some (change.foldl (fun n c => 8 * n + (c.toNat - '0'.toNat)) 0)
  else
    let who := change.takeWhile ['u', 'g', 'o', 'a'].contains
    let all := who.isEmpty || who.contains 'a'
    let bits (letters : Raw) : Nat :=
      let b := modeBits letters
      (if all || who.contains 'u' then 64 * b else 0) + (if all || who.contains 'g' then 8 * b else 0) +
        (if all || who.contains 'o' then b else 0)
    match change.drop who.length with
    | '+' :: letters => some (mode ||| bits letters)
    | '-' :: letters => some (mode - (mode &&& bits letters))
    | '=' :: letters => some ((mode - (mode &&& bits ['r', 'w', 'x'])) ||| bits letters)
    | _ => none

/-- The tool `chmod`. -/
def chmod (t : FileTree) (args : List Raw) : Changed :=
  match args with
  | change :: files =>
    Changed.each t files fun c f =>
      match (pathOf? f).map c.tree.canonical with
      | some (.ok p) =>
        match c.tree.get? p with
        | some (.file bytes mode) =>
          match changedMode? change mode with
          | some mode => { c with tree := c.tree.set p (.file bytes mode) }
          | none => c.complain ("chmod: invalid mode: \x27".toList ++ change ++ ['\x27'])
        | _ => c
      | _ => c.complain (complaint "chmod: cannot access" f .notFound)
  | [] => Changed.complain { tree := t } "chmod: missing operand".toList

/-- The tool `tee`. -/
def tee (t : FileTree) (input : Raw) (args : List Raw) : Changed :=
  let (options, files) := splitOptions args
  let c := Changed.each t files fun c f =>
    match pathOf? f with
    | none => c.complain ("tee: ".toList ++ f)
    | some p =>
      let old := if options.contains 'a' then ((readFile c.tree f).toOption).getD [] else []
      match c.tree.write p (Raw.bytes (old ++ input)) with
      | .ok t => { c with tree := t }
      | .error e => c.complain ("tee: ".toList ++ f ++ ": ".toList ++ reason e)
  { c with printed := { c.printed with out := input } }

/-- The tool `basename`. -/
def basename (args : List Raw) : Printed :=
  match args with
  | [s] => { out := baseName s ++ ['\n'] }
  | [s, ending] =>
    let name := baseName s
    let short := (Text.front? ending name).getD name
    { out := (if short.isEmpty then name else short) ++ ['\n'] }
  | _ => { status := 1, err := "basename: missing operand\n".toList }

/-- The tool `dirname`. -/
def dirname (args : List Raw) : Printed :=
  if args.isEmpty then { status := 1, err := "dirname: missing operand\n".toList }
  else { out := Raw.unlines (args.map dirName) }

end Shell

end TestRepair
