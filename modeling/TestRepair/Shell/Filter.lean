import TestRepair.Shell.Printing
import TestRepair.Shell.Regex

/-!
Tools that read lines and print some of them, or something made of them: `cat`, `head`, `tail`, `wc`,
`tr`, `sort`, `uniq`, `cut` and `grep`. They read the files that they are given, or their input.
-/

namespace TestRepair

namespace Shell

/-- The words for a failed look-up or change, without its number. -/
def reason (e : FileError) : Raw :=
  Raw.ofString ((e.message.splitOn " (os error").headD e.message)

/-- The bytes of a file whose name may not even be a text. -/
def readFile (t : FileTree) (name : Raw) : Except FileError Raw :=
  match Raw.toString? name with
  | none => .error .notFound
  | some s => (t.readBytes ⟨s⟩).map Raw.ofBytes

/-- What a tool reads: each file with its name, and complaints about those that cannot be read. -/
structure Sources where
  named : List (Raw × Raw) := []
  complaints : Raw := []

/-- What a tool reads: the files it is given, or its input; a dash stands for the input. -/
def sources (tool : String) (t : FileTree) (input : Raw) (files : List Raw) : Sources :=
  if files.isEmpty then { named := [(['-'], input)] }
  else
    files.foldl (fun s f =>
      if f == ['-'] then { s with named := s.named ++ [(f, input)] }
      else
        match readFile t f with
        | .ok text => { s with named := s.named ++ [(f, text)] }
        | .error e =>
          let complaint := tool.toList ++ ": ".toList ++ f ++ ": ".toList ++ reason e ++ ['\n']
          { s with complaints := s.complaints ++ complaint }) {}

namespace Sources

/-- Everything read, one after the other. -/
def text (s : Sources) : Raw := s.named.flatMap (·.2)

/-- What a tool prints that failed if anything could not be read. -/
def printed (s : Sources) (out : Raw) : Printed :=
  { status := if s.complaints.isEmpty then 0 else 1, out, err := s.complaints }

end Sources

/-- The tool `cat`. -/
def cat (t : FileTree) (input : Raw) (args : List Raw) : Printed :=
  let s := sources "cat" t input (args.filter fun a => a == ['-'] || a.head? != some '-')
  s.printed s.text

/-- How much of a text `head` and `tail` keep. -/
inductive Amount
  | lines (n : Nat)
  | bytes (n : Nat)
  /-- All from a line on. -/
  | from (n : Nat)

/-- The amount that options ask for, and the arguments behind them. -/
def amount? : (budget : Nat) → List Raw → Amount → Option (Amount × List Raw)
  | 0, args, a => some (a, args)
  | n + 1, args, a =>
    match args with
    | ['-', 'n'] :: v :: rest => do amount? n rest (← lines? v)
    | ['-', 'c'] :: v :: rest => do amount? n rest (.bytes (← Raw.toNat? v))
    | ('-' :: 'n' :: v) :: rest => do amount? n rest (← lines? v)
    | ('-' :: 'c' :: v) :: rest => do amount? n rest (.bytes (← Raw.toNat? v))
    | ('-' :: v) :: rest => do
      if v.isEmpty then pure (a, args) else amount? n rest (.lines (← Raw.toNat? v))
    | args => pure (a, args)
where
  /-- A number of lines, counted from the end of the text or with a plus from its start. -/
  lines? : Raw → Option Amount
    | '+' :: v => (Raw.toNat? v).map .from
    | v => (Raw.toNat? v).map .lines

/-- Lines as they are written, each with its end. -/
def endedLines (s : Raw) : List Raw :=
  let ls := Text.splitAtChar '\n' s
  let ended := ls.dropLast.map (· ++ ['\n'])
  match ls.getLast? with
  | none | some [] => ended
  | some rest => ended ++ [rest]

/-- The tool `head`. -/
def head (t : FileTree) (input : Raw) (args : List Raw) : Printed :=
  match amount? args.length.succ args (.lines 10) with
  | none => { status := 1, err := "head: invalid number\n".toList }
  | some (a, files) =>
    let s := sources "head" t input files
    s.printed <|
      match a with
      | .lines n | .from n => ((endedLines s.text).take n).flatten
      | .bytes n => s.text.take n

/-- The tool `tail`. -/
def tail (t : FileTree) (input : Raw) (args : List Raw) : Printed :=
  match amount? args.length.succ args (.lines 10) with
  | none => { status := 1, err := "tail: invalid number\n".toList }
  | some (a, files) =>
    let s := sources "tail" t input files
    let ls := endedLines s.text
    s.printed <|
      match a with
      | .lines n => (ls.drop (ls.length - n)).flatten
      | .from n => (ls.drop (n - 1)).flatten
      | .bytes n => Text.lastChars n s.text

def countWords (s : Raw) : Nat :=
  let isGap (c : Char) : Bool := c == ' ' || ('\t' ≤ c && c ≤ '\x0d')
  (s.foldl (fun (n, inWord) c =>
    if isGap c then (n, false) else if inWord then (n, true) else (n + 1, true))
    ((0, false) : Nat × Bool)).1

/-- The tool `wc`. Its numbers are as wide as the size of the files asks for; how much comes through a
pipe is not known before. -/
def wc (t : FileTree) (input : Raw) (inputIsFile : Bool) (args : List Raw) : Printed :=
  let options := ((args.filter fun a => a.head? == some '-' && a.length > 1).map (·.drop 1)).flatten
  let files := args.filter fun a => a.head? != some '-' || a == ['-']
  let s := sources "wc" t input files
  let options := if options.isEmpty then ['l', 'w', 'c'] else options
  let counts (text : Raw) : List Nat :=
    (if options.contains 'l' then [text.count '\n'] else []) ++
      (if options.contains 'w' then [countWords text] else []) ++
      (if options.contains 'c' || options.contains 'm' then [text.length] else [])
  let width :=
    if options.eraseDups.length = 1 then 1
    else if files.isEmpty && !inputIsFile then 7
    else (Raw.ofNat s.text.length).length
  let padded (n : Nat) : Raw :=
    let ds := Raw.ofNat n
    List.replicate (width - ds.length) ' ' ++ ds
  let line (name : Raw) (ns : List Nat) : Raw :=
    spaced (ns.map padded) ++ (if name.isEmpty then [] else ' ' :: name) ++ ['\n']
  let rows := s.named.map fun (name, text) => line (if files.isEmpty then [] else name) (counts text)
  let total := if files.length > 1 then line "total".toList (counts s.text) else []
  s.printed (rows.flatten ++ total)

/-- The characters that a set of `tr` lists. -/
def trSet : (budget : Nat) → Raw → Raw
  | 0, _ => []
  | n + 1, s =>
    match s with
    | [] => []
    | '[' :: ':' :: r =>
      let name := r.takeWhile Char.isAlpha
      match r.dropWhile Char.isAlpha with
      | ':' :: ']' :: r =>
        (classRanges (String.ofList name)).flatMap (fun (a, b) => between a b) ++ trSet n r
      | _ => '[' :: trSet n (':' :: r)
    | '\\' :: r =>
      let (e, r) := escape r
      (if e.length = 2 then e.drop 1 else e) ++ trSet n r
    | a :: '-' :: b :: r => between a b ++ trSet n r
    | a :: r => a :: trSet n r
where
  /-- The characters from one to another. -/
  between (a b : Char) : Raw :=
    (List.range (b.toNat + 1 - a.toNat)).map fun k => Char.ofNat (a.toNat + k)

/-- Drops what repeats the character before it, if it is in a set. -/
def squeeze (set : Raw) : Option Char → Raw → Raw
  | _, [] => []
  | before, c :: s =>
    if before == some c && set.contains c then squeeze set before s else c :: squeeze set (some c) s

/-- The tool `tr`. -/
def tr (input : Raw) (args : List Raw) : Printed :=
  let options := (args.takeWhile fun a => a.head? == some '-' && a.length > 1).flatten
  let sets := (args.dropWhile fun a => a.head? == some '-' && a.length > 1).map fun a =>
    trSet a.length.succ a
  let complement := options.contains 'c' || options.contains 'C'
  let isIn (set : Raw) (c : Char) : Bool := set.contains c != complement
  match sets with
  | [set] =>
    let out := if options.contains 'd' then input.filter fun c => !isIn set c else input
    { out := if options.contains 's' then squeeze set none out else out }
  | [olds, news] =>
    let last := news.getLast?.getD ' '
    let change (c : Char) : Char :=
      if complement then (if olds.contains c then c else last)
      else if olds.contains c then (news[(olds.idxOf c)]?).getD last
      else c
    let out :=
      if options.contains 'd' then input.filter fun c => !isIn olds c else input.map change
    { out := if options.contains 's' then squeeze news none out else out }
  | _ => { status := 1, err := "tr: missing operand\n".toList }

/-- The letters of all options, and the other arguments. -/
def splitOptions (args : List Raw) : Raw × List Raw :=
  let isOption (a : Raw) : Bool := a.head? == some '-' && a.length > 1
  (((args.filter isOption).map (·.drop 1)).flatten, args.filter fun a => !isOption a)

/-- The order of texts by their bytes. -/
def rawLe : Raw → Raw → Bool
  | [], _ => true
  | _ :: _, [] => false
  | a :: s, b :: t => a < b || (a == b && rawLe s t)

def leadingNumber (s : Raw) : Int :=
  let s := s.dropWhile fun c => c == ' ' || c == '\t'
  let (negative, s) := match s with
    | '-' :: s => (true, s)
    | s => (false, s)
  let n := Int.ofNat ((Raw.toNat? (s.takeWhile Char.isDigit)).getD 0)
  if negative then -n else n

/-- Drops each line that is the same as the one before it. -/
def dropRepeats : List Raw → List Raw
  | a :: b :: ls => if a == b then dropRepeats (b :: ls) else a :: dropRepeats (b :: ls)
  | ls => ls

/-- The tool `sort`. -/
def sort (t : FileTree) (input : Raw) (args : List Raw) : Printed :=
  let (options, files) := splitOptions args
  let s := sources "sort" t input files
  let le (a b : Raw) : Bool :=
    if options.contains 'n' then
      leadingNumber a < leadingNumber b || (leadingNumber a == leadingNumber b && rawLe a b)
    else rawLe a b
  let ls := (s.named.flatMap fun (_, text) => Raw.lines text).mergeSort le
  let ls := if options.contains 'u' then dropRepeats ls else ls
  s.printed (Raw.unlines (if options.contains 'r' then ls.reverse else ls))

/-- Runs of lines that are the same, each with its length. -/
def lineRuns : List Raw → List (Nat × Raw)
  | [] => []
  | l :: ls =>
    match lineRuns ls with
    | (n, m) :: rs => if l == m then (n + 1, m) :: rs else (1, l) :: (n, m) :: rs
    | [] => [(1, l)]

/-- The tool `uniq`. -/
def uniq (t : FileTree) (input : Raw) (args : List Raw) : Printed :=
  let (options, files) := splitOptions args
  let s := sources "uniq" t input files
  let kept := (lineRuns (Raw.lines s.text)).filter fun (n, _) =>
    (!options.contains 'd' || n > 1) && (!options.contains 'u' || n == 1)
  let shown (n : Nat) (l : Raw) : Raw :=
    let ds := Raw.ofNat n
    if options.contains 'c' then List.replicate (7 - ds.length) ' ' ++ ds ++ ' ' :: l else l
  s.printed (Raw.unlines (kept.map fun (n, l) => shown n l))

/-- The places that a list of `cut` names: ranges with optional ends. -/
def cutRanges (s : Raw) : List (Nat × Option Nat) :=
  (Text.splitAtChar ',' s).map fun piece =>
    match Text.splitFirst? '-' piece with
    | none => let n := (Raw.toNat? piece).getD 0; (n, some n)
    | some (a, b) => ((Raw.toNat? a).getD 1, Raw.toNat? b)

/-- The tool `cut`. -/
def cut (t : FileTree) (input : Raw) (args : List Raw) : Printed :=
  let rec options : List Raw → (Char × Option Raw × Option Raw × List Raw) →
      (Char × Option Raw × Option Raw × List Raw)
    | [], r => r
    | ['-', 'd'] :: v :: as, (_, f, c, fs) => options as (v.headD '\t', f, c, fs)
    | ['-', 'f'] :: v :: as, (d, _, c, fs) => options as (d, some v, c, fs)
    | ['-', 'c'] :: v :: as, (d, f, _, fs) => options as (d, f, some v, fs)
    | ('-' :: 'd' :: v) :: as, (_, f, c, fs) => options as (v.headD '\t', f, c, fs)
    | ('-' :: 'f' :: v) :: as, (d, _, c, fs) => options as (d, some v, c, fs)
    | ('-' :: 'c' :: v) :: as, (d, f, _, fs) => options as (d, f, some v, fs)
    | a :: as, (d, f, c, fs) => options as (d, f, c, fs ++ [a])
  let (delimiter, fields, places, files) := options args ('\t', none, none, [])
  let s := sources "cut" t input files
  let ranges := cutRanges ((fields <|> places).getD [])
  let isKept (n : Nat) : Bool := ranges.any fun (a, b) => a ≤ n && b.all (n ≤ ·)
  let line (l : Raw) : Raw :=
    if fields.isSome then
      let ps := Text.splitAtChar delimiter l
      if ps.length = 1 then l
      else
        Text.joinWith [delimiter] ((ps.zipIdx.filter fun (_, i) => isKept (i + 1)).map (·.1))
    else (l.zipIdx.filter fun (_, i) => isKept (i + 1)).map (·.1)
  s.printed (Raw.unlines ((Raw.lines s.text).map line))

/-- What `grep` is asked for. -/
structure Grep where
  flags : Raw := []
  patterns : List Raw := []
  files : List Raw := []
  most : Option Nat := none

/-- Reads the arguments of `grep`; `plain` says that no more options follow. -/
def grepArgs : (plain : Bool) → Grep → List Raw → Grep
  | _, g, [] => g
  | plain, g, a :: as =>
    if plain || a.head? != some '-' || a.length = 1 then
      if g.patterns.isEmpty then grepArgs plain { g with patterns := [a] } as
      else grepArgs plain { g with files := g.files ++ [a] } as
    else if a == ['-', '-'] then grepArgs true g as
    else
      let flags := g.flags ++ a.drop 1
      match a.getLast?, as with
      | some 'e', p :: as => grepArgs plain { g with flags, patterns := g.patterns ++ [p] } as
      | some 'm', n :: as => grepArgs plain { g with flags, most := Raw.toNat? n } as
      | _, as => grepArgs plain { g with flags } as

namespace Grep

def has (g : Grep) (c : Char) : Bool := g.flags.contains c

/-- The expressions that are looked for; none if one cannot be read. -/
def regexes? (g : Grep) : Option (List Regex) :=
  let lines := g.patterns.flatMap fun p => Text.splitAtChar '\n' p
  lines.mapM fun p =>
    let bare := if g.has 'F' then some (Regex.literal p) else Regex.ofText? (g.has 'E') p
    bare.map fun r => if g.has 'x' then .chain .start (.chain (.group 0 r) .stop) else r

/-- Whether a match of whole words has no word character beside it. -/
def isWhole (before : Raw) (m : Match) : Bool :=
  let isWord (c : Char) : Bool := c.isAlphanum || c == '_'
  !before.getLast?.any isWord && !m.rest.head?.any isWord

def selects (g : Grep) (rs : List Regex) (line : Raw) : Bool :=
  let found := rs.any fun r =>
    if g.has 'w' then
      match r.first? (g.has 'i') true line with
      | some (before, m) => isWhole before m
      | none => false
    else r.occursIn (g.has 'i') line
  found != g.has 'v'

/-- All that a line has of what is looked for, from left to right. -/
def parts (g : Grep) (rs : List Regex) : (budget : Nat) → (atStart : Bool) → Raw → List Raw
  | 0, _, _ => []
  | n + 1, atStart, s =>
    let found := rs.filterMap fun r => r.first? (g.has 'i') atStart s
    let best := found.foldl (fun best f =>
      match best with
      | none => some f
      | some b => if f.1.length < b.1.length then some f else some b) (none : Option (Raw × Match))
    match best with
    | none => []
    | some (before, m) =>
      let part := (s.drop before.length).take (s.length - before.length - m.rest.length)
      if part.isEmpty then (if m.rest.isEmpty then [] else parts g rs n false (m.rest.drop 1))
      else part :: parts g rs n false m.rest

/-- What is printed about the selected lines of one file. -/
def shown (g : Grep) (rs : List Regex) (name : Raw) (selected : List (Raw × Nat)) : Raw :=
  let isNamed := (g.files.length > 1 || g.has 'H') && !g.has 'h'
  let label (i : Nat) : Raw :=
    (if isNamed then name ++ [':'] else []) ++ (if g.has 'n' then Raw.ofNat (i + 1) ++ [':'] else [])
  if g.has 'l' then (if selected.isEmpty then [] else name ++ ['\n'])
  else if g.has 'c' then (if isNamed then name ++ [':'] else []) ++ Raw.ofNat selected.length ++ ['\n']
  else
    selected.flatMap fun (line, i) =>
      if g.has 'o' then (g.parts rs line.length.succ true line).flatMap fun p => label i ++ p ++ ['\n']
      else label i ++ line ++ ['\n']

end Grep

/-- The tool `grep`. -/
def grep (t : FileTree) (input : Raw) (args : List Raw) (flags : Raw) : Printed :=
  let g := grepArgs false { flags } args
  if g.patterns.isEmpty then { status := 2, err := "Usage: grep [OPTION]... PATTERNS [FILE]...\n".toList }
  else
    match g.regexes? with
    | none => { status := 2, err := "grep: Invalid regular expression\n".toList }
    | some rs =>
      let s := sources "grep" t input g.files
      let selected (text : Raw) : List (Raw × Nat) :=
        let all := (Raw.lines text).zipIdx.filter fun (l, _) => g.selects rs l
        (g.most.map all.take).getD all
      let rows := s.named.map fun (name, text) => (name, selected text)
      let found := rows.any fun (_, ls) => !ls.isEmpty
      let out := if g.has 'q' then [] else rows.flatMap fun (name, ls) => g.shown rs name ls
      { status := if s.complaints.isEmpty || (found && g.has 'q') then (if found then 0 else 1) else 2
        out
        err := if g.has 's' then [] else s.complaints }

end Shell

end TestRepair
