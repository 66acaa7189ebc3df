import TestRepair.FileTree.Write
import TestRepair.Shell.Filter

/-!
The line editor `sed`: for each line it carries out the commands whose addresses the line has, and
prints what is left of it.
-/

namespace TestRepair

namespace Shell

/-- Where a command applies. -/
inductive Address
  | line (n : Nat)
  | last
  | matching (r : Regex)

/-- What a command does. -/
inductive EditAction
  | substitute (r : Regex) (new flags : Raw)
  | translate (old new : Raw)
  | print
  | delete
  | quit
  | number
  | append (text : Raw)
  | insert (text : Raw)
  | change (text : Raw)

/-- One command. -/
structure EditCommand where
  first : Option Address := none
  second : Option Address := none
  negated : Bool := false
  action : EditAction

/-- A part up to a delimiter, which may be escaped, and what follows it. -/
def delimited? (d : Char) : (budget : Nat) → Raw → Option (Raw × Raw)
  | 0, _ => none
  | _, [] => none
  | n + 1, '\\' :: c :: s =>
    (delimited? d n s).map fun (a, r) => (if c == d && d != '\\' then c :: a else '\\' :: c :: a, r)
  | n + 1, '[' :: s =>
    if d == '[' then some ([], s)
    else
      match openBracket? s with
      | some (_, _, rest) =>
        if (s.take (s.length - rest.length)).contains d then
          let body := s.take (s.length - rest.length)
          (delimited? d n rest).map fun (a, r) => ('[' :: body ++ a, r)
        else (delimited? d n s).map fun (a, r) => ('[' :: a, r)
      | none => (delimited? d n s).map fun (a, r) => ('[' :: a, r)
  | n + 1, c :: s =>
    if c == d then some ([], s) else (delimited? d n s).map fun (a, r) => (c :: a, r)

/-- A replacement up to a delimiter, and what follows it. -/
def replacement? (d : Char) : Raw → Option (Raw × Raw)
  | [] => none
  | '\\' :: c :: s =>
    (replacement? d s).map fun (a, r) => (if c == d then c :: a else '\\' :: c :: a, r)
  | c :: s => if c == d then some ([], s) else (replacement? d s).map fun (a, r) => (c :: a, r)

def address? (extended : Bool) (s : Raw) : Option (Option Address × Raw) :=
  match s with
  | '$' :: s => some (some .last, s)
  | '/' :: s => do
    let (text, s) ← delimited? '/' s.length.succ s
    let r ← Regex.ofText? extended text
    pure (some (.matching r), s)
  | s =>
    match Raw.toNat? (s.takeWhile Char.isDigit) with
    | some n => some (some (.line n), s.dropWhile Char.isDigit)
    | none => some (none, s)

/-- The action that a letter begins, and what follows it. -/
def action? (extended : Bool) (s : Raw) : Option (EditAction × Raw) :=
  match s with
  | 's' :: d :: s => do
    let (old, s) ← delimited? d s.length.succ s
    let (new, s) ← replacement? d s
    let flags := s.takeWhile fun c => c.isAlphanum
    let r ← Regex.ofText? extended old
    pure (.substitute r new flags, s.drop flags.length)
  | 'y' :: d :: s => do
    let (old, s) ← replacement? d s
    let (new, s) ← replacement? d s
    pure (.translate old new, s)
  | 'p' :: s => some (.print, s)
  | 'd' :: s => some (.delete, s)
  | 'q' :: s => some (.quit, s)
  | '=' :: s => some (.number, s)
  | 'a' :: s => let (t, s) := line s; some (.append t, s)
  | 'i' :: s => let (t, s) := line s; some (.insert t, s)
  | 'c' :: s => let (t, s) := line s; some (.change t, s)
  | _ => none
where
  /-- The text behind a command, up to the end of its line. -/
  line (s : Raw) : Raw × Raw :=
    let s := match s with
      | '\\' :: '\n' :: s => s
      | s => s.dropWhile isGap
    (s.takeWhile (· != '\n'), s.dropWhile (· != '\n'))
  /-- A blank before the text. -/
  isGap (c : Char) : Bool := c == ' ' || c == '\t'

def edits? (extended : Bool) : (budget : Nat) → Raw → Option (List EditCommand)
  | 0, _ => none
  | n + 1, s => do
    let s := s.dropWhile fun c => c == ' ' || c == '\t' || c == '\n' || c == ';'
    if s.isEmpty then pure []
    else
      let (first, s) ← address? extended s
      let (second, s) ←
        match s with
        | ',' :: s => address? extended s
        | s => some (none, s)
      let s := s.dropWhile (· == ' ')
      let (negated, s) := match s with
        | '!' :: s => (true, s)
        | s => (false, s)
      let (action, s) ← action? extended s
      let rest ← edits? extended n s
      pure ({ first, second, negated, action } :: rest)

/-- A replacement with the groups of a match put in. -/
def filled (whole : Raw) (m : Match) : Raw → Raw
  | '\\' :: 'n' :: s => '\n' :: filled whole m s
  | '\\' :: c :: s =>
    let group (k : Nat) : Raw := ((m.groups.find? (·.1 == k)).map (·.2)).getD []
    (if c == '0' then whole else if c.isDigit then group (c.toNat - '0'.toNat) else [c]) ++
      filled whole m s
  | '&' :: s => whole ++ filled whole m s
  | c :: s => c :: filled whole m s
  | [] => []

/-- A line with matches replaced, and whether there was one; `skip` matches are left as they are. -/
def substituted (fold every : Bool) (r : Regex) (new : Raw) : (budget skip : Nat) →
    (atStart : Bool) → Raw → Raw × Bool
  | 0, _, _, s => (s, false)
  | n + 1, skip, atStart, s =>
    match r.first? fold atStart s with
    | none => (s, false)
    | some (before, m) =>
      let whole := (s.drop before.length).take (s.length - before.length - m.rest.length)
      let kept := if skip = 0 then filled whole m new else whole
      if skip = 0 && !every then (before ++ kept ++ m.rest, true)
      else
        match whole, m.rest with
        | [], [] => (before ++ kept, skip = 0)
        | [], c :: rest =>
          let (t, more) := substituted fold every r new n (skip - 1) false rest
          (before ++ kept ++ c :: t, skip = 0 || more)
        | _, rest =>
          if rest.isEmpty then (before ++ kept, skip = 0)
          else
            let (t, more) := substituted fold every r new n (skip - 1) false rest
            (before ++ kept ++ t, skip = 0 || more)

/-- How the editing of one line goes on. -/
structure Editing where
  line : Raw
  out : Raw := []
  after : Raw := []
  deleted : Bool := false
  stopped : Bool := false
  /-- For each command whether its range is open. -/
  ranges : List Bool

namespace Address

def holds (number : Nat) (isLast : Bool) (line : Raw) : Address → Bool
  | .line n => n == number
  | .last => isLast
  | matching r => r.occursIn false line

end Address

/-- Whether a command applies to a line, and whether its range is open behind it. -/
def EditCommand.applies (c : EditCommand) (number : Nat) (isLast isOpen : Bool) (line : Raw) :
    Bool × Bool :=
  let holds (a : Address) : Bool := a.holds number isLast line
  match c.first, c.second with
  | none, _ => (!c.negated, false)
  | some a, none => (holds a != c.negated, false)
  | some a, some b =>
    if isOpen then
      let ends := match b with
        | .line n => n ≤ number
        | b => holds b
      (!c.negated, !ends)
    else if holds a then
      let ended := match b with
        | .line n => n ≤ number
        | _ => false
      (!c.negated, !ended)
    else (c.negated, false)

def EditAction.perform (lineNumber : Nat) (e : Editing) : EditAction → Editing
  | substitute r new flags =>
    let nth := (Raw.toNat? (flags.filter Char.isDigit)).getD 1
    let fold := flags.contains 'i' || flags.contains 'I'
    let (line, done) :=
      substituted fold (flags.contains 'g') r new (e.line.length + 2) (nth - 1) true e.line
    let out := if done && flags.contains 'p' then e.out ++ line ++ ['\n'] else e.out
    { e with line, out }
  | translate old new =>
    { e with line := e.line.map fun c => (if old.contains c then new[old.idxOf c]? else none).getD c }
  | print => { e with out := e.out ++ e.line ++ ['\n'] }
  | delete => { e with deleted := true }
  | quit => { e with stopped := true }
  | number => { e with out := e.out ++ Raw.ofNat lineNumber ++ ['\n'] }
  | append text => { e with after := e.after ++ text ++ ['\n'] }
  | insert text => { e with out := e.out ++ text ++ ['\n'] }
  | change text => { e with out := e.out ++ text ++ ['\n'], deleted := true }

def editLine (number : Nat) (isLast : Bool) : List (EditCommand × Bool) → Editing → Editing
  | [], e => e
  | (c, isOpen) :: cs, e =>
    if e.deleted || e.stopped then
      editLine number isLast cs { e with ranges := e.ranges ++ [isOpen] }
    else
      let (applies, isOpen) := c.applies number isLast isOpen e.line
      let e := { e with ranges := e.ranges ++ [isOpen] }
      editLine number isLast cs (if applies then c.action.perform number e else e)

/-- Edits the lines of a text; `ended` says whether the last one has an end. -/
def editLines (silent ended : Bool) (cs : List EditCommand) : (number : Nat) → List Bool →
    List Raw → Raw
  | _, _, [] => []
  | number, ranges, l :: ls =>
    let e := editLine number ls.isEmpty (cs.zip ranges) { line := l, ranges := [] }
    let tail : Raw := if ls.isEmpty && !ended && e.after.isEmpty then [] else ['\n']
    let shown := if silent || e.deleted then [] else e.line ++ tail
    e.out ++ shown ++ e.after ++
      if e.stopped then [] else editLines silent ended cs (number + 1) e.ranges ls

/-- What `sed` is asked for. -/
structure Sed where
  silent : Bool := false
  extended : Bool := false
  inPlace : Bool := false
  scripts : List Raw := []
  files : List Raw := []

/-- Reads the arguments of `sed`. -/
def sedArgs : Sed → List Raw → Sed
  | s, [] => s
  | s, ['-', 'e'] :: script :: as => sedArgs { s with scripts := s.scripts ++ [script] } as
  | s, a :: as =>
    if a.head? == some '-' && a.length > 1 then
      let s := {
        s with
        silent := s.silent || a.contains 'n'
        extended := s.extended || a.contains 'E' || a.contains 'r'
        inPlace := s.inPlace || a.contains 'i' }
      match a.getLast?, as with
      | some 'e', script :: as => sedArgs { s with scripts := s.scripts ++ [script] } as
      | _, as => sedArgs s as
    else if s.scripts.isEmpty then sedArgs { s with scripts := [a] } as
    else sedArgs { s with files := s.files ++ [a] } as

def edited (s : Sed) (cs : List EditCommand) (text : Raw) : Raw :=
  editLines s.silent (text.getLast? == some '\n') cs 1 (cs.map fun _ => false) (Raw.lines text)

/-- The tool `sed`, with the files that it leaves. -/
def sed (t : FileTree) (input : Raw) (args : List Raw) : Printed × FileTree :=
  let s := sedArgs {} args
  let script := Text.joinWith ['\n'] s.scripts
  match edits? s.extended (script.length + 1) script with
  | none => ({ status := 1, err := "sed: -e expression #1: unknown command\n".toList }, t)
  | some cs =>
    let read := sources "sed" t input s.files
    let status := if read.complaints.isEmpty then 0 else 2
    if s.inPlace then
      let write (t : FileTree) (f : Raw × Raw) : FileTree :=
        match Raw.toString? f.1 with
        | some name => ((t.write ⟨name⟩ (Raw.bytes (edited s cs f.2))).toOption).getD t
        | none => t
      ({ status, err := read.complaints }, read.named.foldl write t)
    else ({ status, out := edited s cs read.text, err := read.complaints }, t)

end Shell

end TestRepair
