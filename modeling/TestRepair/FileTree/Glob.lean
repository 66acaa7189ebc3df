import TestRepair.FileTree.Basic

/-!
Finding files by their ending. The ending may hold wildcards, so it is read as a pattern: `?` and `*`
stand for one and for any characters, brackets for one of several, and `**` for any directories. The
search goes to any depth, takes hidden names, and follows links to directories.
-/

namespace TestRepair

/-- Why a pattern cannot be read, with the place in its text. -/
inductive GlobError
  | wildcards (position : Nat)
  | recursion (position : Nat)
  | range (position : Nat)
  deriving DecidableEq, Repr

namespace GlobError

def message : GlobError → String
  | wildcards n => located n "wildcards are either regular `*` or recursive `**`"
  | recursion n => located n "recursive wildcards must form a single path component"
  | range n => located n "invalid range pattern"
where
  /-- A complaint with the place it is about. -/
  located (n : Nat) (what : String) : String :=
    "Pattern syntax error near position " ++ toString n ++ ": " ++ what

end GlobError

/-- One place of the pattern of a name. -/
inductive GlobToken
  | char (c : Char)
  | anyChar
  | anyRun
  /-- A character in one of the ranges, or in none of them. -/
  | oneOf (negated : Bool) (ranges : List (Char × Char))
  deriving DecidableEq, Repr

/-- The pattern of one component of a path. -/
inductive GlobComponent
  /-- Any directories, one below the other. -/
  | anyDirs
  | name (tokens : List GlobToken)
  deriving DecidableEq, Repr

namespace Glob

/-- The body of a bracket and what follows it. The first character of the body may be anything. -/
def bracket? (s : List Char) : Option (Bool × List Char × List Char) :=
  match s with
  | '!' :: c :: s =>
    (Text.splitFirst? ']' s).map fun (body, rest) => (true, c :: body, rest)
  | '!' :: [] => none
  | c :: s => (Text.splitFirst? ']' s).map fun (body, rest) => (false, c :: body, rest)
  | [] => none

/-- The ranges that the body of a bracket lists. -/
def ranges : List Char → List (Char × Char)
  | [] => []
  | [a] => [(a, a)]
  | [a, b] => [(a, a), (b, b)]
  | a :: b :: c :: s => if b = '-' then (a, c) :: ranges s else (a, a) :: ranges (b :: c :: s)

/-- Checks the wildcards of a whole pattern; `before` is the character that stands before it. -/
def check (budget position : Nat) (before : Option Char) (s : List Char) : Except GlobError Unit :=
  match budget with
  | 0 => .ok ()
  | budget + 1 =>
    match s with
    | [] => .ok ()
    | '*' :: _ =>
      let count := (s.takeWhile (· == '*')).length
      let rest := s.dropWhile (· == '*')
      if 2 < count then .error (.wildcards (position + 2))
      else if count = 2 then
        if before == none || before == some '/' then
          match rest with
          | [] => .ok ()
          | '/' :: rest => check budget (position + 3) (some '/') rest
          | _ => .error (.recursion (position + 2))
        else .error (.recursion (position - 1))
      else check budget (position + 1) (some '*') rest
    | '[' :: s =>
      match bracket? s with
      | some (_, _, rest) => check budget (position + 1 + s.length - rest.length) (some ']') rest
      | none => .error (.range position)
    | c :: s => check budget (position + 1) (some c) s

def tokens? (budget position : Nat) (s : List Char) : Except GlobError (List GlobToken) :=
  match budget with
  | 0 => .ok []
  | budget + 1 =>
    match s with
    | [] => .ok []
    | '?' :: s => return .anyChar :: (← tokens? budget (position + 1) s)
    | '*' :: s => return .anyRun :: (← tokens? budget (position + 1) s)
    | '[' :: s =>
      match bracket? s with
      | some (negated, body, rest) => do
        let ts ← tokens? budget (position + 1 + s.length - rest.length) rest
        return .oneOf negated (ranges body) :: ts
      | none => .error (.range position)
    | c :: s => return .char c :: (← tokens? budget (position + 1) s)

def component? (s : List Char) : Except GlobError GlobComponent :=
  if s == ['*', '*'] then .ok .anyDirs else (tokens? s.length 0 s).map .name

/-- A name as a pattern that stands for nothing else. -/
def escape (s : List Char) : List Char :=
  s.flatMap fun c => if "?*[]".toList.contains c then ['[', c, ']'] else [c]

def tokenMatches (c : Char) : GlobToken → Bool
  | .char d => c == d
  | .anyChar => true
  | .anyRun => false
  | .oneOf negated ranges => ranges.any (fun r => r.1 ≤ c && c ≤ r.2) != negated

def tails : List Char → List (List Char)
  | [] => [[]]
  | c :: s => (c :: s) :: tails s

def nameMatches : List GlobToken → List Char → Bool
  | [], s => s.isEmpty
  | .anyRun :: ts, s => (tails s).any (nameMatches ts)
  | _ :: _, [] => false
  | t :: ts, c :: s => tokenMatches c t && nameMatches ts s

def literal? (ts : List GlobToken) : Option String :=
  (ts.mapM fun t =>
    match t with
    | GlobToken.char c => some c
    | _ => none).map String.ofList

/-- Everything below the directory `dir`, as paths that continue it. -/
def below (t : FileTree) : (budget : Nat) → (dir : Path) → List Path
  | 0, _ => []
  | budget + 1, dir =>
    let place := t.canonical (if dir.text.isEmpty then ⟨"."⟩ else dir)
    (place.toOption.map t.children).getD [] |>.flatMap fun (name, _) =>
      let p := dir.child name
      p :: (if t.isDir p then below t budget p else [])

/-- A budget for `below` that only a loop of links exhausts. -/
def budget (t : FileTree) : Nat := t.nodes.entries.length + 1

def lastName (p : Path) : List Char := p.pieces.getLast?.getD []

mutual

/-- The paths that the components after `p` lead to, where `p` has to match the first of them. -/
def matching (t : FileTree) (p : Path) : List GlobComponent → List Path
  | [] => []
  | .anyDirs :: _ => []
  | .name ts :: rest =>
    if nameMatches ts (lastName p) then (if rest.isEmpty then [p] else descend t p rest) else []

/-- The paths that components lead to from the directory `dir`. -/
def descend (t : FileTree) (dir : Path) : List GlobComponent → List Path
  | [] => []
  | .anyDirs :: rest =>
    let found := below t (budget t) dir
    if rest.isEmpty then found.filter t.isDir else found.flatMap fun p => matching t p rest
  | .name ts :: rest =>
    match literal? ts with
    | some name =>
      let p := dir.child name
      if t.exists p then (if rest.isEmpty then [p] else descend t p rest) else []
    | none =>
      (t.canonical dir).toOption.map t.children |>.getD [] |>.flatMap fun (name, _) =>
        if nameMatches ts name.toList then
          (if rest.isEmpty then [dir.child name] else descend t (dir.child name) rest)
        else []

end

/-- Drops the repetitions of `**` that follow one another. -/
def collapse : List GlobComponent → List GlobComponent
  | .anyDirs :: .anyDirs :: cs => collapse (.anyDirs :: cs)
  | c :: cs => c :: collapse cs
  | [] => []

/-- The directory as its results spell it: single slashes, no `.` at a relative beginning. -/
def spelledBase (dir : Path) : Path :=
  let ps := dir.pieces.filter (!·.isEmpty)
  if dir.isAbsolute then ⟨"/" ++ String.ofList (Text.joinWith ['/'] ps)⟩
  else ⟨String.ofList (Text.joinWith ['/'] (ps.dropWhile (· == ['.'])))⟩

/-- What the pattern `**/*.ending` finds below a directory. -/
def withEnding (t : FileTree) (dir : Path) (ending : String) : Except GlobError (List Path) := do
  let last := '*' :: '.' :: ending.toList
  let whole := escape dir.text.toList ++ "/**/".toList ++ last
  check whole.length 0 none whole
  let pieces := Text.splitAtChar '/' last
  let closed := pieces.length > 1 && pieces.getLast? == some []
  let components ← (if closed then pieces.dropLast else pieces).mapM component?
  let found := descend t (spelledBase dir) (collapse (.anyDirs :: components))
  pure (if closed then found.filter t.isDir else found)

end Glob

end TestRepair
