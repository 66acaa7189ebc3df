import TestRepair.Shell.Wildcard

/-!
Regular expressions, basic and extended ones, as tools that work line by line have them. Of all ways
to match from one place the longest counts.
-/

namespace TestRepair

namespace Shell

/-- A regular expression. -/
inductive Regex
  | empty
  | oneOf (negated : Bool) (ranges : List (Char × Char))
  | start
  | stop
  /-- A group with its number. -/
  | group (number : Nat) (body : Regex)
  /-- What a group matched, once more. -/
  | same (number : Nat)
  | chain (first second : Regex)
  | choice (first second : Regex)
  /-- Repetitions, at least `min` and at most `max` of them. -/
  | repeated (min : Nat) (max : Option Nat) (body : Regex)

/-- How far a match has come. -/
structure Match where
  /-- Whether nothing of the line stands before this place. -/
  atStart : Bool
  rest : Raw
  groups : List (Nat × Raw) := []

namespace Regex

def char (c : Char) : Regex := oneOf false [(c, c)]

def any : Regex := oneOf true []

/-- Whether two characters are the same, perhaps but for their case. -/
def inRanges (fold : Bool) (ranges : List (Char × Char)) (c : Char) : Bool :=
  let within (c : Char) : Bool := ranges.any fun r => r.1 ≤ c && c ≤ r.2
  within c || (fold && (within c.toLower || within c.toUpper))

/-- All ways to repeat a step, longer ways first; one that goes nowhere is not repeated. -/
def repeats (step : Match → List Match) : (budget min : Nat) → (max : Option Nat) → Match →
    List Match
  | 0, min, _, m => if min = 0 then [m] else []
  | n + 1, min, max, m =>
    let more :=
      if max = some 0 then []
      else
        ((step m).filter fun m' => m'.rest.length < m.rest.length || 0 < min).flatMap fun m' =>
          repeats step n (min - 1) (max.map (· - 1)) m'
    more ++ if min = 0 then [m] else []

def ends (fold : Bool) : Regex → Match → List Match
  | empty, m => [m]
  | oneOf negated ranges, m =>
    match m.rest with
    | c :: rest =>
      if inRanges fold ranges c != negated then [{ m with atStart := false, rest }] else []
    | [] => []
  | start, m => if m.atStart then [m] else []
  | stop, m => if m.rest.isEmpty then [m] else []
  | group number body, m =>
    (ends fold body m).map fun m' =>
      let text := m.rest.take (m.rest.length - m'.rest.length)
      { m' with groups := (number, text) :: m'.groups.filter (·.1 != number) }
  | same number, m =>
    let text := ((m.groups.find? (·.1 == number)).map (·.2)).getD []
    match Text.rest? text m.rest with
    | some rest => [{ m with rest, atStart := m.atStart && text.isEmpty }]
    | none => []
  | chain first second, m => (ends fold first m).flatMap (ends fold second)
  | choice first second, m => ends fold first m ++ ends fold second m
  | repeated min max body, m =>
    repeats (ends fold body) (m.rest.length + min + 1) min max m

def longest? (fold : Bool) (r : Regex) (m : Match) : Option Match :=
  (ends fold r m).foldl (fun best m' =>
    match best with
    | none => some m'
    | some b => if m'.rest.length < b.rest.length then some m' else some b) none

/-- The first match in the rest of a line: what stands before it, and the match. -/
def first? (fold : Bool) (r : Regex) : (atStart : Bool) → Raw → Option (Raw × Match)
  | atStart, [] => (longest? fold r ⟨atStart, [], []⟩).map fun m => ([], m)
  | atStart, c :: s =>
    match longest? fold r ⟨atStart, c :: s, []⟩ with
    | some m => some ([], m)
    | none => (first? fold r false s).map fun (before, m) => (c :: before, m)

def occursIn (fold : Bool) (r : Regex) (line : Raw) : Bool := (first? fold r true line).isSome

/-- A repetition that is written between braces: its bounds, and what follows it. -/
def bounds? (extended : Bool) (s : Raw) : Option (Nat × Option Nat × Raw) :=
  let close? (r : Raw) : Option Raw :=
    match extended, r with
    | true, '\x7d' :: r => some r
    | false, '\\' :: '\x7d' :: r => some r
    | _, _ => none
  let low := s.takeWhile Char.isDigit
  let min := (Raw.toNat? low).getD 0
  match s.dropWhile Char.isDigit with
  | ',' :: r =>
    let high := r.takeWhile Char.isDigit
    (close? (r.dropWhile Char.isDigit)).map fun r => (min, Raw.toNat? high, r)
  | r => if low.isEmpty then none else (close? r).map fun r => (min, some min, r)

/-- The sign of a repetition: its bounds, and what follows it. -/
def repetition? (extended : Bool) (s : Raw) : Option (Nat × Option Nat × Raw) :=
  match extended, s with
  | _, '*' :: r => some (0, none, r)
  | true, '+' :: r => some (1, none, r)
  | true, '?' :: r => some (0, some 1, r)
  | false, '\\' :: '+' :: r => some (1, none, r)
  | false, '\\' :: '?' :: r => some (0, some 1, r)
  | true, '\x7b' :: r => bounds? true r
  | false, '\\' :: '\x7b' :: r => bounds? false r
  | _, _ => none

/-- Puts signs of repetition behind an expression. -/
def withRepetitions (extended : Bool) : (budget : Nat) → Regex → Raw → Regex × Raw
  | 0, r, s => (r, s)
  | n + 1, r, s =>
    match repetition? extended s with
    | some (min, max, s) => withRepetitions extended n (repeated min max r) s
    | none => (r, s)

/-- What follows the sign of an alternative. -/
def bar? (extended : Bool) (s : Raw) : Option Raw :=
  match extended, s with
  | true, '|' :: s => some s
  | false, '\\' :: '|' :: s => some s
  | _, _ => none

/-- What follows the sign that opens a group. -/
def open? (extended : Bool) (s : Raw) : Option Raw :=
  match extended, s with
  | true, '(' :: s => some s
  | false, '\\' :: '(' :: s => some s
  | _, _ => none

/-- What follows the sign that closes a group. -/
def close? (extended : Bool) (s : Raw) : Option Raw :=
  match extended, s with
  | true, ')' :: s => some s
  | false, '\\' :: ')' :: s => some s
  | _, _ => none

/-- The ranges of a letter behind a backslash that stands for a class. -/
def escapeClass? : Char → Option (Bool × List (Char × Char))
  | 'w' => some (false, ('_', '_') :: classRanges "alnum")
  | 'W' => some (true, ('_', '_') :: classRanges "alnum")
  | 's' => some (false, classRanges "space")
  | 'S' => some (true, classRanges "space")
  | _ => none

mutual

/-- Alternatives up to the end of a group or of the text; `number` counts the groups so far. -/
def alternatives? (extended : Bool) : (budget number : Nat) → Raw → Option (Regex × Nat × Raw)
  | 0, _, _ => none
  | n + 1, number, s => do
    let (r, number, s) ← run? extended n true number s
    match bar? extended s with
    | some s =>
      let (q, number, s) ← alternatives? extended n number s
      pure (.choice r q, number, s)
    | none => pure (r, number, s)

/-- Expressions one behind the other; `first` says that nothing stands before them. -/
def run? (extended : Bool) : (budget : Nat) → (first : Bool) → (number : Nat) → Raw →
    Option (Regex × Nat × Raw)
  | 0, _, _, _ => none
  | n + 1, first, number, s =>
    if s.isEmpty || (bar? extended s).isSome || (number != 0 && (close? extended s).isSome) then
      some (.empty, number, s)
    else do
      let (r, number, s) ← atom? extended n first number s
      let (r, s) := withRepetitions extended s.length r s
      let isStart := match r with
        | .start => true
        | _ => false
      let (q, number, s) ← run? extended n (isStart && !extended) number s
      pure (.chain r q, number, s)

/-- One expression; in a basic one `^`, `$` and `*` have a meaning only where it makes sense. -/
def atom? (extended : Bool) : (budget : Nat) → (first : Bool) → (number : Nat) → Raw →
    Option (Regex × Nat × Raw)
  | 0, _, _, _ => none
  | n + 1, first, number, s =>
    match open? extended s with
    | some s => do
      let mine := number + 1
      let (r, number, s) ← alternatives? extended n mine s
      let s ← close? extended s
      pure (.group mine r, number, s)
    | none =>
      match s with
      | [] => none
      | '.' :: s => some (any, number, s)
      | '[' :: s =>
        match s with
        | '!' :: r => (bracketRanges? (r.length + 2) true s).map fun (rs, r) => (oneOf false rs, number, r)
        | s => (openBracket? s).map fun (negated, rs, r) => (oneOf negated rs, number, r)
      | '^' :: s => some (if extended || first then .start else char '^', number, s)
      | '$' :: s =>
        let last := s.isEmpty || (bar? extended s).isSome || (close? extended s).isSome
        some (if extended || last then .stop else char '$', number, s)
      | '*' :: s => if first || extended then some (char '*', number, s) else none
      | '\\' :: c :: s =>
        match escapeClass? c with
        | some (negated, rs) => some (oneOf negated rs, number, s)
        | none =>
          if c.isDigit && c != '0' then some (.same (c.toNat - '0'.toNat), number, s)
          else some (char (if c == 'n' then '\n' else if c == 't' then '\t' else c), number, s)
      | ['\\'] => none
      | c :: s => some (char c, number, s)

end

def ofText? (extended : Bool) (s : Raw) : Option Regex := do
  let (r, _, rest) ← alternatives? extended (4 * s.length + 4) 0 s
  if rest.isEmpty then pure r else none

def literal (s : Raw) : Regex := s.foldr (fun c r => .chain (char c) r) .empty

end Regex

end Shell

end TestRepair
