import TestRepair.Text.Letters
import TestRepair.Text.Search

/-!
Reading a text from a place inside it. A `Cursor` keeps what stands before the place, so a recogniser
can ask for word boundaries; a `Recogniser` reads on from a cursor or refuses. `occurrences` lists
where a recogniser succeeds, from left to right and without overlap.
-/

namespace TestRepair.Text

/-- A place in a text. -/
structure Cursor where
  /-- What stands before, nearest character first. -/
  before : List Char
  /-- What follows. -/
  after : List Char

namespace Cursor

/-- The place before the first character. -/
def start (s : List Char) : Cursor := ⟨[], s⟩

def offset (c : Cursor) : Nat := c.before.length

/-- Whether exactly one of the two neighbours belongs to a word. -/
def atBoundary (c : Cursor) : Bool := c.before.head?.any isWord != c.after.head?.any isWord

/-- Moves on over `n` characters. -/
def advance : Nat → Cursor → Cursor
  | n + 1, ⟨before, x :: after⟩ => advance n ⟨x :: before, after⟩
  | _, c => c

/-- The text read between this place and a later one. -/
def textTo (c stop : Cursor) : List Char := c.after.take (stop.offset - c.offset)

end Cursor

/-- Reads on from a place in a text, or refuses. -/
abbrev Recogniser := StateT Cursor Option

namespace Recogniser

/-- Refuses unless `p` holds at the place. -/
def require (p : Cursor → Bool) : Recogniser Unit := fun c => if p c then some ((), c) else none

def boundary : Recogniser Unit := require Cursor.atBoundary

def literal (s : List Char) : Recogniser Unit := fun c =>
  (rest? s c.after).map fun rest => ((), ⟨s.reverse ++ c.before, rest⟩)

/-- The given text, or nothing where it does not follow. -/
def optional (s : List Char) : Recogniser Unit := literal s <|> pure ()

/-- One character that satisfies `p`. -/
def one (p : Char → Bool) : Recogniser Char
  | ⟨_, []⟩ => none
  | ⟨before, x :: after⟩ => if p x then some (x, ⟨x :: before, after⟩) else none

/-- The longest run of characters that satisfy `p`, possibly empty. -/
def run (p : Char → Bool) : Recogniser (List Char) := fun c =>
  let read := c.after.takeWhile p
  some (read, ⟨read.reverse ++ c.before, c.after.dropWhile p⟩)

/-- The longest run of characters that satisfy `p`, one at least. -/
def run1 (p : Char → Bool) : Recogniser (List Char) := do
  let read ← run p
  if read.isEmpty then failure else pure read

/-- The first of several readings that succeeds. -/
def firstOf {α : Type} : List (Recogniser α) → Recogniser α
  | [] => failure
  | r :: rs => r <|> firstOf rs

def withText {α : Type} (r : Recogniser α) : Recogniser (List Char) := fun c =>
  (r c).map fun (_, stop) => (c.textTo stop, stop)

/-- What `r` reads at the beginning of `s`. -/
def parse? {α : Type} (r : Recogniser α) (s : List Char) : Option α :=
  (r (Cursor.start s)).map (·.1)

/-- Whether `r` reads the whole of `s`. -/
def accepts {α : Type} (r : Recogniser α) (s : List Char) : Bool :=
  match r (Cursor.start s) with
  | some (_, stop) => stop.after.isEmpty
  | none => false

end Recogniser

/-- A place where a recogniser succeeded, with its value and where it stopped. -/
structure Occurrence (α : Type) where
  start : Cursor
  stop : Cursor
  value : α

namespace Occurrence

variable {α : Type}

def length (o : Occurrence α) : Nat := o.stop.offset - o.start.offset

def text (o : Occurrence α) : List Char := o.start.textTo o.stop

end Occurrence

namespace Recogniser

variable {α : Type}

/-- What `r` reads at `c`. Right behind an occurrence, an empty reading does not count. -/
def at? (r : Recogniser α) (behind : Bool) (c : Cursor) : Option (Occurrence α) :=
  match r c with
  | none => none
  | some (value, stop) =>
    if behind && stop.offset == c.offset then none else some ⟨c, stop, value⟩

/-- The occurrences in `⟨before, after⟩` once `skip` characters of the last one have been passed.
`behind` says that the place is where the last occurrence ended. -/
def occurrencesFrom (r : Recogniser α) (skip : Nat) (behind : Bool) (before : List Char) :
    (after : List Char) → List (Occurrence α)
  | [] => if skip = 0 then (r.at? behind ⟨before, []⟩).toList else []
  | x :: after =>
    match skip with
    | k + 1 => occurrencesFrom r k (k == 0) (x :: before) after
    | 0 =>
      match r.at? behind ⟨before, x :: after⟩ with
      | some o => o :: occurrencesFrom r (o.length - 1) (o.length == 1) (x :: before) after
      | none => occurrencesFrom r 0 false (x :: before) after

/-- Where `r` succeeds in `s`, from left to right and without overlap. -/
def occurrences (r : Recogniser α) (s : List Char) : List (Occurrence α) :=
  occurrencesFrom r 0 false [] s

/-- The leftmost place where `r` succeeds. -/
def first? (r : Recogniser α) (s : List Char) : Option (Occurrence α) := (r.occurrences s).head?

/-- Whether `r` succeeds anywhere in `s`. -/
def occursIn (r : Recogniser α) (s : List Char) : Bool := (r.first? s).isSome

/-- Rewrites every occurrence with `f` and keeps the text between. -/
def rewriteFrom (f : Occurrence α → List Char) : (pos : Nat) → List Char → List (Occurrence α) →
    List Char
  | _, s, [] => s
  | pos, s, o :: os =>
    let kept := o.start.offset - pos
    s.take kept ++ f o ++ rewriteFrom f o.stop.offset (s.drop (kept + o.length)) os

/-- Rewrites every occurrence of `r` in `s` with `f`. -/
def rewrite (r : Recogniser α) (f : Occurrence α → List Char) (s : List Char) : List Char :=
  rewriteFrom f 0 s (r.occurrences s)

end Recogniser

end TestRepair.Text
