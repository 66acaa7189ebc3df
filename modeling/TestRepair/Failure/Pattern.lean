import TestRepair.Text.Cursor

/-!
The small language of patterns that a table of signatures can be written in: alternatives of plain
texts, separated by bars. A backslash makes the next character plain, or a line break or tab of `n`,
`r` and `t`; a point stands for any character of the line.
-/

namespace TestRepair

/-- One place of an alternative. -/
inductive PatternAtom
  | char (c : Char)
  | anyOfLine
  deriving DecidableEq, Repr

/-- Alternatives, each a sequence of atoms; the first that fits counts. -/
structure Pattern where
  alternatives : List (List PatternAtom)
  deriving DecidableEq, Repr

namespace Pattern

open Text Recogniser

/-- The character that an escape stands for; letters and digits have no other escapes. -/
def escaped? : Char → Option Char
  | 'n' => some '\n'
  | 'r' => some '\r'
  | 't' => some '\t'
  | c => if c.isAlphanum then none else some c

/-- A character that opens or repeats a group, or closes one that is not open. -/
def isOperator (c : Char) : Bool := "()[\x7b*+?".toList.contains c

/-- Reads the alternatives of a pattern; `none` for one that is not closed or not in the language. -/
def alternatives? : List Char → Option (List (List PatternAtom))
  | [] => some [[]]
  | '\\' :: c :: s => do
    let atom ← escaped? c
    let rest ← alternatives? s
    pure (prepend (.char atom) rest)
  | c :: s => do
    let rest ← alternatives? s
    if c == '|' then pure ([] :: rest)
    else if c == '.' then pure (prepend .anyOfLine rest)
    else if isOperator c || c == '\\' then none
    else pure (prepend (.char c) rest)
where
  /-- Puts an atom in front of the first alternative. -/
  prepend (a : PatternAtom) : List (List PatternAtom) → List (List PatternAtom)
    | [] => [[a]]
    | p :: ps => (a :: p) :: ps

/-- The pattern that a text spells, if it is well formed. -/
def ofText? (text : String) : Option Pattern := (alternatives? text.toList).map (⟨·⟩)

def recogniseAtom : PatternAtom → Recogniser Unit
  | .char c => literal [c]
  | .anyOfLine => do
    let _ ← one (· != '\n')

/-- Recognises the first alternative that fits. -/
def recognise (p : Pattern) : Recogniser Unit :=
  firstOf (p.alternatives.map fun atoms => atoms.forM recogniseAtom)

end Pattern

end TestRepair
