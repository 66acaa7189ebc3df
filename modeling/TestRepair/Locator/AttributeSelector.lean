import TestRepair.Text.Case
import TestRepair.Text.Search

/-!
Selectors of the shape `tag[predicate][predicate]…`. Reading one takes its predicates apart; writing
the base and the predicates gives a selector of the same meaning.
-/

namespace TestRepair

/-- A tag, possibly empty or extended, with predicates in brackets. -/
structure AttributeSelector where
  base : String
  /-- What stands between the brackets, without outer blanks. -/
  predicates : List String
  deriving DecidableEq, Repr

namespace AttributeSelector

open Text

/-- What stands up to the bracket that closes a predicate, and what follows it. Brackets between
quotes and characters behind a backslash do not count. -/
def predicate? (quote : Option Char) : List Char → Option (List Char × List Char)
  | [] => none
  | [c] => if quote = none ∧ c = ']' then some ([], []) else none
  | c :: d :: s =>
    if c = '\\' then
      (predicate? quote s).map fun (body, rest) => (c :: d :: body, rest)
    else
      match quote with
      | some q =>
        (predicate? (if c = q then none else quote) (d :: s)).map fun (body, rest) =>
          (c :: body, rest)
      | none =>
        if c = ']' then some ([], d :: s)
        else
          (predicate? (if c = '\x27' ∨ c = '"' then some c else none) (d :: s)).map
            fun (body, rest) => (c :: body, rest)

theorem predicate?_length {quote : Option Char} {s body rest : List Char}
    (h : predicate? quote s = some (body, rest)) : rest.length < s.length := by
  fun_induction predicate? quote s generalizing body rest with
  | case1 => simp at h
  | case2 _ c hc => simp at h; simp [← h.2]
  | case3 => simp at h
  | case4 quote d s ih =>
    obtain ⟨⟨b, r⟩, hr, he⟩ := Option.map_eq_some_iff.1 h
    have := ih hr
    simp at he
    simp [← he.2]; omega
  | case5 c d s _ q ih =>
    obtain ⟨⟨b, r⟩, hr, he⟩ := Option.map_eq_some_iff.1 h
    have := ih hr
    simp at he
    simp [← he.2]; simp at this; omega
  | case6 => simp at h; simp [← h.2]
  | case7 c d s _ _ ih =>
    obtain ⟨⟨b, r⟩, hr, he⟩ := Option.map_eq_some_iff.1 h
    have := ih hr
    simp at he
    simp [← he.2]; simp at this; omega

/-- The predicates of a text that consists of nothing else. -/
def predicates? (s : List Char) : Option (List String) :=
  match s with
  | [] => some []
  | c :: s =>
    if c = '[' then
      match _h : predicate? none s with
      | none => none
      | some (body, rest) => (predicates? rest).map (String.ofList (trim body) :: ·)
    else none
termination_by s.length
decreasing_by
  have := predicate?_length _h
  simp; omega

/-- A character that no base contains: it would name a second element. -/
def isCombinator (c : Char) : Bool := isBlank c || c == '>' || c == '+' || c == '~'

/-- Reads a selector that is a base followed by predicates and by nothing else. -/
def ofText? (selector : String) : Option AttributeSelector := do
  let s := trim selector.toList
  let (base, rest) ← splitFirst? '[' s
  let base := trim base
  if base.any isCombinator then none
  else
    let ps ← predicates? ('[' :: rest)
    pure ⟨String.ofList base, ps⟩

/-- The base with one predicate. -/
def withPredicate (s : AttributeSelector) (predicate : String) : String :=
  s.base ++ "[" ++ predicate ++ "]"

/-- The base with all predicates. -/
def text (s : AttributeSelector) : String :=
  s.base ++ String.join (s.predicates.map fun p => "[" ++ p ++ "]")

/-- A value without its flag, outer blanks and quotes. -/
def unquote (value : List Char) : List Char :=
  let bare := trim (((front? " i".toList value) <|> (front? " s".toList value)).getD value)
  let between? (q : Char) : Option (List Char) := do
    let inner ← (rest? [q] bare).bind (front? [q])
    pure (replaceAll ['\\', q] [q] inner)
  ((between? '\x27') <|> (between? '"')).getD bare

/-- A character that stands before the equals sign of an inexact comparison. -/
def isComparison (c : Char) : Bool := "~^$*|".toList.contains c

/-- The name and the value that a predicate compares, if it compares one. -/
def comparison? (predicate : String) : Option (String × String) := do
  let (name, value) ← splitFirst? '=' predicate.toList
  let name := trim (name.reverse.dropWhile isComparison).reverse
  if name.isEmpty then none
  else pure (String.ofList name, String.ofList (unquote (trim value)))

def comparisons (s : AttributeSelector) : List (String × String) := s.predicates.filterMap comparison?

end AttributeSelector

namespace Selector

open Text

/-- The tag that a selector names, in lower case. A word before an equals sign is the name of an
engine and no tag. -/
def tag? (selector : String) : Option String :=
  let s := trim selector.toList
  let isTagChar (c : Char) : Bool := c.isAlphanum || c == '-'
  let tag := s.takeWhile isTagChar
  if !tag.head?.any Char.isAlpha || (s.dropWhile isTagChar).head? == some '=' then none
  else some (String.ofList (asciiLower tag))

end Selector

end TestRepair
