import TestRepair.Text.Case
import TestRepair.Text.Letters

/-!
The words of a selector or of an element that say which element is meant: split where letters and
numbers end and where a capital follows a small letter, lowered, without words that are too short or
too common.
-/

namespace TestRepair

namespace Keywords

open Text

/-- Words that say nothing about which element is meant. -/
def common : List String :=
  ["data", "type", "testid", "test", "automation", "class", "aria", "label", "name", "role",
    "xpath", "css", "text", "div", "span", "button", "input", "html", "body", "the", "and",
    "for", "nth", "child", "contains", "submit", "reset", "checkbox", "radio", "hidden",
    "true", "false"]

/-- Whether a capital behind this character begins a new word. -/
def endsSmall (c : Char) : Bool := isLower c || c.isDigit

/-- The words of a text, where `current` is the word being read, last character first, and `small`
says that a capital would begin a new one. -/
def wordsFrom (current : List Char) (small : Bool) : List Char → List (List Char)
  | [] => [current.reverse]
  | c :: s =>
    if isAlphanumeric c then
      if isUpper c && small then current.reverse :: wordsFrom [c] (endsSmall c) s
      else wordsFrom (c :: current) (endsSmall c) s
    else current.reverse :: wordsFrom [] false s

/-- The length of a word in bytes. -/
def byteLength (word : List Char) : Nat := (String.ofList word).utf8ByteSize

/-- The keywords of a text, each once, in order. -/
def ofText (text : String) : List String :=
  let words := (wordsFrom [] false text.toList).filter fun w => 3 ≤ byteLength w
  let lowered := words.map fun w => String.ofList (lowercase w)
  (lowered.filter fun w => !common.contains w).eraseDups

end Keywords

end TestRepair
