import TestRepair.Text.Letters

/-!
Plain substring work on texts as character lists: the rest after a given beginning, occurrence,
replacement of every occurrence, trimming and splitting. Replacement goes from left to right and
never looks at what it has just written.
-/

namespace TestRepair.Text

/-- What follows `pat` in a text that begins with it. -/
def rest? : (pat s : List Char) → Option (List Char)
  | [], s => some s
  | _ :: _, [] => none
  | p :: pat, c :: s => if p = c then rest? pat s else none

/-- What precedes `pat` in a text that ends with it. -/
def front? (pat s : List Char) : Option (List Char) :=
  (rest? pat.reverse s.reverse).map List.reverse

/-- Whether `s` begins with `pat`. -/
def startsWith (pat s : List Char) : Bool := (rest? pat s).isSome

/-- Whether `s` ends with `pat`. -/
def endsWith (pat s : List Char) : Bool := (front? pat s).isSome

/-- Whether `pat` occurs anywhere in a text. -/
def occursIn (pat : List Char) : List Char → Bool
  | [] => startsWith pat []
  | c :: s => startsWith pat (c :: s) || occursIn pat s

/-- Replaces occurrences of `old`, which is not empty, after dropping `skip` characters that belong
to an occurrence already replaced. -/
def replaceFrom (old new : List Char) : (skip : Nat) → List Char → List Char
  | _, [] => []
  | k + 1, _ :: s => replaceFrom old new k s
  | 0, c :: s =>
    if startsWith old (c :: s) then new ++ replaceFrom old new (old.length - 1) s
    else c :: replaceFrom old new 0 s

/-- Every occurrence of `old` replaced by `new`, from left to right and without overlap. The empty
text occurs nowhere that matters here and is left alone. -/
def replaceAll (old new s : List Char) : List Char :=
  if old.isEmpty then s else replaceFrom old new 0 s

/-- `s` without the blanks at its beginning. -/
def trimStart (s : List Char) : List Char := s.dropWhile isBlank

/-- `s` without the blanks at its end. -/
def trimEnd (s : List Char) : List Char := (s.reverse.dropWhile isBlank).reverse

/-- `s` without the blanks at both ends. -/
def trim (s : List Char) : List Char := trimEnd (trimStart s)

/-- The pieces between the occurrences of `sep`: always at least one. -/
def splitAtChar (sep : Char) : List Char → List (List Char)
  | [] => [[]]
  | c :: s =>
    if c = sep then [] :: splitAtChar sep s
    else
      match splitAtChar sep s with
      | [] => [[c]]
      | piece :: pieces => (c :: piece) :: pieces

/-- The parts before and after the first `sep`. -/
def splitFirst? (sep : Char) : List Char → Option (List Char × List Char)
  | [] => none
  | c :: s =>
    if c = sep then some ([], s)
    else (splitFirst? sep s).map fun (a, b) => (c :: a, b)

/-- The parts before and after the last `sep`. -/
def splitLast? (sep : Char) (s : List Char) : Option (List Char × List Char) :=
  (splitFirst? sep s.reverse).map fun (a, b) => (b.reverse, a.reverse)

/-- The pieces joined with `sep` between them. -/
def joinWith (sep : List Char) : List (List Char) → List Char
  | [] => []
  | [p] => p
  | p :: q :: ps => p ++ sep ++ joinWith sep (q :: ps)

/-- The characters of `s` that come last, `max` of them at most. -/
def lastChars (max : Nat) (s : List Char) : List Char := s.drop (s.length - max)

end TestRepair.Text
