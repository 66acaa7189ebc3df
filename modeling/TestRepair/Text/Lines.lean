import TestRepair.Text.Search

/-!
The lines of a text. A line ends with a line feed, which a carriage return may precede; a text that
ends with a line feed has no further empty line after it.
-/

namespace TestRepair.Text

/-- `s` without one carriage return at its end. -/
def dropReturn (s : List Char) : List Char := (front? ['\r'] s).getD s

/-- The lines of the pieces between line feeds: all but the last piece were ended by one. -/
def linesOfPieces : List (List Char) → List (List Char)
  | [] => []
  | [last] => if last.isEmpty then [] else [last]
  | p :: q :: ps => dropReturn p :: linesOfPieces (q :: ps)

/-- The lines of a text, without their ends. -/
def lines (s : List Char) : List (List Char) := linesOfPieces (splitAtChar '\n' s)

def lineFeeds (s : List Char) : Nat := s.count '\n'

/-- The line with number `index` (or the last line) and up to `radius` lines on each side, joined. -/
def window (ls : List (List Char)) (index radius : Nat) : List Char :=
  let index := min index (ls.length - 1)
  let first := index - radius
  joinWith ['\n'] ((ls.drop first).take (index + radius + 1 - first))

end TestRepair.Text
