import TestRepair.Text.Cursor

/-!
Whether a run only skipped tests. The runner counts skipped and passed tests on lines of their own,
and a run that passed nothing proves nothing.
-/

namespace TestRepair

namespace TestCount

open Text Recogniser

/-- Whether a line begins here. -/
def atLineStart (c : Cursor) : Bool := c.before.head?.all (· == '\n')

/-- A count and the given word, from the beginning of a line. The blanks in front of the count may
take in further lines. -/
def counts (word : List Char) : Recogniser Unit := do
  require atLineStart
  let _ ← run isBlank
  let _ ← run1 isDigit
  literal (' ' :: word)
  boundary

/-- Whether a log counts tests with the given word. -/
def isCounted (word : List Char) (log : List Char) : Bool := (counts word).occursIn log

/-- Whether a log counts skipped tests and no passed ones. -/
def onlySkipped (log : String) : Bool :=
  isCounted "skipped".toList log.toList && !isCounted "passed".toList log.toList

end TestCount

end TestRepair
