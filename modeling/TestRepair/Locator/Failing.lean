import TestRepair.Locator.BuilderCall
import TestRepair.Locator.PageRoot

/-!
Which selector a log reports as failing. Logs write it inside a locator call, behind one of two
phrases, or as the call of a locator builder; a builder call that the log offers as an alternative
does not count.
-/

namespace TestRepair

namespace FailingLocator

open Text Recogniser

/-- A literal between `opening` and `closing`. The value is the place where its body starts. -/
def quotedBetween (opening : List Char) (quote : Char) (closing : List Char) :
    Recogniser (Cursor × List Char) := do
  literal (opening ++ [quote])
  let start ← get
  let body ← literalBody quote
  literal closing
  pure (start, body)

/-- The shapes in which a log quotes a failing selector. -/
def quotedShapes : List (Recogniser (Cursor × List Char)) := [
  quotedBetween "locator(".toList '\x27' [')'],
  quotedBetween "locator(".toList '"' [')'],
  quotedBetween "waiting for selector ".toList '"' [],
  quotedBetween "waiting for selector ".toList '\x27' [],
  do
    literal "No element found for selector".toList
    optional [':']
    quotedBetween [' '] '"' []]

/-- The quoted selectors of a log with the places where they start. -/
def quoted (log : List Char) : List (Nat × List Char) :=
  quotedShapes.flatMap fun shape =>
    (shape.occurrences log).map fun o => (o.value.1.offset, unescape o.value.2)

/-- Whether what stands before an occurrence offers it as an alternative. -/
def isOffered (before : List Char) : Bool :=
  startsWith "aka".toList.reverse (before.dropWhile isBlank)

/-- The builder calls of a log that are not offered as alternatives, with their places. -/
def calls (log : List Char) : List (Nat × List Char) :=
  ((BuilderCall.call.occurrences log).filter fun o => !isOffered o.start.before).map fun o =>
    (o.start.offset, o.text)

/-- All selectors of a log, in the order of their places. -/
def all (log : List Char) : List (Nat × List Char) :=
  (quoted log ++ calls log).mergeSort fun a b => decide (a.1 ≤ b.1)

/-- The first selector of a log that does not mean the whole page. -/
def ofLog? (log : String) : Option String :=
  ((all log.toList).map fun f => String.ofList f.2).find? fun s => !Selector.isPageRoot s

end FailingLocator

end TestRepair
