import TestRepair.Text.Case
import TestRepair.Text.Cursor

/-!
Selectors that mean the whole page or its root. They identify no element, so nothing is healed by
them.
-/

namespace TestRepair

namespace Selector

open Text Recogniser

/-- The names and signs of the root. -/
def rootNames : List (List Char) :=
  ["html".toList, "body".toList, ":root".toList, ['*'], "html > body".toList]

/-- A structural path that ends at the root or the body, after its first slash. -/
def rootSteps : Recogniser Unit := firstOf [
  do
    literal "html".toList
    optional "[1]".toList
    (do literal "/body".toList; optional "[1]".toList) <|> pure ()
    optional ['/'],
  do
    literal "body".toList
    optional "[1]".toList
    optional ['/'],
  pure ()]

def rootPath : Recogniser Unit := firstOf [
  literal ['.'],
  do
    literal ['/']
    optional ['/']
    rootSteps]

/-- A selector without the marker of structural paths, if it has one. -/
def withoutMarker (s : List Char) : List Char :=
  match rest? "xpath=".toList s with
  | some path => trim path
  | none => s

def isPageRoot (selector : String) : Bool :=
  let s := asciiLower (trim selector.toList)
  s.isEmpty || rootNames.contains s || rootPath.accepts (withoutMarker s)

end Selector

end TestRepair
