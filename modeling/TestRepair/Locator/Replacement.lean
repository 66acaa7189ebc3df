import TestRepair.Locator.BuilderCall
import TestRepair.Text.Literal

/-!
Swapping a locator in source text. A selector is swapped inside the literals that quote it, in each
of the three quote styles and whether or not the literal escapes it; a builder call is swapped as a
whole for a locator call.
-/

namespace TestRepair

namespace Replacement

open Text

/-- The spellings of a selector between quotes: as it is, and escaped where that differs. -/
def spellings (quote : Char) (s : List Char) : List (List Char) :=
  let bare := quote :: s ++ [quote]
  let escaped := literalOf quote s
  if bare = escaped then [bare] else [bare, escaped]

/-- Swaps one spelling for the new literal, unless it does not occur or would stay the same. -/
def swapSpelling? (replacement spelling text : List Char) : Option (List Char) :=
  if spelling ≠ replacement ∧ occursIn spelling text then
    some (replaceAll spelling replacement text)
  else none

/-- Carries out a step on a text that earlier steps may have changed. -/
def chain (step : List Char → Option (List Char)) (state : List Char × Bool) : List Char × Bool :=
  match step state.1 with
  | some text => (text, true)
  | none => state

/-- The pairs of a spelling and the literal that replaces it, in the order of the steps. -/
def swaps (old new : List Char) : List (List Char × List Char) :=
  quotes.flatMap fun q => (spellings q old).map fun spelling => (spelling, literalOf q new)

/-- Swaps a quoted selector everywhere; nothing where no spelling of it occurs. -/
def quoted? (text old new : List Char) : Option (List Char) :=
  let (out, changed) := (swaps old new).foldl
    (fun state s => chain (swapSpelling? s.2 s.1) state) (text, false)
  if changed then some out else none

def locatorCall (selector : List Char) : List Char :=
  "locator(".toList ++ literalOf '\x27' selector ++ [')']

/-- Swaps a selector or a builder call everywhere; nothing where it does not occur. -/
def inText? (text old new : String) : Option String :=
  let (text, old, new) := (text.toList, old, new.toList)
  String.ofList <$>
    if Selector.isBuilderCall old then
      if occursIn old.toList text then some (replaceAll old.toList (locatorCall new) text) else none
    else quoted? text old.toList new

/-- Swaps a quoted selector everywhere in a text. -/
def inLiterals? (text old new : String) : Option String :=
  String.ofList <$> quoted? text.toList old.toList new.toList

end Replacement

end TestRepair
