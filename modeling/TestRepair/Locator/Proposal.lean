import TestRepair.Locator.Matching
import TestRepair.Locator.Suggestion

/-!
All candidates for a failing selector, tier by tier: what the runner suggests, parts of the selector
itself, what was recorded for the same element, and the text that shows on it. A selector is proposed
once, in its first tier, and never when it means the whole page or is the failing one.
-/

namespace TestRepair

namespace Candidate

open Text

/-- The failing selector with one of its predicates each, then its base alone. -/
def subsets (failing : String) : List Candidate :=
  match AttributeSelector.ofText? failing with
  | none => []
  | some s =>
    if s.predicates.length < 2 then []
    else
      let parts := s.predicates.map s.withPredicate
      let bare := if s.base.isEmpty || Selector.isPageRoot s.base then [] else [s.base]
      (parts ++ bare).map fun selector => { selector, tier := .subset }

def recorded (failing : String) (found : List ActionMatch) : List Candidate :=
  found.filterMap fun m => (m.action.bestSelector? failing).map fun selector =>
    { selector, tier := .recorded, score := some m.score, reason := some m.reason }

/-- The text of a match, if it is one short line. -/
def shortText? (limit : Nat) (m : ActionMatch) : Option (List Char) := do
  let text := trim (← m.action.element.text).toList
  if text.isEmpty || text.contains '\n' || limit < text.length then none else pure text

def visibleTexts (limit : Nat) (found : List ActionMatch) : List Candidate :=
  found.filterMap fun m => (shortText? limit m).map fun text =>
    { selector := String.ofList (Suggestion.textSelector text)
      tier := .visibleText
      score := some m.score
      reason := some ("visible text of matched " ++ m.action.tag) }

/-- Every proposal, tier by tier. -/
def proposals (failing : String) (actions : List RecordedAction) (log : String) (limit : Nat) :
    List Candidate :=
  let found := ActionMatch.all failing actions
  Suggestion.ofLog log ++ subsets failing ++ recorded failing found ++ visibleTexts limit found

def isUsable (failing : String) (c : Candidate) : Bool :=
  c.selector != failing && !Selector.isPageRoot c.selector

/-- The first of the candidates with each selector. -/
def firstOfEach (seen : List String) : List Candidate → List Candidate
  | [] => []
  | c :: cs =>
    if seen.contains c.selector then firstOfEach seen cs
    else c :: firstOfEach (c.selector :: seen) cs

/-- The candidates for a failing selector, in the order in which to try them. -/
def all (failing : String) (actions : List RecordedAction) (log : String) (limit : Nat) :
    List Candidate :=
  firstOfEach [] ((proposals failing actions log limit).filter (isUsable failing))

end Candidate

end TestRepair
