import TestRepair.Locator.AttributeSelector
import TestRepair.Locator.Candidate
import TestRepair.Locator.Keywords
import TestRepair.Locator.Markup
import TestRepair.Locator.PageRoot
import TestRepair.Recording
import TestRepair.Text.Similarity

/-!
Recorded actions on the element that a failing selector meant. An action matches exactly when its
element has the tag and all compared attributes, or when the selector was recorded for it; otherwise
shared keywords of an element with the same tag make a weaker match with a score.
-/

namespace TestRepair

namespace RecordedAction

open Text

/-- The tag of the element in lower case, from its markup if it is not recorded. -/
def tag (a : RecordedAction) : String :=
  let tag := asciiLower (trim a.element.tag.toList)
  if tag.isEmpty then (a.element.markup.bind Markup.tag?).getD "" else String.ofList tag

/-- The attributes of the element, names in lower case; recorded ones outdo those of the markup. -/
def attributes (a : RecordedAction) : Dictionary String String :=
  let known := (a.element.markup.map Markup.attributes).getD {}
  a.element.attributes.entries.foldl
    (fun d e => d.insert (String.ofList (asciiLower e.1.toList)) e.2) known

/-- Everything written on the element: markup, name and text, then the given values. -/
def wording (a : RecordedAction) (values : List String) : String :=
  let parts := [a.element.markup, a.element.accessibleName, a.element.text].filterMap id
  String.join ((parts ++ values).map (· ++ " "))

/-- The recorded selector to use for the element: by attribute, by role, by structure; none that
means the whole page or has just failed. -/
def bestSelector? (a : RecordedAction) (failing : String) : Option String :=
  (a.selectors.byAttribute ++ a.selectors.byRole ++ a.selectors.byStructure).find? fun s =>
    s != failing && !Selector.isPageRoot s

end RecordedAction

/-- A recorded action taken to be on the element that a failing selector meant. -/
structure ActionMatch where
  /-- The place of the action in the recording. -/
  index : Nat
  action : RecordedAction
  score : Float
  reason : String
  exact : Bool

namespace ActionMatch

/-- What is known about the element that a failing selector meant. -/
structure Target where
  selector : String
  tag : Option String
  comparisons : List (String × String)
  keywords : List String

def Target.ofSelector (failing : String) : Target where
  selector := failing
  tag := Selector.tag? failing
  comparisons := ((AttributeSelector.ofText? failing).map (·.comparisons)).getD []
  keywords := Keywords.ofText failing

/-- Whether the element of an action has every attribute that the selector compares. -/
def Target.agrees (t : Target) (a : RecordedAction) : Bool :=
  !t.comparisons.isEmpty && t.comparisons.all fun (name, value) =>
    a.attributes.get? (String.ofList (Text.asciiLower name.toList)) == some value

def Target.isExact (t : Target) (a : RecordedAction) : Bool :=
  t.tag.all (· == a.tag) && (t.agrees a || a.selectors.contains t.selector)

/-- The keywords of the selector that are also written on the element, whose attributes have the given
values. -/
def Target.shared (t : Target) (a : RecordedAction) (values : List String) : List String :=
  let written := Keywords.ofText (a.wording values)
  t.keywords.filter written.contains

/-- No weaker match scores higher. -/
def scoreLimit : Float := 0.95

/-- How well an element fits that shares keywords with the selector. -/
def Target.score (t : Target) (a : RecordedAction) (values : List String) : Float :=
  let overlap := (t.shared a values).length.toFloat / t.keywords.length.toFloat
  let alike :=
    match a.element.accessibleName with
    | none => 0
    | some name =>
      Text.similarity (" ".intercalate t.keywords).toList (Text.lowercase name.toList)
  let score := 0.6 * overlap + 0.3 * alike
  if score < scoreLimit then score else scoreLimit

def exactMatch? (t : Target) (index : Nat) (a : RecordedAction) : Option ActionMatch :=
  if t.isExact a then some ⟨index, a, 1, "same tag and attributes", true⟩ else none

/-- The match of an action that shares the tag and keywords with the selector. -/
def weakMatch? (t : Target) (index : Nat) (a : RecordedAction) (values : List String) :
    Option ActionMatch :=
  if t.isExact a || t.tag != some a.tag || (t.shared a values).isEmpty then none
  else
    some ⟨index, a, t.score a values,
      "same tag, shared keywords: " ++ ", ".intercalate (t.shared a values), false⟩

/-- The matches of a recording: exact ones in order, then the weaker ones by falling score. The values
of the attributes of an action are gone through as `values` says. -/
def allBy (values : Nat → RecordedAction → List String) (failing : String)
    (actions : List RecordedAction) : List ActionMatch :=
  let t := Target.ofSelector failing
  let numbered := actions.zipIdx
  let exact := numbered.filterMap fun (a, i) => exactMatch? t i a
  let weak := numbered.filterMap fun (a, i) => weakMatch? t i a (values i a)
  exact ++ weak.mergeSort fun a b => decide (scoreOrder b.score ≤ scoreOrder a.score)

/-- The matches of a recording, its attributes gone through as they came. -/
def all (failing : String) (actions : List RecordedAction) : List ActionMatch :=
  allBy (fun _ a => a.attributes.values) failing actions

end ActionMatch

end TestRepair
