import TestRepair.Json.Codec

/-!
What a recorder captured of a user's session: actions, the elements they were made on, and the
selectors that were known for each element at that time.
-/

namespace TestRepair

/-- What the user did. -/
inductive ActionKind
  | click
  | fill
  | input
  | select
  | check
  | press
  | navigate
  | other
  deriving DecidableEq, Repr

namespace ActionKind

def all : List ActionKind := [click, fill, input, select, check, press, navigate, other]

def name : ActionKind → String
  | click => "click"
  | fill => "fill"
  | input => "input"
  | select => "select"
  | check => "check"
  | press => "press"
  | navigate => "navigate"
  | other => "other"

/-- The kind with a name; names of later recorders count as `other`. -/
def ofName (name : String) : ActionKind := (all.find? fun k => k.name == name).getD other

end ActionKind

/-- An element of the page. -/
structure PageElement where
  tag : String
  role : Option String := none
  accessibleName : Option String := none
  text : Option String := none
  /-- The element as markup, at least its opening tag. -/
  markup : Option String := none
  attributes : Dictionary String String := {}
  deriving DecidableEq, Repr

/-- The selectors recorded for one element. -/
structure SelectorSet where
  /-- Chains through the structure of the page. -/
  byStructure : List String := []
  /-- Selectors by attribute. -/
  byAttribute : List String := []
  /-- Selectors by role or label. -/
  byRole : List String := []
  deriving DecidableEq, Repr

namespace SelectorSet

def contains (s : SelectorSet) (selector : String) : Bool :=
  (s.byStructure ++ s.byAttribute ++ s.byRole).contains selector

/-- Whether nothing was recorded. -/
def isEmpty (s : SelectorSet) : Bool :=
  s.byStructure.isEmpty && s.byAttribute.isEmpty && s.byRole.isEmpty

end SelectorSet

/-- One recorded action. -/
structure RecordedAction where
  kind : ActionKind
  element : PageElement
  selectors : SelectorSet := {}
  /-- Milliseconds since the epoch. -/
  timestamp : Option UInt64 := none
  pageId : Option String := none
  deriving DecidableEq, Repr

namespace Json

def toActionKind? (j : Json) : Option ActionKind := (caseName? j).map ActionKind.ofName

/-- Reads attributes: null for the whole map or for one of them means that there is none. -/
def toAttributes? : Json → Option (Dictionary String String)
  | null => some {}
  | obj ms => do
    let es ← ms.mapM fun m => (nullable toText? m.2).map (m.1, ·)
    let known := (Dictionary.ofList es).entries.filterMap fun e => e.2.map (e.1, ·)
    pure (Dictionary.ofList known)
  | _ => none

def toPageElement? (j : Json) : Option PageElement := do
  let ms ← record? ["tag_name", "role", "accessible_name", "text", "markup", "attributes"] j
  pure {
    tag := ← required ms "tag_name" toText?
    role := ← optionalField ms "role" toText?
    accessibleName := ← optionalField ms "accessible_name" toText?
    text := ← optionalField ms "text" toText?
    markup := ← optionalField ms "markup" toText?
    attributes := ← defaulted ms "attributes" toAttributes? {} }

def ofPageElement (e : PageElement) : Json := obj [
  ("tag_name", str e.tag),
  ("role", ofOption str e.role),
  ("accessible_name", ofOption str e.accessibleName),
  ("text", ofOption str e.text),
  ("markup", ofOption str e.markup),
  ("attributes", ofDictionary e.attributes)]

def toSelectorSet? (j : Json) : Option SelectorSet := do
  let ms ← record? ["structural", "attribute", "semantic"] j
  pure {
    byStructure := ← defaulted ms "structural" (toList? toText?) []
    byAttribute := ← defaulted ms "attribute" (toList? toText?) []
    byRole := ← defaulted ms "semantic" (toList? toText?) [] }

def ofSelectorSet (s : SelectorSet) : Json := obj [
  ("structural", ofTexts s.byStructure),
  ("attribute", ofTexts s.byAttribute),
  ("semantic", ofTexts s.byRole)]

def toRecordedAction? (j : Json) : Option RecordedAction := do
  let ms ← record? ["kind", "element", "selectors", "timestamp", "page_id"] j
  pure {
    kind := ← required ms "kind" toActionKind?
    element := ← required ms "element" toPageElement?
    selectors := ← defaulted ms "selectors" toSelectorSet? {}
    timestamp := ← optionalField ms "timestamp" toUInt64?
    pageId := ← optionalField ms "page_id" toText? }

def ofRecordedAction (a : RecordedAction) : Json := obj [
  ("kind", str a.kind.name),
  ("element", ofPageElement a.element),
  ("selectors", ofSelectorSet a.selectors),
  ("timestamp", ofOption (fun t => ofNat t.toNat) a.timestamp),
  ("page_id", ofOption str a.pageId)]

def toRecording? : Json → Option (List RecordedAction) := toList? toRecordedAction?

def ofRecording (as : List RecordedAction) : Json := arr (as.map ofRecordedAction)

end Json

end TestRepair
