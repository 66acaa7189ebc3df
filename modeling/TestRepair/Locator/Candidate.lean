import TestRepair.Json.Codec

/-!
A selector that may replace a failing one, with the tier it comes from. Scores are compared by their
bits, so that the order is total.
-/

namespace TestRepair

/-- Where a candidate comes from, most trusted source first. -/
inductive CandidateTier
  /-- The runner named it in its diagnostics. -/
  | suggestion
  /-- It keeps a part of the failing selector. -/
  | subset
  /-- It was recorded for the same element. -/
  | recorded
  /-- It is the visible text of the same element. -/
  | visibleText
  deriving DecidableEq, Repr

namespace CandidateTier

/-- Every tier, most trusted first. -/
def all : List CandidateTier := [suggestion, subset, recorded, visibleText]

def name : CandidateTier → String
  | suggestion => "suggested_by_runner"
  | subset => "attribute_subset"
  | recorded => "recorder_alternative"
  | visibleText => "text_based"

def label : CandidateTier → String
  | suggestion => "SuggestedByRunner"
  | subset => "AttributeSubset"
  | recorded => "RecorderAlternative"
  | visibleText => "TextBased"

/-- The place of a tier in the order of trust. -/
def rank : CandidateTier → Nat
  | suggestion => 0
  | subset => 1
  | recorded => 2
  | visibleText => 3

def ofName? (name : String) : Option CandidateTier := all.find? fun t => t.name == name

end CandidateTier

/-- A selector that may replace a failing one. -/
structure Candidate where
  selector : String
  tier : CandidateTier
  score : Option Float := none
  reason : Option String := none
  deriving Repr

/-- A number whose order is the order of floating-point numbers, minus zero below zero. -/
def scoreOrder (x : Float) : Int :=
  let n := x.toBits.toNat
  if n < Nat.pow 2 63 then Int.ofNat n else Int.negSucc (n - Nat.pow 2 63)

namespace Json

def toCandidateTier? (j : Json) : Option CandidateTier := (caseName? j).bind CandidateTier.ofName?

def toCandidate? (j : Json) : Option Candidate := do
  let ms ← record? ["selector", "origin", "score", "reason"] j
  pure {
    selector := ← required ms "selector" toText?
    tier := ← required ms "origin" toCandidateTier?
    score := ← optionalField ms "score" toFloat?
    reason := ← optionalField ms "reason" toText? }

end Json

end TestRepair
