import TestRepair.Proofs.Dictionary
import TestRepair.Proofs.Json.Reading
import TestRepair.Trial.Record

/-!
Whatever is written as JSON is read back: recorded actions, requests, diagnoses, fixes, results and
settings, with every optional field that is there or not, and whatever texts and numbers they hold.
-/

namespace TestRepair

namespace Json

variable {α : Type}

/-- Whatever is encoded is decoded again. -/
def Undoes (decode : Json → Option α) (encode : α → Json) : Prop := ∀ a, decode (encode a) = some a

theorem mapM_map_eq_some {β γ : Type} {f : β → Option γ} {g : α → β} {value : α → γ}
    (h : ∀ a, f (g a) = some (value a)) (as : List α) : (as.map g).mapM f = some (as.map value) := by
  induction as with
  | nil => rfl
  | cons a as ih => simp [h, ih]

section

variable {decode : Json → Option α} {encode : α → Json}

theorem toList?_map (h : Undoes decode encode) (as : List α) :
    toList? decode (arr (as.map encode)) = some as := by
  rw [toList?, mapM_map_eq_some h, List.map_id']

/-- An optional value is told from null, which encodes no value of its own. -/
theorem nullable_ofOption (h : Undoes decode encode) (hne : ∀ a, encode a ≠ null) :
    Undoes (nullable decode) (ofOption encode) := by
  intro o
  cases o with
  | none => rfl
  | some a =>
      rw [ofOption, nullable.eq_def]
      split
      · exact absurd ‹_› (hne a)
      · rw [h a]
        rfl

end

@[simp]
theorem toText?_str (s : String) : toText? (str s) = some s := rfl

@[simp]
theorem toBool?_bool (b : Bool) : toBool? (bool b) = some b := rfl

@[simp]
theorem toUInt64?_ofNat (n : UInt64) : toUInt64? (ofNat n.toNat) = some n := by
  simp [toUInt64?, ofNat, toNat?, n.toNat_lt_size]

@[simp]
theorem toUInt32?_ofNat (n : UInt32) : toUInt32? (ofNat n.toNat) = some n := by
  simp [toUInt32?, ofNat, toNat?, n.toNat_lt_size]

@[simp]
theorem toPath?_ofPath (p : Path) : toPath? (ofPath p) = some p := rfl

@[simp]
theorem toTexts_ofTexts (ts : List String) : toList? toText? (ofTexts ts) = some ts :=
  toList?_map toText?_str ts

@[simp]
theorem toPaths_map_ofPath (ps : List Path) : toList? toPath? (arr (ps.map ofPath)) = some ps :=
  toList?_map toPath?_ofPath ps

@[simp]
theorem nullable_text (o : Option String) : nullable toText? (ofOption str o) = some o :=
  nullable_ofOption toText?_str nofun o

@[simp]
theorem nullable_str (decode : Json → Option α) (s : String) :
    nullable decode (str s) = (decode (str s)).map some := rfl

@[simp]
theorem nullable_ofNat (decode : Json → Option α) (n : Nat) :
    nullable decode (ofNat n) = (decode (ofNat n)).map some := rfl

@[simp]
theorem nullable_uint64 (o : Option UInt64) :
    nullable toUInt64? (ofOption (fun n => ofNat n.toNat) o) = some o :=
  nullable_ofOption toUInt64?_ofNat nofun o

@[simp]
theorem toTexts?_ofDictionary (d : Dictionary String String) :
    toTexts? (ofDictionary d) = some d := by
  have hread : (d.entries.map fun e => (e.1, str e.2)).mapM
      (fun m => (toText? m.2).map (m.1, ·)) = some (d.entries.map id) := by
    refine mapM_map_eq_some (fun e => ?_) d.entries
    rfl
  rw [ofDictionary, toTexts?, hread, List.map_id, Option.map_some, Dictionary.ofList_entries]

@[simp]
theorem toAttributes?_ofDictionary (d : Dictionary String String) :
    toAttributes? (ofDictionary d) = some d := by
  have hread : (d.entries.map fun e => (e.1, str e.2)).mapM
      (fun m => (nullable toText? m.2).map (m.1, ·)) =
        some (d.entries.map fun e => (e.1, some e.2)) := by
    refine mapM_map_eq_some (fun e => ?_) d.entries
    rfl
  have hdistinct : ((d.entries.map fun e => (e.1, some e.2)).map (·.1)).Nodup := by
    simpa [Function.comp_def] using d.distinct
  rw [ofDictionary, toAttributes?, hread]
  simp [Dictionary.entries_ofList hdistinct, List.filterMap_map, Dictionary.ofList_entries]

@[simp]
theorem toActionKind?_name (k : ActionKind) : toActionKind? (str k.name) = some k := by
  cases k <;> rfl

@[simp]
theorem toDisplayMode?_name (m : DisplayMode) : toDisplayMode? (str m.name) = some m := by
  cases m <;> rfl

@[simp]
theorem toFailureKind?_name (k : FailureKind) : toFailureKind? (str k.name) = some k := by
  cases k <;> rfl

@[simp]
theorem toEnding?_name (e : Ending) : toEnding? (str e.name) = some e := by
  cases e <;> rfl

@[simp]
theorem toPageElement?_ofPageElement (e : PageElement) :
    toPageElement? (ofPageElement e) = some e := by
  simp [toPageElement?, ofPageElement, record?, required, optionalField, defaulted, field?]

@[simp]
theorem toSelectorSet?_ofSelectorSet (s : SelectorSet) :
    toSelectorSet? (ofSelectorSet s) = some s := by
  simp [toSelectorSet?, ofSelectorSet, record?, defaulted, field?]

@[simp]
theorem toRecordedAction?_ofRecordedAction (a : RecordedAction) :
    toRecordedAction? (ofRecordedAction a) = some a := by
  simp [toRecordedAction?, ofRecordedAction, record?, required, optionalField, defaulted, field?]

@[simp]
theorem toRecording?_ofRecording (as : List RecordedAction) :
    toRecording? (ofRecording as) = some as :=
  toList?_map toRecordedAction?_ofRecordedAction as

theorem toTrialRequest?_ofTrialRequest (r : TrialRequest) :
    toTrialRequest? (ofTrialRequest r) = some r := by
  cases r with
  | mk script workDir mode env actions timeoutSecs =>
      cases timeoutSecs <;>
        simp [toTrialRequest?, ofTrialRequest, memberIfSome, record?, required, optionalField,
          defaulted, field?]

theorem toDiagnosis?_ofDiagnosis (d : Diagnosis) : toDiagnosis? (ofDiagnosis d) = some d := by
  cases d with
  | mk kind matched context file line =>
      cases file <;> cases line <;>
        simp [toDiagnosis?, ofDiagnosis, memberIfSome, record?, required, optionalField, defaulted,
          field?]

@[simp]
theorem toFixRecord?_ofFixRecord (f : FixRecord) : toFixRecord? (ofFixRecord f) = some f := by
  simp [toFixRecord?, ofFixRecord, record?, required, defaulted, field?]

@[simp]
theorem toFixRecords_map (fs : List FixRecord) :
    toList? toFixRecord? (arr (fs.map ofFixRecord)) = some fs :=
  toList?_map toFixRecord?_ofFixRecord fs

theorem toTrialResult?_ofTrialResult (r : TrialResult) :
    toTrialResult? (ofTrialResult r) = some r := by
  cases r with
  | mk success ending logs attempts fixes finalScript note =>
      cases note <;>
        simp [toTrialResult?, ofTrialResult, memberIfSome, record?, required, optionalField,
          defaulted, field?]

@[simp]
theorem toRunnerSettings?_ofRunnerSettings (s : RunnerSettings) :
    toRunnerSettings? (ofRunnerSettings s) = some s := by
  simp [toRunnerSettings?, ofRunnerSettings, record?, optionalField, defaulted, field?]

@[simp]
theorem toRetrySettings?_ofRetrySettings (s : RetrySettings) :
    toRetrySettings? (ofRetrySettings s) = some s := by
  simp [toRetrySettings?, ofRetrySettings, record?, defaulted, field?]

@[simp]
theorem toHealingSettings?_ofHealingSettings (s : HealingSettings) :
    toHealingSettings? (ofHealingSettings s) = some s := by
  simp [toHealingSettings?, ofHealingSettings, record?, defaulted, field?]

@[simp]
theorem toImportSettings?_ofImportSettings (s : ImportSettings) :
    toImportSettings? (ofImportSettings s) = some s := by
  simp [toImportSettings?, ofImportSettings, record?, defaulted, field?]

@[simp]
theorem toAssistantSettings?_ofAssistantSettings (s : AssistantSettings) :
    toAssistantSettings? (ofAssistantSettings s) = some s := by
  simp [toAssistantSettings?, ofAssistantSettings, record?, optionalField, defaulted, field?]

theorem toSettings?_ofSettings (s : Settings) : toSettings? (ofSettings s) = some s := by
  simp [toSettings?, ofSettings, record?, defaulted, field?]

end Json
end TestRepair
