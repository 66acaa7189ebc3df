import Mathlib.Data.List.Basic
import TestRepair.Proofs.Json.RoundTrip

/-!
What is exchanged as JSON is decoded from either of its texts. To a recorded action something may be added
on the way without a change of what is read: fields that nobody knows, in the action, in its element and
among its selectors, and attributes that are null. Nor does that matter for whether the action can be
read at all.
-/

namespace TestRepair

namespace Json

/-- The same members with others in between; the values of members that stay may be different in a way
that their names allow. -/
inductive Padded (extra : String → Json → Prop) (alike : String → Json → Json → Prop) :
    List (String × Json) → List (String × Json) → Prop
  | nil : Padded extra alike [] []
  | kept {n : String} {j j' : Json} {ms ms' : List (String × Json)} (hj : alike n j j')
      (h : Padded extra alike ms ms') : Padded extra alike ((n, j) :: ms) ((n, j') :: ms')
  | added {n : String} {j : Json} {ms ms' : List (String × Json)} (hj : extra n j)
      (h : Padded extra alike ms ms') : Padded extra alike ms ((n, j) :: ms')

/-- The same value, or an object with more members. -/
inductive Enlarged (extra : List (String × Json) → String → Json → Prop)
    (alike : String → Json → Json → Prop) : Json → Json → Prop
  | same (j : Json) : Enlarged extra alike j j
  | padded {ms ms' : List (String × Json)} (h : Padded (extra ms) alike ms ms') :
      Enlarged extra alike (obj ms) (obj ms')

section

variable {α β : Type} {known : List String} {alike : String → Json → Json → Prop}
  {ms ms' : List (String × Json)} (h : Padded (fun n _ => n ∉ known) alike ms ms') {f : String}
  (hf : f ∈ known)

include h hf

theorem Padded.field? : Option.Rel (alike f) (field? ms f) (field? ms' f) := by
  induction h with
  | nil => exact .none
  | @kept n j j' ms ms' hj _ ih =>
      by_cases hn : n = f
      · subst hn
        simpa [Json.field?] using Option.Rel.some hj
      · simpa [Json.field?, hn] using ih
  | @added n j ms ms' hj _ ih =>
      have hn : n ≠ f := fun e => hj (e ▸ hf)
      simpa [Json.field?, hn] using ih

theorem Padded.count : (ms'.filter (·.1 == f)).length = (ms.filter (·.1 == f)).length := by
  induction h with
  | nil => rfl
  | @kept n j j' ms ms' _ _ ih => by_cases hn : n = f <;> simp [hn, ih]
  | @added n j ms ms' hj _ ih =>
      have hn : n ≠ f := fun e => hj (e ▸ hf)
      simpa [hn] using ih

variable {decode : Json → Option α} (hd : ∀ j j', alike f j j' → decode j' = decode j)

include hd

theorem Padded.required : required ms' f decode = required ms f decode := by
  have hrel := h.field? hf
  unfold Json.required
  generalize Json.field? ms f = old at hrel
  generalize Json.field? ms' f = new at hrel
  cases hrel with
  | none => rfl
  | some hj => exact hd _ _ hj

theorem Padded.defaulted (value : α) :
    defaulted ms' f decode value = defaulted ms f decode value := by
  have hrel := h.field? hf
  unfold Json.defaulted
  generalize Json.field? ms f = old at hrel
  generalize Json.field? ms' f = new at hrel
  cases hrel with
  | none => rfl
  | some hj => exact hd _ _ hj

end

section

variable {α : Type} {known : List String} {alike : String → Json → Json → Prop}
  {ms ms' : List (String × Json)} (h : Padded (fun n _ => n ∉ known) alike ms ms')

include h

theorem Padded.optionalField {f : String} (hf : f ∈ known) {decode : Json → Option α}
    (hd : ∀ j j', alike f j j' → j' = j) :
    optionalField ms' f decode = optionalField ms f decode :=
  h.defaulted hf (fun j j' hj => congrArg (nullable decode) (hd j j' hj)) none

/-- A record with more members is read as before if its fields are. -/
theorem Padded.record {decode : List (String × Json) → Option α} (hd : decode ms' = decode ms) :
    (record? known (obj ms') >>= decode) = record? known (obj ms) >>= decode := by
  have hcount : (known.all fun f => (ms'.filter (·.1 == f)).length ≤ 1) =
      known.all fun f => (ms.filter (·.1 == f)).length ≤ 1 := by
    rw [Bool.eq_iff_iff, List.all_eq_true, List.all_eq_true]
    exact forall₂_congr fun f hf => by rw [h.count hf]
  rw [record?, record?, hcount]
  split
  · exact hd
  · rfl

end

def elementFields : List String :=
  ["tag_name", "role", "accessible_name", "text", "markup", "attributes"]

def selectorFields : List String := ["structural", "attribute", "semantic"]

def actionFields : List String := ["kind", "element", "selectors", "timestamp", "page_id"]

/-- Attributes, and perhaps some more that are null. -/
def MoreAttributes : Json → Json → Prop :=
  Enlarged (fun ms k v => k ∉ ms.map (·.1) ∧ v = null) fun _ j j' => j' = j

/-- An element, and perhaps some more fields and attributes that do not count. -/
def MoreElement : Json → Json → Prop :=
  Enlarged (fun _ n _ => n ∉ elementFields) fun n j j' =>
    if n = "attributes" then MoreAttributes j j' else j' = j

/-- A set of selectors, and perhaps some more fields that do not count. -/
def MoreSelectors : Json → Json → Prop :=
  Enlarged (fun _ n _ => n ∉ selectorFields) fun _ j j' => j' = j

/-- A recorded action, and perhaps some more fields and attributes that do not count. -/
def MoreAction : Json → Json → Prop :=
  Enlarged (fun _ n _ => n ∉ actionFields) fun n j j' =>
    if n = "element" then MoreElement j j'
    else if n = "selectors" then MoreSelectors j j'
    else j' = j

theorem toSelectorSet?_more {j j' : Json} (h : MoreSelectors j j') :
    toSelectorSet? j' = toSelectorSet? j := by
  cases h with
  | same => rfl
  | @padded ms ms' h =>
      unfold toSelectorSet?
      refine h.record ?_
      have htexts : ∀ j j', j' = j → toList? toText? j' = toList? toText? j :=
        fun _ _ e => congrArg _ e
      rw [h.defaulted (by decide) htexts, h.defaulted (by decide) htexts,
        h.defaulted (by decide) htexts]

section

variable {keys : List String}

/-- Of the entries with the given keys nothing is lost, and all others hold no value. -/
def SameKnown (keys : List String) (es es' : List (String × Option String)) : Prop :=
  es = es'.filter (fun e => e.1 ∈ keys) ∧ ∀ e ∈ es', e.1 ∉ keys → e.2 = none

/-- Reads the entries of a map of attributes. -/
def readEntries (ms : List (String × Json)) : Option (List (String × Option String)) :=
  ms.mapM fun m => (nullable toText? m.2).map (m.1, ·)

theorem readEntries_cons (n : String) (j : Json) (ms : List (String × Json)) :
    readEntries ((n, j) :: ms) = (nullable toText? j).bind fun v =>
      (readEntries ms).map ((n, v) :: ·) := by
  rw [readEntries, List.mapM_cons]
  cases nullable toText? j with
  | none => rfl
  | some v => cases hread : readEntries ms <;> simp_all [readEntries]

theorem sameKnown_readEntries {ms ms' : List (String × Json)} (hk : ∀ m ∈ ms, m.1 ∈ keys)
    (h : Padded (fun k v => k ∉ keys ∧ v = null) (fun _ j j' => j' = j) ms ms') :
    Option.Rel (SameKnown keys) (readEntries ms) (readEntries ms') := by
  induction h with
  | nil => exact .some ⟨rfl, nofun⟩
  | @kept n j j' ms ms' hj _ ih =>
      subst hj
      obtain ⟨hn, hk⟩ := List.forall_mem_cons.mp hk
      have ih := ih hk
      rw [readEntries_cons, readEntries_cons]
      generalize readEntries ms = old at ih ⊢
      generalize readEntries ms' = new at ih ⊢
      cases nullable toText? j' with
      | none => exact .none
      | some v =>
          cases ih with
          | none => exact .none
          | some hsame =>
              refine .some ⟨?_, List.forall_mem_cons.mpr ⟨fun hne => absurd hn hne, hsame.2⟩⟩
              simp [hn, ← hsame.1]
  | @added n j ms ms' hj _ ih =>
      obtain ⟨hn, rfl⟩ := hj
      have ih := ih hk
      rw [readEntries_cons]
      generalize readEntries ms = old at ih ⊢
      generalize readEntries ms' = new at ih ⊢
      cases ih with
      | none => exact .none
      | some hsame =>
          refine .some ⟨?_, List.forall_mem_cons.mpr ⟨fun _ => rfl, hsame.2⟩⟩
          simp [hn, ← hsame.1]

theorem filterMap_ofList {es es' : List (String × Option String)} (h : SameKnown keys es es') :
    ((Dictionary.ofList es').entries.filterMap fun e => e.2.map (e.1, ·)) =
      (Dictionary.ofList es).entries.filterMap fun e => e.2.map (e.1, ·) := by
  obtain ⟨rfl, hnone⟩ := h
  rw [← Dictionary.filter_ofList (fun k => k ∈ keys), List.filterMap_filter]
  refine List.filterMap_congr fun e he => ?_
  by_cases hk : e.1 ∈ keys
  · simp [hk]
  · simp [hk, hnone e (Dictionary.mem_of_mem_ofList he) hk]

end

theorem toAttributes?_more {j j' : Json} (h : MoreAttributes j j') :
    toAttributes? j' = toAttributes? j := by
  cases h with
  | same => rfl
  | @padded ms ms' h =>
      have hrel := sameKnown_readEntries (fun m hm => List.mem_map_of_mem hm) h
      have hread (ms : List (String × Json)) : toAttributes? (obj ms) =
          (readEntries ms).map fun es => Dictionary.ofList
            ((Dictionary.ofList es).entries.filterMap fun e => e.2.map (e.1, ·)) := by
        change ((readEntries ms).bind fun es => some (Dictionary.ofList _)) = _
        exact Option.map_eq_bind.symm
      rw [hread, hread]
      generalize readEntries ms = old at hrel ⊢
      generalize readEntries ms' = new at hrel ⊢
      cases hrel with
      | none => rfl
      | some hsame => rw [Option.map_some, Option.map_some, filterMap_ofList hsame]

theorem toPageElement?_more {j j' : Json} (h : MoreElement j j') :
    toPageElement? j' = toPageElement? j := by
  cases h with
  | same => rfl
  | @padded ms ms' h =>
      have htext {f : String} (hf : f ≠ "attributes") (j j' : Json)
          (hj : if f = "attributes" then MoreAttributes j j' else j' = j) : j' = j := by
        rwa [if_neg hf] at hj
      unfold toPageElement?
      refine h.record ?_
      rw [h.required (by decide) fun j j' hj => congrArg toText? (htext (by decide) j j' hj),
        h.optionalField (by decide) (htext (by decide)),
        h.optionalField (by decide) (htext (by decide)),
        h.optionalField (by decide) (htext (by decide)),
        h.optionalField (by decide) (htext (by decide)),
        h.defaulted (by decide) fun j j' hj => toAttributes?_more (by simpa using hj)]

/-- What may be added makes no difference. -/
theorem toRecordedAction?_more {j j' : Json} (h : MoreAction j j') :
    toRecordedAction? j' = toRecordedAction? j := by
  cases h with
  | same => rfl
  | @padded ms ms' h =>
      have hplain {f : String} (he : f ≠ "element") (hs : f ≠ "selectors") (j j' : Json)
          (hj : if f = "element" then MoreElement j j'
            else if f = "selectors" then MoreSelectors j j' else j' = j) : j' = j := by
        rwa [if_neg he, if_neg hs] at hj
      unfold toRecordedAction?
      refine h.record ?_
      rw [h.required (by decide) fun j j' hj =>
          congrArg toActionKind? (hplain (by decide) (by decide) j j' hj),
        h.required (by decide) fun j j' hj => toPageElement?_more (by simpa using hj),
        h.defaulted (by decide) fun j j' hj => toSelectorSet?_more (by simpa using hj),
        h.optionalField (by decide) (hplain (by decide) (by decide)),
        h.optionalField (by decide) (hplain (by decide) (by decide))]

/-- Both texts of an encoded value are decoded to that value. -/
def Decodes {α : Type} (decode : Json → Option α) (encode : α → Json) : Prop :=
  ∀ a, (read? (compact (encode a))).bind decode = some a ∧
    (read? (pretty (encode a))).bind decode = some a

theorem decodes_of_undoes {α : Type} {decode : Json → Option α} {encode : α → Json}
    (h : Undoes decode encode) : Decodes decode encode := fun a =>
  ⟨by rw [read?_compact, Option.bind_some, h a], by rw [read?_pretty, Option.bind_some, h a]⟩

/-- All that is exchanged is decoded from its texts, and what may be added to a recorded action makes
no difference. -/
theorem exchange_decodes :
    Decodes toRecordedAction? ofRecordedAction ∧ Decodes toTrialRequest? ofTrialRequest ∧
      Decodes toDiagnosis? ofDiagnosis ∧ Decodes toFixRecord? ofFixRecord ∧
      Decodes toTrialResult? ofTrialResult ∧ Decodes toSettings? ofSettings ∧
      ∀ j j', MoreAction j j' → toRecordedAction? j' = toRecordedAction? j :=
  ⟨decodes_of_undoes toRecordedAction?_ofRecordedAction,
    decodes_of_undoes toTrialRequest?_ofTrialRequest, decodes_of_undoes toDiagnosis?_ofDiagnosis,
    decodes_of_undoes toFixRecord?_ofFixRecord, decodes_of_undoes toTrialResult?_ofTrialResult,
    decodes_of_undoes toSettings?_ofSettings, fun _ _ => toRecordedAction?_more⟩

/-- A click as it has to be recorded. -/
def plainClick : Json := obj [
  ("kind", str "click"),
  ("element", obj [("tag_name", str "button"), ("attributes", obj [("type", str "submit")])])]

/-- The same click as a later recorder might record it. -/
def laterClick : Json := obj [
  ("version", ofNat 2),
  ("kind", str "click"),
  ("element", obj [("tag_name", str "button"), ("visible", bool true),
    ("attributes", obj [("type", str "submit"), ("disabled", null)])])]

theorem moreAction_laterClick : MoreAction plainClick laterClick := by
  refine .padded (.added (by decide) (.kept (by simp) (.kept ?_ .nil)))
  refine .padded (.kept (by simp) (.added (by decide) (.kept ?_ .nil)))
  exact .padded (.kept rfl (.added ⟨by decide, rfl⟩ .nil))

theorem laterClick_decodes :
    MoreAction plainClick laterClick ∧ toRecordedAction? laterClick = toRecordedAction? plainClick ∧
      (toRecordedAction? plainClick).isSome :=
  ⟨moreAction_laterClick,
    exchange_decodes.2.2.2.2.2.2 plainClick laterClick moreAction_laterClick, by decide +kernel⟩

end Json
end TestRepair
