import Mathlib.Data.List.Forall2
import TestRepair.Locator.Matching
import TestRepair.Proofs.Dictionary

/-!
Matching does not depend on the order of attributes. The keywords of an element are looked for and
never listed, and a blank stands behind every part of its wording, so that no word reaches from one part
into the next. Attributes that were recorded with distinct names make the same map in any order. What is
left of the order of a recording is the order of its actions, which the sort keeps among equal scores.
-/

namespace TestRepair

namespace Keywords

open Text

variable {w : String}

/-- A blank ends a word, and behind it reading starts anew. -/
theorem wordsFrom_append_blank (current : List Char) (small : Bool) (s rest : List Char) :
    wordsFrom current small (s ++ ' ' :: rest) =
      wordsFrom current small s ++ wordsFrom [] false rest := by
  have blank : isAlphanumeric ' ' = false := by decide
  induction s generalizing current small with
  | nil => simp [wordsFrom, blank]
  | cons c s ih =>
      rw [List.cons_append, wordsFrom, wordsFrom]
      split
      · split
        · rw [ih, List.cons_append]
        · exact ih ..
      · rw [ih, List.cons_append]

theorem mem_ofText_iff {text : String} : w ∈ ofText text ↔
    ∃ word ∈ wordsFrom [] false text.toList, 3 ≤ byteLength word ∧
      String.ofList (lowercase word) = w ∧ w ∉ common := by
  simp only [ofText, List.mem_eraseDups, List.mem_filter, List.mem_map, decide_eq_true_eq,
    Bool.not_eq_true', List.contains_eq_mem, decide_eq_false_iff_not]
  constructor
  · rintro ⟨⟨word, ⟨mem, long⟩, low⟩, rare⟩
    exact ⟨word, mem, long, low, rare⟩
  · rintro ⟨word, mem, long, low, rare⟩
    exact ⟨⟨word, ⟨mem, long⟩, low⟩, rare⟩

/-- The keywords of parts with a blank behind each are the keywords of the parts. -/
theorem mem_ofText_join {parts : List String} :
    w ∈ ofText (String.join (parts.map (· ++ " "))) ↔ ∃ part ∈ parts, w ∈ ofText part := by
  induction parts with
  | nil =>
      have empty : ∀ word ∈ wordsFrom [] false "".toList, ¬3 ≤ byteLength word := by decide
      simp only [List.map_nil, List.not_mem_nil, false_and, exists_false, iff_false]
      intro h
      obtain ⟨word, mem, long, -⟩ := mem_ofText_iff.mp h
      exact empty word mem long
  | cons part parts ih =>
      have text : (String.join ((part :: parts).map (· ++ " "))).toList =
          part.toList ++ ' ' :: (String.join (parts.map (· ++ " "))).toList := by simp
      rw [List.exists_mem_cons_iff, ← ih]
      simp only [mem_ofText_iff, text, wordsFrom_append_blank, List.mem_append, or_and_right, exists_or]

end Keywords

namespace RecordedAction

variable {a a' : RecordedAction}

/-- A recorded attribute as it goes into the attributes of the element. -/
def lowered (e : String × String) : String × String :=
  (String.ofList (Text.asciiLower e.1.toList), e.2)

/-- No two recorded attributes have names that differ in case only. -/
def NamesApart (a : RecordedAction) : Prop :=
  ((a.element.attributes.entries.map lowered).map (·.1)).Nodup

instance (a : RecordedAction) : Decidable a.NamesApart := List.nodupDecidable _

theorem get?_attributes (apart : a.NamesApart) (k : String) : a.attributes.get? k =
    (Dictionary.find? k (a.element.attributes.entries.map lowered)).or
      (((a.element.markup.map Markup.attributes).getD {}).get? k) := by
  rw [← Dictionary.get?_foldl_insert apart, List.foldl_map]
  rfl

/-- An action whose attributes were recorded in another order. -/
structure Reordered (a a' : RecordedAction) : Prop where
  rest : a' = { a with element := { a.element with attributes := a'.element.attributes } }
  order : a'.element.attributes.entries.Perm a.element.attributes.entries
  apart : a.NamesApart

namespace Reordered

theorem apart' (h : Reordered a a') : a'.NamesApart :=
  (List.Perm.map Prod.fst (h.order.map lowered)).nodup_iff.mpr h.apart

theorem get?_attributes (h : Reordered a a') (k : String) :
    a'.attributes.get? k = a.attributes.get? k := by
  have markup : a'.element.markup = a.element.markup := congrArg (·.element.markup) h.rest
  rw [RecordedAction.get?_attributes h.apart', RecordedAction.get?_attributes h.apart, markup,
    Dictionary.find?_of_perm (h.order.map lowered) h.apart]

theorem values_attributes (h : Reordered a a') : a'.attributes.values.Perm a.attributes.values :=
  List.Perm.map Prod.snd (Dictionary.perm_of_get? h.get?_attributes)

theorem tag_eq (h : Reordered a a') : a'.tag = a.tag := by
  rw [h.rest]
  rfl

theorem accessibleName_eq (h : Reordered a a') :
    a'.element.accessibleName = a.element.accessibleName := congrArg (·.element.accessibleName) h.rest

theorem selectors_eq (h : Reordered a a') : a'.selectors = a.selectors := congrArg (·.selectors) h.rest

/-- The same keywords are written on the element, whatever the order of the values. -/
theorem mem_ofText_wording (h : Reordered a a') {values values' : List String}
    (perm : values'.Perm values) {w : String} :
    w ∈ Keywords.ofText (a'.wording values') ↔ w ∈ Keywords.ofText (a.wording values) := by
  have same : a'.wording values' = a.wording values' := by
    rw [h.rest]
    rfl
  rw [same, wording, wording, Keywords.mem_ofText_join, Keywords.mem_ofText_join]
  simp only [List.mem_append, perm.mem_iff]

end Reordered

end RecordedAction

namespace ActionMatch

open RecordedAction

/-- The same match of the same action, but for the order in which its attributes were recorded. -/
structure Same (m m' : ActionMatch) : Prop where
  index : m'.index = m.index
  action : Reordered m.action m'.action
  score : m'.score = m.score
  reason : m'.reason = m.reason
  exact : m'.exact = m.exact

section

variable {a a' : RecordedAction} {values values' : List String}

theorem agrees_reordered (t : Target) (h : Reordered a a') : t.agrees a' = t.agrees a := by
  simp only [Target.agrees, h.get?_attributes]

theorem isExact_reordered (t : Target) (h : Reordered a a') : t.isExact a' = t.isExact a := by
  rw [Target.isExact, Target.isExact, h.tag_eq, agrees_reordered t h, h.selectors_eq]

theorem shared_reordered (t : Target) (h : Reordered a a') (perm : values'.Perm values) :
    t.shared a' values' = t.shared a values := by
  refine List.filter_congr fun w _ => ?_
  simp only [List.contains_eq_mem, h.mem_ofText_wording perm]

theorem score_reordered (t : Target) (h : Reordered a a') (perm : values'.Perm values) :
    t.score a' values' = t.score a values := by
  rw [Target.score, Target.score, shared_reordered t h perm, h.accessibleName_eq]

theorem exactMatch?_reordered (t : Target) (i : Nat) (h : Reordered a a') :
    Option.Rel Same (exactMatch? t i a) (exactMatch? t i a') := by
  rw [exactMatch?, exactMatch?, isExact_reordered t h]
  split
  · exact .some ⟨rfl, h, rfl, rfl, rfl⟩
  · exact .none

theorem weakMatch?_reordered (t : Target) (i : Nat) (h : Reordered a a')
    (perm : values'.Perm values) :
    Option.Rel Same (weakMatch? t i a values) (weakMatch? t i a' values') := by
  rw [weakMatch?, weakMatch?, isExact_reordered t h, h.tag_eq, shared_reordered t h perm,
    score_reordered t h perm]
  split
  · exact .none
  · exact .some ⟨rfl, h, rfl, rfl, rfl⟩

end

section

variable {α β : Type} {R : α → β → Prop}

theorem forall₂_zipIdx {as : List α} {bs : List β} (h : List.Forall₂ R as bs) (n : Nat) :
    List.Forall₂ (fun x y => R x.1 y.1 ∧ x.2 = y.2) (as.zipIdx n) (bs.zipIdx n) := by
  induction h generalizing n with
  | nil => exact .nil
  | cons ha _ ih => exact .cons ⟨ha, rfl⟩ (ih (n + 1))

/-- Sorting moves entries that correspond, and are ordered alike, to the same places. -/
theorem forall₂_mergeSort {as : List α} {bs : List β} (h : List.Forall₂ R as bs)
    {le : α → α → Bool} {le' : β → β → Bool}
    (alike : ∀ a a' b b', R a b → R a' b' → le' b b' = le a a') :
    List.Forall₂ R (as.mergeSort le) (bs.mergeSort le') := by
  -- Both lists are read off one list of pairs, which is sorted once.
  let pairs := as.zip bs
  obtain ⟨length, related⟩ := List.forall₂_iff_zip.mp h
  have fsts : pairs.map Prod.fst = as := List.map_fst_zip (Nat.le_of_eq length)
  have snds : pairs.map Prod.snd = bs := List.map_snd_zip (Nat.le_of_eq length.symm)
  let both : α × β → α × β → Bool := fun p q => le p.1 q.1
  have left : as.mergeSort le = (pairs.mergeSort both).map Prod.fst := by
    rw [List.map_mergeSort (r := both) (s := le) fun p _ q _ => rfl, fsts]
  have right : bs.mergeSort le' = (pairs.mergeSort both).map Prod.snd := by
    rw [List.map_mergeSort fun p hp q hq => (alike _ _ _ _ (related hp) (related hq)).symm, snds]
  rw [left, right, List.forall₂_map_left_iff, List.forall₂_map_right_iff, List.forall₂_same]
  intro p hp
  exact related (List.mem_mergeSort.mp hp)

end

/-- Whichever way the attributes of the recorded actions are ordered, and in whichever order the values
of an element are written down, there are the same matches with the same scores and reasons, in the same
order. -/
theorem allBy_reordered (failing : String) {actions actions' : List RecordedAction}
    (h : List.Forall₂ Reordered actions actions') {values values' : Nat → RecordedAction → List String}
    (perm : ∀ i a, (values i a).Perm a.attributes.values)
    (perm' : ∀ i a, (values' i a).Perm a.attributes.values) :
    List.Forall₂ Same (allBy values failing actions) (allBy values' failing actions') := by
  have numbered := forall₂_zipIdx h 0
  refine List.rel_append ?_ (forall₂_mergeSort ?_ ?_)
  · refine List.rel_filterMap ?_ numbered
    rintro ⟨a, i⟩ ⟨a', -⟩ ⟨same, rfl⟩
    exact exactMatch?_reordered _ i same
  · refine List.rel_filterMap ?_ numbered
    rintro ⟨a, i⟩ ⟨a', -⟩ ⟨same, rfl⟩
    exact weakMatch?_reordered _ i same
      ((perm' i a').trans (same.values_attributes.trans (perm i a).symm))
  · intro m n m' n' hm hn
    rw [hm.score, hn.score]

/-- A click on a button with the given attributes. -/
def clickWith (attributes : List (String × String)) : RecordedAction where
  kind := .click
  element := {
    tag := "button"
    markup := some "<button class=\"loginForm\">"
    attributes := .ofList attributes }

/-- Two attributes recorded the other way round, and the values of the element written backwards. -/
theorem allBy_reordered_button : List.Forall₂ Same
    (all "button.login-form" [clickWith [("title", "Log in"), ("Data-Id", "formLogin")]])
    (allBy (fun _ a => a.attributes.values.reverse) "button.login-form"
      [clickWith [("Data-Id", "formLogin"), ("title", "Log in")]]) := by
  have reordered : Reordered (clickWith [("title", "Log in"), ("Data-Id", "formLogin")])
      (clickWith [("Data-Id", "formLogin"), ("title", "Log in")]) :=
    ⟨rfl, .swap .., by decide⟩
  exact allBy_reordered "button.login-form" (.cons reordered .nil) (fun _ _ => .refl _)
    fun _ _ => List.reverse_perm _

end ActionMatch

end TestRepair
