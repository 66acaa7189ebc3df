import Mathlib.Data.List.Induction
import Mathlib.Data.List.Nodup
import Mathlib.Data.String.Basic
import TestRepair.Dictionary

/-!
The entries of a map, and what setting one of them does to the list: it is found where it was, or comes
last. A map built from a list keeps its entries if no key occurs twice, and entries sorted by their keys
are the same list whichever way they came.
-/

namespace TestRepair.Dictionary

variable {κ α : Type} [DecidableEq κ]

theorem find?_append (k : κ) (es ds : List (κ × α)) :
    find? k (es ++ ds) = (find? k es).or (find? k ds) := by
  induction es with
  | nil => rfl
  | cons e es ih => by_cases h : e.1 = k <;> simp [find?, h, ih]

theorem mem_of_find? {k : κ} {v : α} {es : List (κ × α)} (h : find? k es = some v) :
    (k, v) ∈ es := by
  induction es with
  | nil => cases h
  | cons e es ih =>
      rw [find?] at h
      split at h
      · rename_i he
        cases h
        rw [← he]
        exact List.mem_cons_self
      · exact List.mem_cons_of_mem _ (ih h)

theorem find?_of_mem {k : κ} {v : α} {es : List (κ × α)} (hd : (es.map (·.1)).Nodup)
    (h : (k, v) ∈ es) : find? k es = some v := by
  induction es with
  | nil => cases h
  | cons e es ih =>
      rw [List.map_cons, List.nodup_cons] at hd
      rcases List.mem_cons.mp h with rfl | h
      · rw [find?, if_pos rfl]
      · have hk : e.1 ≠ k := fun hk => hd.1 (hk ▸ List.mem_map_of_mem (f := (·.1)) h)
        rw [find?, if_neg hk, ih hd.2 h]

theorem put_append_of_notMem {k : κ} {v : α} {es : List (κ × α)} (h : k ∉ es.map (·.1))
    (ds : List (κ × α)) : put k v (es ++ ds) = es ++ put k v ds := by
  induction es with
  | nil => rfl
  | cons e es ih =>
      simp only [List.map_cons, List.mem_cons, not_or] at h
      rw [List.cons_append, put, if_neg (Ne.symm h.1), ih h.2, List.cons_append]

theorem put_of_notMem {k : κ} {v : α} {es : List (κ × α)} (h : k ∉ es.map (·.1)) :
    put k v es = es ++ [(k, v)] := by
  have last : put k v (es ++ []) = es ++ put k v [] := put_append_of_notMem h []
  rwa [List.append_nil] at last

theorem put_append_of_mem {k : κ} {v : α} {es : List (κ × α)} (h : k ∈ es.map (·.1))
    (ds : List (κ × α)) : put k v (es ++ ds) = put k v es ++ ds := by
  induction es with
  | nil => cases h
  | cons e es ih =>
      by_cases he : e.1 = k
      · simp only [List.cons_append, put, he, if_true]
      · have hes : k ∈ es.map (·.1) := by
          rcases List.mem_cons.mp h with hk | hk
          · exact absurd hk.symm he
          · exact hk
        simp only [List.cons_append, put, he, if_false, ih hes]

theorem entries_ofList_concat (es : List (κ × α)) (e : κ × α) :
    (ofList (es ++ [e])).entries = put e.1 e.2 (ofList es).entries := by
  rw [ofList, List.foldl_append]
  rfl

/-- Entries with distinct keys are kept as they are. -/
theorem entries_ofList {es : List (κ × α)} (h : (es.map (·.1)).Nodup) : (ofList es).entries = es := by
  induction es using List.reverseRecOn with
  | nil => rfl
  | append_singleton es e ih =>
      rw [List.map_append, List.map_singleton] at h
      obtain ⟨hes, -, hne⟩ := List.nodup_append.mp h
      have hk : e.1 ∉ es.map (·.1) := fun hmem => hne e.1 hmem e.1 (List.mem_singleton.mpr rfl) rfl
      rw [entries_ofList_concat, ih hes, put_of_notMem hk]

theorem ofList_entries (d : Dictionary κ α) : ofList d.entries = d := ext (entries_ofList d.distinct)

theorem filter_put (p : κ → Bool) (k : κ) (v : α) (es : List (κ × α)) :
    (put k v es).filter (fun e => p e.1) =
      if p k then put k v (es.filter fun e => p e.1) else es.filter fun e => p e.1 := by
  induction es with
  | nil => cases hp : p k <;> simp [put, hp]
  | cons e es ih =>
      by_cases he : e.1 = k
      · subst he
        cases hp : p e.1 <;> simp [put, hp]
      · cases hp : p k <;> cases hpe : p e.1 <;> simp [put, he, hp, hpe, ih]

/-- Leaving out some keys before or after makes no difference. -/
theorem filter_ofList (p : κ → Bool) (es : List (κ × α)) :
    (ofList es).entries.filter (fun e => p e.1) =
      (ofList (es.filter fun e => p e.1)).entries := by
  induction es using List.reverseRecOn with
  | nil => rfl
  | append_singleton es e ih =>
      rw [entries_ofList_concat, filter_put, ih, List.filter_append]
      cases hp : p e.1 <;> simp [hp, entries_ofList_concat]

theorem mem_put {k : κ} {v : α} {es : List (κ × α)} {e : κ × α} (h : e ∈ put k v es) :
    e = (k, v) ∨ e ∈ es := by
  induction es with
  | nil => exact .inl (List.mem_singleton.mp h)
  | cons e' es ih =>
      rw [put] at h
      split at h
      · obtain rfl | h := List.mem_cons.mp h
        · exact .inl rfl
        · exact .inr (List.mem_cons_of_mem _ h)
      · obtain rfl | h := List.mem_cons.mp h
        · exact .inr List.mem_cons_self
        · exact (ih h).imp_right (List.mem_cons_of_mem _)

theorem mem_of_mem_ofList {es : List (κ × α)} {e : κ × α} (h : e ∈ (ofList es).entries) : e ∈ es := by
  induction es using List.reverseRecOn with
  | nil => cases h
  | append_singleton es e' ih =>
      rw [entries_ofList_concat] at h
      obtain rfl | h := mem_put h
      · simp
      · exact List.mem_append_left _ (ih h)

section Order

variable {d e : Dictionary κ α} {k : κ} {v : α}

theorem mem_entries_iff : (k, v) ∈ d.entries ↔ d.get? k = some v :=
  ⟨find?_of_mem d.distinct, mem_of_find?⟩

theorem find?_of_perm {es ds : List (κ × α)} (h : ds.Perm es) (distinct : (es.map (·.1)).Nodup)
    (k : κ) : find? k ds = find? k es := by
  refine Option.ext fun v => ?_
  constructor
  · intro found
    exact find?_of_mem distinct (h.mem_iff.mp (mem_of_find? found))
  · intro found
    exact find?_of_mem ((h.map (·.1)).nodup_iff.mpr distinct) (h.mem_iff.mpr (mem_of_find? found))

theorem get?_of_perm (h : d.entries.Perm e.entries) (k : κ) : d.get? k = e.get? k :=
  find?_of_perm h e.distinct k

/-- Maps that give the same have the same entries in some order. -/
theorem perm_of_get? (h : ∀ k, d.get? k = e.get? k) : d.entries.Perm e.entries := by
  have once (d : Dictionary κ α) : d.entries.Nodup := .of_map (·.1) d.distinct
  refine (List.perm_ext_iff_of_nodup (once d) (once e)).mpr ?_
  rintro ⟨k, v⟩
  rw [mem_entries_iff, mem_entries_iff, h]

/-- Entries with distinct keys that are set one after the other outdo what was there. -/
theorem get?_foldl_insert {es : List (κ × α)} (distinct : (es.map (·.1)).Nodup)
    (d : Dictionary κ α) (k : κ) :
    (es.foldl (fun d e => d.insert e.1 e.2) d).get? k = (find? k es).or (d.get? k) := by
  induction es generalizing d with
  | nil => rfl
  | cons e es ih =>
      rw [List.map_cons, List.nodup_cons] at distinct
      rw [List.foldl_cons, ih distinct.2, get?_insert, find?]
      by_cases h : e.1 = k
      · subst h
        rw [find?_eq_none_iff.mpr distinct.1]
        simp
      · simp [h, Ne.symm h]

end Order

section Sorted

variable {es ds : List (String × α)}

theorem pairwise_mergeSort_key (es : List (String × α)) :
    (es.mergeSort fun a b => decide (a.1 ≤ b.1)).Pairwise fun a b => a.1 ≤ b.1 := by
  refine (List.pairwise_mergeSort ?_ ?_ es).imp of_decide_eq_true
  · intro a b c hab hbc
    simp only [decide_eq_true_eq] at hab hbc ⊢
    exact le_trans hab hbc
  · intro a b
    simpa using le_total a.1 b.1

/-- Two sorted lists of the same entries, one for each key, are the same list. -/
theorem eq_of_sorted (perm : ds.Perm es)
    (one : ∀ k v v', (k, v) ∈ ds → (k, v') ∈ es → v = v')
    (hds : ds.Pairwise fun a b => a.1 ≤ b.1) (hes : es.Pairwise fun a b => a.1 ≤ b.1) : ds = es := by
  refine perm.eq_of_pairwise ?_ hds hes
  rintro ⟨k, v⟩ ⟨k', v'⟩ hd he hle hle'
  obtain rfl : k = k' := le_antisymm hle hle'
  exact Prod.ext rfl (one k v v' hd he)

end Sorted

end TestRepair.Dictionary
