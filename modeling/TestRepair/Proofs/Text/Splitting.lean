import Mathlib.Data.List.Basic
import TestRepair.Text.Search

/-!
Splitting a text at a character, and joining pieces with it again.
-/

namespace TestRepair

namespace Text

theorem joinWith_eq_intercalate (sep : List Char) (ps : List (List Char)) :
    joinWith sep ps = sep.intercalate ps := by
  induction ps with
  | nil => rfl
  | cons p ps ih =>
      cases ps with
      | nil => simp [joinWith]
      | cons q ps => rw [joinWith, ih, List.intercalate_cons_cons]

theorem splitAtChar_of_notMem {sep : Char} {s : List Char} (h : sep ∉ s) :
    splitAtChar sep s = [s] := by
  induction s with
  | nil => rfl
  | cons c s ih =>
      rw [List.mem_cons, not_or] at h
      rw [splitAtChar, if_neg (Ne.symm h.1), ih h.2]

theorem splitAtChar_ne_nil (sep : Char) (s : List Char) : splitAtChar sep s ≠ [] := by
  cases s with
  | nil => exact List.cons_ne_nil _ _
  | cons c s =>
      rw [splitAtChar]
      split
      · exact List.cons_ne_nil _ _
      · split <;> exact List.cons_ne_nil _ _

theorem splitAtChar_append_cons (sep : Char) (s s' : List Char) :
    splitAtChar sep (s ++ sep :: s') = splitAtChar sep s ++ splitAtChar sep s' := by
  induction s with
  | nil => simp [splitAtChar]
  | cons c s ih =>
      rw [List.cons_append, splitAtChar, splitAtChar, ih]
      split
      · rfl
      · cases h : splitAtChar sep s with
        | nil => exact absurd h (splitAtChar_ne_nil sep s)
        | cons p ps => rfl

theorem splitAtChar_append {sep : Char} {s : List Char} (h : sep ∉ s) (s' : List Char) :
    splitAtChar sep (s ++ sep :: s') = s :: splitAtChar sep s' := by
  rw [splitAtChar_append_cons, splitAtChar_of_notMem h, List.singleton_append]

theorem splitAtChar_concat (sep : Char) (s : List Char) :
    splitAtChar sep (s ++ [sep]) = splitAtChar sep s ++ [[]] := splitAtChar_append_cons sep s []

theorem splitAtChar_intercalate {sep : Char} {ps : List (List Char)} (hps : ps ≠ [])
    (h : ∀ p ∈ ps, sep ∉ p) : splitAtChar sep ([sep].intercalate ps) = ps := by
  induction ps with
  | nil => exact absurd rfl hps
  | cons p ps ih =>
      have hp : sep ∉ p := h p List.mem_cons_self
      cases ps with
      | nil => simpa using splitAtChar_of_notMem hp
      | cons q ps =>
          rw [List.intercalate_cons_cons, List.append_assoc, List.singleton_append,
            splitAtChar_append hp, ih (List.cons_ne_nil q ps)]
          exact fun p' hp' => h p' (List.mem_cons_of_mem _ hp')

theorem flatten_splitAtChar (sep : Char) (s : List Char) :
    (splitAtChar sep s).flatten = s.filter (· ≠ sep) := by
  induction s with
  | nil => rfl
  | cons a s ih =>
      by_cases ha : a = sep
      · simp [splitAtChar, ha, ih]
      · rw [splitAtChar, if_neg ha, List.filter_cons_of_pos (by simpa using ha), ← ih]
        cases hs : splitAtChar sep s with
        | nil => exact absurd hs (splitAtChar_ne_nil sep s)
        | cons p ps => rfl

theorem mem_splitAtChar {sep c : Char} {s : List Char} :
    (∃ p ∈ splitAtChar sep s, c ∈ p) ↔ c ∈ s ∧ c ≠ sep := by
  rw [← List.mem_flatten, flatten_splitAtChar, List.mem_filter, decide_eq_true_iff]

end Text

end TestRepair
