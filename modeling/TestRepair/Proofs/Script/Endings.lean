import TestRepair.Proofs.Text.Inserting
import TestRepair.Proofs.Text.Replacing
import TestRepair.Script.Import

/-!
When a specifier needs an ending. Only its last step decides, and of that only what stands behind the
last dot. An ending that is put in before a quote further up makes no difference.
-/

namespace TestRepair

namespace Text

variable {c : Char} {s a b : List Char}

theorem splitFirst?_eq_some_iff : splitFirst? c s = some (a, b) ↔ s = a ++ c :: b ∧ c ∉ a := by
  induction s generalizing a with
  | nil => simp [splitFirst?]
  | cons d s ih =>
      by_cases h : d = c
      · subst h
        cases a with
        | nil => simp [splitFirst?, eq_comm]
        | cons x a =>
            simp only [splitFirst?, if_true, Option.some.injEq, Prod.mk.injEq, reduceCtorEq, false_and,
              List.cons_append, List.cons.injEq, List.mem_cons, not_or, false_iff, not_and]
            rintro ⟨rfl, -⟩ h
            exact absurd rfl h
      · cases a with
        | nil => simp [splitFirst?, h]
        | cons x a =>
            simp only [splitFirst?, if_neg h, Option.map_eq_some_iff, Prod.exists, Prod.mk.injEq,
              List.cons.injEq, List.cons_append, List.mem_cons, not_or]
            constructor
            · rintro ⟨a', b', found, ⟨rfl, rfl⟩, rfl⟩
              obtain ⟨rfl, ha⟩ := ih.mp found
              exact ⟨⟨rfl, rfl⟩, Ne.symm h, ha⟩
            · rintro ⟨⟨rfl, rfl⟩, -, ha⟩
              exact ⟨a, b, ih.mpr ⟨rfl, ha⟩, ⟨rfl, rfl⟩, rfl⟩

/-- A text is divided at its first mark in one way. -/
theorem append_cons_inj_of_first {u v s t : List Char} (hu : c ∉ u) (hv : c ∉ v)
    (h : u ++ c :: s = v ++ c :: t) : u = v ∧ s = t := by
  have left : splitFirst? c (u ++ c :: s) = some (u, s) := splitFirst?_eq_some_iff.mpr ⟨rfl, hu⟩
  have right : splitFirst? c (v ++ c :: t) = some (v, t) := splitFirst?_eq_some_iff.mpr ⟨rfl, hv⟩
  rw [h, right] at left
  cases left
  exact ⟨rfl, rfl⟩

theorem splitFirst?_eq_none_iff : splitFirst? c s = none ↔ c ∉ s := by
  induction s with
  | nil => simp [splitFirst?]
  | cons d s ih =>
      by_cases h : d = c
      · simp [splitFirst?, h]
      · simp [splitFirst?, h, Ne.symm h, ih]

theorem splitLast?_eq_some_iff : splitLast? c s = some (a, b) ↔ s = a ++ c :: b ∧ c ∉ b := by
  simp only [splitLast?, Option.map_eq_some_iff, Prod.exists, Prod.mk.injEq]
  constructor
  · rintro ⟨u, v, found, rfl, rfl⟩
    obtain ⟨e, hu⟩ := splitFirst?_eq_some_iff.mp found
    refine ⟨?_, by simpa using hu⟩
    simpa using congrArg List.reverse e
  · rintro ⟨rfl, hb⟩
    exact ⟨b.reverse, a.reverse, splitFirst?_eq_some_iff.mpr ⟨by simp, by simpa using hb⟩, by simp⟩

theorem splitLast?_eq_none_iff : splitLast? c s = none ↔ c ∉ s := by
  simp [splitLast?, splitFirst?_eq_none_iff]

end Text

namespace Script

open Text

/-- The last step of a specifier: what stands behind its last slash. -/
def lastStep (specifier : List Char) : List Char :=
  ((splitLast? '/' specifier).map (·.2)).getD specifier

/-- A name with a known ending. -/
def EndsKnown (name : List Char) : Prop :=
  ∃ stem e, stem ≠ [] ∧ e ∈ knownExtensions ∧ name = stem ++ '.' :: e

theorem lastStep_of_notMem {s : List Char} (h : '/' ∉ s) : lastStep s = s := by
  simp [lastStep, splitLast?_eq_none_iff.mpr h]

theorem lastStep_append {a b : List Char} (h : '/' ∉ b) : lastStep (a ++ '/' :: b) = b := by
  simp [lastStep, splitLast?_eq_some_iff.mpr ⟨rfl, h⟩]

/-- A specifier is its last step, or that stands behind a slash. -/
theorem lastStep_cases (s : List Char) :
    '/' ∉ lastStep s ∧ (s = lastStep s ∨ ∃ a, s = a ++ '/' :: lastStep s) := by
  cases h : splitLast? '/' s with
  | none =>
      have noSlash := splitLast?_eq_none_iff.mp h
      rw [lastStep_of_notMem noSlash]
      exact ⟨noSlash, .inl rfl⟩
  | some found =>
      obtain ⟨a, b⟩ := found
      obtain ⟨rfl, hb⟩ := splitLast?_eq_some_iff.mp h
      rw [lastStep_append hb]
      exact ⟨hb, .inr ⟨a, rfl⟩⟩

theorem known_iff {name : List Char} :
    ((splitLast? '.' name).any fun (stem, e) => !stem.isEmpty && knownExtensions.contains e) = true ↔
      EndsKnown name := by
  have noDot : ∀ e ∈ knownExtensions, '.' ∉ e := by decide
  constructor
  · intro h
    cases found : splitLast? '.' name with
    | none => simp [found] at h
    | some split =>
        obtain ⟨stem, e⟩ := split
        simp only [found, Option.any_some, Bool.and_eq_true, Bool.not_eq_true',
          List.isEmpty_eq_false_iff, List.contains_iff_mem] at h
        exact ⟨stem, e, h.1, h.2, (splitLast?_eq_some_iff.mp found).1⟩
  · rintro ⟨stem, e, ne, he, rfl⟩
    rw [splitLast?_eq_some_iff.mpr ⟨rfl, noDot e he⟩]
    simp [ne, he]

theorem hasKnownExtension_iff {s : List Char} : hasKnownExtension s = true ↔
    lastStep s = ['.'] ∨ lastStep s = ['.', '.'] ∨ EndsKnown (lastStep s) := by
  rw [← known_iff]
  simp only [hasKnownExtension, lastStep, Bool.or_eq_true, beq_iff_eq, or_assoc]

theorem needsExtension_iff {s : List Char} : needsExtension s = true ↔
    hasKnownExtension s = false ∧ s.getLast? ≠ some '/' := by
  simp [needsExtension, ← endsWith_singleton]

/-- An ending makes a specifier complete. -/
theorem needsExtension_append {e s : List Char} (he : e ∈ knownExtensions)
    (h : needsExtension s = true) (ne : s ≠ []) : needsExtension (s ++ '.' :: e) = false := by
  have noSlash : ∀ e ∈ knownExtensions, '/' ∉ '.' :: e := by decide
  obtain ⟨hs, shape⟩ := lastStep_cases s
  have behind : '/' ∉ lastStep s ++ '.' :: e := by
    simpa only [List.mem_append, hs, false_or] using noSlash e he
  have last : lastStep (s ++ '.' :: e) = lastStep s ++ '.' :: e := by
    rcases shape with shape | ⟨a, shape⟩
    · conv_lhs => rw [shape]
      exact lastStep_of_notMem behind
    · conv_lhs => rw [shape, List.append_assoc, List.cons_append]
      exact lastStep_append behind
  have proper : lastStep s ≠ [] := by
    intro empty
    rw [empty] at shape
    rcases shape with rfl | ⟨a, rfl⟩
    · exact ne rfl
    · exact (needsExtension_iff.mp h).2 (by simp)
  have known : hasKnownExtension (s ++ '.' :: e) = true :=
    hasKnownExtension_iff.mpr (.inr (.inr (last ▸ ⟨lastStep s, e, proper, he, rfl⟩)))
  rw [← Bool.not_eq_true, needsExtension_iff, known]
  simp

section Strewn

variable {e s t : List Char} {q : Char}

theorem strewn_lastStep (h : Strewn e q s t) (he : '/' ∉ e) (hq : q ≠ '/') :
    Strewn e q (lastStep s) (lastStep t) := by
  obtain ⟨hs, shape | ⟨a, shape⟩⟩ := lastStep_cases s
  · have noSlash : '/' ∉ t := by
      rw [h.mem_iff he, shape]
      exact hs
    rwa [← shape, lastStep_of_notMem noSlash]
  · obtain ⟨a', b', rfl, -, hb⟩ := h.split_char hq.symm shape
    rw [lastStep_append (by rwa [hb.mem_iff he])]
    exact hb

theorem endsKnown_iff_of_strewn (h : Strewn e q s t) (hq : ∀ e ∈ knownExtensions, q ∉ '.' :: e) :
    EndsKnown t ↔ EndsKnown s := by
  constructor
  · rintro ⟨stem, x, ne, hx, shape⟩
    obtain ⟨stem', rfl, hstem⟩ := h.split_right (hq x hx) shape
    exact ⟨stem', x, mt hstem.eq_nil_iff.mpr ne, hx, rfl⟩
  · rintro ⟨stem, x, ne, hx, shape⟩
    obtain ⟨stem', x', rfl, hstem, hx'⟩ := h.split shape
    rw [hx'.eq_of_notMem (hq x hx)]
    exact ⟨stem', x, mt hstem.eq_nil_iff.mp ne, hx, rfl⟩

/-- Endings put in before a quote further up leave open or complete what was so. -/
theorem needsExtension_of_strewn (h : Strewn e q s t) (he : '/' ∉ e) (hq : q ≠ '/') (dot : q ≠ '.')
    (known : ∀ e ∈ knownExtensions, q ∉ '.' :: e) : needsExtension t = needsExtension s := by
  have last := strewn_lastStep h he hq
  have dots : q ∉ ['.'] ∧ q ∉ ['.', '.'] := by simp [dot]
  have complete : hasKnownExtension t = hasKnownExtension s := by
    rw [Bool.eq_iff_iff, hasKnownExtension_iff, hasKnownExtension_iff,
      last.eq_iff_of_notMem dots.1, last.eq_iff_of_notMem dots.2, endsKnown_iff_of_strewn last known]
  rw [Bool.eq_iff_iff, needsExtension_iff, needsExtension_iff, complete, h.getLast?_eq]

end Strewn

end Script
end TestRepair
