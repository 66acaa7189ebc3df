import Mathlib.Data.List.DropRight
import Mathlib.Data.List.Infix
import TestRepair.Proofs.Text.Reading

/-!
Blanks at the ends of a text: what trimming leaves, and that a text without blanks occurs in the
trimmed text just if it occurs in the whole.
-/

namespace TestRepair.Text

variable {b s w z : List Char} {c : Char}

theorem rdropWhile_append_blank (hw : Blank w) :
    (z ++ w).rdropWhile isBlank = z.rdropWhile isBlank := by
  rw [List.rdropWhile, List.reverse_append, List.dropWhile_append_of_pos, List.rdropWhile]
  exact fun x hx => hw x (List.mem_reverse.mp hx)

theorem rdropWhile_append_of_getLast? (hw : w.getLast? = some c) (hc : isBlank c = false) :
    (z ++ w).rdropWhile isBlank = z ++ w := by
  obtain ⟨w', rfl⟩ := List.getLast?_eq_some_iff.mp hw
  rw [← List.append_assoc]
  exact List.rdropWhile_concat_neg _ _ _ (by simp [hc])

theorem trimEnd_append_blank (hw : Blank w) : trimEnd (z ++ w) = trimEnd z :=
  rdropWhile_append_blank hw

theorem trimEnd_append_of_getLast? (hw : w.getLast? = some c) (hc : isBlank c = false) :
    trimEnd (z ++ w) = z ++ w :=
  rdropWhile_append_of_getLast? hw hc

@[simp]
theorem trimEnd_trimEnd (s : List Char) : trimEnd (trimEnd s) = trimEnd s :=
  List.rdropWhile_idempotent isBlank s

theorem trimEnd_append (s : List Char) : ∃ b, s = trimEnd s ++ b ∧ Blank b :=
  ⟨s.rtakeWhile isBlank, List.rdropWhile_append_rtakeWhile.symm,
    fun _ => List.mem_rtakeWhile_imp⟩

theorem append_trimStart (s : List Char) : ∃ b, s = b ++ trimStart s ∧ Blank b :=
  ⟨s.takeWhile isBlank, List.takeWhile_append_dropWhile.symm, fun _ => List.mem_takeWhile_imp⟩

theorem trimEnd_eq_nil_iff : trimEnd s = [] ↔ Blank s := List.rdropWhile_eq_nil_iff

theorem blank_append : Blank (s ++ w) ↔ Blank s ∧ Blank w := List.forall_mem_append

theorem blank_trimEnd : Blank (trimEnd s) ↔ Blank s := by
  rw [← trimEnd_eq_nil_iff, trimEnd_trimEnd, trimEnd_eq_nil_iff]

theorem trim_eq_nil_iff : trim s = [] ↔ Blank s := by
  rw [trim, trimEnd_eq_nil_iff]
  obtain ⟨b, split, hb⟩ := append_trimStart s
  constructor
  · intro h
    rw [split]
    exact blank_append.mpr ⟨hb, h⟩
  · intro h
    rw [split] at h
    exact (blank_append.mp h).2

theorem trim_append (s : List Char) : ∃ b w, s = b ++ (trim s ++ w) ∧ Blank b ∧ Blank w := by
  obtain ⟨b, split, hb⟩ := append_trimStart s
  obtain ⟨w, split', hw⟩ := trimEnd_append (trimStart s)
  refine ⟨b, w, ?_, hb, hw⟩
  rw [trim, ← split']
  exact split

theorem head?_trim : ∀ c ∈ (trim s).head?, isBlank c = false := by
  intro c hc
  obtain ⟨w, split, -⟩ := trimEnd_append (trimStart s)
  have head : (s.dropWhile isBlank).head? = some c := by
    rw [← trimStart, split, ← trim, List.head?_append, Option.mem_def.mp hc]
    rfl
  have ink := List.head?_dropWhile_not isBlank s
  rw [head] at ink
  simpa using ink

@[simp]
theorem trim_trim (s : List Char) : trim (trim s) = trim s := by
  have front : trimStart (trim s) = trim s := by
    cases h : trim s with
    | nil => rfl
    | cons c t =>
        have ink : isBlank c = false := head?_trim c (by rw [h]; rfl)
        simp only [trimStart, List.dropWhile_cons, ink, Bool.false_eq_true, if_false]
  rw [trim, front, trim, trimEnd_trimEnd]

theorem trimStart_append_of_not_blank (hs : ¬Blank s) (w : List Char) :
    trimStart (s ++ w) = trimStart s ++ w := by
  have ink : (s.dropWhile isBlank).isEmpty = false := by
    simpa [Blank] using hs
  simp [trimStart, List.dropWhile_append, ink]

theorem trimEnd_append_of_not_blank (hs : ¬Blank s) (w : List Char) :
    trimEnd (w ++ s) = w ++ trimEnd s := by
  have back : ¬Blank s.reverse := by simpa [Blank] using hs
  have front := congrArg List.reverse (trimStart_append_of_not_blank back w.reverse)
  simpa [trimEnd, trimStart] using front

theorem trim_blank_append (hb : Blank b) (hw : Blank w) : trim (b ++ s ++ w) = trim s := by
  have start : trimStart (b ++ s) = trimStart s := List.dropWhile_append_of_pos hb
  by_cases blank : Blank s
  · rw [trim_eq_nil_iff.mpr blank, trim_eq_nil_iff]
    exact blank_append.mpr ⟨blank_append.mpr ⟨hb, blank⟩, hw⟩
  · have ink : ¬Blank (b ++ s) := fun h => blank (blank_append.mp h).2
    rw [trim, trimStart_append_of_not_blank ink, start, trimEnd_append_blank hw, trim]

theorem trim_cons (hc : isBlank c = false) (s : List Char) :
    trim (c :: s) = c :: trimEnd s := by
  have start : trimStart (c :: s) = c :: s := List.dropWhile_cons_of_neg (by simp [hc])
  rw [trim, start]
  by_cases blank : Blank s
  · rw [← List.singleton_append, trimEnd_append_blank blank, trimEnd_eq_nil_iff.mpr blank]
    simp [trimEnd, hc]
  · exact trimEnd_append_of_not_blank blank [c]

/-- A text without blanks. -/
def Solid (w : List Char) : Prop := ∀ c ∈ w, isBlank c = false

instance (w : List Char) : Decidable (Solid w) := List.decidableBAll _ w

theorem Solid.eq_nil (hw : Solid w) (hb : Blank w) : w = [] := by
  rw [List.eq_nil_iff_forall_not_mem]
  intro c hc
  exact absurd (hb c hc) (by simp [hw c hc])

theorem Solid.of_infix (hw : Solid w) (h : z <:+: w) : Solid z :=
  fun c hc => hw c (h.subset hc)

theorem Blank.of_infix (hw : Blank w) (h : z <:+: w) : Blank z :=
  fun c hc => hw c (h.subset hc)

/-- What starts without a blank, behind a text without one, is trimmed at its end alone. -/
theorem Solid.trim_append_cons (hw : Solid w) (hc : isBlank c = false) (s : List Char) :
    trim (w ++ c :: s) = w ++ trim (c :: s) := by
  have ink : ¬Blank (c :: s) := fun h => by simp [h c List.mem_cons_self] at hc
  have same : trimStart (c :: s) = c :: s := List.dropWhile_cons_of_neg (by simp [hc])
  cases w with
  | nil => rfl
  | cons d w =>
    rw [List.cons_append, trim_cons (hw d List.mem_cons_self), trimEnd_append_of_not_blank ink, trim,
      same]
    rfl

theorem Solid.trim_eq (hw : Solid w) : trim w = w := by
  obtain ⟨b, e, split, hb, he⟩ := trim_append w
  have front : b = [] := (hw.of_infix ⟨[], trim w ++ e, by simpa using split.symm⟩).eq_nil hb
  have back : e = [] := (hw.of_infix ⟨b ++ trim w, [], by simpa using split.symm⟩).eq_nil he
  rw [front, back, List.nil_append, List.append_nil] at split
  exact split.symm

theorem Solid.infix_append_blank (hw : Solid w) (hb : Blank b) : w <:+: s ++ b ↔ w <:+: s := by
  constructor
  · intro h
    have apart : ¬Straddles w s b := by
      rintro ⟨u, v, -, hv, rfl, -, behind⟩
      exact hv ((hw.of_infix (List.suffix_append u v).isInfix).eq_nil (hb.of_infix behind.isInfix))
    rcases infix_append_of_not_straddles apart h with inside | behind
    · exact inside
    · rw [hw.eq_nil (hb.of_infix behind)]
      exact List.nil_infix
  · intro h
    exact h.trans (List.prefix_append s b).isInfix

theorem Solid.infix_blank_append (hw : Solid w) (hb : Blank b) : w <:+: b ++ s ↔ w <:+: s := by
  constructor
  · intro h
    have apart : ¬Straddles w b s := by
      rintro ⟨u, v, hu, -, rfl, before, -⟩
      exact hu ((hw.of_infix (List.prefix_append u v).isInfix).eq_nil (hb.of_infix before.isInfix))
    rcases infix_append_of_not_straddles apart h with before | inside
    · rw [hw.eq_nil (hb.of_infix before)]
      exact List.nil_infix
    · exact inside
  · intro h
    exact h.trans (List.suffix_append b s).isInfix

theorem Solid.infix_trimEnd (hw : Solid w) : w <:+: trimEnd s ↔ w <:+: s := by
  obtain ⟨b, split, hb⟩ := trimEnd_append s
  conv_rhs => rw [split]
  exact (hw.infix_append_blank hb).symm

theorem Solid.infix_trim (hw : Solid w) : w <:+: trim s ↔ w <:+: s := by
  rw [trim, hw.infix_trimEnd]
  obtain ⟨b, split, hb⟩ := append_trimStart s
  conv_rhs => rw [split]
  exact (hw.infix_blank_append hb).symm

end TestRepair.Text
