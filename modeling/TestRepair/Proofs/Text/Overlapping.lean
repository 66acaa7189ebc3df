import Mathlib.Data.List.Infix
import TestRepair.Proofs.Text.Replacing

/-!
What replacing does to words that an occurrence hardly overlaps. Where it has no more than its first or
its last character in common with a word, and these characters are written again, no place where one of
the words stands is lost.
-/

namespace TestRepair.Text

variable {ws : List (List Char)} {q : Char} {s t u w x y : List Char}

/-- One of the words stands at the beginning of the text. -/
def Begins (ws : List (List Char)) (s : List Char) : Prop := ∃ w ∈ ws, w <+: s

instance (ws : List (List Char)) (s : List Char) : Decidable (Begins ws s) :=
  decidable_of_iff (∃ w ∈ ws, startsWith w s = true)
    (exists_congr fun _ => and_congr_right fun _ => startsWith_iff)

/-- At how many places of a text one of the words stands. -/
def places (ws : List (List Char)) : List Char → Nat
  | [] => 0
  | c :: s => (if Begins ws (c :: s) then 1 else 0) + places ws s

theorem places_le_append (ws : List (List Char)) (s t : List Char) :
    places ws t ≤ places ws (s ++ t) := by
  induction s with
  | nil => exact Nat.le_refl _
  | cons c s ih =>
    rw [List.cons_append, places]
    omega

theorem places_cons_of_begins {c : Char} (h : Begins ws (c :: s)) :
    places ws (c :: s) = places ws s + 1 := by
  rw [places, if_pos h, Nat.add_comm]

/-- A character in front of both texts does not make up for places that the second one has more. -/
theorem places_cons_le {c : Char} (h : Begins ws (c :: s) → Begins ws (c :: t)) {k : Nat}
    (more : places ws s + k ≤ places ws t) : places ws (c :: s) + k ≤ places ws (c :: t) := by
  rw [places, places]
  by_cases begins : Begins ws (c :: s)
  · rw [if_pos begins, if_pos (h begins)]
    omega
  · rw [if_neg begins]
    omega

theorem places_append_of_not_begins (h : ∀ u, u ≠ [] → u <:+ s → ¬Begins ws (u ++ t)) :
    places ws (s ++ t) = places ws t := by
  induction s with
  | nil => rfl
  | cons c s ih =>
    have first : ¬Begins ws (c :: (s ++ t)) := h (c :: s) (List.cons_ne_nil c s) List.suffix_rfl
    rw [List.cons_append, places, if_neg first, Nat.zero_add]
    exact ih fun u ne suffix => h u ne (suffix.trans (List.suffix_cons c s))

/-- Neither the text nor the word holds the other one, and they overlap by no more than a character. -/
structure ClearOf (old w : List Char) : Prop where
  outside : ¬w <:+: old
  whole : ¬old <:+: w
  behind : ∀ u, u <:+ old → u <+: w → u.length ≤ 1
  ahead : ∀ u, u <:+ w → u <+: old → u.length ≤ 1

section Replacing

/-- The rest of a word is still there once the text is rewritten from where it stands. -/
theorem ClearOf.prefix_replaceAll (h : ClearOf (q :: x ++ [q]) w) (hu : u <:+ w) (hs : u <+: s) :
    u <+: replaceAll (q :: x ++ [q]) (q :: y ++ [q]) s := by
  have proper : q :: x ++ [q] ≠ [] := List.cons_ne_nil _ _
  induction s using replaceAll_induction proper generalizing u with
  | nil => exact List.prefix_nil.mp hs ▸ List.nil_prefix
  | found s =>
    rw [replaceAll_append proper]
    rcases List.prefix_or_prefix_of_prefix hs (List.prefix_append _ s) with inside | beyond
    · have short := h.ahead u hu inside
      rcases u with _ | ⟨c, _ | ⟨d, u⟩⟩
      · exact List.nil_prefix
      · obtain ⟨rfl, -⟩ := List.cons_prefix_cons.mp inside
        exact List.cons_prefix_cons.mpr ⟨rfl, List.nil_prefix⟩
      · simp at short
    · exact absurd (beyond.isInfix.trans hu.isInfix) h.whole
  | kept c s missed ih =>
    rw [replaceAll_cons missed]
    cases u with
    | nil => exact List.nil_prefix
    | cons d u =>
      obtain ⟨rfl, rest⟩ := List.cons_prefix_cons.mp hs
      exact List.cons_prefix_cons.mpr ⟨rfl, ih ((List.suffix_cons d u).trans hu) rest⟩

theorem begins_replaceAll (h : ∀ w ∈ ws, ClearOf (q :: x ++ [q]) w) {c : Char}
    (hs : Begins ws (c :: s)) : Begins ws (c :: replaceAll (q :: x ++ [q]) (q :: y ++ [q]) s) := by
  obtain ⟨w, hw, begins⟩ := hs
  refine ⟨w, hw, ?_⟩
  cases w with
  | nil => exact List.nil_prefix
  | cons d w =>
    obtain ⟨rfl, rest⟩ := List.cons_prefix_cons.mp begins
    exact List.cons_prefix_cons.mpr ⟨rfl, (h _ hw).prefix_replaceAll (List.suffix_cons d w) rest⟩

/-- No word stands in an occurrence before its last character. -/
theorem ClearOf.not_begun (h : ClearOf (s ++ [q]) w) (ne : u ≠ []) (hu : u <:+ s) (t : List Char) :
    ¬w <+: u ++ q :: t := by
  intro begins
  obtain ⟨z, rfl⟩ := hu
  rw [List.append_assoc] at h
  have suffix : u ++ [q] <:+ z ++ (u ++ [q]) := List.suffix_append z _
  rw [show u ++ q :: t = u ++ [q] ++ t by simp] at begins
  rcases List.prefix_or_prefix_of_prefix begins (List.prefix_append _ t) with inside | beyond
  · exact h.outside (inside.isInfix.trans suffix.isInfix)
  · have short := h.behind _ suffix beyond
    have long := List.length_pos_iff.mpr ne
    rw [List.length_append, List.length_singleton] at short
    omega

/-- A step that hardly overlaps the words loses none of them, and gains one where it writes one. -/
theorem places_replaceAll (h : ∀ w ∈ ws, ClearOf (q :: x ++ [q]) w) (s : List Char) :
    places ws s ≤ places ws (replaceAll (q :: x ++ [q]) (q :: y ++ [q]) s) ∧
      (q :: y ++ [q] ∈ ws → q :: x ++ [q] <:+: s →
        places ws s < places ws (replaceAll (q :: x ++ [q]) (q :: y ++ [q]) s)) := by
  have proper : q :: x ++ [q] ≠ [] := List.cons_ne_nil _ _
  induction s using replaceAll_induction proper with
  | nil => exact ⟨Nat.zero_le _, fun _ found => absurd (List.eq_nil_of_infix_nil found) proper⟩
  | found s ih =>
    have front (z r : List Char) : q :: z ++ [q] ++ r = q :: z ++ q :: r := by simp
    have passed : places ws (q :: x ++ q :: s) = places ws (q :: s) :=
      places_append_of_not_begins fun u ne hu ⟨w, hw, begins⟩ =>
        (h w hw).not_begun ne hu s begins
    rw [replaceAll_append proper, front, front, passed]
    let r := replaceAll (q :: x ++ [q]) (q :: y ++ [q]) s
    have last : places ws (q :: s) ≤ places ws (q :: r) :=
      places_cons_le (k := 0) (begins_replaceAll h) ih.1
    refine ⟨last.trans (places_le_append ws (q :: y) _), fun written _ => ?_⟩
    calc places ws (q :: s) ≤ places ws (q :: r) := last
      _ ≤ places ws (y ++ q :: r) := places_le_append ws y _
      _ < places ws (q :: (y ++ q :: r)) := by
        rw [places_cons_of_begins ⟨_, written, by simp⟩]
        exact Nat.lt_succ_self _
  | kept c s missed ih =>
    rw [replaceAll_cons missed]
    exact ⟨places_cons_le (k := 0) (begins_replaceAll h) ih.1, fun written found =>
      places_cons_le (k := 1) (begins_replaceAll h)
        (ih.2 written ((List.infix_cons_iff.mp found).resolve_left missed))⟩

end Replacing

section Framed

/-- What stands in a text between two of its quotes has all of them only if it is the whole text. -/
theorem eq_of_count_framed (hw : w <:+: q :: x ++ [q])
    (count : (q :: x ++ [q]).count q ≤ w.count q) : w = q :: x ++ [q] := by
  obtain ⟨a, b, whole⟩ := hw
  have parts := congrArg (List.count q) whole
  simp only [List.count_append] at parts count
  have ha : q ∉ a := List.count_eq_zero.mp (by omega)
  have hb : q ∉ b := List.count_eq_zero.mp (by omega)
  rw [← whole]
  have first : a = [] := by
    cases a with
    | nil => rfl
    | cons c a => exact absurd (List.cons.inj whole).1 fun e => ha (by simp [e])
  have last : b = [] := by
    rcases List.eq_nil_or_concat b with e | ⟨b, c, rfl⟩
    · exact e
    · rw [List.concat_eq_append, ← List.append_assoc] at whole
      exact absurd (List.append_inj_right' whole rfl) fun e => hb (by simp_all)
  simp [first, last]

/-- A word between quotes that the text does not have. -/
theorem clearOf_of_notMem (hq : q ∉ s) {d : Char} (fewer : (q :: x ++ [q]).count d < s.count d) :
    ClearOf s (q :: x ++ [q]) where
  outside inside := hq (inside.mem (by simp))
  whole inside := absurd (inside.sublist.count_le d) (by omega)
  behind u suffix pre := by
    cases u with
    | nil => simp
    | cons c u =>
      obtain ⟨rfl, -⟩ := List.cons_prefix_cons.mp pre
      exact absurd (suffix.mem List.mem_cons_self) hq
  ahead u suffix pre := by
    rcases List.suffix_concat_iff.mp suffix with rfl | ⟨v, rfl, -⟩
    · simp
    · exact absurd (pre.mem (by simp)) hq

/-- No end of one content behind a quote begins the other one. -/
def Detached (q : Char) (x y : List Char) : Prop :=
  ∀ z v, v ≠ [] → x ++ [q] = z ++ q :: v → ¬v <+: y ++ [q]

theorem Detached.length_le (h : Detached q x y) (hx : u <:+ q :: x ++ [q])
    (whole : u ≠ q :: x ++ [q]) (hy : u <+: q :: y ++ [q]) : u.length ≤ 1 := by
  rcases List.suffix_cons_iff.mp hx with same | ⟨z, split⟩
  · exact absurd same whole
  · rcases u with _ | ⟨c, _ | ⟨d, v⟩⟩
    · simp
    · simp
    · obtain ⟨rfl, rest⟩ := List.cons_prefix_cons.mp hy
      exact absurd rest (h z _ (List.cons_ne_nil d v) split.symm)

theorem clearOf_of_detached (ne : x ≠ y) (count : x.count q = y.count q) (hxy : Detached q x y)
    (hyx : Detached q y x) : ClearOf (q :: x ++ [q]) (q :: y ++ [q]) := by
  have same (s t : List Char) (e : s.count q = t.count q) (inside : q :: s ++ [q] <:+: q :: t ++ [q]) :
      s = t := by
    have whole := eq_of_count_framed inside (by simp [e])
    simpa using whole
  refine ⟨fun k => ne (same y x count.symm k).symm, fun k => ne (same x y count k),
    fun u hx hy => hxy.length_le hx ?_ hy, fun u hy hx => hyx.length_le hy ?_ hx⟩
  · rintro rfl
    exact ne (same x y count hy.isInfix)
  · rintro rfl
    exact ne (same y x count.symm hx.isInfix).symm

theorem detached_of_notMem (hq : q ∉ x) (y : List Char) : Detached q x y := by
  intro z v ne split
  obtain ⟨v, c, rfl⟩ := (List.eq_nil_or_concat' v).resolve_left ne
  rw [← List.cons_append, ← List.append_assoc] at split
  have inside := List.append_inj_left' split rfl
  exact absurd (by simp [inside]) hq

end Framed

end TestRepair.Text
