import Mathlib.Algebra.Group.Nat.Defs
import TestRepair.Proofs.Locator.Literals
import TestRepair.Proofs.Text.Escaping

/-!
Measures that the steps of a swap raise. Where the new selector has as many backslashes as the old one,
the text itself is one: it weighs more after every step that has something to do. Longer texts weigh
more, and of texts of one length the one that has the new selector's character where the old and the
new selector first part.
-/

namespace TestRepair
namespace Replacement

open Text

section Measures

variable {f : List Char → Nat} {ps : List (List Char × List Char)} {text : List Char}

theorem le_rewriteAll (h : ∀ p ∈ ps, ∀ s, f s ≤ f (replaceAll p.1 p.2 s)) (text : List Char) :
    f text ≤ f (rewriteAll ps text) := by
  induction ps generalizing text with
  | nil => exact Nat.le_refl _
  | cons p ps ih =>
    obtain ⟨first, rest⟩ := List.forall_mem_cons.mp h
    exact Nat.le_trans (first text) (ih rest _)

/-- Where every step with something to do raises a measure and all steps together do not, none of them
has something to do. -/
theorem not_applies_of_measure (h : ∀ p ∈ ps, ∀ s, Applies p s → f s < f (replaceAll p.1 p.2 s))
    (idle : f (rewriteAll ps text) ≤ f text) : ∀ p ∈ ps, ¬Applies p text := by
  have grows (p) (hp : p ∈ ps) (s : List Char) : f s ≤ f (replaceAll p.1 p.2 s) := by
    by_cases swapped : Applies p s
    · exact Nat.le_of_lt (h p hp s swapped)
    · exact Nat.le_of_eq (congrArg f (replaceAll_of_not_applies swapped).symm)
  induction ps with
  | nil => exact fun _ hp => nomatch hp
  | cons p ps ih =>
    obtain ⟨first, rest⟩ := List.forall_mem_cons.mp h
    have growing := (List.forall_mem_cons.mp grows).2
    have still : ¬Applies p text := fun swapped =>
      absurd (Nat.lt_of_lt_of_le (first text swapped) (le_rewriteAll growing _))
        (Nat.not_lt_of_le idle)
    rw [rewriteAll_cons, replaceAll_of_not_applies still] at idle
    exact List.forall_mem_cons.mpr ⟨still, ih rest idle growing⟩

end Measures

section Weight

variable {a b : Char} {s s' t t' : List Char}

/-- The digit of a character, least for `a` and greatest for `b`. -/
def rank (a b c : Char) : Nat := if c = a then 1 else if c = b then 3 else 2

/-- A text read as a numeral to the base four. -/
def weight (a b : Char) : List Char → Nat
  | [] => 0
  | c :: s => rank a b c * 4 ^ s.length + weight a b s

theorem rank_pos (a b c : Char) : 1 ≤ rank a b c := by
  unfold rank
  split_ifs <;> omega

theorem rank_le (a b c : Char) : rank a b c ≤ 3 := by
  unfold rank
  split_ifs <;> omega

theorem weight_append (a b : Char) (s t : List Char) :
    weight a b (s ++ t) = weight a b s * 4 ^ t.length + weight a b t := by
  induction s with
  | nil => simp [weight]
  | cons c s ih =>
    simp only [List.cons_append, weight, ih, List.length_append, Nat.pow_add, Nat.add_mul,
      Nat.mul_assoc, Nat.add_assoc]

theorem weight_lt_pow (a b : Char) (s : List Char) : weight a b s < 4 ^ s.length := by
  induction s with
  | nil => simp [weight]
  | cons c s ih =>
    have digit := Nat.mul_le_mul_right (4 ^ s.length) (rank_le a b c)
    simp only [weight, List.length_cons, Nat.pow_succ]
    omega

theorem weight_lt_of_length_lt (h : s.length < t.length) : weight a b s < weight a b t := by
  cases t with
  | nil => cases h
  | cons c t =>
    have digit := Nat.mul_le_mul_right (4 ^ t.length) (rank_pos a b c)
    calc weight a b s < 4 ^ s.length := weight_lt_pow a b s
      _ ≤ 4 ^ t.length := Nat.pow_le_pow_right (by decide) (Nat.le_of_lt_succ h)
      _ ≤ weight a b (c :: t) := by simp only [weight]; omega

theorem length_le_of_weight_le (h : weight a b s ≤ weight a b t) : s.length ≤ t.length := by
  by_contra longer
  exact absurd (weight_lt_of_length_lt (a := a) (b := b) (Nat.lt_of_not_le longer)) (by omega)

theorem pow_le_of_weight_le (h : weight a b s ≤ weight a b t) : 4 ^ s.length ≤ 4 ^ t.length :=
  Nat.pow_le_pow_right (by decide) (length_le_of_weight_le h)

theorem weight_append_lt (hs : weight a b s < weight a b s') (ht : weight a b t ≤ weight a b t') :
    weight a b (s ++ t) < weight a b (s' ++ t') := by
  rw [weight_append, weight_append]
  have front : weight a b s * 4 ^ t.length < weight a b s' * 4 ^ t'.length :=
    Nat.mul_lt_mul_of_lt_of_le hs (pow_le_of_weight_le ht) (Nat.pow_pos (by decide))
  omega

theorem weight_cons_le (c : Char) (h : weight a b s ≤ weight a b t) :
    weight a b (c :: s) ≤ weight a b (c :: t) := by
  have digit := Nat.mul_le_mul_left (rank a b c) (pow_le_of_weight_le h)
  simp only [weight]
  omega

theorem weight_cons_lt (c : Char) (h : weight a b s < weight a b t) :
    weight a b (c :: s) < weight a b (c :: t) := by
  have digit := Nat.mul_le_mul_left (rank a b c) (pow_le_of_weight_le (Nat.le_of_lt h))
  simp only [weight]
  omega

/-- Behind a common beginning the first character decides between texts of one length. -/
theorem weight_lt_of_rank_lt {c d : Char} (h : rank a b c < rank a b d) (u : List Char)
    (length : s.length = t.length) : weight a b (u ++ c :: s) < weight a b (u ++ d :: t) := by
  induction u with
  | nil =>
    have digit := Nat.mul_le_mul_right (4 ^ t.length) (Nat.succ_le_of_lt h)
    have behind := weight_lt_pow a b s
    simp only [List.nil_append, weight, length, Nat.succ_mul] at *
    omega
  | cons e u ih => exact weight_cons_lt e ih

/-- A step that writes something weightier makes the text weightier. -/
theorem weight_replaceAll {old new : List Char} (hold : old ≠ []) (h : weight a b old < weight a b new)
    (s : List Char) : weight a b s ≤ weight a b (replaceAll old new s) ∧
      (old <:+: s → weight a b s < weight a b (replaceAll old new s)) := by
  induction s using replaceAll_induction hold with
  | nil => exact ⟨by simp, fun found => absurd (List.eq_nil_of_infix_nil found) hold⟩
  | found s ih =>
    rw [replaceAll_append hold]
    have more := weight_append_lt h ih.1
    exact ⟨Nat.le_of_lt more, fun _ => more⟩
  | kept c s hp ih =>
    rw [replaceAll_cons hp]
    refine ⟨weight_cons_le c ih.1, fun found => weight_cons_lt c (ih.2 ?_)⟩
    exact (List.infix_cons_iff.mp found).resolve_left hp

end Weight

section Literals

variable {q a b : Char} {old new : List Char}

theorem length_escapeFor (hq : q ≠ '\\') (s : List Char) :
    (escapeFor q s).length = s.length + s.count '\\' + s.count q := by
  induction s with
  | nil => rfl
  | cons c s ih =>
    by_cases backslash : c = '\\'
    · subst backslash
      simp only [escapeFor_backslash, List.length_cons, ih, List.count_cons_self,
        List.count_cons_of_ne hq.symm]
      omega
    · by_cases quote : c = q
      · subst quote
        simp only [escapeFor_quote hq, List.length_cons, ih, List.count_cons_self,
          List.count_cons_of_ne hq]
        omega
      · simp only [escapeFor_cons backslash quote, List.length_cons, ih,
          List.count_cons_of_ne backslash, List.count_cons_of_ne quote]
        omega

theorem length_literalOf (hq : q ≠ '\\') (s : List Char) :
    (literalOf q s).length = s.length + s.count '\\' + s.count q + 2 := by
  simp only [literalOf, List.cons_append, List.length_cons, List.length_append, length_escapeFor hq,
    List.length_nil]

theorem escapeFor_eq_self {s : List Char} (hb : '\\' ∉ s) (hq : q ∉ s) : escapeFor q s = s := by
  induction s with
  | nil => rfl
  | cons c s ih =>
    rw [List.mem_cons, not_or] at hb hq
    rw [escapeFor_cons (Ne.symm hb.1) (Ne.symm hq.1), ih hb.2 hq.2]

/-- Texts that part at two characters still part there once they are escaped, or at a backslash. -/
theorem escapeFor_parts (hq : q ≠ '\\') (hab : a ≠ b) (s t : List Char) :
    ∃ v c d s' t', escapeFor q (a :: s) = v ++ c :: s' ∧ escapeFor q (b :: t) = v ++ d :: t' ∧
      rank a b c < rank a b d := by
  have least : rank a b a = 1 := if_pos rfl
  have greatest : rank a b b = 3 := by rw [rank, if_neg hab.symm, if_pos rfl]
  have between {c : Char} (ha : c ≠ a) (hb : c ≠ b) : rank a b c = 2 := by
    rw [rank, if_neg ha, if_neg hb]
  by_cases first : a = '\\'
  · subst first
    rw [escapeFor_backslash]
    by_cases quote : b = q
    · subst quote
      rw [escapeFor_quote hq]
      exact ⟨['\\'], _, _, _, _, rfl, rfl, by omega⟩
    · rw [escapeFor_cons hab.symm quote]
      exact ⟨[], _, _, _, _, rfl, rfl, by omega⟩
  · by_cases quoted : a = q
    · subst quoted
      rw [escapeFor_quote hq]
      by_cases second : b = '\\'
      · subst second
        rw [escapeFor_backslash]
        exact ⟨['\\'], _, _, _, _, rfl, rfl, by omega⟩
      · rw [escapeFor_cons second hab.symm]
        exact ⟨[], _, _, _, _, rfl, rfl, by rw [between hq.symm (Ne.symm second)]; omega⟩
    · rw [escapeFor_cons first quoted]
      by_cases second : b = '\\'
      · subst second
        rw [escapeFor_backslash]
        exact ⟨[], _, _, _, _, rfl, rfl, by omega⟩
      · by_cases quote : b = q
        · subst quote
          rw [escapeFor_quote hq]
          exact ⟨[], _, _, _, _, rfl, rfl, by rw [between (Ne.symm first) hq.symm]; omega⟩
        · rw [escapeFor_cons second quote]
          exact ⟨[], _, _, _, _, rfl, rfl, by omega⟩

theorem exists_parting {s t : List Char} (length : s.length = t.length) (ne : s ≠ t) :
    ∃ u a b x y, s = u ++ a :: x ∧ t = u ++ b :: y ∧ a ≠ b := by
  induction s generalizing t with
  | nil => exact absurd (List.length_eq_zero_iff.mp length.symm).symm ne
  | cons c s ih =>
    cases t with
    | nil => cases length
    | cons d t =>
      by_cases same : c = d
      · subst same
        obtain ⟨u, a, b, x, y, rfl, rfl, hab⟩ :=
          ih (Nat.succ.inj length) fun e => ne (congrArg (c :: ·) e)
        exact ⟨c :: u, a, b, x, y, rfl, rfl, hab⟩
      · exact ⟨[], c, d, s, t, rfl, rfl, same⟩

theorem weight_literalOf_lt (hq : q ≠ '\\') (hab : a ≠ b) {u x y : List Char}
    (length : (literalOf q (u ++ a :: x)).length = (literalOf q (u ++ b :: y)).length) :
    weight a b (literalOf q (u ++ a :: x)) < weight a b (literalOf q (u ++ b :: y)) := by
  obtain ⟨v, c, d, s, t, hc, hd, more⟩ := escapeFor_parts hq hab x y
  have split {e : Char} {z w : List Char} {f : Char} (h : escapeFor q (e :: z) = v ++ f :: w) :
      literalOf q (u ++ e :: z) = (q :: escapeFor q u ++ v) ++ f :: (w ++ [q]) := by
    have parts : escapeFor q (u ++ e :: z) = escapeFor q u ++ escapeFor q (e :: z) :=
      List.flatMap_append
    simp [literalOf, parts, h]
  rw [split hc, split hd] at length ⊢
  refine weight_lt_of_rank_lt more _ ?_
  simpa using length

theorem count_of_letters (h : (old.filter (· ≠ '\\')).Perm (new.filter (· ≠ '\\'))) {c : Char}
    (hc : c ≠ '\\') : old.count c = new.count c := by
  have kept (s : List Char) : (s.filter (· ≠ '\\')).count c = s.count c :=
    List.count_filter (by simpa using hc)
  rw [← kept old, ← kept new, h.count_eq]

/-- The characters of a selector, apart from backslashes, are those of the other one, and that one has
no fewer backslashes. -/
structure Covers (old new : List Char) : Prop where
  letters : (old.filter (· ≠ '\\')).Perm (new.filter (· ≠ '\\'))
  backslashes : old.count '\\' ≤ new.count '\\'

theorem Covers.length (h : Covers old new) :
    old.length + new.count '\\' = new.length + old.count '\\' := by
  have parts (s : List Char) : s.length = (s.filter (· ≠ '\\')).length + s.count '\\' := by
    rw [← List.countP_eq_length_filter, List.length_eq_countP_add_countP (· ≠ '\\'), List.count]
    exact congrArg _ (List.countP_congr (by simp))
  have same := h.letters.length_eq
  have first := parts old
  have second := parts new
  omega

/-- The new literal is longer than a spelling of the old selector, or the spelling is the literal and
they are of one length. -/
theorem Covers.length_spelling (h : Covers old new) (hq : q ≠ '\\') {w : List Char}
    (hw : w ∈ spellings q old) : w.length < (literalOf q new).length ∨
      w = literalOf q old ∧ w.length = (literalOf q new).length ∧ old.length = new.length := by
  have length := h.length
  have backslashes := h.backslashes
  have spelled : w = literalOf q old ∨ w.length < (literalOf q new).length := by
    rcases eq_of_mem_spellings hw with rfl | rfl
    · by_cases bare : '\\' ∈ old ∨ q ∈ old
      · have marks : 0 < old.count '\\' ∨ 0 < new.count q :=
          bare.imp List.count_pos_iff.mpr fun k => count_of_letters h.letters hq ▸ List.count_pos_iff.mpr k
        rw [length_literalOf hq]
        exact .inr (by simp only [List.cons_append, List.length_cons, List.length_append,
          List.length_nil]; omega)
      · rw [not_or] at bare
        exact .inl (by rw [literalOf, escapeFor_eq_self bare.1 bare.2])
    · exact .inl rfl
  rcases spelled with rfl | shorter
  · have quotes := count_of_letters h.letters hq
    rw [length_literalOf hq, length_literalOf hq]
    by_cases more : old.count '\\' < new.count '\\'
    · exact .inl (by omega)
    · exact .inr ⟨rfl, by omega, by omega⟩
  · exact .inl shorter

/-- Every step that changes its spelling at all writes something weightier. -/
theorem Covers.gains (h : Covers old new) : ∃ a b, ∀ p ∈ swaps old new,
    p.1 ≠ [] ∧ (p.1 ≠ p.2 → weight a b p.1 < weight a b p.2) := by
  have proper {p : List Char × List Char} (hp : p ∈ swaps old new) : p.1 ≠ [] :=
    (count_of_mem_swaps hp (show 'a' ≠ '\\' by decide)).2
  by_cases parting : old.length = new.length ∧ old ≠ new
  · obtain ⟨u, a, b, x, y, rfl, rfl, hab⟩ := exists_parting parting.1 parting.2
    refine ⟨a, b, fun p hp => ⟨proper hp, fun _ => ?_⟩⟩
    obtain ⟨q, hq, spelled, rewritten⟩ := mem_swaps.mp hp
    have hq := ne_backslash_of_mem_quotes hq
    rw [rewritten]
    rcases h.length_spelling hq spelled with shorter | ⟨literal, length, -⟩
    · exact weight_lt_of_length_lt shorter
    · rw [literal] at length ⊢
      exact weight_literalOf_lt hq hab length
  · refine ⟨'a', 'a', fun p hp => ⟨proper hp, fun changed => ?_⟩⟩
    obtain ⟨q, hq, spelled, rewritten⟩ := mem_swaps.mp hp
    rw [rewritten] at changed ⊢
    rcases h.length_spelling (ne_backslash_of_mem_quotes hq) spelled with shorter | ⟨literal, -, length⟩
    · exact weight_lt_of_length_lt shorter
    · have same : old = new := not_not.mp fun ne => parting ⟨length, ne⟩
      exact absurd (literal.trans (by rw [same])) changed

/-- Where the new selector has no fewer backslashes, its steps do not give back the text. -/
theorem Covers.not_applies {text : List Char} (h : Covers old new)
    (idle : rewriteAll (swaps old new) text = text) : ∀ p ∈ swaps old new, ¬Applies p text := by
  obtain ⟨a, b, gains⟩ := h.gains
  refine not_applies_of_measure (f := weight a b) (fun p hp s swapped => ?_)
    (Nat.le_of_eq (congrArg _ idle))
  obtain ⟨proper, more⟩ := gains p hp
  exact (weight_replaceAll proper (more swapped.1) s).2 swapped.2

end Literals

end Replacement
end TestRepair
