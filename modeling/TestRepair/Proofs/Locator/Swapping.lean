import Mathlib.Data.List.Perm.Basic
import TestRepair.Proofs.Locator.Quoting

/-!
What swapping a locator in a text comes to. A builder call is never swapped in vain. A quoted selector
is only where the new one has the same characters, apart from backslashes: every step shifts the
number of a character by as much for every literal that it swaps, and all steps shift it the same way.
-/

namespace TestRepair
namespace Replacement

open Text

theorem count_escapeFor {c : Char} (hc : c ≠ '\\') (q : Char) (s : List Char) :
    (escapeFor q s).count c = s.count c := by
  induction s with
  | nil => rfl
  | cons d s ih =>
    have escaped : escapeFor q (d :: s) =
        (if d = '\\' then ['\\', '\\'] else if d = q then ['\\', q] else [d]) ++ escapeFor q s := rfl
    rw [escaped, List.count_append, ih, List.count_cons]
    split
    · next h => simp [h, Ne.symm hc]
    · split
      · next h => simp [h, Ne.symm hc, List.count_cons, Nat.add_comm]
      · simp [List.count_cons, Nat.add_comm]

theorem count_literalOf {c : Char} (hc : c ≠ '\\') (q : Char) (s : List Char) :
    (literalOf q s).count c = s.count c + [q, q].count c := by
  simp only [literalOf, List.cons_append, List.count_cons, List.count_append, count_escapeFor hc,
    List.count_nil]
  omega

theorem eq_of_mem_spellings {q : Char} {s w : List Char} (h : w ∈ spellings q s) :
    w = q :: s ++ [q] ∨ w = literalOf q s := by
  simp only [spellings] at h
  split at h <;> simp_all

theorem literalOf_mem_spellings (q : Char) (s : List Char) : literalOf q s ∈ spellings q s := by
  simp only [spellings]
  split <;> simp_all

theorem count_of_mem_spellings {q c : Char} {s w : List Char} (h : w ∈ spellings q s)
    (hc : c ≠ '\\') : w.count c = s.count c + [q, q].count c := by
  rcases eq_of_mem_spellings h with rfl | rfl
  · simp only [List.cons_append, List.count_cons, List.count_append, List.count_nil]
    omega
  · exact count_literalOf hc q s

/-- The steps for one quote. -/
def swapsIn (q : Char) (old new : List Char) : List (List Char × List Char) :=
  (spellings q old).map fun spelling => (spelling, literalOf q new)

theorem swaps_eq (old new : List Char) : swaps old new = quotes.flatMap (swapsIn · old new) := rfl

theorem mem_swapsIn {qs : List Char} {old new : List Char} {p : List Char × List Char} :
    p ∈ qs.flatMap (swapsIn · old new) ↔
      ∃ q ∈ qs, p.1 ∈ spellings q old ∧ p.2 = literalOf q new := by
  simp only [swapsIn, List.mem_flatMap, List.mem_map]
  constructor
  · rintro ⟨q, hq, w, hw, rfl⟩
    exact ⟨q, hq, hw, rfl⟩
  · rintro ⟨q, hq, hw, rewritten⟩
    exact ⟨q, hq, p.1, hw, by rw [← rewritten]⟩

theorem mem_swaps {old new : List Char} {p : List Char × List Char} :
    p ∈ swaps old new ↔ ∃ q ∈ quotes, p.1 ∈ spellings q old ∧ p.2 = literalOf q new := mem_swapsIn

theorem count_of_mem_swaps {old new : List Char} {p : List Char × List Char}
    (h : p ∈ swaps old new) {c : Char} (hc : c ≠ '\\') :
    p.1.count c + new.count c = p.2.count c + old.count c ∧ p.1 ≠ [] := by
  obtain ⟨q, -, spelled, rewritten⟩ := mem_swaps.mp h
  refine ⟨?_, by rcases eq_of_mem_spellings spelled with e | e <;> simp [e, literalOf]⟩
  rw [count_of_mem_spellings spelled hc, rewritten, count_literalOf hc]
  omega

/-- How a text has come from another one by swapping one selector for another `k` times. -/
def Shifted (old new text out : List Char) (k : Nat) : Prop :=
  ∀ c, c ≠ '\\' → out.count c + k * old.count c = text.count c + k * new.count c

theorem Shifted.refl (old new text : List Char) : Shifted old new text text 0 := fun c _ => by simp

theorem Shifted.trans {old new text mid out : List Char} {j k : Nat}
    (h : Shifted old new text mid j) (h' : Shifted old new mid out k) :
    Shifted old new text out (j + k) := by
  intro c hc
  have first := h c hc
  have second := h' c hc
  simp only [Nat.add_mul]
  omega

theorem shifted_replaceAll {old new text : List Char} {p : List Char × List Char}
    (hp : p ∈ swaps old new) (hs : p.1 <:+: text) :
    ∃ k, 0 < k ∧ Shifted old new text (replaceAll p.1 p.2 text) k := by
  have nonempty := (count_of_mem_swaps hp (show 'a' ≠ '\\' by decide)).2
  obtain ⟨k, hk, count⟩ := count_replaceAll nonempty p.2 text
  refine ⟨k, hk hs, fun c hc => ?_⟩
  have step := count c
  have balance := congrArg (k * ·) (count_of_mem_swaps hp hc).1
  simp only [Nat.mul_add] at balance
  omega

/-- The text after some swaps, one after the other. -/
def rewriteAll (ps : List (List Char × List Char)) (text : List Char) : List Char :=
  ps.foldl (fun text p => replaceAll p.1 p.2 text) text

@[simp]
theorem rewriteAll_nil (text : List Char) : rewriteAll [] text = text := rfl

@[simp]
theorem rewriteAll_cons (p : List Char × List Char) (ps : List (List Char × List Char))
    (text : List Char) : rewriteAll (p :: ps) text = rewriteAll ps (replaceAll p.1 p.2 text) := rfl

theorem rewriteAll_append (ps ps' : List (List Char × List Char)) (text : List Char) :
    rewriteAll (ps ++ ps') text = rewriteAll ps' (rewriteAll ps text) := List.foldl_append

/-- Whether a swap has something to do in a text. -/
def Applies (p : List Char × List Char) (text : List Char) : Prop := p.1 ≠ p.2 ∧ p.1 <:+: text

instance (p : List Char × List Char) (text : List Char) : Decidable (Applies p text) :=
  decidable_of_iff (p.1 ≠ p.2 ∧ occursIn p.1 text) (by rw [occursIn_iff, Applies])

theorem replaceAll_of_not_applies {p : List Char × List Char} {text : List Char}
    (h : ¬Applies p text) : replaceAll p.1 p.2 text = text := by
  by_cases same : p.1 = p.2
  · rw [same, replaceAll_same]
  · exact replaceAll_of_absent (fun found => h ⟨same, found⟩) p.2

theorem rewriteAll_of_not_applies {ps : List (List Char × List Char)} {text : List Char}
    (h : ∀ p ∈ ps, ¬Applies p text) : rewriteAll ps text = text := by
  induction ps with
  | nil => rfl
  | cons p ps ih =>
    rw [rewriteAll_cons, replaceAll_of_not_applies (h p List.mem_cons_self)]
    exact ih fun p' hp' => h p' (List.mem_cons_of_mem p hp')

/-- The steps carry out all swaps, and note a change exactly if one of them has something to do in
the text as it was. -/
theorem foldl_chain (ps : List (List Char × List Char)) (state : List Char × Bool) :
    let out := ps.foldl (fun state p => chain (swapSpelling? p.2 p.1) state) state
    out.1 = rewriteAll ps state.1 ∧
      (out.2 = true ↔ state.2 = true ∨ ∃ p ∈ ps, Applies p state.1) := by
  induction ps generalizing state with
  | nil => simp
  | cons p ps ih =>
    simp only [List.foldl_cons, rewriteAll_cons]
    by_cases h : Applies p state.1
    · have swapped : p.1 ≠ p.2 ∧ occursIn p.1 state.1 := ⟨h.1, occursIn_iff.mpr h.2⟩
      have step : chain (swapSpelling? p.2 p.1) state = (replaceAll p.1 p.2 state.1, true) := by
        simp only [chain, swapSpelling?, if_pos swapped]
      obtain ⟨text, changed⟩ := ih (replaceAll p.1 p.2 state.1, true)
      rw [step]
      exact ⟨text, changed.trans (by simp [h])⟩
    · have kept : ¬(p.1 ≠ p.2 ∧ occursIn p.1 state.1) := fun k => h ⟨k.1, occursIn_iff.mp k.2⟩
      have step : chain (swapSpelling? p.2 p.1) state = state := by
        simp only [chain, swapSpelling?, if_neg kept]
      obtain ⟨text, changed⟩ := ih state
      rw [step, replaceAll_of_not_applies h]
      exact ⟨text, changed.trans (by simp [h])⟩

section Quoted

variable {text old new : List Char}

theorem quoted?_of_applies (h : ∃ p ∈ swaps old new, Applies p text) :
    quoted? text old new = some (rewriteAll (swaps old new) text) := by
  obtain ⟨out, changed⟩ := foldl_chain (swaps old new) (text, false)
  rw [quoted?, ← out]
  exact if_pos (changed.mpr (.inr h))

theorem quoted?_of_not_applies (h : ∀ p ∈ swaps old new, ¬Applies p text) :
    quoted? text old new = none := by
  obtain ⟨-, changed⟩ := foldl_chain (swaps old new) (text, false)
  refine if_neg fun k => ?_
  obtain ⟨p, hp, applies⟩ := (changed.mp k).resolve_left nofun
  exact h p hp applies

end Quoted

/-- By induction on the steps: where a step applies, one selector at least was swapped. -/
theorem shifted_rewriteAll {old new : List Char} (ps : List (List Char × List Char))
    (hps : ps ⊆ swaps old new) (text : List Char) :
    ∃ k, Shifted old new text (rewriteAll ps text) k ∧ ((∃ p ∈ ps, Applies p text) → 0 < k) := by
  induction ps generalizing text with
  | nil => exact ⟨0, .refl old new text, by simp⟩
  | cons p ps ih =>
    obtain ⟨hp, rest⟩ := List.cons_subset.mp hps
    rw [rewriteAll_cons]
    by_cases swapped : Applies p text
    · obtain ⟨j, hj, first⟩ := shifted_replaceAll hp swapped.2
      obtain ⟨k, later, -⟩ := ih rest (replaceAll p.1 p.2 text)
      exact ⟨j + k, first.trans later, fun _ => Nat.lt_of_lt_of_le hj (Nat.le_add_right j k)⟩
    · obtain ⟨k, later, hk⟩ := ih rest text
      rw [replaceAll_of_not_applies swapped]
      exact ⟨k, later, fun h => hk (by simpa [swapped] using h)⟩

/-- The characters of a selector that tell whether swapping it can come to nothing. -/
def letters (s : String) : List Char := s.toList.filter (· ≠ '\\')

/-- A swap that gives back the text is one of a quoted selector for one with the same characters. -/
theorem letters_of_idle {text old new : String} (h : inText? text old new = some text) :
    Selector.isBuilderCall old = false ∧ (letters old).Perm (letters new) := by
  obtain ⟨out, found, same⟩ := Option.map_eq_some_iff.mp h
  have text_eq : text.toList = out := by rw [← same, String.toList_ofList]
  cases call : Selector.isBuilderCall old with
  | true =>
    exfalso
    simp only [call, if_true] at found
    split at found
    · next occurs =>
      obtain ⟨rest, name⟩ := FailingLocator.name_prefix_of_isBuilderCall call
      have start : old.toList = 'g' :: ("etBy".toList ++ rest) := name.symm
      rw [start] at found occurs
      exact replaceAll_ne (by decide) (occursIn_iff.mp occurs)
        ((Option.some.inj found).trans text_eq.symm)
    · cases found
  | false =>
    simp only [call, Bool.false_eq_true, if_false] at found
    by_cases step : ∃ p ∈ swaps old.toList new.toList, Applies p text.toList
    · rw [quoted?_of_applies step] at found
      have unchanged := (Option.some.inj found).trans text_eq.symm
      obtain ⟨k, shifted, hk⟩ := shifted_rewriteAll (swaps old.toList new.toList) (List.Subset.refl _)
        text.toList
      refine ⟨rfl, List.perm_iff_count.mpr fun c => ?_⟩
      by_cases hc : c = '\\'
      · have none (s : String) : c ∉ letters s := by simp [letters, hc]
        rw [List.count_eq_zero_of_not_mem (none old), List.count_eq_zero_of_not_mem (none new)]
      · have same := shifted c hc
        rw [unchanged] at same
        have count : old.toList.count c = new.toList.count c :=
          Nat.eq_of_mul_eq_mul_left (hk step) (Nat.add_left_cancel same)
        have kept (s : String) : (letters s).count c = s.toList.count c :=
          List.count_filter (by simpa using hc)
        rw [kept, kept, count]
    · rw [quoted?_of_not_applies fun p hp k => step ⟨p, hp, k⟩] at found
      cases found

end Replacement
end TestRepair
