import TestRepair.Proofs.Locator.Swapping
import TestRepair.Proofs.Text.Overlapping

/-!
What becomes of the literal of a selector. The steps of earlier quotes pass over it, for it has too
few of their quotes; its own steps turn it into the literal of the new selector. The steps of later
quotes read that literal again, and where it quotes the old selector they swap once more.
-/

namespace TestRepair
namespace Replacement

open Text

/-- A part of a literal with all of its quotes is the whole literal. -/
theorem eq_literalOf_of_count {q : Char} {s w : List Char} (h : w <:+: literalOf q s)
    (hc : (literalOf q s).count q ≤ w.count q) : w = literalOf q s :=
  eq_of_count_framed h hc

variable {q : Char} {old new : List Char}

theorem ne_backslash_of_mem_quotes (hq : q ∈ quotes) : q ≠ '\\' := by
  rintro rfl
  exact absurd hq (by decide)

/-- The literal of another quote holds a spelling only if its value has two quotes more. -/
theorem count_of_spelled {q' : Char} (hq : q' ∈ quotes) (hne : q' ≠ q) {s w : List Char}
    (hw : w ∈ spellings q' old) (h : w <:+: literalOf q s) : old.count q' + 2 ≤ s.count q' := by
  have proper := ne_backslash_of_mem_quotes hq
  have count := h.sublist.count_le q'
  rw [count_of_mem_spellings hw proper, count_literalOf proper] at count
  simpa [List.count_cons, hne.symm] using count

/-- The quotes whose steps come later. -/
def quotesAfter (q : Char) : List Char := (quotes.dropWhile (· ≠ q)).tail

theorem quotes_split (hq : q ∈ quotes) :
    ∃ earlier, quotes = earlier ++ q :: quotesAfter q ∧ q ∉ earlier ∧ q ∉ quotesAfter q := by
  simp only [quotes, List.mem_cons, List.not_mem_nil, or_false] at hq
  rcases hq with rfl | rfl | rfl
  · exact ⟨[], by decide, by decide, by decide⟩
  · exact ⟨['\x27'], by decide, by decide, by decide⟩
  · exact ⟨['\x27', '"'], by decide, by decide, by decide⟩

theorem applies_literalOf (q : Char) (h : old ≠ new) :
    Applies (literalOf q old, literalOf q new) (literalOf q old) :=
  ⟨fun e => h (literalOf_injective q e), List.infix_rfl⟩

/-- The steps for the literal's own quote turn it into the literal of the new selector. -/
theorem rewriteAll_swapsIn (hq : q ∈ quotes) :
    rewriteAll (swapsIn q old new) (literalOf q old) = literalOf q new := by
  have swapped : replaceAll (literalOf q old) (literalOf q new) (literalOf q old) = literalOf q new :=
    replaceAll_self (by simp [literalOf]) _
  by_cases e : q :: old ++ [q] = literalOf q old
  · have step : spellings q old = [literalOf q old] := by rw [spellings, if_pos e, e]
    simp [swapsIn, step, swapped]
  · have steps : spellings q old = [q :: old ++ [q], literalOf q old] := by
      rw [spellings, if_neg e]
    have bare : ¬q :: old ++ [q] <:+: literalOf q old := fun k => by
      have proper := ne_backslash_of_mem_quotes hq
      have spelled : q :: old ++ [q] ∈ spellings q old := steps ▸ List.mem_cons_self
      refine e (eq_literalOf_of_count k (Nat.le_of_eq ?_))
      rw [count_of_mem_spellings spelled proper, count_literalOf proper]
    simp only [swapsIn, steps, List.map_cons, List.map_nil, rewriteAll_cons, rewriteAll_nil,
      replaceAll_of_absent bare, swapped]

/-- A literal of the old selector comes to the steps of the later quotes as the literal of the new
one. -/
theorem rewriteAll_literalOf (hq : q ∈ quotes) :
    rewriteAll (swaps old new) (literalOf q old) =
      rewriteAll ((quotesAfter q).flatMap (swapsIn · old new)) (literalOf q new) := by
  obtain ⟨earlier, split, before, -⟩ := quotes_split hq
  have passed : rewriteAll (earlier.flatMap (swapsIn · old new)) (literalOf q old) =
      literalOf q old := by
    refine rewriteAll_of_not_applies fun p hp k => ?_
    obtain ⟨q', hq', hw, -⟩ := mem_swapsIn.mp hp
    have := count_of_spelled (split ▸ List.mem_append_left _ hq')
      (ne_of_mem_of_not_mem hq' before) hw k.2
    omega
  rw [swaps_eq, split, List.flatMap_append, List.flatMap_cons, rewriteAll_append, passed,
    rewriteAll_append, rewriteAll_swapsIn hq]

theorem quoted?_literalOf (hq : q ∈ quotes) (h : old ≠ new) :
    quoted? (literalOf q old) old new = some (rewriteAll (swaps old new) (literalOf q old)) :=
  quoted?_of_applies ⟨_, mem_swaps.mpr ⟨q, hq, literalOf_mem_spellings q old, rfl⟩,
    applies_literalOf q h⟩

/-- The literal of the old selector is always swapped. It becomes the literal of the new one exactly
if that one does not itself quote the old selector, in a quote whose turn comes later. -/
theorem literal_swapped_iff (hq : q ∈ quotes) (h : old ≠ new) :
    ∃ out, quoted? (literalOf q old) old new = some out ∧
      (out = literalOf q new ↔
        ∀ q' ∈ quotesAfter q, ∀ w ∈ spellings q' old, ¬w <:+: literalOf q new) := by
  let later := (quotesAfter q).flatMap (swapsIn · old new)
  obtain ⟨earlier, split, -, after⟩ := quotes_split hq
  have quote {q' : Char} (hq' : q' ∈ quotesAfter q) : q' ∈ quotes := by simp [split, hq']
  refine ⟨rewriteAll later (literalOf q new), ?_, fun same q' hq' w hw found => ?_, fun quiet => ?_⟩
  · rw [quoted?_literalOf hq h, rewriteAll_literalOf hq]
  · -- A swap for a later quote leaves more of these quotes than the literal had.
    have proper := ne_backslash_of_mem_quotes (quote hq')
    have more := count_of_spelled (quote hq') (ne_of_mem_of_not_mem hq' after) hw found
    have applies : Applies (w, literalOf q' new) (literalOf q new) := by
      refine ⟨fun e => ?_, found⟩
      have count := count_of_mem_spellings hw proper
      rw [show w = literalOf q' new from e, count_literalOf proper] at count
      omega
    obtain ⟨k, shifted, hk⟩ := shifted_rewriteAll later
      (fun _ hp => mem_swaps.mpr ((mem_swapsIn.mp hp).imp fun _ h => ⟨quote h.1, h.2⟩))
      (literalOf q new)
    have count := shifted q' proper
    rw [same] at count
    have := Nat.eq_of_mul_eq_mul_left (hk ⟨_, mem_swapsIn.mpr ⟨q', hq', hw, rfl⟩, applies⟩)
      (Nat.add_left_cancel count)
    omega
  · refine rewriteAll_of_not_applies fun p hp k => ?_
    obtain ⟨q', hq', hw, -⟩ := mem_swapsIn.mp hp
    exact quiet q' hq' p.1 hw k.2

/-- A button that shows the word `button`: in double quotes its new selector is a literal, in single
quotes it is not. -/
theorem literal_swapped_button :
    let old := "button".toList
    let new := "text=\"button\"".toList
    (∃ out, quoted? (literalOf '"' old) old new = some out ∧ out = literalOf '"' new) ∧
      ∃ out, quoted? (literalOf '\x27' old) old new = some out ∧ out ≠ literalOf '\x27' new := by
  intro old new
  have distinct : old ≠ new := by decide
  obtain ⟨out, found, double⟩ := literal_swapped_iff (q := '"') (by decide) distinct
  obtain ⟨out', found', single⟩ := literal_swapped_iff (q := '\x27') (by decide) distinct
  have quiet : ∀ q' ∈ quotesAfter '"', ∀ w ∈ spellings q' old, ¬w <:+: literalOf '"' new := by
    intro q' hq' w hw inside
    obtain rfl : q' = '\x60' := by simpa [quotesAfter, quotes] using hq'
    exact absurd (count_of_spelled (by decide) (by decide) hw inside) (by decide)
  have quoted : literalOf '"' old <:+: literalOf '\x27' new := occursIn_iff.mp (by decide)
  exact ⟨⟨out, found, double.mpr quiet⟩, ⟨out', found', fun e =>
    single.mp e '"' (by decide) _ (literalOf_mem_spellings '"' old) quoted⟩⟩

end Replacement
end TestRepair
