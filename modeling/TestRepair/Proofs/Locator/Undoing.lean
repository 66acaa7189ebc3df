import TestRepair.Proofs.Locator.Weighing
import TestRepair.Proofs.Text.Guarding

/-!
Whether the steps of a swap can undo each other. Where the new selector has as many backslashes as the
old one, they cannot, for each makes the text weigh more. Nor can they where the old selector has quotes
of one kind only. Then the steps for other quotes overlap the new literals of these quotes in a single
character, so each of them leaves more of these literals. With none of those steps at work, the steps
for the selector's own quotes do the same, for they must not change which of these quotes are escaped.
-/

namespace TestRepair
namespace Replacement

open Text

variable {q x : Char} {old new text w v : List Char}

/-- A text with quotes of two kinds. -/
def Mixed (s : List Char) : Prop := ∃ q ∈ quotes, ∃ q' ∈ quotes, q ≠ q' ∧ q ∈ s ∧ q' ∈ s

theorem exists_kind (h : ¬Mixed old) : ∃ x ∈ quotes, ∀ q ∈ quotes, q ≠ x → q ∉ old := by
  by_cases some : ∃ x ∈ quotes, x ∈ old
  · obtain ⟨x, hx, inside⟩ := some
    exact ⟨x, hx, fun q hq ne mem => h ⟨q, hq, x, hx, ne, mem, inside⟩⟩
  · exact ⟨'"', by decide, fun q hq _ mem => some ⟨q, hq, mem⟩⟩

/-- A spelling is a content between quotes, with as many of them as the selector. -/
theorem content_of_mem_spellings (hq : q ≠ '\\') (h : w ∈ spellings q old) :
    ∃ v, w = q :: v ++ [q] ∧ v.count q = old.count q := by
  rcases eq_of_mem_spellings h with rfl | rfl
  · exact ⟨old, rfl, rfl⟩
  · exact ⟨escapeFor q old, rfl, count_escapeFor hq q old⟩

/-- A step that hardly overlaps the words loses none of them, and gains one where it writes one. -/
theorem places_step {ws : List (List Char)} {p : List Char × List Char} (hq : q ≠ '\\')
    (hp : p ∈ swapsIn q old new) (apart : p.1 ≠ p.2 → ∀ w ∈ ws, ClearOf p.1 w) (s : List Char) :
    places ws s ≤ places ws (replaceAll p.1 p.2 s) ∧
      (p.2 ∈ ws → Applies p s → places ws s < places ws (replaceAll p.1 p.2 s)) := by
  obtain ⟨w, spelled, rfl⟩ := List.mem_map.mp hp
  by_cases same : w = literalOf q new
  · rw [show replaceAll w (literalOf q new) s = s by rw [same, replaceAll_same]]
    exact ⟨Nat.le_refl _, fun _ swapped => absurd same swapped.1⟩
  · obtain ⟨v, rfl, -⟩ := content_of_mem_spellings hq spelled
    have step := places_replaceAll (y := escapeFor q new) (apart same) s
    exact ⟨step.1, fun written swapped => step.2 written swapped.2⟩

section OtherQuotes

variable (hx : x ∈ quotes) (other : ∀ q ∈ quotes, q ≠ x → q ∉ old)
  (count : ∀ c, c ≠ '\\' → old.count c = new.count c)

/-- The new literals of the quotes other than `x`. -/
def literalsBut (x : Char) (new : List Char) : List (List Char) :=
  (quotes.filter (· ≠ x)).map (literalOf · new)

include other count in
theorem clearOf_literalsBut (hq : q ∈ quotes) (spelled : w ∈ spellings q old)
    (changed : w ≠ literalOf q new) : ∀ l ∈ literalsBut x new, ClearOf w l := by
  intro l hl
  obtain ⟨q', mem, rfl⟩ := List.mem_map.mp hl
  obtain ⟨hq', ne⟩ : q' ∈ quotes ∧ q' ≠ x := by simpa using List.mem_filter.mp mem
  have proper := ne_backslash_of_mem_quotes hq
  have proper' := ne_backslash_of_mem_quotes hq'
  have absent : old.count q' = 0 := List.count_eq_zero.mpr (other q' hq' ne)
  by_cases same : q' = q
  · subst same
    obtain ⟨v, rfl, inner⟩ := content_of_mem_spellings proper spelled
    have inner' := count_escapeFor proper q' new
    have absent' := count q' proper
    have bare : q' ∉ v := List.count_eq_zero.mp (by omega)
    have bare' : q' ∉ escapeFor q' new := List.count_eq_zero.mp (by omega)
    refine clearOf_of_detached (fun e => changed ?_) (by omega) (detached_of_notMem bare _)
      (detached_of_notMem bare' _)
    rw [e]
    rfl
  · have fewer : (literalOf q' new).count q < w.count q := by
      rw [count_literalOf proper, count_of_mem_spellings spelled proper, count q proper]
      simp [same]
    refine clearOf_of_notMem (List.count_eq_zero.mp ?_) fewer
    rw [count_of_mem_spellings spelled proper', absent]
    simp [Ne.symm same]

include other count in
theorem places_literalsBut (hq : q ∈ quotes) {p : List Char × List Char}
    (hp : p ∈ swapsIn q old new) (s : List Char) :
    places (literalsBut x new) s ≤ places (literalsBut x new) (replaceAll p.1 p.2 s) ∧
      (q ≠ x → Applies p s →
        places (literalsBut x new) s < places (literalsBut x new) (replaceAll p.1 p.2 s)) := by
  obtain ⟨w, spelled, rfl⟩ := List.mem_map.mp hp
  have step := places_step (ne_backslash_of_mem_quotes hq) hp
    (fun changed => clearOf_literalsBut other count hq spelled changed) s
  have written (ne : q ≠ x) : literalOf q new ∈ literalsBut x new :=
    List.mem_map_of_mem (List.mem_filter.mpr ⟨hq, by simpa using ne⟩)
  exact ⟨step.1, fun ne => step.2 (written ne)⟩

include other count in
theorem places_le_rewriteAll {qs : List Char} (hqs : qs ⊆ quotes) (s : List Char) :
    places (literalsBut x new) s ≤
      places (literalsBut x new) (rewriteAll (qs.flatMap (swapsIn · old new)) s) := by
  refine le_rewriteAll (fun p hp s => ?_) s
  obtain ⟨q, hq, own⟩ := List.mem_flatMap.mp hp
  exact (places_literalsBut other count (hqs hq) own s).1

include other count in
theorem not_applies_of_places {qs : List Char} (hqs : qs ⊆ quotes) (hx : x ∉ qs) {s : List Char}
    (h : places (literalsBut x new) (rewriteAll (qs.flatMap (swapsIn · old new)) s) ≤
      places (literalsBut x new) s) : ∀ p ∈ qs.flatMap (swapsIn · old new), ¬Applies p s := by
  refine not_applies_of_measure (fun p hp s => ?_) h
  obtain ⟨q, hq, own⟩ := List.mem_flatMap.mp hp
  exact (places_literalsBut other count (hqs hq) own s).2 (ne_of_mem_of_not_mem hq hx)

include hx other count in
/-- Where all steps together give back the text, only those for the selector's own quotes have had
something to do, and they too give it back. -/
theorem own_of_idle (idle : rewriteAll (swaps old new) text = text) :
    rewriteAll (swapsIn x old new) text = text ∧
      ∀ p ∈ swaps old new, Applies p text → p ∈ swapsIn x old new := by
  obtain ⟨earlier, split, before, after⟩ := quotes_split hx
  let front := earlier.flatMap (swapsIn · old new)
  let back := (quotesAfter x).flatMap (swapsIn · old new)
  have steps : swaps old new = front ++ (swapsIn x old new ++ back) := by
    rw [swaps_eq, split, List.flatMap_append, List.flatMap_cons]
  rw [steps, rewriteAll_append, rewriteAll_append] at idle
  have inFront : earlier ⊆ quotes := fun q hq => by simp [split, hq]
  have inBack : quotesAfter x ⊆ quotes := fun q hq => by simp [split, hq]
  have middle (s : List Char) : places (literalsBut x new) s ≤
      places (literalsBut x new) (rewriteAll (swapsIn x old new) s) := by
    have own : [x] ⊆ quotes := by simpa using hx
    simpa using places_le_rewriteAll other count own s
  -- In the end there are as many of the literals as before, so there are never more.
  have first : ∀ p ∈ front, ¬Applies p text := by
    refine not_applies_of_places other count inFront before (Nat.le_trans (middle _) ?_)
    exact Nat.le_trans (places_le_rewriteAll other count inBack _)
      (Nat.le_of_eq (congrArg _ idle))
  rw [rewriteAll_of_not_applies first] at idle
  have last : ∀ p ∈ back, ¬Applies p (rewriteAll (swapsIn x old new) text) :=
    not_applies_of_places other count inBack after
      (Nat.le_trans (Nat.le_of_eq (congrArg _ idle)) (middle text))
  rw [rewriteAll_of_not_applies last] at idle
  rw [idle] at last
  refine ⟨idle, fun p hp swapped => ?_⟩
  rw [steps, List.mem_append, List.mem_append] at hp
  rcases hp with hp | hp | hp
  · exact absurd swapped (first p hp)
  · exact hp
  · exact absurd swapped (last p hp)

end OtherQuotes

section OwnQuotes

variable (hx : x ≠ '\\') (count : old.count x = new.count x)

include hx count in
/-- A step between literals that agree on which quotes are escaped leaves more of the new ones. -/
theorem places_own (v : List Char) (inner : v.count x = old.count x)
    (same : guards x false (v ++ [x]) = guards x false (escapeFor x new ++ [x])) {s : List Char}
    (swapped : Applies (x :: v ++ [x], literalOf x new) s) :
    places [literalOf x new] s <
      places [literalOf x new] (replaceAll (x :: v ++ [x]) (literalOf x new) s) := by
  have ne : v ≠ escapeFor x new := fun e => swapped.1 (by rw [e]; rfl)
  have pattern := guards_escapeFor hx new
  have apart : ClearOf (x :: v ++ [x]) (x :: escapeFor x new ++ [x]) :=
    clearOf_of_detached ne (by rw [count_escapeFor hx, inner, count])
      (detached_of_guards (same.trans pattern) pattern)
      (detached_of_guards pattern (same.trans pattern))
  exact (places_replaceAll (y := escapeFor x new) (fun l hl => List.mem_singleton.mp hl ▸ apart) s).2
    List.mem_cons_self swapped.2

include hx count in
theorem guards_literalOf :
    guards x false (escapeFor x old ++ [x]) = guards x false (escapeFor x new ++ [x]) := by
  rw [guards_escapeFor hx, guards_escapeFor hx, count]

include hx count in
/-- The step for the bare spelling, where it changes which quotes are escaped, has nothing to do: the
step behind it does not change this back. -/
theorem bare_absent (differ : guards x false (old ++ [x]) ≠ guards x false (escapeFor x new ++ [x]))
    (idle : replaceAll (literalOf x old) (literalOf x new)
      (replaceAll (x :: old ++ [x]) (literalOf x new) text) = text) :
    ¬x :: old ++ [x] <:+: text := by
  intro found
  have kept := guards_replaceAll (guards_literalOf hx count) false
    (replaceAll (x :: old ++ [x]) (literalOf x new) text)
  refine differ (guards_eq_of_replaceAll ?_ false found ?_)
  · rw [count_escapeFor hx, count]
  · exact kept.symm.trans (congrArg _ idle)

include hx count in
/-- The steps for the selector's own quotes do not undo each other. -/
theorem not_applies_of_own (idle : rewriteAll (swapsIn x old new) text = text) :
    ∀ p ∈ swapsIn x old new, ¬Applies p text := by
  have gains (s : List Char) : Applies (literalOf x old, literalOf x new) s →
      places [literalOf x new] s <
        places [literalOf x new] (replaceAll (literalOf x old) (literalOf x new) s) :=
    places_own hx count _ (count_escapeFor hx x old) (guards_literalOf hx count)
  by_cases alike : guards x false (old ++ [x]) = guards x false (escapeFor x new ++ [x])
  · refine not_applies_of_measure (f := places [literalOf x new]) (fun p hp s => ?_)
      (Nat.le_of_eq (congrArg _ idle))
    obtain ⟨w, spelled, rfl⟩ := List.mem_map.mp hp
    rcases eq_of_mem_spellings spelled with rfl | rfl
    · exact places_own hx count old rfl alike
    · exact gains s
  · have bare : x :: old ++ [x] ≠ literalOf x old := fun e => by
      have same : old = escapeFor x old := by simpa [literalOf] using e
      exact alike (by rw [← guards_literalOf hx count, ← same])
    have steps : swapsIn x old new = [(x :: old ++ [x], literalOf x new),
        (literalOf x old, literalOf x new)] := by
      rw [swapsIn, spellings, if_neg bare]
      rfl
    rw [steps] at idle ⊢
    have absent : ¬x :: old ++ [x] <:+: text := bare_absent hx count alike idle
    rw [rewriteAll_cons, replaceAll_of_absent absent] at idle
    have rest := not_applies_of_measure (f := places [literalOf x new])
      (by simpa using fun s => gains s) (Nat.le_of_eq (congrArg _ idle))
    exact List.forall_mem_cons.mpr ⟨fun swapped => absent swapped.2, rest⟩

end OwnQuotes

/-- Where the steps of a swap give back the text, the new selector has fewer backslashes, and the old one
has quotes of two kinds. -/
theorem mixed_of_quoted? (same : (old.filter (· ≠ '\\')).Perm (new.filter (· ≠ '\\')))
    (idle : quoted? text old new = some text) : new.count '\\' < old.count '\\' ∧ Mixed old := by
  by_cases step : ∃ p ∈ swaps old new, Applies p text
  · rw [quoted?_of_applies step] at idle
    replace idle := Option.some.inj idle
    obtain ⟨p, hp, swapped⟩ := step
    refine ⟨Nat.lt_of_not_le fun more => ?_, by_contra fun plain => ?_⟩
    · exact (Covers.mk same more).not_applies idle p hp swapped
    · obtain ⟨x, hx, other⟩ := exists_kind plain
      obtain ⟨own, inside⟩ := own_of_idle hx other (fun c hc => count_of_letters same hc) idle
      have proper := ne_backslash_of_mem_quotes hx
      exact not_applies_of_own proper (count_of_letters same proper) own p (inside p hp swapped)
        swapped
  · rw [quoted?_of_not_applies fun p hp applies => step ⟨p, hp, applies⟩] at idle
    cases idle

theorem quoted?_eq_none_iff {text old new : List Char} : quoted? text old new = none ↔
    ∀ q ∈ quotes, ∀ w ∈ spellings q old, w ≠ literalOf q new → ¬w <:+: text := by
  constructor
  · intro nothing q hq w hw changed found
    have step : ∃ p ∈ swaps old new, Applies p text :=
      ⟨(w, literalOf q new), mem_swaps.mpr ⟨q, hq, hw, rfl⟩, changed, found⟩
    rw [quoted?_of_applies step] at nothing
    cases nothing
  · intro absent
    refine quoted?_of_not_applies fun p hp applies => ?_
    obtain ⟨q, hq, hw, rewritten⟩ := mem_swaps.mp hp
    exact absent q hq p.1 hw (rewritten ▸ applies.1) applies.2

/-- What is reported as swapped is another text, unless the new selector has the characters of the old
one with fewer backslashes, and the old one has quotes of two kinds. Nothing is reported exactly where
nothing is to be swapped: the builder call does not occur, or no spelling of the selector that differs
from its new literal. -/
theorem swapped_or_absent (text old new : String) :
    (inText? text old new = some text → Selector.isBuilderCall old = false ∧
      (letters old).Perm (letters new) ∧ new.toList.count '\\' < old.toList.count '\\' ∧
        Mixed old.toList) ∧
    (inText? text old new = none ↔
      if Selector.isBuilderCall old then ¬old.toList <:+: text.toList
      else ∀ q ∈ quotes, ∀ w ∈ spellings q old.toList, w ≠ literalOf q new.toList →
        ¬w <:+: text.toList) := by
  constructor
  · intro idle
    obtain ⟨quoted, same⟩ := letters_of_idle idle
    obtain ⟨out, found, rfl⟩ := Option.map_eq_some_iff.mp idle
    simp only [quoted, Bool.false_eq_true, if_false, String.toList_ofList] at found
    exact ⟨quoted, same, mixed_of_quoted? same found⟩
  · unfold inText?
    cases call : Selector.isBuilderCall old with
    | true =>
      simp only [call, if_true, Option.map_eq_map, Option.map_eq_none_iff, ite_eq_right_iff,
        reduceCtorEq, imp_false, occursIn_iff]
    | false =>
      simp only [call, Bool.false_eq_true, if_false, Option.map_eq_map, Option.map_eq_none_iff]
      exact quoted?_eq_none_iff

/-- With two kinds of quotes and fewer backslashes a later step can undo an earlier one. -/
theorem swapped_back :
    let text := "\"\\\"'\\\"'\"\\''"
    let old := "\\\"'\"\\'"
    let new := "\"'\"'"
    inText? text old new = some text ∧ (letters old).Perm (letters new) ∧
      new.toList.count '\\' < old.toList.count '\\' ∧ Mixed old.toList := by
  intro text old new
  have idle : inText? text old new = some text := by decide +kernel
  exact ⟨idle, ((swapped_or_absent text old new).1 idle).2⟩

end Replacement
end TestRepair
