import TestRepair.Proofs.Text.Reading
import TestRepair.Script.Import

/-!
What the phrases of scripts read, told as the texts that they span.
-/

namespace TestRepair
namespace Script

open Text Recogniser

section

variable {α : Type} {c c' : Cursor} {v : α} {u : Unit}

theorem blanks_eq_some_iff :
    blanks c = some (u, c') ↔ ∃ w, c.Spans w c' ∧ Ends isBlank w c'.after := by
  rw [blanks, bind_eq_some_iff]
  constructor
  · rintro ⟨w, _, read, h⟩
    cases h
    exact ⟨w, run_eq_some_iff.mp read⟩
  · rintro ⟨w, read⟩
    exact ⟨w, c', run_eq_some_iff.mpr read, rfl⟩

theorem blanks_append {w before rest : List Char} (h : Ends isBlank w rest) :
    blanks ⟨before, w ++ rest⟩ = some ((), ⟨w.reverse ++ before, rest⟩) :=
  blanks_eq_some_iff.mpr ⟨w, ⟨rfl, rfl⟩, h⟩

theorem blanks1_eq_some_iff :
    blanks1 c = some (u, c') ↔ ∃ w, w ≠ [] ∧ c.Spans w c' ∧ Ends isBlank w c'.after := by
  rw [blanks1, bind_eq_some_iff]
  constructor
  · rintro ⟨w, _, read, h⟩
    cases h
    exact ⟨w, run1_eq_some_iff.mp read⟩
  · rintro ⟨w, read⟩
    exact ⟨w, c', run1_eq_some_iff.mpr read, rfl⟩

theorem blanks1_append {w before rest : List Char} (ne : w ≠ []) (h : Ends isBlank w rest) :
    blanks1 ⟨before, w ++ rest⟩ = some ((), ⟨w.reverse ++ before, rest⟩) :=
  blanks1_eq_some_iff.mpr ⟨w, ne, ⟨rfl, rfl⟩, h⟩

theorem isSome_blanks_bind_iff {before after : List Char} {f : Unit → Recogniser α} :
    ((blanks >>= f) ⟨before, after⟩).isSome = true ↔ ∃ w rest, after = w ++ rest ∧
      Ends isBlank w rest ∧ (f () ⟨w.reverse ++ before, rest⟩).isSome = true := by
  rw [isSome_bind_iff]
  constructor
  · rintro ⟨u, ⟨back, rest⟩, read, h⟩
    obtain ⟨w, span, ends⟩ := blanks_eq_some_iff.mp read
    obtain rfl : back = w.reverse ++ before := span.before
    exact ⟨w, rest, span.after, ends, h⟩
  · rintro ⟨w, rest, rfl, ends, h⟩
    exact ⟨(), _, blanks_append ends, h⟩

theorem isSome_blanks1_bind_iff {before after : List Char} {f : Unit → Recogniser α} :
    ((blanks1 >>= f) ⟨before, after⟩).isSome = true ↔ ∃ w rest, w ≠ [] ∧ after = w ++ rest ∧
      Ends isBlank w rest ∧ (f () ⟨w.reverse ++ before, rest⟩).isSome = true := by
  rw [isSome_bind_iff]
  constructor
  · rintro ⟨u, ⟨back, rest⟩, read, h⟩
    obtain ⟨w, ne, span, ends⟩ := blanks1_eq_some_iff.mp read
    obtain rfl : back = w.reverse ++ before := span.before
    exact ⟨w, rest, ne, span.after, ends, h⟩
  · rintro ⟨w, rest, ne, rfl, ends, h⟩
    exact ⟨(), _, blanks1_append ne ends, h⟩

theorem isSome_latestFrom_cons_iff {p : Char → Bool} {inner : Recogniser α} {x : Char}
    {before after : List Char} : (latestFrom p inner before (x :: after)).isSome = true ↔
      p x = true ∧ (latestFrom p inner (x :: before) after).isSome = true ∨
        (inner ⟨before, x :: after⟩).isSome = true := by
  rw [latestFrom]
  split
  · next hx => cases latestFrom p inner (x :: before) after <;> simp [hx]
  · next hx => simp [hx]

theorem latest_eq_some {p : Char → Bool} {inner : Recogniser α}
    (h : latest p inner c = some (v, c')) : ∃ w c₁, c.Spans w c₁ ∧ (∀ x ∈ w, p x = true) ∧
      inner c₁ = some (v, c') := by
  obtain ⟨before, after⟩ := c
  change latestFrom p inner before after = _ at h
  induction after generalizing before with
  | nil => exact ⟨[], ⟨before, []⟩, ⟨rfl, rfl⟩, by simp, h⟩
  | cons x after ih =>
      have here (h : inner ⟨before, x :: after⟩ = some (v, c')) :
          ∃ w c₁, Cursor.Spans ⟨before, x :: after⟩ w c₁ ∧ (∀ x ∈ w, p x = true) ∧
            inner c₁ = some (v, c') := ⟨[], ⟨before, x :: after⟩, ⟨rfl, rfl⟩, by simp, h⟩
      rw [latestFrom] at h
      split at h
      · next hx =>
        cases later : latestFrom p inner (x :: before) after with
        | none =>
            rw [later] at h
            exact here h
        | some found =>
            rw [later] at h
            obtain ⟨w, c₁, span, all, read⟩ := ih (x :: before) (later.trans h)
            exact ⟨x :: w, c₁, ⟨congrArg (x :: ·) span.after, by simpa using span.before⟩,
              List.forall_mem_cons.mpr ⟨hx, all⟩, read⟩
      · exact here h

theorem afterBlanks_eq_some {inner : Recogniser α} (h : afterBlanks inner c = some (v, c')) :
    ∃ w c₁, w ≠ [] ∧ Blank w ∧ c.Spans w c₁ ∧ inner c₁ = some (v, c') := by
  obtain ⟨x, c₁, first, h⟩ := bind_eq_some_iff.mp h
  obtain ⟨hx, start⟩ := one_eq_some_iff.mp first
  obtain ⟨w, c₂, span, all, read⟩ := latest_eq_some h
  exact ⟨x :: w, c₂, by simp, List.forall_mem_cons.mpr ⟨hx, all⟩, start.trans span, read⟩

theorem isSome_latest_iff {p : Char → Bool} {inner : Recogniser α} {before after : List Char} :
    (latest p inner ⟨before, after⟩).isSome = true ↔ ∃ w rest, after = w ++ rest ∧
      (∀ x ∈ w, p x = true) ∧ (inner ⟨w.reverse ++ before, rest⟩).isSome = true := by
  constructor
  · intro h
    obtain ⟨⟨v, c'⟩, read⟩ := Option.isSome_iff_exists.mp h
    obtain ⟨w, ⟨back, rest⟩, span, all, read⟩ := latest_eq_some read
    obtain rfl : back = w.reverse ++ before := span.before
    exact ⟨w, rest, span.after, all, Option.isSome_of_mem read⟩
  · rintro ⟨w, rest, rfl, all, read⟩
    change (latestFrom p inner before (w ++ rest)).isSome = true
    induction w generalizing before with
    | nil =>
        cases rest with
        | nil => exact read
        | cons x rest => exact isSome_latestFrom_cons_iff.mpr (.inr read)
    | cons x w ih =>
        obtain ⟨hx, all⟩ := List.forall_mem_cons.mp all
        exact isSome_latestFrom_cons_iff.mpr (.inl ⟨hx, ih all (by simpa using read)⟩)

theorem isSome_afterBlanks_iff {inner : Recogniser α} {before after : List Char} :
    (afterBlanks inner ⟨before, after⟩).isSome = true ↔ ∃ w rest, w ≠ [] ∧ after = w ++ rest ∧
      Blank w ∧ (inner ⟨w.reverse ++ before, rest⟩).isSome = true := by
  constructor
  · intro h
    obtain ⟨⟨v, c'⟩, read⟩ := Option.isSome_iff_exists.mp h
    obtain ⟨w, ⟨back, rest⟩, ne, blank, span, read⟩ := afterBlanks_eq_some read
    obtain rfl : back = w.reverse ++ before := span.before
    exact ⟨w, rest, ne, span.after, blank, Option.isSome_of_mem read⟩
  · rintro ⟨w, rest, ne, rfl, all, read⟩
    obtain ⟨x, w, rfl⟩ := List.exists_cons_of_ne_nil ne
    obtain ⟨hx, all⟩ := List.forall_mem_cons.mp all
    exact isSome_bind_iff.mpr ⟨x, ⟨x :: before, w ++ rest⟩, one_eq_some_iff.mpr ⟨hx, rfl, rfl⟩,
      isSome_latest_iff.mpr ⟨w, rest, rfl, all, by simpa using read⟩⟩

theorem closeBraces_eq_some_iff : closeBraces c = some (u, c') ↔
    ∃ w, '\x7d' ∉ w ∧ c.Spans (w ++ ['\x7d']) c' := by
  rw [closeBraces, bind_eq_some_iff]
  constructor
  · rintro ⟨w, c₁, read, close⟩
    obtain ⟨span, ends⟩ := run_eq_some_iff.mp read
    exact ⟨w, fun inside => absurd (ends.all _ inside) (by decide),
      span.trans (literal_eq_some_iff.mp close)⟩
  · rintro ⟨w, open_, span⟩
    refine ⟨w, ⟨w.reverse ++ c.before, '\x7d' :: c'.after⟩, ?_, ?_⟩
    · refine run_eq_some_iff.mpr ⟨⟨by simpa using span.after, rfl⟩, fun x hx => ?_, by simp; decide⟩
      exact bne_iff_ne.mpr (ne_of_mem_of_not_mem hx open_)
    · exact literal_eq_some_iff.mpr ⟨rfl, by simpa using span.before⟩

theorem isSome_closeBraces_iff {before after : List Char} :
    (closeBraces ⟨before, after⟩).isSome = true ↔ '\x7d' ∈ after := by
  rw [closeBraces, isSome_bind_iff]
  constructor
  · rintro ⟨w, ⟨back, rest⟩, read, h⟩
    have span : after = w ++ rest := (run_eq_some_iff.mp read).1.after
    obtain ⟨rest, rfl⟩ := isSome_literal_iff.mp h
    simp [span]
  · intro h
    refine ⟨_, _, rfl, isSome_literal_iff.mpr ?_⟩
    have found : ¬∀ x ∈ after, inBraces x = true := fun all => absurd (all _ h) (by decide)
    rw [← List.dropWhile_eq_nil_iff] at found
    obtain ⟨x, rest, hx⟩ := List.exists_cons_of_ne_nil found
    have stop := List.head?_dropWhile_not inBraces after
    rw [hx] at stop
    obtain rfl : x = '\x7d' := by simpa [inBraces] using stop
    exact ⟨rest, hx.symm⟩

end

end Script
end TestRepair
