import TestRepair.Locator.Ledger

/-!
What a ledger holds after a candidate was noted in it. A selector has failed exactly if something was
tried for it.
-/

namespace TestRepair
namespace Ledger

@[simp]
theorem hasFailed_empty (f : String) : empty.hasFailed f = false := rfl

theorem hasTried_iff {l : Ledger} {f c : String} : l.hasTried f c = true ↔ c ∈ l.triedFor f := by
  simp [hasTried]

theorem record_of_mem {l : Ledger} {f c : String} (h : c ∈ l.triedFor f) : l.record f c = l := by
  simp [record, hasTried_iff.mpr h]

theorem record_of_not_mem {l : Ledger} {f c : String} (h : c ∉ l.triedFor f) :
    l.record f c = ⟨l.tried.insert f (l.triedFor f ++ [c])⟩ := by
  simp [record, hasTried_iff, h]

theorem triedFor_record_self {l : Ledger} {f c : String} (h : c ∉ l.triedFor f) :
    (l.record f c).triedFor f = l.triedFor f ++ [c] := by
  rw [record_of_not_mem h]
  simp [triedFor]

theorem triedFor_record_of_ne {l : Ledger} {f g : String} (c : String) (h : g ≠ f) :
    (l.record f c).triedFor g = l.triedFor g := by
  by_cases hc : c ∈ l.triedFor f
  · rw [record_of_mem hc]
  · rw [record_of_not_mem hc]
    simp [triedFor, Dictionary.get?_insert_of_ne l.tried h]

/-- Nothing is forgotten: after a note, one more selector may have failed. -/
theorem hasFailed_record {l : Ledger} {f c : String} (h : c ∉ l.triedFor f) (g : String) :
    (l.record f c).hasFailed g = true ↔ l.hasFailed g = true ∨ g = f := by
  rw [record_of_not_mem h]
  by_cases hg : g = f <;> simp [hasFailed, Dictionary.contains, Dictionary.get?_insert, hg]

end Ledger
end TestRepair
