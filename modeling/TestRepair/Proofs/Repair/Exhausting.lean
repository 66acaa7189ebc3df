import TestRepair.Proofs.Outcome
import TestRepair.Proofs.Repair.Choosing

/-!
Choosing for one failing selector again and again. The untried candidates are accounted for exactly:
each choice takes the first of them and leaves the others in their order, so the pool is used up
candidate by candidate and then gives nothing more.
-/

namespace TestRepair
namespace Healing

/-- Candidates without repetition, none of them for the failing selector itself. -/
structure Distinct (failing : String) (pool : List Candidate) : Prop where
  nodup : (pool.map (·.selector)).Nodup
  other : ∀ c ∈ pool, c.selector ≠ failing

/-- The pool that candidates for a failing selector are chosen from. -/
def pool (s : HealingSettings) (failing : String) (actions : List RecordedAction) (log : String) :
    List Candidate :=
  Candidate.all failing actions log s.textLengthLimit.toNat

theorem distinct_pool (s : HealingSettings) (failing : String) (actions : List RecordedAction)
    (log : String) : Distinct failing (pool s failing actions log) where
  nodup := Candidate.nodup_firstOfEach [] _
  other _ hc := (Candidate.isUsable_iff.mp ((Candidate.mem_all_iff failing actions log _).mp hc).1).1

/-- The candidates of a pool that are still to be tried for a failing selector. -/
def untried (l : Ledger) (failing : String) (pool : List Candidate) : List Candidate :=
  pool.filter (isUntried l failing)

section

variable {l : Ledger} {failing : String} {pool rest : List Candidate} {c d : Candidate}

/-- To note a candidate takes its own selector out and no other: the failing selector, which counts
as failed from now on, is not in the pool. -/
theorem isUntried_record (hc : isUntried l failing c = true) (hd : d.selector ≠ failing) :
    isUntried (l.record failing c.selector) failing d = true ↔
      d.selector ≠ c.selector ∧ isUntried l failing d = true := by
  have fresh : c.selector ∉ l.triedFor failing := (isUntried_iff.mp hc).1
  have failed : (l.record failing c.selector).hasFailed d.selector = false ↔
      l.hasFailed d.selector = false := by
    rw [← Bool.not_eq_true, ← Bool.not_eq_true, Ledger.hasFailed_record fresh d.selector]
    simp [hd]
  rw [isUntried_iff, isUntried_iff, failed, Ledger.triedFor_record_self fresh, List.mem_append,
    List.mem_singleton, not_or]
  constructor
  · rintro ⟨⟨new, other⟩, alive⟩
    exact ⟨other, new, alive⟩
  · rintro ⟨other, new, alive⟩
    exact ⟨⟨new, other⟩, alive⟩

/-- Noting the first untried candidate leaves the others, in their order. -/
theorem untried_record (hp : Distinct failing pool) (h : untried l failing pool = c :: rest) :
    untried (l.record failing c.selector) failing pool = rest := by
  have hc : isUntried l failing c = true :=
    (List.mem_filter.mp (show c ∈ untried l failing pool from h ▸ List.mem_cons_self)).2
  have nodup : ((c :: rest).map (·.selector)).Nodup :=
    h ▸ hp.nodup.sublist (List.filter_sublist.map _)
  have step : untried (l.record failing c.selector) failing pool =
      (untried l failing pool).filter fun d => d.selector ≠ c.selector := by
    rw [untried, untried, List.filter_filter]
    apply List.filter_congr
    intro d hd
    rw [Bool.eq_iff_iff, isUntried_record hc (hp.other d hd)]
    simp
  have others : ∀ d ∈ rest, d.selector ≠ c.selector := by
    intro d hd same
    exact (List.nodup_cons.mp nodup).1 (List.mem_map.mpr ⟨d, hd, same⟩)
  rw [step, h, List.filter_cons_of_neg (by simp), List.filter_eq_self]
  intro d hd
  simpa using others d hd

end

section

variable {s : HealingSettings} {failing : String} {actions : List RecordedAction} {log : String}
variable {l : Ledger} {c : Candidate} {rest : List Candidate}

theorem choose_of_untried_cons (proper : Selector.isPageRoot failing = false)
    (h : untried l failing (pool s failing actions log) = c :: rest) :
    choose s l failing actions log = .ok (some c, l.record failing c.selector) := by
  have first : (pool s failing actions log).find? (isUntried l failing) = some c := by
    rw [← List.head?_filter]
    exact congrArg List.head? h
  unfold pool at first
  simp only [choose, proper, first, Bool.false_eq_true, if_false]

theorem choose_of_untried_nil (proper : Selector.isPageRoot failing = false)
    (h : untried l failing (pool s failing actions log) = []) :
    choose s l failing actions log = .ok (none, l) := by
  have first : (pool s failing actions log).find? (isUntried l failing) = none := by
    rw [← List.head?_filter]
    exact congrArg List.head? h
  unfold pool at first
  simp only [choose, proper, first, Bool.false_eq_true, if_false]

end

/-- Chooses `n` times with the same arguments, each time with the ledger that the last choice left. -/
def chooseTimes (s : HealingSettings) (failing : String) (actions : List RecordedAction)
    (log : String) : Nat → Ledger → Except HealError (List (Option Candidate) × Ledger)
  | 0, l => .ok ([], l)
  | n + 1, l => do
    let (c, l) ← choose s l failing actions log
    let (cs, l) ← chooseTimes s failing actions log n l
    pure (c :: cs, l)

/-- A ledger holds what another one did, and candidates that were tried since for one selector. -/
structure Notes (l : Ledger) (failing : String) (cs : List Candidate) (l' : Ledger) : Prop where
  tried : l'.triedFor failing = l.triedFor failing ++ cs.map (·.selector)
  other : ∀ f, f ≠ failing → l'.triedFor f = l.triedFor f
  failed : ∀ f, l'.hasFailed f = true ↔ l.hasFailed f = true ∨ cs ≠ [] ∧ f = failing

namespace Notes

variable {l l' : Ledger} {failing : String} {c : Candidate} {cs : List Candidate}

theorem nil (l : Ledger) (failing : String) : Notes l failing [] l where
  tried := by simp
  other _ _ := rfl
  failed := by simp

theorem cons (fresh : c.selector ∉ l.triedFor failing)
    (h : Notes (l.record failing c.selector) failing cs l') : Notes l failing (c :: cs) l' where
  tried := by
    rw [h.tried, Ledger.triedFor_record_self fresh, List.map_cons, List.append_assoc,
      List.singleton_append]
  other f hf := by rw [h.other f hf, Ledger.triedFor_record_of_ne c.selector hf]
  failed f := by
    rw [h.failed, Ledger.hasFailed_record fresh]
    simp only [ne_eq, reduceCtorEq, not_false_eq_true, true_and]
    constructor
    · rintro ((old | new) | ⟨-, new⟩)
      · exact .inl old
      · exact .inr new
      · exact .inr new
    · rintro (old | new)
      · exact .inl (.inl old)
      · exact .inl (.inr new)

end Notes

section

variable {s : HealingSettings} {failing : String} {actions : List RecordedAction} {log : String}

/-- The choices are the untried candidates in their order, and nothing once these are used up. -/
theorem chooseTimes_eq (proper : Selector.isPageRoot failing = false) (n : Nat) (l : Ledger) :
    ∃ l', chooseTimes s failing actions log n l =
        .ok ((List.range n).map fun k => (untried l failing (pool s failing actions log))[k]?, l') ∧
      Notes l failing ((untried l failing (pool s failing actions log)).take n) l' ∧
      untried l' failing (pool s failing actions log) =
        (untried l failing (pool s failing actions log)).drop n := by
  induction n generalizing l with
  | zero => exact ⟨l, rfl, .nil l failing, rfl⟩
  | succ n ih =>
      rw [List.range_succ_eq_map, List.map_cons, List.map_map]
      cases left : untried l failing (pool s failing actions log) with
      | nil =>
          have chosen := choose_of_untried_nil proper left
          obtain ⟨l', run, notes, rest⟩ := ih l
          rw [left] at run notes rest
          refine ⟨l', ?_, by simpa using notes, by simpa using rest⟩
          rw [chooseTimes, chosen]
          simp only [ok_bind, run]
          rfl
      | cons c cs =>
          have chosen := choose_of_untried_cons proper left
          have others := untried_record (distinct_pool s failing actions log) left
          obtain ⟨l', run, notes, rest⟩ := ih (l.record failing c.selector)
          have fresh : c.selector ∉ l.triedFor failing := by
            have mem : c ∈ untried l failing (pool s failing actions log) :=
              left ▸ List.mem_cons_self
            exact (isUntried_iff.mp (List.mem_filter.mp mem).2).1
          rw [others] at run notes rest
          refine ⟨l', ?_, .cons fresh notes, rest⟩
          rw [chooseTimes, chosen]
          simp only [ok_bind, run]
          rfl

/-- The pool is used up completely and in order: choosing with the same arguments again and again
gives each candidate once that was neither tried for the failing selector nor has failed itself when
the choosing began, and from then on nothing, with the ledger left as it is. -/
theorem chooseTimes_uses_up_pool (s : HealingSettings) (failing : String)
    (actions : List RecordedAction) (log : String) (l : Ledger)
    (proper : Selector.isPageRoot failing = false) :
    ∃ remaining : List Candidate,
      remaining.Sublist (Candidate.all failing actions log s.textLengthLimit.toNat) ∧
      (∀ c, c ∈ remaining ↔ c ∈ Candidate.all failing actions log s.textLengthLimit.toNat ∧
        c.selector ∉ l.triedFor failing ∧ c.selector ∉ l.tried.keys) ∧
      (remaining.map (·.selector)).Nodup ∧
      ∀ n, ∃ l', chooseTimes s failing actions log n l =
          .ok ((List.range n).map fun k => remaining[k]?, l') ∧
        Notes l failing (remaining.take n) l' ∧
        (remaining.length ≤ n → choose s l' failing actions log = .ok (none, l')) := by
  refine ⟨untried l failing (pool s failing actions log), List.filter_sublist, ?_,
    (distinct_pool s failing actions log).nodup.sublist (List.filter_sublist.map _), ?_⟩
  · intro c
    rw [untried, List.mem_filter, isUntried_iff, pool, ← Bool.not_eq_true, Ledger.hasFailed,
      Dictionary.contains_iff_mem_keys]
  · intro n
    obtain ⟨l', run, notes, rest⟩ := chooseTimes_eq proper n l
    refine ⟨l', run, notes, ?_⟩
    intro spent
    apply choose_of_untried_nil proper
    rw [rest, List.drop_eq_nil_of_le spent]

end

/-- A log with three offers. -/
def offeringThree : String :=
  "locator('button') resolved to 3 elements:\n1) aka getByTestId('go')\n" ++
    "2) aka getByRole('button', \x7b name: 'Help' \x7d)\n3) aka getByText('More')"

/-- A ledger in which the first of the three offers has failed. -/
def goFailed : Ledger := Ledger.empty.record "[data-testid='go']" "#go"

theorem chooseTimes_offeringThree :
    Selector.isPageRoot "button" = false ∧
      ∃ cs l', chooseTimes {} "button" [] offeringThree 3 goFailed = .ok (cs, l') ∧
        cs.map (·.map (·.selector)) =
          [some "role=button[name='Help']", some "text=\"More\"", none] ∧
        choose {} l' "button" [] offeringThree = .ok (none, l') := by
  have proper : Selector.isPageRoot "button" = false := by decide +kernel
  obtain ⟨remaining, -, -, -, times⟩ :=
    chooseTimes_uses_up_pool {} "button" [] offeringThree goFailed proper
  obtain ⟨l', run, -, spent⟩ := times 3
  have shown : (chooseTimes {} "button" [] offeringThree 3 goFailed).map
      (fun r => r.1.map (·.map (·.selector))) =
        .ok [some "role=button[name='Help']", some "text=\"More\"", none] := by
    decide +kernel
  rw [run] at shown
  have gives := Except.ok.inj shown
  have two : remaining.length ≤ 2 := by
    simpa [List.range_succ] using congrArg List.getLast? gives
  exact ⟨proper, _, l', run, gives, spent (Nat.le_succ_of_le two)⟩

end Healing
end TestRepair
