import Mathlib.Logic.Relation
import TestRepair.Proofs.Locator.Ledger
import TestRepair.Proofs.Locator.Proposing
import TestRepair.Repair.Healing

/-!
Candidates that are chosen one after the other, for any selectors that fail in any order, with one
ledger for all of them. What was chosen is a list that grows at its end; the ledger holds it, so
whatever a choice avoids because of the ledger it avoids because of the choices before it.
-/

namespace TestRepair
namespace Healing

/-- What a candidate is chosen from. -/
structure Query where
  failing : String
  actions : List RecordedAction
  log : String

/-- A candidate chosen for a failing selector. -/
structure Choice where
  failing : String
  candidate : Candidate

def Choice.selector (h : Choice) : String := h.candidate.selector

/-- Answers a query. A selector that is refused gets no candidate and leaves the ledger alone. -/
def answer (s : HealingSettings) (l : Ledger) (q : Query) : Option Choice × Ledger :=
  match choose s l q.failing q.actions q.log with
  | .ok (c, l) => (c.map fun c => ⟨q.failing, c⟩, l)
  | .error _ => (none, l)

/-- Answers queries in turn: all that was chosen, and the last ledger. -/
def answers (s : HealingSettings) : Ledger → List Query → List Choice × Ledger
  | l, [] => ([], l)
  | l, q :: qs =>
    let (h, l) := answer s l q
    let (hs, l) := answers s l qs
    (h.toList ++ hs, l)

/-- A candidate that can be chosen for a failing selector. -/
structure Eligible (l : Ledger) (failing : String) (c : Candidate) : Prop where
  proper : Selector.isPageRoot c.selector = false
  other : c.selector ≠ failing
  untried : c.selector ∉ l.triedFor failing
  unfailed : l.hasFailed c.selector = false

theorem isUntried_iff {l : Ledger} {failing : String} {c : Candidate} :
    isUntried l failing c = true ↔
      c.selector ∉ l.triedFor failing ∧ l.hasFailed c.selector = false := by
  rw [isUntried, Bool.and_eq_true, Bool.not_eq_true', Bool.not_eq_true', ← Bool.not_eq_true,
    Ledger.hasTried_iff]

theorem eligible_of_find? {l : Ledger} {failing : String} {actions : List RecordedAction}
    {log : String} {n : Nat} {c : Candidate}
    (h : (Candidate.all failing actions log n).find? (isUntried l failing) = some c) :
    Eligible l failing c := by
  have offered := (Candidate.mem_all_iff failing actions log n).mp (List.mem_of_find?_eq_some h)
  obtain ⟨other, proper⟩ := Candidate.isUsable_iff.mp offered.1
  obtain ⟨untried, unfailed⟩ := isUntried_iff.mp (List.find?_some h)
  exact ⟨proper, other, untried, unfailed⟩

/-- A query is answered with nothing, or with an eligible candidate that is noted. -/
theorem answer_cases (s : HealingSettings) (l : Ledger) (q : Query) :
    answer s l q = (none, l) ∨ ∃ c, Eligible l q.failing c ∧
      answer s l q = (some ⟨q.failing, c⟩, l.record q.failing c.selector) := by
  unfold answer choose
  split
  · rename_i c l' hc
    split at hc
    · cases hc
    · dsimp only at hc
      split at hc
      · rename_i c hf
        cases hc
        exact .inr ⟨c, eligible_of_find? hf, rfl⟩
      · cases hc
        exact .inl rfl
  · exact .inl rfl

/-- The ledger holds what was chosen, and nothing else. -/
structure Holds (l : Ledger) (hs : List Choice) : Prop where
  tried : ∀ f, l.triedFor f = (hs.filter (·.failing = f)).map (·.selector)
  failed : ∀ f, l.hasFailed f = true ↔ ∃ h ∈ hs, h.failing = f

theorem holds_nil : Holds .empty [] where
  tried _ := rfl
  failed f := by simp [Ledger.hasFailed_empty]

/-- One choice is sound after others if it repeats none of them and leads back to none. -/
structure Sound (hs : List Choice) (h : Choice) : Prop where
  proper : Selector.isPageRoot h.selector = false
  other : h.selector ≠ h.failing
  fresh : ∀ h' ∈ hs, h'.failing = h.failing → h'.selector ≠ h.selector
  onward : ∀ h' ∈ hs, h'.failing ≠ h.selector

namespace Holds

variable {l : Ledger} {hs : List Choice}

theorem mem_triedFor (hl : Holds l hs) {f c : String} :
    c ∈ l.triedFor f ↔ ∃ h ∈ hs, h.failing = f ∧ h.selector = c := by
  simp [hl.tried f, List.mem_map, List.mem_filter, and_assoc]

theorem sound (hl : Holds l hs) {f : String} {c : Candidate} (hc : Eligible l f c) :
    Sound hs ⟨f, c⟩ where
  proper := hc.proper
  other := hc.other
  fresh h hm hf hs := hc.untried (hl.mem_triedFor.mpr ⟨h, hm, hf, hs⟩)
  onward h hm hf := by
    have hfailed : l.hasFailed c.selector = true := (hl.failed _).mpr ⟨h, hm, hf⟩
    rw [hc.unfailed] at hfailed
    exact Bool.false_ne_true hfailed

theorem record (hl : Holds l hs) {f : String} {c : Candidate} (hc : Eligible l f c) :
    Holds (l.record f c.selector) (hs ++ [⟨f, c⟩]) where
  tried g := by
    by_cases hg : g = f
    · subst hg
      simp [Ledger.triedFor_record_self hc.untried, hl.tried g, Choice.selector]
    · simp [Ledger.triedFor_record_of_ne c.selector hg, hl.tried g, Ne.symm hg]
  failed g := by
    rw [Ledger.hasFailed_record hc.untried, hl.failed g]
    simp only [List.mem_append, List.mem_singleton, or_and_right, exists_or, exists_eq_left]
    exact or_congr_right eq_comm

end Holds

/-- Every choice is sound after those before it. -/
inductive Sequence : List Choice → Prop
  | nil : Sequence []
  | snoc {hs : List Choice} {h : Choice} (before : Sequence hs) (sound : Sound hs h) :
      Sequence (hs ++ [h])

/-- Answering queries goes on with a sound sequence, and the ledger goes on holding it. -/
theorem answers_spec (s : HealingSettings) (l : Ledger) (hs : List Choice) (qs : List Query)
    (hl : Holds l hs) (hq : Sequence hs) :
    Holds (answers s l qs).2 (hs ++ (answers s l qs).1) ∧
      Sequence (hs ++ (answers s l qs).1) := by
  induction qs generalizing l hs with
  | nil => simpa only [answers, List.append_nil] using ⟨hl, hq⟩
  | cons q qs ih =>
      rcases answer_cases s l q with ha | ⟨c, hc, ha⟩
      · simpa only [answers, ha, Option.toList_none, List.nil_append] using ih l hs hl hq
      · have h := ih _ _ (hl.record hc) (hq.snoc (hl.sound hc))
        simpa only [answers, ha, Option.toList_some, List.append_assoc] using h

/-- A selector was healed to another. -/
def ReplacedBy (hs : List Choice) (f c : String) : Prop := ∃ h ∈ hs, h.failing = f ∧ h.selector = c

section

variable {hs : List Choice} {h : Choice}

theorem replacedBy_snoc {f c : String} :
    ReplacedBy (hs ++ [h]) f c ↔ ReplacedBy hs f c ∨ h.failing = f ∧ h.selector = c := by
  simp [ReplacedBy, or_and_right, exists_or]

theorem Sound.dead_end (hh : Sound hs h) (c : String) : ¬ReplacedBy (hs ++ [h]) h.selector c := by
  rw [replacedBy_snoc]
  rintro (⟨h', hm, hf, -⟩ | ⟨hf, -⟩)
  · exact hh.onward h' hm hf
  · exact hh.other hf.symm

/-- A new choice adds nothing but ways that end with it. -/
theorem Sound.transGen (hh : Sound hs h) {x y : String}
    (hxy : Relation.TransGen (ReplacedBy (hs ++ [h])) x y) :
    Relation.TransGen (ReplacedBy hs) x y ∨ y = h.selector := by
  induction hxy with
  | single hstep =>
      rcases replacedBy_snoc.mp hstep with hstep | ⟨-, hstep⟩
      · exact .inl (.single hstep)
      · exact .inr hstep.symm
  | tail _ hstep ih =>
      rcases ih with hway | rfl
      · rcases replacedBy_snoc.mp hstep with hstep | ⟨-, hstep⟩
        · exact .inl (.tail hway hstep)
        · exact .inr hstep.symm
      · exact absurd hstep (hh.dead_end _)

end

namespace Sequence

variable {hs : List Choice}

theorem acyclic (hq : Sequence hs) (x : String) : ¬Relation.TransGen (ReplacedBy hs) x x := by
  induction hq with
  | nil =>
      intro hx
      obtain ⟨y, ⟨h, hm, -⟩, -⟩ := Relation.TransGen.head'_iff.mp hx
      cases hm
  | snoc _ hh ih =>
      intro hx
      rcases hh.transGen hx with hx' | rfl
      · exact ih hx'
      · obtain ⟨y, hstep, -⟩ := Relation.TransGen.head'_iff.mp hx
        exact hh.dead_end y hstep

theorem nodup (hq : Sequence hs) : (hs.map fun h => (h.failing, h.selector)).Nodup := by
  induction hq with
  | nil => exact List.nodup_nil
  | @snoc hs h _ hh ih =>
      rw [List.map_append, List.map_singleton]
      refine List.nodup_append.mpr ⟨ih, List.pairwise_singleton _ _, ?_⟩
      intro a ha b hb hab
      obtain ⟨h', hm, rfl⟩ := List.mem_map.mp ha
      cases List.mem_singleton.mp hb
      exact hh.fresh h' hm (congrArg Prod.fst hab) (congrArg Prod.snd hab)

theorem proper (hq : Sequence hs) :
    ∀ h ∈ hs, Selector.isPageRoot h.selector = false ∧ h.selector ≠ h.failing := by
  induction hq with
  | nil => simp
  | snoc _ hh ih =>
      intro h hm
      rcases List.mem_append.mp hm with hm | hm
      · exact ih h hm
      · cases List.mem_singleton.mp hm
        exact ⟨hh.proper, hh.other⟩

theorem pairwise (hq : Sequence hs) : hs.Pairwise fun h h' => h'.selector ≠ h.failing := by
  induction hq with
  | nil => exact .nil
  | snoc _ hh ih =>
      refine List.pairwise_append.mpr ⟨ih, List.pairwise_singleton _ _, ?_⟩
      intro h' hm h hs
      cases List.mem_singleton.mp hs
      exact (hh.onward h' hm).symm

end Sequence

theorem answer_adds (s : HealingSettings) (l : Ledger) (q : Query) :
    (answer s l q).1 = none ∧ (answer s l q).2 = l ∨
      ∃ c, (answer s l q).1 = some ⟨q.failing, c⟩ ∧ c.selector ∉ l.triedFor q.failing ∧
        (answer s l q).2.triedFor q.failing = l.triedFor q.failing ++ [c.selector] ∧
        ∀ f, f ≠ q.failing → (answer s l q).2.triedFor f = l.triedFor f := by
  rcases answer_cases s l q with ha | ⟨c, hc, ha⟩
  · left
    rw [ha]
    exact ⟨rfl, rfl⟩
  · right
    rw [ha]
    exact ⟨c, rfl, hc.untried, Ledger.triedFor_record_self hc.untried,
      fun _ hf => Ledger.triedFor_record_of_ne _ hf⟩

/-- Healing never goes in circles: from an empty ledger, whatever fails in whatever order, no choice
is repeated and none leads back, and another query only adds to the ledger what it chooses. -/
theorem answers_never_oscillate (s : HealingSettings) (qs : List Query) :
    ∃ hs l, answers s .empty qs = (hs, l) ∧
      (∀ f c, c ∈ l.triedFor f ↔ ReplacedBy hs f c) ∧
      (∀ x, ¬Relation.TransGen (fun f c => c ∈ l.triedFor f) x x) ∧
      (hs.map fun h => (h.failing, h.selector)).Nodup ∧
      (∀ h ∈ hs, Selector.isPageRoot h.selector = false ∧ h.selector ≠ h.failing) ∧
      (hs.Pairwise fun h h' => h'.selector ≠ h.failing) ∧
      ∀ q, (answer s l q).1 = none ∧ (answer s l q).2 = l ∨
        ∃ c, (answer s l q).1 = some ⟨q.failing, c⟩ ∧ c.selector ∉ l.triedFor q.failing ∧
          (answer s l q).2.triedFor q.failing = l.triedFor q.failing ++ [c.selector] ∧
          ∀ f, f ≠ q.failing → (answer s l q).2.triedFor f = l.triedFor f := by
  obtain ⟨hl, hq⟩ := answers_spec s .empty [] qs holds_nil .nil
  rw [List.nil_append] at hl hq
  have held : (fun f c => c ∈ (answers s .empty qs).2.triedFor f) =
      ReplacedBy (answers s .empty qs).1 := by
    funext f c
    exact propext hl.mem_triedFor
  refine ⟨_, _, rfl, fun f c => hl.mem_triedFor, ?_, hq.nodup, hq.proper, hq.pairwise,
    answer_adds s _⟩
  rw [held]
  exact hq.acyclic

end Healing
end TestRepair
