import Mathlib.Data.List.Chain
import TestRepair.Proofs.Trial.ScriptFile
import TestRepair.Proofs.Trial.Story

/-!
What the result of a trial says about the rounds it went through: how many there were, what was
repaired in them, which logs they gave, and which scripts the runner found. Every fact is proved of
stories, by induction on the rounds, and read off the books that the steps of a trial keep.
-/

namespace TestRepair
namespace Trial

variable {σ : Type}

theorem runScript_visit (env : Surroundings σ) (s : Setup) (script : String) (w : World σ) {v : Visit}
    (h : (runScript env s script w).1.visit = some v) :
    v.invocation = s.invocation ∧ v.tree.readText s.scriptFile = .ok script := by
  unfold runScript at h
  split at h
  · cases h
  · rename_i t hw
    have hv : v = ⟨s.invocation, t⟩ := by
      dsimp only at h
      split at h <;> exact (Option.some.inj h).symm
    subst hv
    exact ⟨rfl, readText_of_writeScript hw⟩

theorem Attempted.visit {env : Surroundings σ} {s : Setup} {script : String} {w w' : World σ}
    {a : Attempt} (ha : Attempted env s script w a w') {v : Visit} (h : a.visit = some v) :
    v.invocation = s.invocation ∧ v.tree.readText s.scriptFile = .ok script := by
  apply runScript_visit env s script w
  rw [ha.ran]
  exact h

/-- One round's script comes from the repair in the round before it. -/
def Follows (r r' : Round) : Prop := ∃ d m, r.repair = some (d, m) ∧ r'.script = m.script

namespace Story

variable {env : Surroundings σ} {s : Setup} {left : Nat} {script : String} {l : Ledger}
  {w w' : World σ} {rs : List Round} {e : Ending}

theorem length_le (h : Story env s left script l w rs e w') : rs.length ≤ left := by
  induction h with
  | cancelled => exact Nat.zero_le _
  | mended _ _ _ _ _ ih => simp only [List.length_cons]; omega
  | interrupted | passed | unrecognised | usedUp | abandoned | unmended =>
      simp only [List.length_cons, List.length_nil]; omega

theorem length_of_usedUp (h : Story env s left script l w rs e w') (he : e = .attemptsUsedUp) :
    rs.length = left := by
  induction h with
  | usedUp => rfl
  | mended _ _ _ _ _ ih => simp only [List.length_cons, ih he]
  | cancelled | interrupted | passed | unrecognised | abandoned | unmended => cases he

/-- Every round but the last one ended in a repair; the last one may have only where somebody
cancelled afterwards. -/
theorem length_fixes (h : Story env s left script l w rs e w') (n : Nat) :
    (fixesOf n rs).length + 1 = rs.length ∨
      e = .cancelled ∧ (fixesOf n rs).length = rs.length := by
  induction h generalizing n with
  | cancelled => exact .inr ⟨rfl, rfl⟩
  | mended _ _ _ _ _ ih =>
      rcases ih (n + 1) with h | ⟨he, h⟩
      · left; simp only [fixesOf, List.singleton_append, List.length_cons, h]
      · right; exact ⟨he, by simp only [fixesOf, List.singleton_append, List.length_cons, h]⟩
  | interrupted | passed | unrecognised | usedUp | abandoned | unmended => exact .inl rfl

theorem fixes_attempt (h : Story env s left script l w rs e w') (n k : Nat)
    (hk : k < (fixesOf n rs).length) :
    ((fixesOf n rs)[k]).attempt = UInt64.ofNat (n + k + 1) := by
  induction h generalizing n k with
  | mended _ _ _ _ _ ih =>
      cases k with
      | zero => rfl
      | succ k =>
          have hk' : k < (fixesOf (n + 1) _).length := Nat.lt_of_succ_lt_succ hk
          have := ih (n + 1) k hk'
          rw [show n + 1 + k + 1 = n + (k + 1) + 1 by omega] at this
          exact this
  | cancelled | interrupted | passed | unrecognised | usedUp | abandoned | unmended =>
      exact absurd hk (Nat.not_lt_zero k)

theorem fixes_change (h : Story env s left script l w rs e w') (n : Nat) {f : FixRecord}
    (hf : f ∈ fixesOf n rs) :
    (f.scriptChanged = true ∨ f.filesChanged = true) ∧
      (f.filesChanged = true ↔ f.filesTouched ≠ []) := by
  induction h generalizing n with
  | mended _ _ _ hc _ ih =>
      simp only [fixesOf, List.singleton_append, List.mem_cons] at hf
      rcases hf with rfl | hf
      · simp only [changesAnything, Bool.or_eq_true] at hc
        exact ⟨hc, by simp [fixRecord]⟩
      · exact ih (n + 1) hf
  | cancelled | interrupted | passed | unrecognised | usedUp | abandoned | unmended => cases hf

theorem head_script (h : Story env s left script l w rs e w') :
    ∀ r ∈ rs.head?, r.script = script := by
  intro r hr
  cases h with
  | cancelled => cases hr
  | interrupted | passed | unrecognised | usedUp | abandoned | unmended | mended =>
      cases hr
      rfl

theorem isChain (h : Story env s left script l w rs e w') : rs.IsChain Follows := by
  induction h with
  | cancelled => exact .nil
  | interrupted | passed | unrecognised | usedUp | abandoned | unmended => exact .singleton _
  | mended _ _ _ _ rest ih =>
      refine List.isChain_cons.mpr ⟨?_, ih⟩
      intro r hr
      exact ⟨_, _, rfl, rest.head_script r hr⟩

theorem visits_found (h : Story env s left script l w rs e w') :
    ∀ r ∈ rs, ∀ v, r.attempt.visit = some v →
      v.invocation = s.invocation ∧ v.tree.readText s.scriptFile = .ok r.script :=
  h.forall_round (fun _ ha => ⟨trivial, fun _ _ hv => ha.visit hv⟩) (fun _ _ => trivial) trivial

/-- Every round has a log, but a last one in which the runner was cancelled. -/
theorem run_of_mem (h : Story env s left script l w rs e w') :
    ∀ r ∈ rs, r.attempt.run = none → e = .cancelled ∧ rs.getLast? = some r := by
  induction h with
  | cancelled => simp
  | interrupted _ hn =>
      intro r hr _
      cases List.mem_singleton.mp hr
      exact ⟨rfl, rfl⟩
  | passed _ hn | unrecognised _ hn =>
      intro r hr hr'
      cases List.mem_singleton.mp hr
      simp [hn] at hr'
  | usedUp _ hd | abandoned _ hd | unmended _ hd =>
      intro r hr hr'
      cases List.mem_singleton.mp hr
      simp [hd.gave] at hr'
  | mended _ hd _ _ _ ih =>
      intro r hr hr'
      rcases List.mem_cons.mp hr with rfl | hr
      · simp [hd.gave] at hr'
      · obtain ⟨he, hl⟩ := ih r hr hr'
        refine ⟨he, ?_⟩
        rw [List.getLast?_cons, hl]
        rfl

end Story

theorem scriptAfter_eq (script : String) (rs : List Round) :
    scriptAfter script rs =
      (((rs.filterMap (·.repair)).getLast?).map (·.2.script)).getD script := by
  induction rs generalizing script with
  | nil => rfl
  | cons r rs ih =>
      cases hr : r.repair with
      | none => simp only [scriptAfter, hr, ih, List.filterMap_cons_none hr]
      | some m =>
          simp only [scriptAfter, hr, ih, List.filterMap_cons_some hr, List.getLast?_cons]
          cases (rs.filterMap (·.repair)).getLast? <;> rfl

theorem attempts_pos (s : Setup) : 0 < s.attempts := by
  unfold Setup.attempts RetrySettings.attempts
  omega

theorem attempts_le_hardLimit (s : Setup) : s.attempts ≤ RetrySettings.hardLimit := by
  have h : 1 ≤ RetrySettings.hardLimit := by decide
  unfold Setup.attempts RetrySettings.attempts
  omega

/-- Numbers of attempts are small enough to be counted in machine words. -/
theorem toNat_ofNat_of_le_attempts {s : Setup} {n : Nat} (h : n ≤ s.attempts) :
    (UInt64.ofNat n).toNat = n := by
  have h₁ : s.attempts ≤ 5 := attempts_le_hardLimit s
  rw [UInt64.toNat_ofNat']
  omega

/-- The calls of the runner and the result of a trial, as its rounds account for them. -/
structure Account (s : Setup) (rs : List Round) (visits : List Visit) (r : TrialResult) : Prop where
  success : r.success = true ↔ r.ending = .succeeded
  note : r.note = none ↔ r.ending = .succeeded
  attempts : r.attempts.toNat = rs.length
  attempts_le : rs.length ≤ s.attempts
  usedUp : r.ending = .attemptsUsedUp → rs.length = s.attempts
  called : visits = rs.filterMap (·.attempt.visit)
  called_le : visits.length ≤ rs.length
  /-- The runner is always called in one way, and finds the script of the round. -/
  found : ∀ q ∈ rs, ∀ v, q.attempt.visit = some v →
    v.invocation = s.invocation ∧ v.tree.readText s.scriptFile = .ok q.script
  first : ∀ q ∈ rs.head?, q.script = s.request.script
  follow : rs.IsChain Follows
  fixes : r.fixes = fixesOf 0 rs
  fixes_length : r.fixes.length + 1 = rs.length ∨
    r.ending = .cancelled ∧ r.fixes.length = rs.length
  fixes_attempt : ∀ k (hk : k < r.fixes.length), (r.fixes[k]).attempt.toNat = k + 1
  fixes_change : ∀ f ∈ r.fixes, (f.scriptChanged = true ∨ f.filesChanged = true) ∧
    (f.filesChanged = true ↔ f.filesTouched ≠ [])
  finalScript : r.finalScript =
    (((rs.filterMap (·.repair)).getLast?).map (·.2.script)).getD s.request.script
  logs : r.logs = logsOf 0 rs
  /-- Only the log of a run that was cancelled is missing. -/
  silent : ∀ q ∈ rs, q.attempt.run = none → r.ending = .cancelled ∧ rs.getLast? = some q

namespace Booked

variable {s : Setup} {rs : List Round} {e : Ending} {p : Progress}

theorem visits_start (hb : Booked (Progress.start s) rs e p) :
    p.visits = rs.filterMap (·.attempt.visit) := by
  rw [hb.visits, Progress.start, List.nil_append]

theorem fixes_start (hb : Booked (Progress.start s) rs e p) : p.result.fixes = fixesOf 0 rs := by
  simp only [Progress.result, hb.fixes, Progress.start, List.nil_append]

end Booked

theorem account_of_booked {env : Surroundings σ} {s : Setup} {w w' : World σ} {rs : List Round}
    {e : Ending} {p : Progress} (h : Story env s s.attempts s.request.script {} w rs e w')
    (hb : Booked (Progress.start s) rs e p) : Account s rs p.visits p.result := by
  have ending : p.result.ending = e := by
    simp only [Progress.result, Progress.ending, hb.ended]
  have attempts : p.attempts = rs.length := by
    rw [hb.attempts, Progress.start, Nat.zero_add]
  have visits := hb.visits_start
  have fixes := hb.fixes_start
  have small : rs.length ≤ s.attempts := h.length_le
  have fixes_length : (fixesOf 0 rs).length + 1 = rs.length ∨
      e = .cancelled ∧ (fixesOf 0 rs).length = rs.length := h.length_fixes 0
  exact {
    success := by
      rw [ending]
      simp only [Progress.result, Progress.ending, hb.ended]
      exact beq_iff_eq
    note := by
      rw [ending]
      exact hb.note rfl
    attempts := by
      simp only [Progress.result]
      rw [attempts, toNat_ofNat_of_le_attempts small]
    attempts_le := small
    usedUp he := h.length_of_usedUp (ending.symm.trans he)
    called := visits
    called_le := by
      rw [visits]
      exact List.length_filterMap_le _ _
    found := h.visits_found
    first := h.head_script
    follow := h.isChain
    fixes
    fixes_length := by rwa [fixes, ending]
    fixes_attempt k hk := by
      have hk' : k < (fixesOf 0 rs).length := by rwa [fixes] at hk
      have small' : k + 1 ≤ s.attempts := by omega
      simp only [fixes, h.fixes_attempt 0 k hk', Nat.zero_add]
      exact toNat_ofNat_of_le_attempts small'
    fixes_change f hf := h.fixes_change 0 (fixes ▸ hf)
    finalScript := by
      rw [← scriptAfter_eq]
      simp only [Progress.result, hb.script, Progress.start]
    logs := by
      simp only [Progress.result, hb.logs, Progress.start, String.empty_append]
    silent := by
      rw [ending]
      exact h.run_of_mem }

/-- Every trial ends, and its steps follow a story and book it. -/
theorem run_follows (env : Surroundings σ) (s : Setup) (w : World σ) :
    ∃ rs e p w', run env s w = (p, w') ∧ Story env s s.attempts s.request.script {} w rs e w' ∧
      Booked (Progress.start s) rs e p := by
  have pos : 0 < s.attempts := attempts_pos s
  obtain ⟨left, hl⟩ : ∃ left, s.attempts = left + 1 := ⟨s.attempts - 1, by omega⟩
  have hstart : (Progress.start s).attempts + (left + 1) = s.attempts := by
    rw [hl, Progress.start, Nat.zero_add]
  obtain ⟨rs, e, p, w', hrun, story, hb⟩ := steps_follow env s left (Progress.start s) w rfl hstart
  rw [← hl] at hrun story
  exact ⟨rs, e, p, w', hrun, story, hb⟩

/-- More steps than a trial can take change nothing. -/
theorem steps_of_stepLimit_le (env : Surroundings σ) (s : Setup) (w : World σ) {k : Nat}
    (h : stepLimit s ≤ k) : steps env s k (Progress.start s) w = run env s w := by
  obtain ⟨j, rfl⟩ := Nat.exists_eq_add_of_le h
  obtain ⟨rs, e, p, w', hrun, -, booked⟩ := run_follows env s w
  rw [steps_add]
  change steps env s j (run env s w).1 (run env s w).2 = run env s w
  rw [hrun, steps_done env s booked.ended]

/-- Every trial ends after at most five rounds, which tell a story, and accounts for them. -/
theorem run_accounts (env : Surroundings σ) (s : Setup) (w : World σ) :
    s.attempts ≤ 5 ∧ ∃ rs e p w', run env s w = (p, w') ∧ p.phase = .done e ∧
      Story env s s.attempts s.request.script {} w rs e w' ∧ Account s rs p.visits p.result := by
  refine ⟨attempts_le_hardLimit s, ?_⟩
  obtain ⟨rs, e, p, w', hrun, story, hb⟩ := run_follows env s w
  exact ⟨rs, e, p, w', hrun, hb.ended, story, account_of_booked story hb⟩

end Trial
end TestRepair
