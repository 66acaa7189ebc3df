import TestRepair.Proofs.Text.Replacing
import TestRepair.Trial.Run

/-!
A trial as it is told from the outside: round after round, with the script, what came of running it,
and the repair after which the trial went on. A story keeps no counters and no lists, and it has one
rule for each way in which a round can go. The steps of a trial are opened here only, where they are
shown to follow a story and to book what happens in it.
-/

namespace TestRepair
namespace Trial

variable {σ : Type}

structure Round where
  script : String
  attempt : Attempt
  /-- The tree that the attempt left. -/
  left : FileTree
  /-- What was repaired, and how, if the trial went on. -/
  repair : Option (Diagnosis × Repair) := none

/-- Nobody cancels, and the attempt to run a script ends in the world `w'`. -/
structure Attempted (env : Surroundings σ) (s : Setup) (script : String) (w : World σ) (a : Attempt)
    (w' : World σ) : Prop where
  goesOn : env.cancelled w.state = false
  ran : runScript env s script w = (a, w')

/-- The attempt gives a failed run whose log the table understands. -/
structure Diagnosed (s : Setup) (a : Attempt) (run : Execution) (d : Diagnosis) : Prop where
  gave : a.run = some run
  failed : run.success = false
  understood : Diagnosis.ofLog? s.table run.log = some d

/-- With `left` attempts left, a script to run, and a ledger, a trial in the world `w` goes through
the rounds, ends, and leaves the world `w'`. -/
inductive Story (env : Surroundings σ) (s : Setup) :
    (left : Nat) → (script : String) → Ledger → (w : World σ) → List Round → Ending →
      (w' : World σ) → Prop
  | cancelled {left : Nat} {script : String} {l : Ledger} {w : World σ}
      (hc : env.cancelled w.state = true) : Story env s (left + 1) script l w [] .cancelled w
  | interrupted {left : Nat} {script : String} {l : Ledger} {w w₁ : World σ} {a : Attempt}
      (ha : Attempted env s script w a w₁) (hr : a.run = none) :
      Story env s (left + 1) script l w [⟨script, a, w₁.tree, none⟩] .cancelled w₁
  | passed {left : Nat} {script : String} {l : Ledger} {w w₁ : World σ} {a : Attempt}
      {run : Execution} (ha : Attempted env s script w a w₁) (hr : a.run = some run)
      (hs : run.success = true) :
      Story env s (left + 1) script l w [⟨script, a, w₁.tree, none⟩] .succeeded w₁
  | unrecognised {left : Nat} {script : String} {l : Ledger} {w w₁ : World σ} {a : Attempt}
      {run : Execution} (ha : Attempted env s script w a w₁) (hr : a.run = some run)
      (hs : run.success = false) (hd : Diagnosis.ofLog? s.table run.log = none) :
      Story env s (left + 1) script l w [⟨script, a, w₁.tree, none⟩] .unrecognised w₁
  | usedUp {script : String} {l : Ledger} {w w₁ : World σ} {a : Attempt} {run : Execution}
      {d : Diagnosis} (ha : Attempted env s script w a w₁) (hd : Diagnosed s a run d) :
      Story env s 1 script l w [⟨script, a, w₁.tree, none⟩] .attemptsUsedUp w₁
  | abandoned {left : Nat} {script : String} {l : Ledger} {w w₁ w₂ : World σ} {a : Attempt}
      {run : Execution} {d : Diagnosis} (ha : Attempted env s script w a w₁)
      (hd : Diagnosed s a run d) (hm : mend env s script l d run.log w₁ = (none, w₂)) :
      Story env s (left + 2) script l w [⟨script, a, w₁.tree, none⟩] .cancelled w₂
  | unmended {left : Nat} {script : String} {l : Ledger} {w w₁ w₂ : World σ} {a : Attempt}
      {run : Execution} {d : Diagnosis} {f : Repair.Finished}
      (ha : Attempted env s script w a w₁) (hd : Diagnosed s a run d)
      (hm : mend env s script l d run.log w₁ = (some f, w₂))
      (hf : changesAnything script f.repair = false) :
      Story env s (left + 2) script l w [⟨script, a, w₁.tree, none⟩] .noFix w₂
  | mended {left : Nat} {script : String} {l : Ledger} {w w₁ w₂ w₃ : World σ} {a : Attempt}
      {run : Execution} {d : Diagnosis} {f : Repair.Finished} {rs : List Round} {e : Ending}
      (ha : Attempted env s script w a w₁) (hd : Diagnosed s a run d)
      (hm : mend env s script l d run.log w₁ = (some f, w₂))
      (hf : changesAnything script f.repair = true)
      (rest : Story env s (left + 1) f.repair.script f.ledger w₂ rs e w₃) :
      Story env s (left + 2) script l w (⟨script, a, w₁.tree, some (d, f.repair)⟩ :: rs) e w₃

/-- Every round is as every attempt is from a world that attempts and repairs keep in order. -/
theorem Story.forall_round {env : Surroundings σ} {s : Setup} {I : World σ → Prop}
    {P : Round → Prop}
    (attempted : ∀ {script w a w₁}, I w → Attempted env s script w a w₁ →
      I w₁ ∧ ∀ m, P ⟨script, a, w₁.tree, m⟩)
    (mended : ∀ {script l d log f w₁ w₂}, I w₁ → mend env s script l d log w₁ = (some f, w₂) → I w₂)
    {left : Nat} {script : String} {l : Ledger} {w w' : World σ} {rs : List Round} {e : Ending}
    (h : Story env s left script l w rs e w') (hw : I w) : ∀ r ∈ rs, P r := by
  induction h with
  | cancelled => exact fun r hr => (nomatch hr)
  | interrupted ha | passed ha | unrecognised ha | usedUp ha | abandoned ha | unmended ha =>
      intro r hr
      cases List.mem_singleton.mp hr
      exact (attempted hw ha).2 none
  | mended ha _ hm _ _ ih =>
      obtain ⟨hw₁, hr₁⟩ := attempted hw ha
      intro r hr
      rcases List.mem_cons.mp hr with rfl | hr
      · exact hr₁ _
      · exact ih (mended hw₁ hm) r hr

/-- The log of the `n`-th attempt below its heading; its last line is complete. -/
def logSection (n : Nat) (log : String) : String :=
  "=== attempt " ++ toString n ++ " ===\n" ++
    if log.toList.getLast? = some '\n' then log else log ++ "\n"

/-- The logs of rounds before which there were `n` others. -/
def logsOf : (n : Nat) → List Round → String
  | _, [] => ""
  | n, r :: rs =>
    (match r.attempt.run with
      | some run => logSection (n + 1) run.log
      | none => "") ++ logsOf (n + 1) rs

/-- The records of the repairs in rounds before which there were `n` others. -/
def fixesOf : (n : Nat) → List Round → List FixRecord
  | _, [] => []
  | n, r :: rs =>
    (match r.repair with
      | some (d, m) => [fixRecord (n + 1) r.script d m]
      | none => []) ++ fixesOf (n + 1) rs

/-- The script of the last repair in the rounds, or the one before them. -/
def scriptAfter : (script : String) → List Round → String
  | script, [] => script
  | script, r :: rs =>
    match r.repair with
    | some (_, m) => scriptAfter m.script rs
    | none => scriptAfter script rs

/-- From `p` on, the rounds and the ending are booked in `p'`. -/
structure Booked (p : Progress) (rs : List Round) (e : Ending) (p' : Progress) : Prop where
  ended : p'.phase = .done e
  attempts : p'.attempts = p.attempts + rs.length
  visits : p'.visits = p.visits ++ rs.filterMap (·.attempt.visit)
  logs : p'.logs = p.logs ++ logsOf p.attempts rs
  fixes : p'.fixes = p.fixes ++ fixesOf p.attempts rs
  script : p'.script = scriptAfter p.script rs
  note : p.note = none → (p'.note = none ↔ e = .succeeded)

theorem logs_addLog (p : Progress) (log : String) :
    (p.addLog log).logs = p.logs ++ logSection p.attempts log := by
  simp only [Progress.addLog, logSection, Text.endsWith_singleton, String.append_assoc]

theorem booked_nothing (p : Progress) (e : Ending) (note : Option String)
    (hn : p.note = none → (note = none ↔ e = .succeeded)) :
    Booked p [] e (p.finish e note) where
  ended := rfl
  attempts := rfl
  visits := by simp [Progress.finish]
  logs := by simp [Progress.finish, logsOf]
  fixes := by simp [Progress.finish, fixesOf]
  script := rfl
  note := hn

/-- A round is booked if its attempt is counted, its log added, and its repair recorded. -/
theorem Booked.cons {p p₁ p' : Progress} {r : Round} {rs : List Round} {e : Ending}
    (h : Booked p₁ rs e p') (attempts : p₁.attempts = p.attempts + 1)
    (visits : p₁.visits = p.visits ++ r.attempt.visit.toList)
    (logs : p₁.logs = p.logs ++ logsOf p.attempts [r])
    (fixes : p₁.fixes = p.fixes ++ fixesOf p.attempts [r])
    (script : p₁.script = scriptAfter p.script [r]) (note : p₁.note = p.note) :
    Booked p (r :: rs) e p' where
  ended := h.ended
  attempts := by rw [h.attempts, attempts, List.length_cons]; omega
  visits := by
    rw [h.visits, visits]
    cases hv : r.attempt.visit <;> simp [hv]
  logs := by
    rw [h.logs, logs, attempts]
    simp [logsOf, String.append_assoc]
  fixes := by
    rw [h.fixes, fixes, attempts]
    simp [fixesOf]
  script := by
    rw [h.script, script]
    cases hr : r.repair <;> simp [scriptAfter, hr]
  note hn := h.note (note.trans hn)

theorem steps_done (env : Surroundings σ) (s : Setup) {p : Progress} {e : Ending}
    (h : p.phase = .done e) (n : Nat) (w : World σ) : steps env s n p w = (p, w) := by
  induction n with
  | zero => rfl
  | succ n ih => simp only [steps, step, h, ih]

theorem steps_add (env : Surroundings σ) (s : Setup) (m n : Nat) (p : Progress) (w : World σ) :
    steps env s (m + n) p w = steps env s n (steps env s m p w).1 (steps env s m p w).2 := by
  induction m generalizing p w with
  | zero => rw [Nat.zero_add, steps]
  | succ m ih =>
      rw [Nat.succ_add]
      exact ih _ _

section

variable {env : Surroundings σ} {s : Setup} {p : Progress} {w w₁ w₂ : World σ} {a : Attempt}
  {run : Execution} {d : Diagnosis} {log : String}

theorem booked_run (p : Progress) (l : Ledger) (t : FileTree) (hr : a.run = some run) (e : Ending)
    (note : Option String) (hn : p.note = none → (note = none ↔ e = .succeeded)) :
    Booked p [⟨p.script, a, t, none⟩] e
      ({ (p.tried a).addLog run.log with ledger := l }.finish e note) := by
  have h := booked_nothing { (p.tried a).addLog run.log with ledger := l } e note hn
  refine h.cons rfl rfl ?_ ?_ rfl rfl
  · change ((p.tried a).addLog run.log).logs = _
    rw [logs_addLog]
    simp [Progress.tried, logsOf, hr]
  · simp [Progress.tried, Progress.addLog, fixesOf]

theorem booked_interrupted (p : Progress) (t : FileTree) (hr : a.run = none) :
    Booked p [⟨p.script, a, t, none⟩] .cancelled (p.tried a).cancel := by
  have h := booked_nothing (p.tried a) .cancelled (some "run cancelled") (by simp)
  refine h.cons rfl rfl ?_ ?_ rfl rfl
  · simp [Progress.tried, logsOf, hr]
  · simp [Progress.tried, fixesOf]

/-- The progress with which a trial goes on after a round. -/
def Progress.mended (p : Progress) (a : Attempt) (log : String) (d : Diagnosis)
    (f : Repair.Finished) : Progress :=
  { (p.tried a).addLog log with
    phase := .executing
    script := f.repair.script
    ledger := f.ledger
    fixes := p.fixes ++ [fixRecord (p.attempts + 1) p.script d f.repair] }

theorem booked_mended (t : FileTree) {rs : List Round} {e : Ending} {p' : Progress} {f : Repair.Finished}
    (hr : a.run = some run) (h : Booked (p.mended a run.log d f) rs e p') :
    Booked p (⟨p.script, a, t, some (d, f.repair)⟩ :: rs) e p' := by
  refine h.cons rfl rfl ?_ ?_ rfl rfl
  · change ((p.tried a).addLog run.log).logs = _
    rw [logs_addLog]
    simp [Progress.tried, logsOf, hr]
  · simp [Progress.mended, fixesOf]

theorem steps_of_step {p₁ : Progress} (h : step env s p w = (p₁, w₁)) (n : Nat) :
    steps env s (n + 1) p w = steps env s n p₁ w₁ := by
  simp only [steps, h]

theorem step_cancelled (hp : p.phase = .executing) (hc : env.cancelled w.state = true) :
    step env s p w = (p.cancel, w) := by
  simp [step, hp, execute, hc]

theorem step_interrupted (hp : p.phase = .executing) (ha : Attempted env s p.script w a w₁)
    (hr : a.run = none) : step env s p w = ((p.tried a).cancel, w₁) := by
  simp [step, hp, execute, ha.goesOn, ha.ran, hr]

theorem step_ran (hp : p.phase = .executing) (ha : Attempted env s p.script w a w₁)
    (hr : a.run = some run) : step env s p w = (afterRun (p.tried a) run, w₁) := by
  simp [step, hp, execute, ha.goesOn, ha.ran, hr]

def Progress.failed (p : Progress) (a : Attempt) (log : String) : Progress :=
  { (p.tried a).addLog log with phase := .diagnosing log }

def Progress.diagnosed (p : Progress) (a : Attempt) (log : String) (d : Diagnosis) : Progress :=
  { (p.tried a).addLog log with phase := .repairing d log }

theorem afterRun_passed (p : Progress) (a : Attempt) (hs : run.success = true) :
    afterRun (p.tried a) run = ((p.tried a).addLog run.log).finish .succeeded p.note := by
  simp only [afterRun, hs, if_true]
  rfl

theorem afterRun_failed (p : Progress) (a : Attempt) (hs : run.success = false) :
    afterRun (p.tried a) run = p.failed a run.log := by
  simp only [afterRun, hs, Bool.false_eq_true, if_false]
  rfl

theorem diagnose_unrecognised (p : Progress) (a : Attempt)
    (hd : Diagnosis.ofLog? s.table log = none) :
    diagnose s (p.failed a log) log = ((p.tried a).addLog log).finish .unrecognised
      (some (unrecognisedNote (p.attempts + 1))) := by
  simp only [diagnose, hd]
  rfl

theorem diagnose_usedUp (p : Progress) (a : Attempt) (hd : Diagnosis.ofLog? s.table log = some d)
    (hl : s.attempts ≤ p.attempts + 1) :
    diagnose s (p.failed a log) log = ((p.tried a).addLog log).finish .attemptsUsedUp
      (some (usedUpNote (p.attempts + 1) d)) := by
  have hl' : s.attempts ≤ (p.failed a log).attempts := hl
  simp only [diagnose, hd, hl', if_true]
  rfl

theorem diagnose_understood (p : Progress) (a : Attempt)
    (hd : Diagnosis.ofLog? s.table log = some d) (hl : p.attempts + 1 < s.attempts) :
    diagnose s (p.failed a log) log = p.diagnosed a log d := by
  have hl' : ¬s.attempts ≤ (p.failed a log).attempts := Nat.not_le_of_lt hl
  simp only [diagnose, hd, hl', if_false]
  rfl

theorem repair_abandoned (a : Attempt) (hm : mend env s p.script p.ledger d log w = (none, w₂)) :
    repair env s (p.diagnosed a log d) d log w =
      (((p.tried a).addLog log).finish .cancelled (some "run cancelled"), w₂) := by
  have hm' : mend env s (p.diagnosed a log d).script (p.diagnosed a log d).ledger d log w =
      (none, w₂) := hm
  simp only [repair, hm']
  rfl

theorem repair_mend (a : Attempt) {f : Repair.Finished}
    (hm : mend env s p.script p.ledger d log w = (some f, w₂)) :
    repair env s (p.diagnosed a log d) d log w =
      (afterRepair { p.diagnosed a log d with ledger := f.ledger } d f.repair, w₂) := by
  have hm' : mend env s (p.diagnosed a log d).script (p.diagnosed a log d).ledger d log w =
      (some f, w₂) := hm
  simp only [repair, hm']

theorem afterRepair_unmended (p : Progress) (a : Attempt) {f : Repair.Finished}
    (hf : changesAnything p.script f.repair = false) :
    afterRepair { p.diagnosed a log d with ledger := f.ledger } d f.repair =
      { (p.tried a).addLog log with ledger := f.ledger }.finish .noFix
        (some (noFixNote d f.repair)) := by
  have hf' : changesAnything (p.diagnosed a log d).script f.repair = false := hf
  simp only [afterRepair, hf', Bool.false_eq_true, if_false]
  rfl

theorem afterRepair_mended (p : Progress) (a : Attempt) {f : Repair.Finished}
    (hf : changesAnything p.script f.repair = true) :
    afterRepair { p.diagnosed a log d with ledger := f.ledger } d f.repair =
      p.mended a log d f := by
  have hf' : changesAnything (p.diagnosed a log d).script f.repair = true := hf
  simp only [afterRepair, hf', if_true]
  rfl

/-- The three steps of a round bring the trial to its end; a story tells them and is booked. -/
def RoundEnds (env : Surroundings σ) (s : Setup) (left : Nat) (p : Progress) (w : World σ) : Prop :=
  ∃ rs e p' w', Story env s left p.script p.ledger w rs e w' ∧ Booked p rs e p' ∧
    ∀ n, steps env s (n + 3) p w = (p', w')

/-- The three steps of a round bring the trial to a repair, and it is about to run the next script. -/
def RoundMends (env : Surroundings σ) (s : Setup) (p : Progress) (w : World σ) : Prop :=
  ∃ a run d f w₁ w₂, Attempted env s p.script w a w₁ ∧ Diagnosed s a run d ∧
    mend env s p.script p.ledger d run.log w₁ = (some f, w₂) ∧
    changesAnything p.script f.repair = true ∧
    ∀ n, steps env s (n + 3) p w = steps env s n (p.mended a run.log d f) w₂

theorem RoundEnds.of_steps {left : Nat} {rs : List Round} {e : Ending} {p' : Progress}
    (story : Story env s left p.script p.ledger w rs e w₁) (booked : Booked p rs e p')
    (h : steps env s 3 p w = (p', w₁)) : RoundEnds env s left p w := by
  refine ⟨rs, e, p', w₁, story, booked, fun n => ?_⟩
  rw [Nat.add_comm, steps_add, h, steps_done env s booked.ended]

/-- The third step of a round repairs what was diagnosed. -/
theorem round_diagnosed {left : Nat} (ha : Attempted env s p.script w a w₁) (hd : Diagnosed s a run d)
    (reached : steps env s 2 p w = (p.diagnosed a run.log d, w₁)) :
    RoundEnds env s (left + 2) p w ∨ RoundMends env s p w := by
  have step₃ : steps env s 3 p w = repair env s (p.diagnosed a run.log d) d run.log w₁ := by
    rw [steps_add env s 2 1, reached]
    rfl
  obtain ⟨o, w₂, hm⟩ : ∃ o w₂, mend env s p.script p.ledger d run.log w₁ = (o, w₂) := ⟨_, _, rfl⟩
  cases o with
  | none =>
      rw [repair_abandoned a hm] at step₃
      exact .inl (.of_steps (.abandoned ha hd hm)
        (booked_run p p.ledger w₁.tree hd.gave .cancelled _ (by simp)) step₃)
  | some f =>
      rw [repair_mend a hm] at step₃
      cases hf : changesAnything p.script f.repair with
      | true =>
          rw [afterRepair_mended p a hf] at step₃
          refine .inr ⟨a, run, d, f, w₁, w₂, ha, hd, hm, hf, fun n => ?_⟩
          rw [Nat.add_comm, steps_add, step₃]
      | false =>
          rw [afterRepair_unmended p a hf] at step₃
          exact .inl (.of_steps (.unmended ha hd hm hf)
            (booked_run p f.ledger w₁.tree hd.gave .noFix _ (by simp)) step₃)

/-- The second step of a round diagnoses a run that failed. -/
theorem round_failed {left : Nat} (ha : Attempted env s p.script w a w₁) (hr : a.run = some run)
    (hs : run.success = false) (hl : p.attempts + (left + 1) = s.attempts)
    (reached : steps env s 1 p w = (p.failed a run.log, w₁)) :
    RoundEnds env s (left + 1) p w ∨ 0 < left ∧ RoundMends env s p w := by
  have step₂ : steps env s 2 p w = (diagnose s (p.failed a run.log) run.log, w₁) := by
    rw [steps_add env s 1 1, reached]
    rfl
  have booked (e : Ending) (he : e ≠ .succeeded) (text : String) :=
    booked_run p p.ledger w₁.tree hr e (some text) (by simp [he])
  cases hd : Diagnosis.ofLog? s.table run.log with
  | none =>
      rw [diagnose_unrecognised p a hd] at step₂
      refine .inl (.of_steps (.unrecognised ha hr hs hd)
        (booked _ (by simp) (unrecognisedNote (p.attempts + 1))) ?_)
      rw [steps_add env s 2 1, step₂, steps_done env s rfl]
      rfl
  | some d =>
      cases left with
      | zero =>
          rw [diagnose_usedUp p a hd (by omega)] at step₂
          refine .inl (.of_steps (.usedUp ha ⟨hr, hs, hd⟩)
            (booked _ (by simp) (usedUpNote (p.attempts + 1) d)) ?_)
          rw [steps_add env s 2 1, step₂, steps_done env s rfl]
          rfl
      | succ left =>
          rw [diagnose_understood p a hd (by omega)] at step₂
          exact (round_diagnosed ha ⟨hr, hs, hd⟩ step₂).imp_right fun h => ⟨Nat.succ_pos left, h⟩

/-- What the steps of a round come to: the trial has ended, or it is about to run the next script. -/
theorem steps_round (env : Surroundings σ) (w : World σ) {left : Nat} (hp : p.phase = .executing)
    (hl : p.attempts + (left + 1) = s.attempts) :
    RoundEnds env s (left + 1) p w ∨ 0 < left ∧ RoundMends env s p w := by
  cases hc : env.cancelled w.state with
  | true =>
      have booked := booked_nothing p .cancelled (some "run cancelled") (by simp)
      refine .inl (.of_steps (.cancelled hc) booked ?_)
      rw [steps_of_step (step_cancelled hp hc), steps_done env s rfl]
      rfl
  | false =>
      obtain ⟨a, w₁, ha⟩ : ∃ a w₁, Attempted env s p.script w a w₁ := ⟨_, _, hc, rfl⟩
      cases hr : a.run with
      | none =>
          refine .inl (.of_steps (.interrupted ha hr) (booked_interrupted p w₁.tree hr) ?_)
          rw [steps_of_step (step_interrupted hp ha hr), steps_done env s rfl]
      | some run =>
          have step₁ := step_ran hp ha hr
          cases hs : run.success with
          | true =>
              rw [afterRun_passed p a hs] at step₁
              have booked := booked_run p p.ledger w₁.tree hr .succeeded p.note (by simp)
              refine .inl (.of_steps (.passed ha hr hs) booked ?_)
              rw [steps_of_step step₁, steps_done env s rfl]
              rfl
          | false =>
              rw [afterRun_failed p a hs] at step₁
              exact round_failed ha hr hs hl (steps_of_step step₁ 0)

end

/-- The steps of a trial that is about to run its script follow a story and book it. -/
theorem steps_follow (env : Surroundings σ) (s : Setup) (left : Nat) (p : Progress) (w : World σ)
    (hp : p.phase = .executing) (hl : p.attempts + (left + 1) = s.attempts) :
    ∃ rs e p' w', steps env s (3 * (left + 1)) p w = (p', w') ∧
      Story env s (left + 1) p.script p.ledger w rs e w' ∧ Booked p rs e p' := by
  induction left generalizing p w with
  | zero =>
      obtain ⟨rs, e, p', w', hs, hb, h⟩ | ⟨more, -⟩ := steps_round env w hp hl
      · exact ⟨rs, e, p', w', h 0, hs, hb⟩
      · exact absurd more (Nat.lt_irrefl 0)
  | succ left ih =>
      obtain ⟨rs, e, p', w', hs, hb, h⟩ | ⟨-, a, run, d, f, w₁, w₂, ha, hd, hm, hf, h⟩ :=
        steps_round env w hp hl
      · exact ⟨rs, e, p', w', h (3 * (left + 1)), hs, hb⟩
      · have hl' : (p.mended a run.log d f).attempts + (left + 1) = s.attempts := by
          change p.attempts + 1 + (left + 1) = s.attempts
          omega
        obtain ⟨rs, e, p', w', hw, hs, hb⟩ := ih (p.mended a run.log d f) w₂ rfl hl'
        refine ⟨_, e, p', w', ?_, .mended ha hd hm hf hs, booked_mended w₁.tree hd.gave hb⟩
        rw [← hw]
        exact h (3 * (left + 1))

end Trial
end TestRepair
