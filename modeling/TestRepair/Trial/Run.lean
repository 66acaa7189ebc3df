import TestRepair.Failure.Signatures
import TestRepair.Trial.Surroundings

/-!
One trial: the script is written and run; while it fails, its log is diagnosed and the failure
repaired, and the script is run again. A trial ends when the run passes, when a log is not understood,
when a repair changes nothing, when the attempts are used up, or when somebody cancels. The trial
goes step by step, so that several trials can take their steps in any order.
-/

namespace TestRepair

namespace Trial

/-- What is fixed during a trial. -/
structure Setup where
  settings : Settings
  table : List Signature := Signature.builtin
  request : TrialRequest

namespace Setup

/-- How often the script is run at most. -/
def attempts (s : Setup) : Nat := s.settings.retry.attempts

/-- Where the script is written, seen from the work directory. -/
def scriptPath (s : Setup) : Path := s.settings.runner.scriptPath

def scriptFile (s : Setup) : Path := s.request.workDir.join s.scriptPath

/-- How the runner is called, every time. -/
def invocation (s : Setup) : Invocation where
  workDir := s.request.workDir
  scriptPath := s.scriptPath
  mode := s.request.mode
  env := s.request.env
  timeoutSecs := s.request.timeoutSecs.getD s.settings.runner.timeoutSecs

end Setup

/-- What comes next. -/
inductive Phase
  | executing
  | diagnosing (log : String)
  | repairing (d : Diagnosis) (log : String)
  | done (ending : Ending)
  deriving DecidableEq, Repr

/-- A call of the runner with the files as it found them. -/
structure Visit where
  invocation : Invocation
  tree : FileTree

/-- What came of an attempt to run a script. -/
structure Attempt where
  /-- The call of the runner; none if the script could not be written. -/
  visit : Option Visit
  /-- What the run gave; none if it was cancelled. -/
  run : Option Execution

/-- How far a trial has come. -/
structure Progress where
  phase : Phase := .executing
  script : String
  logs : String := ""
  attempts : Nat := 0
  fixes : List FixRecord := []
  ledger : Ledger := {}
  note : Option String := none
  visits : List Visit := []

namespace Progress

/-- A trial that has not begun. -/
def start (s : Setup) : Progress := { script := s.request.script }

def finish (p : Progress) (ending : Ending) (note : Option String := p.note) : Progress :=
  { p with phase := .done ending, note }

/-- Ends the trial because it was cancelled. -/
def cancel (p : Progress) : Progress := p.finish .cancelled (some "run cancelled")

/-- Counts an attempt and keeps the call of the runner. -/
def tried (p : Progress) (a : Attempt) : Progress :=
  { p with attempts := p.attempts + 1, visits := p.visits ++ a.visit.toList }

def addLog (p : Progress) (log : String) : Progress :=
  let ended := if Text.endsWith ['\n'] log.toList then log else log ++ "\n"
  { p with logs := p.logs ++ "=== attempt " ++ toString p.attempts ++ " ===\n" ++ ended }

end Progress

def makeParents (t : FileTree) (file : Path) : Except FileError Unit × FileTree :=
  match file.parent? with
  | some dir => t.makeDirs dir
  | none => (.ok (), t)

/-- Writes the script. An error may leave directories that were made for it. -/
def writeScript (t : FileTree) (file : Path) (script : String) : Except FileError Unit × FileTree :=
  match makeParents t file with
  | (.error e, t) => (.error e, t)
  | (.ok (), t) =>
    match t.writeText file script with
    | .error e => (.error e, t)
    | .ok t => (.ok (), t)

variable {σ : Type}

def afterRun (p : Progress) (run : Execution) : Progress :=
  let p := p.addLog run.log
  if run.success then p.finish .succeeded else { p with phase := .diagnosing run.log }

/-- A run that gave nothing but a complaint. -/
def complaint (text : String) : Execution := { success := false, log := "[mend] " ++ text ++ "\n" }

/-- Writes a script and runs it once. A script that cannot be written counts as a failed run. -/
def runScript (env : Surroundings σ) (s : Setup) (script : String) (w : World σ) :
    Attempt × World σ :=
  match writeScript w.tree s.scriptFile script with
  | (.error e, t) =>
    let text := "failed to write " ++ s.scriptPath.text ++ ": " ++ e.message
    (⟨none, some (complaint text)⟩, { w with tree := t })
  | (.ok (), t) =>
    let visit := some ⟨s.invocation, t⟩
    match env.execute s.invocation w.state t with
    | (.ok run, state, t) => (⟨visit, some run⟩, ⟨state, t⟩)
    | (.error .cancelled, state, t) => (⟨visit, none⟩, ⟨state, t⟩)
    | (.error e, state, t) => (⟨visit, some (complaint e.message)⟩, ⟨state, t⟩)

/-- Makes the next attempt, unless the trial has been cancelled. -/
def execute (env : Surroundings σ) (s : Setup) (p : Progress) (w : World σ) :
    Progress × World σ :=
  if env.cancelled w.state then (p.cancel, w)
  else
    let (a, w) := runScript env s p.script w
    match a.run with
    | none => ((p.tried a).cancel, w)
    | some run => (afterRun (p.tried a) run, w)

/-- Why a trial ends with a log that is not understood. -/
def unrecognisedNote (attempts : Nat) : String :=
  "attempt " ++ toString attempts ++ " failed with an unrecognised error"

def usedUpNote (attempts : Nat) (d : Diagnosis) : String :=
  "still failing after " ++ toString attempts ++ " attempts: " ++ d.kind.code

/-- Why a trial ends with a repair that has changed nothing. -/
def noFixNote (d : Diagnosis) (r : Repair) : String := d.kind.description ++ ": " ++ r.description

def diagnose (s : Setup) (p : Progress) (log : String) : Progress :=
  match Diagnosis.ofLog? s.table log with
  | none => p.finish .unrecognised (some (unrecognisedNote p.attempts))
  | some d =>
    if s.attempts ≤ p.attempts then p.finish .attemptsUsedUp (some (usedUpNote p.attempts d))
    else { p with phase := .repairing d log }

/-- Whether a repair of a script has changed something: the script or another file. -/
def changesAnything (script : String) (r : Repair) : Bool :=
  r.script != script || !r.filesTouched.isEmpty

/-- The record of a repair that was made of a script after its `attempt`-th run. -/
def fixRecord (attempt : Nat) (script : String) (d : Diagnosis) (r : Repair) : FixRecord where
  attempt := UInt64.ofNat attempt
  kind := d.kind
  description := r.description
  scriptChanged := r.script != script
  filesChanged := !r.filesTouched.isEmpty
  filesTouched := r.filesTouched

/-- Takes in a repair: a trial goes on only if something has changed. -/
def afterRepair (p : Progress) (d : Diagnosis) (r : Repair) : Progress :=
  if changesAnything p.script r then
    { p with
      phase := .executing
      script := r.script
      fixes := p.fixes ++ [fixRecord p.attempts p.script d r] }
  else p.finish .noFix (some (noFixNote d r))

/-- Repairs a script whose failure was diagnosed; none if the trial was cancelled before there was
a repair. -/
def mend (env : Surroundings σ) (s : Setup) (script : String) (ledger : Ledger) (d : Diagnosis)
    (log : String) (w : World σ) : Option Repair.Finished × World σ :=
  if env.noticed w.state then (none, w)
  else
    let c : Repair.Context :=
      { settings := s.settings
        workDir := s.request.workDir
        actions := s.request.actions
        ledger
        tree := w.tree }
    match Repair.repair? c env.consult w.state script d log with
    | (none, state) => (none, { w with state })
    | (some f, state) => (some f, ⟨state, f.tree⟩)

def repair (env : Surroundings σ) (s : Setup) (p : Progress) (d : Diagnosis) (log : String)
    (w : World σ) : Progress × World σ :=
  match mend env s p.script p.ledger d log w with
  | (none, w) => (p.cancel, w)
  | (some f, w) => (afterRepair { p with ledger := f.ledger } d f.repair, w)

/-- One step of a trial; one that has ended stays as it is. -/
def step (env : Surroundings σ) (s : Setup) (p : Progress) (w : World σ) : Progress × World σ :=
  match p.phase with
  | .executing => execute env s p w
  | .diagnosing log => (diagnose s p log, w)
  | .repairing d log => repair env s p d log w
  | .done _ => (p, w)

def steps (env : Surroundings σ) (s : Setup) : Nat → Progress → World σ → Progress × World σ
  | 0, p, w => (p, w)
  | n + 1, p, w =>
    let (p, w) := step env s p w
    steps env s n p w

/-- No trial takes more steps: each attempt is executed, diagnosed and repaired. -/
def stepLimit (s : Setup) : Nat := 3 * s.attempts

def Progress.ending (p : Progress) : Ending :=
  match p.phase with
  | .done ending => ending
  | _ => .cancelled

def Progress.result (p : Progress) : TrialResult where
  success := p.ending == .succeeded
  ending := p.ending
  logs := p.logs
  attempts := UInt64.ofNat p.attempts
  fixes := p.fixes
  finalScript := p.script
  note := p.note

/-- A whole trial: how far it came in the end, and the world it leaves. -/
def run (env : Surroundings σ) (s : Setup) (w : World σ) : Progress × World σ :=
  steps env s (stepLimit s) (Progress.start s) w

end Trial

end TestRepair
