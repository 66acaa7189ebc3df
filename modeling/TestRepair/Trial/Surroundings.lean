import TestRepair.FileTree.Write
import TestRepair.Repair.Strategy
import TestRepair.Trial.Record

/-!
What a trial cannot decide for itself: how the test runner answers, how the assistant answers, and
when somebody cancels. All of it is a state of any kind with four functions, so that whatever is said
about trials holds for every runner, every assistant and every moment of cancellation.
-/

namespace TestRepair

/-- One call of the test runner. -/
structure Invocation where
  workDir : Path
  /-- The script, seen from the work directory. -/
  scriptPath : Path
  mode : DisplayMode
  env : Dictionary String String
  timeoutSecs : UInt64
  deriving DecidableEq, Repr

/-- What a run of the test runner gave. -/
structure Execution where
  success : Bool
  /-- None if the runner was killed. -/
  exitCode : Option Nat := none
  log : String
  timedOut : Bool := false
  deriving DecidableEq, Repr

/-- Why the test runner could not run. -/
inductive RunnerError
  | spawn (program cause : String)
  | io (cause : String)
  | emptyCommand
  | cancelled
  deriving DecidableEq, Repr

namespace RunnerError

def message : RunnerError → String
  | spawn program cause => "Failed to start runner '" ++ program ++ "': " ++ cause
  | io cause => "Runner I/O error: " ++ cause
  | emptyCommand => "Runner command is empty"
  | cancelled => "Run cancelled"

end RunnerError

/-- Runner, assistant and cancellation. -/
structure Surroundings (σ : Type) where
  /-- One run of the test runner, which may change files. -/
  execute : Invocation → σ → FileTree → Except RunnerError Execution × σ × FileTree
  /-- One question to the assistant. -/
  consult : RewriteRequest → σ → Consultation × σ
  /-- Whether the trial has been cancelled. -/
  cancelled : σ → Bool
  /-- Whether a cancellation is noticed before a repair begins, which is a matter of chance. -/
  noticed : σ → Bool := fun _ => false

/-- The surroundings' state and the files. -/
structure World (σ : Type) where
  state : σ
  tree : FileTree

end TestRepair
