import TestRepair.CommandLine.Usage
import TestRepair.Failure.Signatures
import TestRepair.Json.Printer
import TestRepair.Json.Reader
import TestRepair.Report
import TestRepair.SettingsFile
import TestRepair.Trial.Run

/-!
The commands of the program: running a script until it passes, saying what a log shows, and listing
what could replace a failing selector. Each gives what it prints; none prints anything when it fails.
-/

namespace TestRepair

namespace CommandLine

/-- Why a command failed. -/
inductive CommandError
  | settings (cause : SettingsError)
  | noWorkDir (path : Path)
  | script (path : Path) (cause : FileError)
  | log (path : Path) (cause : FileError)
  | recording (path : Path) (cause : FileError)
  | malformedRecording (path : Path)
  | tooGeneric (selector : String)
  deriving DecidableEq, Repr

namespace CommandError

def message : CommandError → String
  | settings _ => "failed to load configuration"
  | noWorkDir path => "work dir " ++ path.text ++ " does not exist"
  | script path _ => "failed to read script " ++ path.text
  | log path _ => "failed to read log " ++ path.text
  | recording path _ => "failed to read recording " ++ path.text
  | malformedRecording path => "invalid recording " ++ path.text
  | tooGeneric selector => "'" ++ selector ++ "' is too generic to heal"

end CommandError

/-- What a command prints, and whether it found what it was asked for. -/
structure Answer where
  found : Bool := true
  printed : String
  deriving DecidableEq, Repr

/-- The settings in a named file, or in the first usual one. -/
def loadSettings (t : FileTree) (home : Option Path) (file : Option Path) :
    Except CommandError Settings :=
  (match file with
    | some p => Settings.load t p
    | none => Settings.find t home).mapError .settings

/-- The recorded actions in a file; without one there are none. -/
def loadRecording (t : FileTree) : Option Path → Except CommandError (List RecordedAction)
  | none => .ok []
  | some p => do
    let text ← (t.readText p).mapError (.recording p)
    match (Json.read? text).bind Json.toRecording? with
    | some actions => pure actions
    | none => throw (.malformedRecording p)

def classify (t : FileTree) (log : Path) (json : Bool) : Except CommandError Answer := do
  let text ← (t.readText log).mapError (.log log)
  let found := Diagnosis.ofLog? Signature.builtin text
  let shown :=
    if json then Json.pretty (Json.ofOption Json.ofDiagnosis found)
    else
      match found with
      | some d => Report.ofDiagnosis d
      | none => "No known error signature matched."
  pure { found := found.isSome, printed := shown ++ "\n" }

def candidates (t : FileTree) (s : Settings) (selector : String) (log recording : Option Path) :
    Except CommandError Answer := do
  if Selector.isPageRoot selector then throw (.tooGeneric selector)
  let text ←
    match log with
    | none => pure ""
    | some p => (t.readText p).mapError (.log p)
  let actions ← loadRecording t recording
  let found := Candidate.all selector actions text s.healing.textLengthLimit.toNat
  pure {
    printed :=
      if found.isEmpty then "No replacement candidates for '" ++ selector ++ "'.\n"
      else Report.ofCandidates found }

def trial (t : FileTree) (s : Settings) (o : RunOptions) : Except CommandError Trial.Setup := do
  if !t.isDir o.workDir then throw (.noWorkDir o.workDir)
  let script ← (t.readText o.script).mapError (.script o.script)
  let actions ← loadRecording t o.recording
  pure {
    settings := s
    request := {
      script
      workDir := o.workDir
      mode := if o.visible then .visible else .headless
      env := Dictionary.ofList o.env
      actions
      timeoutSecs := o.timeoutSecs } }

def reportOn (r : TrialResult) (json : Bool) : Answer where
  found := r.success
  printed := (if json then Json.pretty (Json.ofTrialResult r) else Report.ofResult r) ++ "\n"

/-- Runs a script until it passes. -/
def run {σ : Type} (env : Surroundings σ) (s : Settings) (o : RunOptions) (w : World σ) :
    Except CommandError Answer × World σ :=
  match trial w.tree s o with
  | .error e => (.error e, w)
  | .ok setup =>
    let (p, w) := Trial.run env setup w
    (.ok (reportOn p.result o.json), w)

def Command.perform {σ : Type} (c : Command) (env : Settings → Surroundings σ) (s : Settings)
    (w : World σ) : Except CommandError Answer × World σ :=
  match c with
  | .run o => CommandLine.run (env s) s o w
  | .classify log json => (CommandLine.classify w.tree log json, w)
  | .candidates selector log recording =>
    (CommandLine.candidates w.tree s selector log recording, w)

/-- The exit code of a command that did not find what it was asked for. -/
def Command.missCode : Command → Nat
  | .run _ => 1
  | .classify .. => 2
  | .candidates .. => 0

/-- What the whole program leaves behind. -/
structure Ended (σ : Type) where
  exitCode : Nat
  printed : String
  /-- What went wrong. -/
  complaint : Option String := none
  world : World σ

/-- The program: reads its arguments and its settings and carries the command out. -/
def program {σ : Type} (env : Settings → Surroundings σ) (home : Option Path) (args : List String)
    (w : World σ) : Ended σ :=
  match Arguments.read args with
  | .error .usage =>
    { exitCode := 2, printed := "", complaint := some "unusable arguments", world := w }
  | .error .version => { exitCode := 0, printed := versionLine, world := w }
  | .error (.help topic) => { exitCode := 0, printed := topic.text, world := w }
  | .ok a =>
    match loadSettings w.tree home a.config with
    | .error e => { exitCode := 1, printed := "", complaint := some e.message, world := w }
    | .ok s =>
      match a.command.perform env s w with
      | (.error e, w) => { exitCode := 1, printed := "", complaint := some e.message, world := w }
      | (.ok answer, w) =>
        { exitCode := if answer.found then 0 else a.command.missCode
          printed := answer.printed
          world := w }

end CommandLine

end TestRepair
