import TestRepair.Failure.Diagnosis
import TestRepair.Recording
import TestRepair.Settings

/-!
What goes into a trial and what comes out of it: the request to run a script until it passes, the
fixes that were made on the way, and how it ended.
-/

namespace TestRepair

/-- Whether the browser is shown. -/
inductive DisplayMode
  | headless
  | visible
  deriving DecidableEq, Repr

namespace DisplayMode

def name : DisplayMode → String
  | headless => "headless"
  | visible => "visible"

def ofName? (name : String) : Option DisplayMode :=
  [headless, visible].find? fun m => m.name == name

end DisplayMode

/-- The request to run a script until it passes. -/
structure TrialRequest where
  script : String
  workDir : Path
  mode : DisplayMode := .headless
  /-- What the runner's environment has on top of the surrounding one. -/
  env : Dictionary String String := {}
  actions : List RecordedAction := []
  /-- Seconds for one run, in place of the setting. -/
  timeoutSecs : Option UInt64 := none
  deriving DecidableEq, Repr

/-- One fix that let a trial go on. -/
structure FixRecord where
  /-- The attempt whose failure was fixed. -/
  attempt : UInt64
  kind : FailureKind
  description : String
  scriptChanged : Bool
  filesChanged : Bool
  filesTouched : List String := []
  deriving DecidableEq, Repr

/-- How a trial ended. -/
inductive Ending
  | succeeded
  | unrecognised
  | noFix
  | attemptsUsedUp
  | cancelled
  deriving DecidableEq, Repr

namespace Ending

def all : List Ending := [succeeded, unrecognised, noFix, attemptsUsedUp, cancelled]

def name : Ending → String
  | succeeded => "succeeded"
  | unrecognised => "exhausted_no_classification"
  | noFix => "converged_no_fix"
  | attemptsUsedUp => "exhausted_max_attempts"
  | cancelled => "cancelled"

def code : Ending → String
  | succeeded => "SUCCEEDED"
  | unrecognised => "EXHAUSTED_NO_CLASSIFICATION"
  | noFix => "CONVERGED_NO_FIX"
  | attemptsUsedUp => "EXHAUSTED_MAX_ATTEMPTS"
  | cancelled => "CANCELLED"

def ofName? (name : String) : Option Ending := all.find? fun e => e.name == name

end Ending

/-- What came out of a trial. -/
structure TrialResult where
  success : Bool
  ending : Ending
  /-- The logs of all attempts, each below a heading. -/
  logs : String
  attempts : UInt64
  fixes : List FixRecord
  finalScript : String
  /-- Why the trial did not succeed. -/
  note : Option String := none
  deriving DecidableEq, Repr

namespace Json

def toDisplayMode? (j : Json) : Option DisplayMode := (caseName? j).bind DisplayMode.ofName?

def toFailureKind? (j : Json) : Option FailureKind := (caseName? j).bind FailureKind.ofName?

def toEnding? (j : Json) : Option Ending := (caseName? j).bind Ending.ofName?

def toDiagnosis? (j : Json) : Option Diagnosis := do
  let ms ← record? ["category", "matched", "context", "file", "line"] j
  pure {
    kind := ← required ms "category" toFailureKind?
    matched := ← required ms "matched" toText?
    context := ← required ms "context" toText?
    file := ← optionalField ms "file" toText?
    line := ← optionalField ms "line" toUInt32? }

def ofDiagnosis (d : Diagnosis) : Json := obj <|
  [("category", str d.kind.name), ("matched", str d.matched), ("context", str d.context)] ++
    memberIfSome "file" str d.file ++
    memberIfSome "line" (fun l => ofNat l.toNat) d.line

def toTrialRequest? (j : Json) : Option TrialRequest := do
  let ms ← record?
    ["script", "work_dir", "mode", "env", "recorder_actions", "timeout_secs"] j
  pure {
    script := ← required ms "script" toText?
    workDir := ← required ms "work_dir" toPath?
    mode := ← defaulted ms "mode" toDisplayMode? .headless
    env := ← defaulted ms "env" toTexts? {}
    actions := ← defaulted ms "recorder_actions" toRecording? []
    timeoutSecs := ← optionalField ms "timeout_secs" toUInt64? }

def ofTrialRequest (r : TrialRequest) : Json := obj <|
  [("script", str r.script), ("work_dir", ofPath r.workDir), ("mode", str r.mode.name),
    ("env", ofDictionary r.env), ("recorder_actions", ofRecording r.actions)] ++
    memberIfSome "timeout_secs" (fun t => ofNat t.toNat) r.timeoutSecs

def toFixRecord? (j : Json) : Option FixRecord := do
  let ms ← record?
    ["attempt", "category", "description", "script_changed", "files_changed", "files_touched"] j
  pure {
    attempt := ← required ms "attempt" toUInt64?
    kind := ← required ms "category" toFailureKind?
    description := ← required ms "description" toText?
    scriptChanged := ← required ms "script_changed" toBool?
    filesChanged := ← required ms "files_changed" toBool?
    filesTouched := ← defaulted ms "files_touched" (toList? toText?) [] }

def ofFixRecord (f : FixRecord) : Json := obj [
  ("attempt", ofNat f.attempt.toNat),
  ("category", str f.kind.name),
  ("description", str f.description),
  ("script_changed", bool f.scriptChanged),
  ("files_changed", bool f.filesChanged),
  ("files_touched", ofTexts f.filesTouched)]

def toTrialResult? (j : Json) : Option TrialResult := do
  let ms ← record?
    ["success", "state", "logs", "attempts", "fixes", "final_script", "terminal_error"] j
  pure {
    success := ← required ms "success" toBool?
    ending := ← required ms "state" toEnding?
    logs := ← required ms "logs" toText?
    attempts := ← required ms "attempts" toUInt64?
    fixes := ← required ms "fixes" (toList? toFixRecord?)
    finalScript := ← required ms "final_script" toText?
    note := ← optionalField ms "terminal_error" toText? }

def ofTrialResult (r : TrialResult) : Json := obj <|
  [("success", bool r.success), ("state", str r.ending.name), ("logs", str r.logs),
    ("attempts", ofNat r.attempts.toNat), ("fixes", arr (r.fixes.map ofFixRecord)),
    ("final_script", str r.finalScript)] ++
    memberIfSome "terminal_error" str r.note

end Json

end TestRepair
