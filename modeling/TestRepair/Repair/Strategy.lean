import TestRepair.Assistant.Reply
import TestRepair.Assistant.Request
import TestRepair.Locator.Failing
import TestRepair.Repair.Healing
import TestRepair.Script.Export
import TestRepair.Script.MissingClass
import TestRepair.Script.Module

/-!
How each kind of failure is repaired. A repair gives a script, perhaps the same, and the files that
it rewrote on the way. One that fails gives the script unchanged and says why; nothing that failed
has touched a file.
-/

namespace TestRepair

/-- Why a repair failed. -/
inductive RepairError
  | noClassName
  | noImport (cls : String)
  | noModule (specifier : String)
  | exporting (cause : Script.ExportError)
  | noFailingSelector
  | healing (cause : HealError)
  | assistant (cause : AssistantError)
  | assistantSilent (secs : UInt64)
  | noCode
  deriving DecidableEq, Repr

namespace RepairError

def message : RepairError → String
  | noClassName => "No class name found in the error output"
  | noImport cls => "No relative import of '" ++ cls ++ "' in the script"
  | noModule specifier => "Imported module '" ++ specifier ++ "' not found on disk"
  | exporting cause => cause.message
  | noFailingSelector => "No failing selector found in the error output"
  | healing cause => cause.message
  | assistant cause => cause.message
  | assistantSilent secs => "Assistant did not answer within " ++ toString secs.toNat ++ "s"
  | noCode => "Assistant reply contained no code"

end RepairError

/-- What a repair gives. -/
structure Repair where
  script : String
  /-- The other files that were rewritten, seen from the work directory. -/
  filesTouched : List String := []
  description : String
  deriving DecidableEq, Repr

/-- How an assistant was waited for. -/
inductive Consultation
  | replied (text : String)
  | failed (cause : AssistantError)
  /-- There was no reply in time. -/
  | silent
  /-- The trial was cancelled before there was a reply. -/
  | interrupted
  deriving DecidableEq, Repr

namespace Repair

/-- What a repair may look at and extend. -/
structure Context where
  settings : Settings
  workDir : Path
  actions : List RecordedAction
  ledger : Ledger
  tree : FileTree

namespace Context

/-- Where the script is written, seen from the work directory. -/
def scriptPath (c : Context) : Path := c.settings.runner.scriptPath

def scriptFile (c : Context) : Path := c.workDir.join c.scriptPath

def scriptDir (c : Context) : Path := c.scriptFile.parent?.getD c.workDir

end Context

/-- A repair or the reason why there is none, with the ledger and the tree that it leaves. -/
structure Outcome where
  result : Except RepairError Repair
  ledger : Ledger
  tree : FileTree

/-- A repair that changed nothing. -/
def unchanged (script description : String) : Repair := { script, description }

/-- The word for `n` things: an `s` unless it is one. -/
def plural (n : Nat) : String := if n = 1 then "" else "s"

/-- The module of the class that a log complains about. -/
def complainedModule (c : Context) (script log : String) : Except RepairError (String × Path) := do
  let some cls := MissingClass.ofLog? log | throw .noClassName
  let some specifier := Script.importOf? script cls | throw (.noImport cls)
  let some module := Script.module? c.tree c.scriptDir specifier | throw (.noModule specifier)
  pure (cls, module)

/-- Exports the class that a log complains about from the module it is imported from. -/
def exportClass (c : Context) (script log : String) : Except RepairError (Repair × FileTree) := do
  let (cls, module) ← complainedModule c script log
  let (changed, t) ← (Script.ensureExported c.tree module cls).mapError .exporting
  if changed then
    let name := module.shownFrom c.workDir
    pure ({ script
            filesTouched := [name]
            description := "exported " ++ cls ++ " from " ++ name }, t)
  else pure (unchanged script (cls ++ " is already exported"), t)

def completeImports (c : Context) (script : String) : Repair :=
  let extension := c.settings.imports.extension
  let (script, count) := Script.extendImports script extension
  { script
    description :=
      "added " ++ extension ++ " to " ++ toString count ++ " relative import" ++ plural count }

def ofHealed (c : Context) (script failing : String) (healed : Healing.Healed) : Repair where
  script := (Replacement.inText? script failing healed.candidate.selector).getD script
  filesTouched :=
    (healed.patched.filter fun p => !p.same c.scriptFile).map fun p => p.shownFrom c.workDir
  description := "replaced locator '" ++ failing ++ "' with '" ++ healed.candidate.selector ++
    "' (" ++ healed.candidate.tier.label ++ ")"

/-- Replaces the failing selector in the sources and in the script. -/
def healSelector (c : Context) (script log : String) : Outcome :=
  match FailingLocator.ofLog? log with
  | none => ⟨.error .noFailingSelector, c.ledger, c.tree⟩
  | some failing =>
    let healing := Healing.heal c.settings.healing c.ledger c.tree c.workDir failing c.actions log
    let result :=
      match healing.result with
      | .error e => .error (.healing e)
      | .ok none =>
        .ok (unchanged script ("no untried locator candidate for '" ++ failing ++ "'"))
      | .ok (some healed) => .ok (ofHealed c script failing healed)
    ⟨result, healing.ledger, healing.tree⟩

/-- The repair that waiting for an assistant gives; none if the trial was cancelled meanwhile. -/
def ofConsultation? (settings : AssistantSettings) : Consultation →
    Option (Except RepairError Repair)
  | .interrupted => none
  | .silent => some (.error (.assistantSilent settings.timeoutSecs))
  | .failed cause => some (.error (.assistant cause))
  | .replied text =>
    some <|
      match AssistantReply.code? text with
      | none => .error .noCode
      | some script => .ok { script, description := "rewrote script with the authoring assistant" }

/-- The outcome of a strategy that may have replaced files. -/
def ofStrategy (c : Context) : Except RepairError (Repair × FileTree) → Outcome
  | .ok (repair, t) => ⟨.ok repair, c.ledger, t⟩
  | .error e => ⟨.error e, c.ledger, c.tree⟩

/-- Whether a kind of failure is left to the assistant. -/
def needsAssistant : FailureKind → Bool
  | .typeError | .syntaxError | .missingMethod | .compilation => true
  | _ => false

/-- The repair of a failure that needs no assistant. -/
def withoutAssistant (c : Context) (kind : FailureKind) (script log : String) : Outcome :=
  match kind with
  | .exportConstructor => ofStrategy c (exportClass c script log)
  | .importResolution => ⟨.ok (completeImports c script), c.ledger, c.tree⟩
  | .locatorNotFound | .selectorAmbiguity => healSelector c script log
  | _ =>
    ⟨.ok (unchanged script "missing data file is not repaired automatically"), c.ledger, c.tree⟩

/-- The repair as it is reported: a failed one leaves the script and says why. -/
def report (script : String) : Except RepairError Repair → Repair
  | .ok repair => repair
  | .error e => unchanged script ("no fix: " ++ e.message)

/-- A repair with the ledger and the tree that it leaves. -/
structure Finished where
  repair : Repair
  ledger : Ledger
  tree : FileTree

/-- Repairs a diagnosed failure, asking `consult` where an assistant is needed; none if the trial was
cancelled while it was waited for. -/
def repair? {σ : Type} (c : Context) (consult : RewriteRequest → σ → Consultation × σ) (state : σ)
    (script : String) (d : Diagnosis) (log : String) : Option Finished × σ :=
  if needsAssistant d.kind then
    let request :=
      RewriteRequest.ofDiagnosis script d log c.settings.assistant.maxLogChars.toNat
    let (consultation, state) := consult request state
    let result := ofConsultation? c.settings.assistant consultation
    (result.map fun r => ⟨report script r, c.ledger, c.tree⟩, state)
  else
    let outcome := withoutAssistant c d.kind script log
    (some ⟨report script outcome.result, outcome.ledger, outcome.tree⟩, state)

end Repair

end TestRepair
