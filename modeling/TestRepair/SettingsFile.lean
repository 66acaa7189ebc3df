import TestRepair.Assistant.Endpoint
import TestRepair.FileTree.Basic
import TestRepair.Yaml.Shape

/-!
Settings as a project keeps them in a file: reading and checking them. What the file does not set has
its default.
-/

namespace TestRepair

/-- What settings cannot be used with. -/
inductive SettingsFault
  | noCommand
  | absoluteScriptPath
  | endpoint (fault : Endpoint.Fault)
  deriving DecidableEq, Repr

def SettingsFault.message : SettingsFault → String
  | noCommand => "runner.command must not be empty"
  | absoluteScriptPath => "runner.script_path must be relative to the work dir"
  | endpoint fault => "assistant.endpoint: " ++ fault.message

/-- Why settings could not be loaded. -/
inductive SettingsError
  | read (cause : FileError)
  | malformed
  | invalid (fault : SettingsFault)
  deriving DecidableEq, Repr

namespace SettingsError

def message : SettingsError → String
  | read cause => "Failed to read config file: " ++ cause.message
  | malformed => "Failed to parse config file"
  | invalid fault => "Invalid config: " ++ fault.message

end SettingsError

namespace Settings

/-- The fields of settings as a file spells them. -/
def shape : Yaml.Shape := .record [
  ("runner", .record [
    ("command", .texts),
    ("visible_flag", .textOrNothing),
    ("headless_flag", .textOrNothing),
    ("script_path", .text),
    ("timeout_secs", .number)]),
  ("retry", .record [("max_attempts", .number)]),
  ("healing", .record [
    ("locator_dirs", .texts),
    ("source_extensions", .texts),
    ("text_length_limit", .number)]),
  ("imports", .record [("extension", .text)]),
  ("assistant", .record [
    ("endpoint", .textOrNothing),
    ("model", .text),
    ("api_key_env", .text),
    ("timeout_secs", .number),
    ("max_log_chars", .number)])]

def ofText? (text : String) : Option Settings :=
  ((Yaml.read? text).bind (Yaml.shaped? shape)).bind Json.toSettings?

/-- Checks what no default can mend. -/
def check (s : Settings) : Except SettingsFault Unit := do
  if s.runner.command.isEmpty then throw .noCommand
  if s.runner.scriptPath.isAbsolute then throw .absoluteScriptPath
  match s.assistant.endpoint with
  | none => pure ()
  | some address => (Endpoint.check address).mapError .endpoint

/-- The settings in the file that a path leads to. -/
def load (t : FileTree) (p : Path) : Except SettingsError Settings := do
  let text ← (t.readText p).mapError .read
  match ofText? text with
  | none => throw .malformed
  | some s =>
    s.check.mapError .invalid
    pure s

def localFile : Path := ⟨"./mend.yaml"⟩

def homeFile (home : Path) : Path := (home.child ".mend").child "config.yaml"

/-- The settings in the first usual file that is there, or the defaults. -/
def find (t : FileTree) (home : Option Path) : Except SettingsError Settings :=
  if t.exists localFile then load t localFile
  else
    match home with
    | none => .ok {}
    | some home => if t.exists (homeFile home) then load t (homeFile home) else .ok {}

end Settings

end TestRepair
