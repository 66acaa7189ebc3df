import TestRepair.Json.Codec
import TestRepair.Path

/-!
The settings of a project: how its test runner is called, how often a script may be tried, where
locators are written, what relative imports end in, and which assistant may rewrite a script. Every
setting has a default.
-/

namespace TestRepair

/-- How the test runner is called. -/
structure RunnerSettings where
  /-- The program and its first arguments; the path of the script follows them. -/
  command : List String := ["npx", "playwright", "test"]
  visibleFlag : Option String := some "--headed"
  headlessFlag : Option String := none
  /-- Where the script is written, seen from the work directory. -/
  scriptPath : Path := ⟨"tests/generated.spec.ts"⟩
  timeoutSecs : UInt64 := 300
  deriving DecidableEq, Repr

/-- How often a script may be tried. -/
structure RetrySettings where
  maxAttempts : UInt64 := 5
  deriving DecidableEq, Repr

namespace RetrySettings

/-- No script is tried more often, whatever the settings say. -/
def hardLimit : Nat := 5

/-- How often a script is tried at most: once at least, and never past the hard limit. -/
def attempts (s : RetrySettings) : Nat := max 1 (min s.maxAttempts.toNat hardLimit)

end RetrySettings

/-- Where locators are written and how long a text may identify an element. -/
structure HealingSettings where
  /-- Directories with locators, seen from the work directory. -/
  locatorDirs : List Path :=
    [⟨"locators"⟩, ⟨"pages"⟩, ⟨"page-objects"⟩, ⟨"tests/locators"⟩, ⟨"tests/pages"⟩]
  /-- The endings of source files. -/
  sourceExtensions : List String := ["ts", "js", "mjs", "cjs", "tsx", "jsx"]
  /-- No longer text becomes a selector. -/
  textLengthLimit : UInt64 := 50
  deriving DecidableEq, Repr

/-- What relative imports end in. -/
structure ImportSettings where
  /-- The ending that an import without one gets. -/
  extension : String := ".js"
  deriving DecidableEq, Repr

/-- Which assistant may rewrite a script. -/
structure AssistantSettings where
  /-- Without an address there is no assistant. -/
  endpoint : Option String := none
  model : String := "gpt-4o-mini"
  /-- The name of the environment variable that holds the key. -/
  apiKeyEnv : String := "MEND_API_KEY"
  timeoutSecs : UInt64 := 60
  /-- How much of the end of a log is sent along. -/
  maxLogChars : UInt64 := 4000
  deriving DecidableEq, Repr

/-- All settings of a project. -/
structure Settings where
  runner : RunnerSettings := {}
  retry : RetrySettings := {}
  healing : HealingSettings := {}
  imports : ImportSettings := {}
  assistant : AssistantSettings := {}
  deriving DecidableEq, Repr

namespace Json

def toPath? (j : Json) : Option Path := (toText? j).map (⟨·⟩)

def ofPath (p : Path) : Json := str p.text

def toRunnerSettings? (j : Json) : Option RunnerSettings := do
  let ms ← record? ["command", "visible_flag", "headless_flag", "script_path", "timeout_secs"] j
  let d : RunnerSettings := {}
  pure {
    command := ← defaulted ms "command" (toList? toText?) d.command
    visibleFlag := ← defaulted ms "visible_flag" (nullable toText?) d.visibleFlag
    headlessFlag := ← optionalField ms "headless_flag" toText?
    scriptPath := ← defaulted ms "script_path" toPath? d.scriptPath
    timeoutSecs := ← defaulted ms "timeout_secs" toUInt64? d.timeoutSecs }

def ofRunnerSettings (s : RunnerSettings) : Json := obj [
  ("command", ofTexts s.command),
  ("visible_flag", ofOption str s.visibleFlag),
  ("headless_flag", ofOption str s.headlessFlag),
  ("script_path", ofPath s.scriptPath),
  ("timeout_secs", ofNat s.timeoutSecs.toNat)]

/-- Reads how often a script may be tried. -/
def toRetrySettings? (j : Json) : Option RetrySettings := do
  let ms ← record? ["max_attempts"] j
  pure { maxAttempts := ← defaulted ms "max_attempts" toUInt64? ({} : RetrySettings).maxAttempts }

/-- Writes how often a script may be tried. -/
def ofRetrySettings (s : RetrySettings) : Json := obj [("max_attempts", ofNat s.maxAttempts.toNat)]

def toHealingSettings? (j : Json) : Option HealingSettings := do
  let ms ← record? ["locator_dirs", "source_extensions", "text_length_limit"] j
  let d : HealingSettings := {}
  pure {
    locatorDirs := ← defaulted ms "locator_dirs" (toList? toPath?) d.locatorDirs
    sourceExtensions := ← defaulted ms "source_extensions" (toList? toText?) d.sourceExtensions
    textLengthLimit := ← defaulted ms "text_length_limit" toUInt64? d.textLengthLimit }

def ofHealingSettings (s : HealingSettings) : Json := obj [
  ("locator_dirs", arr (s.locatorDirs.map ofPath)),
  ("source_extensions", ofTexts s.sourceExtensions),
  ("text_length_limit", ofNat s.textLengthLimit.toNat)]

def toImportSettings? (j : Json) : Option ImportSettings := do
  let ms ← record? ["extension"] j
  pure { extension := ← defaulted ms "extension" toText? ({} : ImportSettings).extension }

def ofImportSettings (s : ImportSettings) : Json := obj [("extension", str s.extension)]

def toAssistantSettings? (j : Json) : Option AssistantSettings := do
  let ms ← record? ["endpoint", "model", "api_key_env", "timeout_secs", "max_log_chars"] j
  let d : AssistantSettings := {}
  pure {
    endpoint := ← optionalField ms "endpoint" toText?
    model := ← defaulted ms "model" toText? d.model
    apiKeyEnv := ← defaulted ms "api_key_env" toText? d.apiKeyEnv
    timeoutSecs := ← defaulted ms "timeout_secs" toUInt64? d.timeoutSecs
    maxLogChars := ← defaulted ms "max_log_chars" toUInt64? d.maxLogChars }

def ofAssistantSettings (s : AssistantSettings) : Json := obj [
  ("endpoint", ofOption str s.endpoint),
  ("model", str s.model),
  ("api_key_env", str s.apiKeyEnv),
  ("timeout_secs", ofNat s.timeoutSecs.toNat),
  ("max_log_chars", ofNat s.maxLogChars.toNat)]

def toSettings? (j : Json) : Option Settings := do
  let ms ← record? ["runner", "retry", "healing", "imports", "assistant"] j
  pure {
    runner := ← defaulted ms "runner" toRunnerSettings? {}
    retry := ← defaulted ms "retry" toRetrySettings? {}
    healing := ← defaulted ms "healing" toHealingSettings? {}
    imports := ← defaulted ms "imports" toImportSettings? {}
    assistant := ← defaulted ms "assistant" toAssistantSettings? {} }

def ofSettings (s : Settings) : Json := obj [
  ("runner", ofRunnerSettings s.runner),
  ("retry", ofRetrySettings s.retry),
  ("healing", ofHealingSettings s.healing),
  ("imports", ofImportSettings s.imports),
  ("assistant", ofAssistantSettings s.assistant)]

end Json

end TestRepair
