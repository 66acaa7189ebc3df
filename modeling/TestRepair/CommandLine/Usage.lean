import TestRepair.CommandLine.Arguments

/-!
What the program prints about itself: its version, and which arguments it takes.
-/

namespace TestRepair

namespace CommandLine

def programName : String := "mend"

def versionLine : String := programName ++ " 0.1.0\n"

def purpose : String := "Run generated browser tests and repair them until they pass"

namespace CommandName

def purpose : CommandName → String
  | run => "Execute a script, repairing and retrying on failure"
  | classify => "Classify a saved runner log"
  | candidates => "List replacement candidates for a failing selector"

/-- The arguments that a command needs, as help shows them. -/
def synopsis : CommandName → String
  | run => " --script <SCRIPT> --work-dir <WORK_DIR>"
  | classify => " <LOG_FILE>"
  | candidates => " --selector <SELECTOR>"

def optionNotes : CommandName → List (String × String)
  | run => [
    ("      --script <SCRIPT>", "Script to execute"),
    ("      --work-dir <WORK_DIR>", "Project directory the runner executes in"),
    ("      --visible", "Show the browser window"),
    ("      --recording <RECORDING>", "Recorder action history (JSON array)"),
    ("      --env <ENV>", "Environment override passed to the runner, KEY=VALUE"),
    ("      --timeout <TIMEOUT>", "Runner timeout override in seconds"),
    ("      --json", "Print the result as JSON")]
  | classify => [("      --json", "")]
  | candidates => [
    ("      --selector <SELECTOR>", ""),
    ("      --log <LOG>", "Runner log to mine for suggestions"),
    ("      --recording <RECORDING>", "Recorder action history (JSON array)")]

end CommandName

/-- The option with the settings' file with what it means. -/
def configNote : String × String :=
  ("      --config <CONFIG>",
    "Configuration file (defaults to ./mend.yaml, then ~/.mend/config.yaml)")

def helpNote : String × String := ("  -h, --help", "Print help")

/-- Lines with notes, the notes in one column. -/
def aligned (notes : List (String × String)) : String :=
  let width := (notes.map (·.1.length)).foldl max 0 + 2
  String.join (notes.map fun n =>
    n.1 ++ String.ofList (List.replicate (width - n.1.length) ' ') ++ n.2 ++ "\n")

def helpPurpose : String := "Print this message or the help of the given subcommand(s)"

def programHelp : String :=
  let commands :=
    CommandName.all.map (fun c => ("  " ++ c.name, c.purpose)) ++
      [("  help", helpPurpose)]
  purpose ++ "\n\nUsage: " ++ programName ++ " [OPTIONS] <COMMAND>\n\nCommands:\n" ++
    aligned commands ++ "\nOptions:\n" ++
    aligned [configNote, helpNote, ("  -V, --version", "Print version")]

def CommandName.help (c : CommandName) : String :=
  let operands :=
    if c.operands = 0 then "" else "Arguments:\n" ++ aligned [("  <LOG_FILE>", "")] ++ "\n"
  c.purpose ++ "\n\nUsage: " ++ programName ++ " " ++ c.name ++ " [OPTIONS]" ++ c.synopsis ++
    "\n\n" ++ operands ++ "Options:\n" ++ aligned (configNote :: c.optionNotes ++ [helpNote])

def helpOnHelp : String :=
  helpPurpose ++ "\n\nUsage: " ++ programName ++ " help [COMMAND]...\n\nArguments:\n" ++
    aligned [("  [COMMAND]...", "Print help for the subcommand(s)")]

def HelpTopic.text : HelpTopic → String
  | program => programHelp
  | command c => c.help
  | help => helpOnHelp

end CommandLine

end TestRepair
