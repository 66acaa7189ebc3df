import TestRepair.Path
import TestRepair.Text.Search

/-!
The arguments of the program: options, which may stand anywhere behind the command they belong to,
and the command with what it needs. An option takes its value from behind an equals sign or from the
next argument; behind `--` nothing is an option.
-/

namespace TestRepair

namespace CommandLine

/-- What a value of an option has to be. -/
inductive ValueKind
  | text
  | path
  | pair
  | number
  deriving DecidableEq, Repr

/-- One option of a command. -/
structure OptionSpec where
  name : String
  /-- None for an option that is on or off. -/
  value : Option ValueKind := none
  required : Bool := false
  repeatable : Bool := false

/-- The option with the settings' file, which every command takes. -/
def configOption : OptionSpec := { name := "config", value := some .path }

/-- The commands that have options of their own. -/
inductive CommandName
  | run
  | classify
  | candidates
  deriving DecidableEq, Repr

namespace CommandName

def all : List CommandName := [run, classify, candidates]

def name : CommandName → String
  | run => "run"
  | classify => "classify"
  | candidates => "candidates"

def ofName? (name : String) : Option CommandName := all.find? fun c => c.name == name

def options : CommandName → List OptionSpec
  | run => [
    { name := "script", value := some .path, required := true },
    { name := "work-dir", value := some .path, required := true },
    { name := "visible" },
    { name := "recording", value := some .path },
    { name := "env", value := some .pair, repeatable := true },
    { name := "timeout", value := some .number },
    { name := "json" }]
  | classify => [{ name := "json" }]
  | candidates => [
    { name := "selector", value := some .text, required := true },
    { name := "log", value := some .path },
    { name := "recording", value := some .path }]

def operands : CommandName → Nat
  | classify => 1
  | _ => 0

end CommandName

/-- A variable and its value as an argument spells them. -/
def pair? (s : String) : Option (String × String) :=
  match Text.splitFirst? '=' s.toList with
  | some (name, value) =>
    if name.isEmpty then none else some (String.ofList name, String.ofList value)
  | none => none

/-- The complaint about an argument that is no variable with a value. -/
def pairMessage (s : String) : String := "expected KEY=VALUE, got '" ++ s ++ "'"

/-- A whole number of 64 bits, a plus sign before it allowed. -/
def number? (s : String) : Option UInt64 :=
  let ds := match s.toList with
    | '+' :: ds => ds
    | ds => ds
  if ds.isEmpty || !ds.all Char.isDigit then none
  else
    let n := ds.foldl (fun n c => 10 * n + (c.toNat - '0'.toNat)) 0
    if n < UInt64.size then some (UInt64.ofNat n) else none

def ValueKind.accepts : ValueKind → String → Bool
  | .text, _ => true
  | .path, s => !s.isEmpty
  | .pair, s => (pair? s).isSome
  | .number, s => (number? s).isSome

/-- What help can be about. -/
inductive HelpTopic
  | program
  | command (name : CommandName)
  /-- How help itself is asked for. -/
  | help
  deriving DecidableEq, Repr

/-- What the arguments ask for in place of a command, or that they are wrong. -/
inductive Stop
  | usage
  | version
  | help (topic : HelpTopic)
  deriving DecidableEq, Repr

/-- The options and other arguments of one command, as they were given. -/
structure Given where
  values : List (String × String) := []
  flags : List String := []
  operands : List String := []

namespace Given

def value? (g : Given) (name : String) : Option String :=
  (g.values.reverse.find? (·.1 == name)).map (·.2)

def isOn (g : Given) (name : String) : Bool := g.flags.contains name

/-- Adds a value; most options take only one. -/
def addValue (g : Given) (o : OptionSpec) (kind : ValueKind) (value : String) : Except Stop Given :=
  if (!o.repeatable && (g.value? o.name).isSome) || !kind.accepts value then .error .usage
  else .ok { g with values := g.values ++ [(o.name, value)] }

/-- Turns an option on, once. -/
def addFlag (g : Given) (name : String) : Except Stop Given :=
  if g.isOn name then .error .usage else .ok { g with flags := g.flags ++ [name] }

end Given

def looksLikeOption (s : String) : Bool := s != "-" && Text.startsWith ['-'] s.toList

/-- What the arguments of one place are read against. -/
structure Level where
  options : List OptionSpec
  operands : Nat
  /-- The command whose arguments these are; none before the command. -/
  command : Option CommandName

namespace Level

/-- What help is about if it is asked for here. -/
def topic (l : Level) : HelpTopic := l.command.elim .program .command

def top : Level := { options := [configOption], operands := 0, command := none }

def ofCommand (c : CommandName) : Level :=
  { options := configOption :: c.options, operands := c.operands, command := some c }

def shortStop (l : Level) (s : List Char) : Stop :=
  match s with
  | 'h' :: _ => .help l.topic
  | 'V' :: _ => if l.command.isNone then .version else .usage
  | _ => .usage

/-- The name and the value of an option that is written in one argument. -/
def splitOption (s : List Char) : String × Option String :=
  match Text.splitFirst? '=' s with
  | some (name, value) => (String.ofList name, some (String.ofList value))
  | none => (String.ofList s, none)

/-- Reads the arguments of one place. Before the command the first argument that is no option is the
command, and what follows it is left. -/
def read (l : Level) : (plain : Bool) → Given → List String →
    Except Stop (Given × Option (String × List String))
  | _, g, [] => .ok (g, none)
  | plain, g, a :: rest =>
    if plain || !looksLikeOption a then
      if l.command.isNone then
        if plain then .error .usage else .ok (g, some (a, rest))
      else if g.operands.length < l.operands && !a.isEmpty then
        read l plain { g with operands := g.operands ++ [a] } rest
      else .error .usage
    else
      match a.toList with
      | ['-', '-'] => read l true g rest
      | '-' :: '-' :: s =>
        let (name, attached) := splitOption s
        match l.options.find? (·.name == name), attached with
        | some o, attached =>
          match o.value, attached, rest with
          | none, none, rest => do read l plain (← g.addFlag name) rest
          | none, some _, _ => .error .usage
          | some kind, some value, rest => do read l plain (← g.addValue o kind value) rest
          | some kind, none, value :: rest =>
            if looksLikeOption value then .error .usage
            else do read l plain (← g.addValue o kind value) rest
          | some _, none, [] => .error .usage
        | none, some _ => .error .usage
        | none, none =>
          if name == "help" then .error (.help l.topic)
          else if name == "version" && l.command.isNone then .error .version
          else .error .usage
      | _ => .error (shortStop l (a.toList.drop 1))
termination_by _ _ args => args.length

end Level

/-- What a command is carried out with. -/
structure RunOptions where
  script : Path
  workDir : Path
  visible : Bool := false
  recording : Option Path := none
  env : List (String × String) := []
  timeoutSecs : Option UInt64 := none
  json : Bool := false
  deriving DecidableEq, Repr

/-- A command with what it needs. -/
inductive Command
  | run (options : RunOptions)
  | classify (log : Path) (json : Bool)
  | candidates (selector : String) (log recording : Option Path)
  deriving DecidableEq, Repr

/-- The arguments of the program. -/
structure Arguments where
  config : Option Path
  command : Command
  deriving DecidableEq, Repr

def Given.path? (g : Given) (name : String) : Option Path := (g.value? name).map (⟨·⟩)

/-- The command that was given; none if something that it needs is missing. -/
def CommandName.command? (c : CommandName) (g : Given) : Option Command :=
  match c with
  | .run => do
    let script ← g.path? "script"
    let workDir ← g.path? "work-dir"
    pure (.run {
      script
      workDir
      visible := g.isOn "visible"
      recording := g.path? "recording"
      env := g.values.filterMap fun v => if v.1 == "env" then pair? v.2 else none
      timeoutSecs := (g.value? "timeout").bind number?
      json := g.isOn "json" })
  | .classify => g.operands.head?.map fun log => .classify ⟨log⟩ (g.isOn "json")
  | .candidates =>
    (g.value? "selector").map fun s => .candidates s (g.path? "log") (g.path? "recording")

/-- What `help` with further arguments asks for. -/
def helpOn : List String → Stop
  | [] => .help .program
  | ["help"] => .help .help
  | [name] => ((CommandName.ofName? name).map fun c => .help (.command c)).getD .usage
  | _ => .usage

/-- The arguments of the program. A settings' file that is named behind the command counts more. -/
def Arguments.read (args : List String) : Except Stop Arguments := do
  let (outer, found) ← Level.top.read false {} args
  let some (name, rest) := found | throw .usage
  if name == "help" then throw (helpOn rest)
  let some c := CommandName.ofName? name | throw .usage
  let (inner, _) ← (Level.ofCommand c).read false {} rest
  let some command := c.command? inner | throw .usage
  pure { config := inner.path? "config" <|> outer.path? "config", command }

end CommandLine

end TestRepair
