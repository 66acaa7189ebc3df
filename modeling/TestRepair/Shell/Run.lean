import TestRepair.Shell.Builtin
import TestRepair.Shell.Reader

/-!
Carrying out commands. The command of a test runner may be one of the shell: this is what stands for the
shell when the program carries out such a command. Only the runner makes use of it, and nothing is proved
about it, for theorems about trials hold for every runner. Everything has a budget that bounds how deep
calls nest and how often loops go round; a shell whose budget is used up counts as one that never ends.
-/

namespace TestRepair

namespace Shell

/-- A piece of a word while variables are put in. -/
inductive Piece
  | char (quoted : Bool) (c : Char)
  /-- The word ends here, at a character of a value, and the next one begins. -/
  | split (c : Char)
  /-- There is a word here even if it is empty. -/
  | mark

/-- Quoted characters. -/
def quotedPieces (s : Raw) : List Piece := .mark :: s.map (.char true)

/-- The pieces of a value that is put in without quotes. -/
def splitPieces (separators : Raw) (s : Raw) : List Piece :=
  s.flatMap fun c =>
    if !separators.contains c then [.char false c]
    else if [' ', '\t', '\n'].contains c then [.split c]
    else [.mark, .split c]

def valuePieces (separators : Raw) (quoted : Bool) (s : Raw) : List Piece :=
  if quoted then quotedPieces s else splitPieces separators s

/-- The characters of pieces, with what is quoted. -/
def markedOf (ps : List Piece) : List Marked := ps.filterMap fun p =>
  match p with
  | .char q c => some (q, c)
  | .split c => some (false, c)
  | .mark => none

def textOf (ps : List Piece) : Raw := (markedOf ps).map (·.2)

def splitWords : List Piece → List (List Piece)
  | [] => [[]]
  | .split _ :: ps => [] :: splitWords ps
  | p :: ps =>
    match splitWords ps with
    | [] => [[p]]
    | w :: ws => (p :: w) :: ws

/-- The words that pieces spell, with the paths that they are patterns for. -/
def wordsOf (t : FileTree) (ps : List Piece) : List Raw :=
  ((splitWords ps).filter fun w => !w.isEmpty).flatMap fun w => pathNames t (markedOf w)

/-- The arguments as separate words. -/
def argPieces (quoted : Bool) (separators : Raw) (args : List Raw) : List Piece :=
  (args.map (valuePieces separators quoted)).intersperse [.split ' '] |>.flatten

/-- Drops the line ends at the end of what a command printed. -/
def withoutLastEnds (s : Raw) : Raw := (s.reverse.dropWhile (· == '\n')).reverse

/-- Begins a pipe; gives its number. -/
def openPipe : Action Nat := do
  let s ← get
  set { s with pipes := s.pipes ++ [[]] }
  return s.pipes.length

/-- Ends a pipe; gives what is in it. -/
def closePipe (number : Nat) : Action Raw := do
  let s ← get
  set { s with pipes := s.pipes.take number }
  return (s.pipes[number]?).getD []

/-- Comes back from a part of the shell with variables of its own: only the files, what was printed,
the time, the status and what ends everything stay. -/
def restore (outer : State) : Action Unit := modify fun inner => {
  outer with
  tree := { inner.tree with current := outer.tree.current }
  pipes := inner.pipes
  chunks := inner.chunks
  clock := inner.clock
  status := inner.status
  input := inner.input
  flow := match inner.flow with
    | .killed n => .killed n
    | .late => .late
    | _ => outer.flow }

def turnStream (stream : Nat) (sink : Sink) : Action Unit := modify fun s =>
  if stream = 2 then { s with errSink := sink }
  else if stream = 1 then { s with outSink := sink }
  else { s with extraSinks := s.extraSinks.insert stream sink }

/-- Where a stream goes. -/
def State.sink? (s : State) (stream : Nat) : Option Sink :=
  if stream = 2 then some s.errSink
  else if stream = 1 then some s.outSink
  else if stream = 0 then some .nowhere
  else s.extraSinks.get? stream

/-- Turns streams as a redirection asks; says whether it could. -/
def redirect (stream : Nat) (turn : Turn) (target : Raw) : Action Bool := do
  let s ← get
  match turn with
  | .read =>
    if target == "/dev/null".toList then
      set { s with input := [], inputIsFile := false }
      return true
    match readFile s.tree target with
    | .ok text =>
      set { s with input := text, inputIsFile := true }
      return true
    | .error _ =>
      failHere 2 ("cannot open ".toList ++ target ++ ": No such file".toList)
      return false
  | .here =>
    set { s with input := target, inputIsFile := false }
    return true
  | .like =>
    match Raw.toNat? target with
    | none =>
      turnStream stream .nowhere
      return true
    | some k =>
      match s.sink? k with
      | some sink =>
        if stream != 0 then turnStream stream sink
        return true
      | none =>
        failHere 2 (target ++ ": Bad file descriptor".toList)
        return false
  | .write | .append =>
    match ← openFile (turn == .append) target with
    | .ok sink =>
      turnStream stream sink
      return true
    | .error e =>
      let why := if e == .notFound then "Directory nonexistent".toList else reason e
      failHere 2 ("cannot create ".toList ++ target ++ ": ".toList ++ why)
      return false

def turnsInput (r : Redirect Word) : Bool := r.turn = .read || r.turn = .here

def restoreStreams (outer : State) (input : Bool) : Action Unit := modify fun s => {
  s with
  outSink := outer.outSink
  errSink := outer.errSink
  extraSinks := outer.extraSinks
  input := if input then outer.input else s.input
  inputIsFile := if input then outer.inputIsFile else s.inputIsFile }

def restoreVariables (outer : State) (names : List Raw) : Action Unit := modify fun s =>
  let vars := names.foldl (fun vars name =>
    match outer.vars.get? name with
    | some v => vars.insert name v
    | none => vars.erase name) s.vars
  { s with vars, exported := outer.exported }

/-- The state of another program: it sees only what is exported. -/
def forProgram (s : State) : State := {
  s with
  vars := Dictionary.ofList (s.vars.entries.filter fun e => s.exported.contains e.1)
  functions := {}
  options := []
  traps := {}
  jobs := []
  tests := 0
  loops := 0
  line := 1
  origin := []
  depth := s.depth + 1 }

/-- Comes back from another program. One that a signal has ended is reported; nothing is left to come
back to where the program was not called by a shell. -/
def comeBackTo (outer : State) : Action Unit := do
  let flow := (← get).flow
  restore outer
  match flow with
  | .killed signal =>
    if outer.depth != 0 then
      setFlow outer.flow
      complain (deathOf signal)
      setStatus (128 + signal)
  | _ => return ()

/-- Ends a loop, or lets it go on, after a round; says whether it goes on. -/
def afterRound : Action Bool := do
  match (← get).flow with
  | .running => return true
  | .breaking n =>
    setFlow (if n ≤ 1 then .running else .breaking (n - 1))
    return false
  | .continuing n =>
    setFlow (if n ≤ 1 then .running else .continuing (n - 1))
    return n ≤ 1
  | _ => return false

/-- Leaves the shell after a failure, if it is to. -/
def leaveOnFailure : Action Unit := modify fun s =>
  if s.status != 0 && s.flow == .running && s.tests == 0 && s.options.contains 'e' then
    { s with flow := .leaving }
  else s

/-- Carries out an action as a test. -/
def asTest (a : Action Unit) : Action Unit := do
  modify fun s => { s with tests := s.tests + 1 }
  a
  modify fun s => { s with tests := s.tests - 1 }

/-- The options, the script or file, and the arguments of a shell that is called. -/
structure Call where
  options : Raw := []
  fromText : Bool := false

def callOptions : Call → List Raw → Call × List Raw
  | c, a :: as =>
    match a with
    | ['-', '-'] => (c, as)
    | '-' :: letter :: letters =>
      let ls := letter :: letters
      callOptions
        { options := c.options ++ ls.filter (· != 'c'), fromText := c.fromText || ls.contains 'c' } as
    | _ => (c, a :: as)
  | c, [] => (c, [])

/-- Whether an executable file is a script for a shell. -/
def isShellScript (text : Raw) : Bool :=
  !Text.startsWith ['#', '!'] text || Text.occursIn ['s', 'h'] (text.takeWhile (· != '\n'))

def toolAt? (name : Raw) : Option Raw :=
  (["/bin/", "/usr/bin/"].find? fun dir => dir.toList.isPrefixOf name).bind fun dir =>
    let tool := name.drop dir.length
    if toolNames.contains (String.ofList tool) then some tool else none

mutual

def expand : (budget : Nat) → List Part → Action (List Piece)
  | 0, _ => do
    setFlow .late
    return []
  | _, [] => return []
  | n + 1, p :: ps => do
    let first ← expandPart n p
    let rest ← expand n ps
    return first ++ rest

def expandPart : (budget : Nat) → Part → Action (List Piece)
  | 0, _ => do
    setFlow .late
    return []
  | n + 1, p =>
    match p with
    | .text quoted s => return if quoted then quotedPieces s else s.map (.char false)
    | .output quoted body => do
      let text ← substitute n body
      return valuePieces (← get).separators quoted (withoutLastEnds text)
    | .sum quoted body => do
      let text := textOf (← expand n body)
      let s ← get
      match evaluate s.vars text with
      | .ok (value, vars) =>
        set { s with vars }
        return valuePieces s.separators quoted (Raw.ofInt value)
      | .error fault =>
        failAndLeave 2 (fault.message text)
        return []
    | .variable quoted name modifier word => do
      let s ← get
      let value := s.value? name
      let plain (v : Raw) : List Piece := valuePieces s.separators quoted v
      let isThere (colon : Bool) : Bool := value.any fun v => !(colon && v.isEmpty)
      let wordPieces : Action (List Piece) := do
        let ps ← expand n word
        return if quoted then ps else ps.flatMap fun p =>
          match p with
          | .char false c => splitPieces s.separators [c]
          | p => [p]
      match modifier with
      | .none =>
        if name == ['@'] || (name == ['*'] && !quoted) then
          return argPieces quoted s.separators s.args
        else if value.isNone && s.options.contains 'u' && name != ['@'] && name != ['*'] then
          failAndLeave 2 (name ++ ": parameter not set".toList)
          return []
        else return plain (value.getD [])
      | .length => return plain (Raw.ofNat (value.getD []).length)
      | .default colon => if isThere colon then return plain (value.getD []) else wordPieces
      | .alternative colon => if isThere colon then wordPieces else return plain []
      | .assign colon =>
        if isThere colon then return plain (value.getD [])
        else
          let v := textOf (← expand n word)
          assign name v
          return plain v
      | .complain colon =>
        if isThere colon then return plain (value.getD [])
        else
          let v := textOf (← expand n word)
          failAndLeave 2 (name ++ ": ".toList ++ if v.isEmpty then "parameter not set".toList else v)
          return []
      | .unknown =>
        failAndLeave 2 "Bad substitution".toList
        return []
      | .dropEnd longest =>
        return plain (withoutEnd longest (markedOf (← expand n word)) (value.getD []))
      | .dropStart longest =>
        return plain (withoutStart longest (markedOf (← expand n word)) (value.getD []))

/-- What a command prints, with variables of its own. -/
def substitute : (budget : Nat) → Command → Action Raw
  | 0, _ => do
    setFlow .late
    return []
  | n + 1, body => do
    let k ← openPipe
    let outer ← get
    set { outer with outSink := .pipe k, status := 0 }
    run n body
    restore outer
    closePipe k

def runText : (budget : Nat) → Raw → Action Unit
  | 0, _ => setFlow .late
  | n + 1, script => do
    runLines n (script.count '\n') script

/-- Carries out a script in which `ends` lines end, one complete command after the other. -/
def runLines : (budget ends : Nat) → Raw → Action Unit
  | 0, _, _ => setFlow .late
  | n + 1, ends, script => do
    match readNext? ends script with
    | .ok none => return ()
    | .ok (some (c, rest)) =>
      run n c
      if ← isRunning then runLines n ends rest
    | .error (line, fault) =>
      modify fun s => { s with line }
      failAndLeave 2 ("Syntax error: ".toList ++ fault.message)

def run : (budget : Nat) → Command → Action Unit
  | 0, _ => setFlow .late
  | n + 1, c => do
    if !(← isRunning) then return ()
    match c with
    | .nothing => return ()
    | .simple line assignments words redirects => runSimple n line assignments words redirects
    | .sequence first second =>
      run n first
      run n second
    | .both first second =>
      asTest (run n first)
      if (← get).status == 0 then run n second
    | .either first second =>
      asTest (run n first)
      if (← get).status != 0 then run n second
    | .pipe first second =>
      let k ← openPipe
      let outer ← get
      set { outer with outSink := .pipe k, tests := outer.tests + 1 }
      run n first
      restore outer
      let text ← closePipe k
      let outer ← get
      set { outer with input := text, inputIsFile := false }
      run n second
      restore outer
      modify fun s => { s with input := outer.input }
      leaveOnFailure
    | .negated body =>
      asTest (run n body)
      modify fun s => { s with status := if s.status == 0 then 1 else 0 }
    | .background body =>
      let outer ← get
      set { outer with input := [], inputIsFile := false }
      run n body
      let inner ← get
      restore outer
      let job : Job := {
        number := outer.number + 1 + outer.jobs.length
        ends := inner.clock
        status := inner.status }
      modify fun s => {
        s with
        clock := outer.clock
        status := 0
        input := outer.input
        flow := outer.flow
        jobs := s.jobs ++ [job] }
    | .apart body =>
      let outer ← get
      run n body
      restore outer
      leaveOnFailure
    | .redirected body redirects =>
      let outer ← get
      if ← turnAll n redirects then run n body
      restoreStreams outer (redirects.any turnsInput)
    | .branch test yes no =>
      asTest (run n test)
      if ← isRunning then
        if (← get).status == 0 then run n yes
        else
          match no with
          | .nothing => setStatus 0
          | no => run n no
    | .loop untilTrue test body =>
      modify fun s => { s with loops := s.loops + 1 }
      runLoop n untilTrue test body 0
      modify fun s => { s with loops := s.loops - 1 }
    | .each name items body =>
      let values ←
        match items with
        | some ws => expandWords n ws
        | none => pure (← get).args
      modify fun s => { s with status := 0, loops := s.loops + 1 }
      runEach n name values body
      modify fun s => { s with loops := s.loops - 1 }
    | .choose word arms =>
      let text := textOf (← expand n word)
      setStatus 0
      runArms n text arms
    | .define name body =>
      modify fun s => { s with functions := s.functions.insert name body, status := 0 }

def expandWords : (budget : Nat) → List Word → Action (List Raw)
  | 0, _ => do
    setFlow .late
    return []
  | _, [] => return []
  | n + 1, w :: ws => do
    if !(← isRunning) then return []
    let ps ← expand n w
    let first := wordsOf (← get).tree ps
    let rest ← expandWords n ws
    return first ++ rest

/-- Turns streams as redirections ask; says whether it could. -/
def turnAll : (budget : Nat) → List (Redirect Word) → Action Bool
  | 0, _ => do
    setFlow .late
    return false
  | _, [] => return true
  | n + 1, r :: rs => do
    let target := textOf (← expand n r.target)
    if ← redirect r.stream r.turn target then turnAll n rs else return false

def assignAll : (budget : Nat) → List (Raw × Word) → Action Unit
  | 0, _ => setFlow .late
  | _, [] => return ()
  | n + 1, (name, word) :: rest => do
    let value := textOf (← expand n word)
    assign name value
    assignAll n rest

def runSimple : (budget line : Nat) → List (Raw × Word) → List Word → List (Redirect Word) → Action Unit
  | 0, _, _, _, _ => setFlow .late
  | n + 1, line, assignments, words, redirects => do
    modify fun s => { s with line }
    let before ← get
    let args ← expandWords n words
    if !(← isRunning) then return ()
    match args with
    | [] =>
      if words.isEmpty then setStatus 0
      assignAll n assignments
      let outer ← get
      discard (turnAll n redirects)
      restoreStreams outer true
      leaveOnFailure
    | name :: args =>
      let outer ← get
      set { outer with status := before.status }
      if ← turnAll n redirects then
        assignAll n assignments
        let names := assignments.map (·.1)
        modify fun s => { s with exported := s.exported ++ names }
        runNamed n name args
        if !names.isEmpty then restoreVariables outer names
        if !(name == "exec".toList && args.isEmpty) then
          restoreStreams outer (redirects.any turnsInput)
      else restoreStreams outer true
      leaveOnFailure

/-- Carries out what a name stands for: a function, a command of the shell, or a program. -/
def runNamed : (budget : Nat) → (name : Raw) → (args : List Raw) → Action Unit
  | 0, _, _ => setFlow .late
  | n + 1, name, args => do
    let s ← get
    match s.functions.get? name with
    | some body =>
      set { s with args }
      run n body
      modify fun inner => {
        inner with
        args := s.args
        flow := if inner.flow == .returning then .running else inner.flow }
    | none =>
      match String.ofList name with
      | "echo" => report { out := echo args }
      | "test" => runTest false args
      | "[" => runTest true args
      | "eval" => runFrom n "eval: ".toList (spaced args)
      | "." =>
        let file := args.headD []
        match file.contains '/', readFile s.tree file with
        | true, .ok text =>
          runFrom n (file ++ ": ".toList) text
          modify fun s => { s with flow := if s.flow == .returning then .running else s.flow }
        | isPath, _ =>
          fail 2 (".: ".toList ++
            if isPath then "cannot open ".toList ++ file ++ ": No such file".toList
            else file ++ ": not found".toList)
          setFlow .leaving
      | "exec" =>
        if !args.isEmpty then
          set { s with origin := "exec: ".toList }
          runProgram n (args.headD []) (args.drop 1)
          if ← isRunning then setFlow .leaving
      | "trap" =>
        match args with
        | action :: names =>
          for name in names do
            modify fun s => { s with traps := s.traps.insert (trapName name) action }
          setStatus 0
        | [] => setStatus 0
      | "kill" => runKill n args
      | "command" | "type" =>
        match args with
        | ['-', 'v'] :: wanted :: _ =>
          let wantedName := String.ofList wanted
          if isBuiltin wantedName || (s.functions.get? wanted).isSome then
            report { out := wanted ++ ['\n'] }
          else if toolNames.contains wantedName then
            report { out := "/usr/bin/".toList ++ wanted ++ ['\n'] }
          else setStatus 127
        | wanted :: args => runNamed n wanted args
        | [] => setStatus 0
      | tool => if !(← runTool tool args) then runProgram n name args

/-- Carries out the text of a command, which complaints name. -/
def runFrom : (budget : Nat) → (origin : Raw) → Raw → Action Unit
  | 0, _, _ => setFlow .late
  | n + 1, origin, text => do
    let outer ← get
    set { outer with origin }
    runText n text
    modify fun s => { s with origin := outer.origin, line := outer.line }

def runProgram : (budget : Nat) → (name : Raw) → (args : List Raw) → Action Unit
  | 0, _, _ => setFlow .late
  | n + 1, name, args => do
    let s ← get
    if let some tool := toolAt? name then runProgram n tool args
    else if name.contains '/' then
      match (pathOf? name).map fun p => (s.tree.isFile p, fileHas s.tree 'x' p, readFile s.tree name) with
      | some (true, true, .ok text) =>
        if isShellScript text then callShell n text name args []
        else failHere 127 (name ++ ": not found".toList)
      | some (true, _, _) => failHere 126 (name ++ ": Permission denied".toList)
      | _ =>
        if (pathOf? name).any s.tree.isDir then failHere 126 (name ++ ": Permission denied".toList)
        else failHere 127 (name ++ ": not found".toList)
    else
      match String.ofList name with
      | "sh" | "dash" =>
        let (call, rest) := callOptions {} args
        if call.fromText then
          match rest with
          | [] =>
            complain "sh: 0: -c requires an argument\n".toList
            setStatus 2
          | script :: rest =>
            callShell n script (rest.headD ['s', 'h']) (rest.drop 1) call.options
        else
          match rest with
          | [] => callShell n s.input ['s', 'h'] [] call.options
          | file :: rest =>
            match readFile s.tree file with
            | .ok text => callShell n text file rest call.options
            | .error _ =>
              complain ("sh: 0: cannot open ".toList ++ file ++ ": No such file\n".toList)
              setStatus 2
      | "echo" => report { out := plainEcho args }
      | "env" =>
        let settings := args.takeWhile fun a => a.contains '=' && a.head? != some '='
        match args.drop settings.length with
        | [] =>
          let shown := s.exported.filterMap fun e => (s.vars.get? e).map fun v => e ++ '=' :: v
          report { out := Raw.unlines (shown ++ settings) }
        | name :: args =>
          for a in settings do
            exportNames [a]
          runProgram n name args
          restoreVariables s (settings.map fun a => a.takeWhile (· != '='))
      | "test" => runTest false args
      | "[" => runTest true args
      | "kill" => runKill n args
      | tool =>
        if !(toolNames.contains tool && (← runTool tool args)) then
          failHere 127 (name ++ ": not found".toList)

/-- Carries out a script in a shell that is called with a name and arguments. -/
def callShell : (budget : Nat) → (script title : Raw) → (args : List Raw) → (options : Raw) →
    Action Unit
  | 0, _, _, _, _ => setFlow .late
  | n + 1, script, title, args, options => do
    let outer ← get
    set { forProgram outer with title, args, options, status := 0 }
    runText n script
    runExitTrap n
    comeBackTo outer

/-- Carries out what is to be carried out when the shell ends. -/
def runExitTrap : (budget : Nat) → Action Unit
  | 0 => setFlow .late
  | n + 1 => do
    let s ← get
    match s.flow, s.traps.get? "EXIT".toList with
    | .running, some action | .leaving, some action =>
      set { s with flow := .running, traps := s.traps.erase "EXIT".toList }
      runText n action
      modify fun t => if t.flow == .running then { t with status := s.status } else t
    | _, _ => return ()

/-- Sends a signal. -/
def runKill : (budget : Nat) → List Raw → Action Unit
  | 0, _ => setFlow .late
  | n + 1, args => do
    let (signal, targets) :=
      match args with
      | ['-', 's'] :: name :: rest => (signalNumber? name, rest)
      | ('-' :: name) :: rest => (signalNumber? name, rest)
      | rest => (some 15, rest)
    match signal with
    | none => fail 2 "kill: Illegal option".toList
    | some signal =>
      let numbers := targets.filterMap Raw.toNat?
      let s ← get
      if numbers.contains s.number then
        match signal != 9, s.traps.get? (trapName (Raw.ofNat signal)) with
        | true, some action =>
          setStatus 0
          if !action.isEmpty then runText n action
        | _, _ => strike signal
      else
        for k in numbers do
          endJob k signal

/-- Carries out the rounds of a loop with a test. -/
def runLoop : (budget : Nat) → (untilTrue : Bool) → (test body : Command) → (last : Nat) →
    Action Unit
  | 0, _, _, _, _ => setFlow .late
  | n + 1, untilTrue, test, body, last => do
    asTest (run n test)
    if ← afterRound then
      if ((← get).status == 0) != untilTrue then
        run n body
        let status := (← get).status
        if ← afterRound then runLoop n untilTrue test body status
      else setStatus last

def runEach : (budget : Nat) → (name : Raw) → List Raw → (body : Command) → Action Unit
  | 0, _, _, _ => setFlow .late
  | _, _, [], _ => return ()
  | n + 1, name, v :: vs, body => do
    assign name v
    run n body
    if ← afterRound then runEach n name vs body

/-- Carries out the first arm with a pattern for a text. -/
def runArms : (budget : Nat) → Raw → List (List Word × Command) → Action Unit
  | 0, _, _ => setFlow .late
  | _, _, [] => return ()
  | n + 1, text, (patterns, body) :: arms => do
    if ← fits n text patterns then run n body else runArms n text arms

/-- Whether one of some words is a pattern for a text. -/
def fits : (budget : Nat) → Raw → List Word → Action Bool
  | 0, _, _ => return false
  | _, _, [] => return false
  | n + 1, text, w :: ws => do
    let ps ← expand n w
    if matchesWhole (markedOf ps) text then return true else fits n text ws

end

/-- How deep calls may nest and how often a loop may go round. -/
def budget : Nat := 6000

end Shell

end TestRepair
