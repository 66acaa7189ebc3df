import TestRepair.Shell.Condition

/-!
The commands that a shell carries out itself because they look at it or change it, as far as they do
not carry out other commands.
-/

namespace TestRepair

namespace Shell

/-- The numbers of signals by their names. -/
def signals : List (String × Nat) := [
  ("HUP", 1), ("INT", 2), ("QUIT", 3), ("ILL", 4), ("TRAP", 5), ("ABRT", 6), ("BUS", 7), ("FPE", 8),
  ("KILL", 9), ("USR1", 10), ("SEGV", 11), ("USR2", 12), ("PIPE", 13), ("ALRM", 14), ("TERM", 15),
  ("CHLD", 17), ("CONT", 18), ("STOP", 19), ("TSTP", 20), ("TTIN", 21), ("TTOU", 22), ("URG", 23),
  ("WINCH", 28)]

/-- The number of a signal. -/
def signalNumber? (s : Raw) : Option Nat :=
  (Raw.toNat? s) <|> (signals.find? fun e => e.1.toList == s).map (·.2)

/-- The name under which the trap of a signal is kept. -/
def trapName (s : Raw) : Raw :=
  match Raw.toNat? s with
  | some 0 => "EXIT".toList
  | some n => ((signals.find? fun e => e.2 == n).map (·.1.toList)).getD s
  | none => s

/-- What a shell says of a program that a signal has ended. -/
def deathOf (signal : Nat) : Raw :=
  let texts : List (Nat × String) := [
    (1, "Hangup"), (3, "Quit"), (4, "Illegal instruction"), (5, "Trace/breakpoint trap"),
    (6, "Aborted"), (7, "Bus error"), (8, "Floating point exception"), (9, "Killed"),
    (10, "User defined signal 1"), (11, "Segmentation fault"), (12, "User defined signal 2"),
    (14, "Alarm clock"), (15, "Terminated")]
  ((texts.find? fun e => e.1 == signal).map fun e => e.2.toList ++ ['\n']).getD []

/-- Milliseconds of a waiting time: seconds with an optional fraction and an optional unit. -/
def milliseconds? (s : Raw) : Option Nat :=
  let unit (c : Char) : Nat :=
    match c with
    | 'm' => 60
    | 'h' => 3600
    | 'd' => 86400
    | _ => 1
  let (s, scale) :=
    match s.getLast? with
    | some c => if "smhd".toList.contains c then (s.dropLast, unit c) else (s, 1)
    | none => (s, 1)
  let (whole, fraction) := (Text.splitFirst? '.' s).getD (s, [])
  if whole.isEmpty && fraction.isEmpty then none
  else if !(whole ++ fraction).all Char.isDigit then none
  else
    let thousandths := (fraction ++ ['0', '0', '0']).take 3
    some (scale *
      (1000 * (Raw.toNat? whole).getD 0 + (Raw.toNat? thousandths).getD 0))

/-- Where a complaint about waiting points. -/
def sleepHint : Raw := "Try \x27sleep --help\x27 for more information.\n".toList

def sleep (args : List Raw) : Action Unit := do
  match args.mapM milliseconds? with
  | some ms =>
    if ms.isEmpty then report { status := 1, err := "sleep: missing operand\n".toList ++ sleepHint }
    else
      passTo ((← get).clock + ms.foldl Nat.add 0)
      setStatus 0
  | none =>
    let bad := (args.find? fun a => (milliseconds? a).isNone).getD []
    report {
      status := 1
      err := "sleep: invalid time interval \x27".toList ++ bad ++ "\x27\n".toList ++ sleepHint }

def changeDir (args : List Raw) : Action Unit := do
  let s ← get
  let wanted :=
    match args with
    | [] => (s.vars.get? "HOME".toList).getD []
    | ['-'] :: _ => (s.vars.get? "OLDPWD".toList).getD []
    | a :: _ => a
  match (pathOf? wanted).map fun p => (s.tree.canonical p, s.tree.isDir p) with
  | some (.ok q, true) =>
    assign "OLDPWD".toList (Raw.ofString (Place.path s.tree.current).text)
    assign "PWD".toList (Raw.ofString (Place.path q).text)
    modify fun s => { s with tree := { s.tree with current := q }, status := 0 }
  | _ => fail 2 ("cd: can\x27t cd to ".toList ++ wanted)

/-- Exports variables, some of them with new values. -/
def exportNames (args : List Raw) : Action Unit := do
  for a in args do
    let name := a.takeWhile (· != '=')
    if name.length < a.length then assign name (a.drop (name.length + 1))
    modify fun s => { s with exported := (s.exported.filter (· != name)) ++ [name] }
  setStatus 0

def unsetNames (args : List Raw) : Action Unit := do
  for a in args do
    modify fun s => {
      s with
      vars := s.vars.erase a
      exported := s.exported.filter (· != a)
      functions := s.functions.erase a }
  setStatus 0

/-- Drops the first arguments. -/
def shift (args : List Raw) : Action Unit := do
  let n := (args.head?.bind Raw.toNat?).getD 1
  let s ← get
  if s.args.length < n then
    fail 2 "shift: can\x27t shift that many".toList
    setFlow .leaving
  else set { s with args := s.args.drop n, status := 0 }

/-- Turns options on and off, and sets the arguments. -/
def setOptions : List Raw → Action Unit
  | [] => setStatus 0
  | ['-', 'o'] :: _ :: as | ['+', 'o'] :: _ :: as => setOptions as
  | ['-', '-'] :: as => modify fun s => { s with args := as, status := 0 }
  | ('-' :: letters) :: as => do
    modify fun s => { s with options := s.options ++ letters }
    setOptions as
  | ('+' :: letters) :: as => do
    modify fun s => { s with options := s.options.filter fun c => !letters.contains c }
    setOptions as
  | as => modify fun s => { s with args := as, status := 0 }

/-- Splits a line into as many words as there are names; the last name gets all that is left. -/
def splitLine (separators : Raw) : List Raw → Raw → List (Raw × Raw)
  | [], _ => []
  | [name], s =>
    let isGap (c : Char) : Bool := separators.contains c
    [(name, ((s.dropWhile isGap).reverse.dropWhile isGap).reverse)]
  | name :: names, s =>
    let isGap (c : Char) : Bool := separators.contains c
    let s := s.dropWhile isGap
    (name, s.takeWhile (!isGap ·)) :: splitLine separators names (s.dropWhile (!isGap ·))

def readLine (args : List Raw) : Action Unit := do
  let names := args.filter fun a => a.head? != some '-'
  let s ← get
  let line := s.input.takeWhile (· != '\n')
  let ended := line.length < s.input.length
  set { s with input := s.input.drop (line.length + 1) }
  for (name, value) in splitLine s.separators names line do
    assign name value
  setStatus (if ended then 0 else 1)

/-- What a signal does to a shell that has set no trap for it. -/
def strike (signal : Nat) : Action Unit := do
  if signal == 0 || [17, 18, 23, 28].contains signal then setStatus 0
  else if [19, 20, 21, 22].contains signal then setFlow .late
  else setFlow (.killed signal)

def endJob (number signal : Nat) : Action Unit := do
  let s ← get
  let struck (j : Job) : Job :=
    if j.number == number && s.clock < j.ends then
      { j with ends := s.clock, status := 128 + signal, signal }
    else j
  if s.jobs.any fun j => j.number == number then
    set { s with status := 0, jobs := s.jobs.map struck }
  else fail 1 "kill: No such process".toList

def wait (args : List Raw) : Action Unit := do
  let s ← get
  let wanted := args.filterMap Raw.toNat?
  let jobs := s.jobs.filter fun j => wanted.isEmpty || wanted.contains j.number
  passTo (jobs.foldl (fun m j => max m j.ends) s.clock)
  for j in jobs do
    complain (deathOf j.signal)
  modify fun s => {
    s with jobs := s.jobs.map fun j =>
      if jobs.any fun k => k.number == j.number then { j with signal := 0 } else j }
  setStatus (if wanted.isEmpty then 0 else (jobs.getLast?.map (·.status)).getD 127)

def leave (args : List Raw) : Action Unit := do
  match args.head? with
  | none => setFlow .leaving
  | some a =>
    match Raw.toNat? a with
    | some n =>
      setStatus (n % 256)
      setFlow .leaving
    | none =>
      fail 2 ("exit: Illegal number: ".toList ++ a)
      setFlow .leaving

def comeBack (args : List Raw) : Action Unit := do
  match args.head?.bind Raw.toNat? with
  | some n => setStatus (n % 256)
  | none => pure ()
  setFlow .returning

/-- The programs and shell commands that have a name of their own. -/
def toolNames : List String := [
  "sh", "echo", "printf", "true", "false", "cat", "head", "tail", "wc", "tr", "sort", "uniq", "cut",
  "grep", "egrep", "fgrep", "sed", "ls", "mkdir", "touch", "rm", "rmdir", "cp", "mv", "tee",
  "basename", "dirname", "ln", "chmod", "seq", "sleep", "env", "test", "[", "pwd", "kill"]

/-- The commands that only a shell has. -/
def builtinNames : List String := [
  ":", "cd", "exit", "return", "break", "continue", "export", "readonly", "unset", "shift", "set",
  "read", "eval", ".", "exec", "trap", "wait", "command", "local", "type"]

def isBuiltin (name : String) : Bool :=
  builtinNames.contains name || ["echo", "printf", "true", "false", "test", "[", "kill", "pwd"].contains name

/-- Carries out a tool that looks at nothing but its arguments, its input and the files; says whether
there is such a tool. -/
def runTool (name : String) (args : List Raw) : Action Bool := do
  let s ← get
  match name with
  | "printf" =>
    let (status, out, faults) := printf args
    for f in faults do
      fail status ("printf: ".toList ++ f)
    report { out, status }
  | "true" | ":" => setStatus 0
  | "false" => setStatus 1
  | "cat" => report (cat s.tree s.input args)
  | "head" => report (head s.tree s.input args)
  | "tail" => report (tail s.tree s.input args)
  | "wc" => report (wc s.tree s.input s.inputIsFile args)
  | "tr" => report (tr s.input args)
  | "sort" => report (sort s.tree s.input args)
  | "uniq" => report (uniq s.tree s.input args)
  | "cut" => report (cut s.tree s.input args)
  | "grep" => report (grep s.tree s.input args [])
  | "egrep" => report (grep s.tree s.input args ['E'])
  | "fgrep" => report (grep s.tree s.input args ['F'])
  | "sed" =>
    let (p, t) := sed s.tree s.input args
    reportChange { printed := p, tree := t }
  | "ls" => report (ls s.tree args)
  | "mkdir" => reportChange (mkdir s.tree args)
  | "touch" => reportChange (touch s.tree args)
  | "rm" => reportChange (rm s.tree args)
  | "rmdir" => reportChange (rmdir s.tree args)
  | "cp" => reportChange (transfer false s.tree args)
  | "mv" => reportChange (transfer true s.tree args)
  | "tee" => reportChange (tee s.tree s.input args)
  | "ln" => reportChange (ln s.tree args)
  | "chmod" => reportChange (chmod s.tree args)
  | "basename" => report (basename args)
  | "dirname" => report (dirname args)
  | "seq" => report (seq args)
  | "sleep" => sleep args
  | "pwd" => report { out := Raw.ofString (Place.path s.tree.current).text ++ ['\n'] }
  | "cd" => changeDir args
  | "export" | "readonly" => exportNames args
  | "unset" => unsetNames args
  | "shift" => shift args
  | "set" => setOptions args
  | "read" => readLine args
  | "wait" => wait args
  | "exit" => leave args
  | "return" => comeBack args
  | "break" =>
    if s.loops != 0 then setFlow (.breaking (min s.loops ((args.head?.bind Raw.toNat?).getD 1)))
  | "continue" =>
    if s.loops != 0 then setFlow (.continuing (min s.loops ((args.head?.bind Raw.toNat?).getD 1)))
  | "local" =>
    for a in args do
      let name := a.takeWhile (· != '=')
      if name.length < a.length then assign name (a.drop (name.length + 1))
    setStatus 0
  | _ => return false
  return true

def runTest (bracket : Bool) (args : List Raw) : Action Unit := do
  let name := if bracket then "[: ".toList else "test: ".toList
  if bracket && args.getLast? != some [']'] then fail 2 "[: missing ]".toList
  else
    match judge (← get).tree (if bracket then args.dropLast else args) with
    | (status, none) => setStatus status
    | (status, some text) => fail status (name ++ text)

end Shell

end TestRepair
