import TestRepair.FileTree.Write
import TestRepair.Shell.Arithmetic
import TestRepair.Shell.Edit
import TestRepair.Shell.Files

/-!
What a running shell knows: the files, its variables, where its streams go, and the time. Time passes
only where a command waits. Once the time is past a limit nothing more is carried out.
-/

namespace TestRepair

namespace Shell

/-- Where a stream goes. -/
inductive Sink
  | out
  | err
  | nowhere
  /-- Into the pipe or the substitution with a number. -/
  | pipe (number : Nat)
  | file (place : Place)
  deriving DecidableEq, Repr

/-- A piece of what was printed. -/
structure Chunk where
  /-- Milliseconds since the start. -/
  time : Nat
  toErr : Bool
  text : Raw

/-- How commands go on. -/
inductive Flow
  | running
  | leaving
  | breaking (loops : Nat)
  | continuing (loops : Nat)
  | returning
  | killed (signal : Nat)
  /-- The limit of the time is past. -/
  | late
  deriving DecidableEq, Repr

/-- A command in the background. -/
structure Job where
  number : Nat
  /-- When it is over. -/
  ends : Nat
  status : Nat
  /-- The signal that ended it, as long as nobody was told; zero for none. -/
  signal : Nat := 0

/-- A running shell. -/
structure State where
  tree : FileTree
  vars : Dictionary Raw Raw := {}
  /-- The variables that other programs see. -/
  exported : List Raw := []
  functions : Dictionary Raw Command := {}
  /-- The name under which the shell runs. -/
  title : Raw := ['s', 'h']
  args : List Raw := []
  status : Nat := 0
  input : Raw := []
  /-- Whether the input comes from a file. -/
  inputIsFile : Bool := false
  outSink : Sink := .out
  errSink : Sink := .err
  /-- Where the streams with higher numbers go. -/
  extraSinks : Dictionary Nat Sink := {}
  /-- What is in the pipes that are open. -/
  pipes : List Raw := []
  /-- What was printed, the last piece first. -/
  chunks : List Chunk := []
  clock : Nat := 0
  limit : Nat
  flow : Flow := .running
  jobs : List Job := []
  /-- The letters of the options that are on. -/
  options : Raw := []
  traps : Dictionary Raw Raw := {}
  /-- How many tests are going on, in which a failure is no reason to leave. -/
  tests : Nat := 0
  /-- How many loops are going on. -/
  loops : Nat := 0
  /-- The line of the command that runs. -/
  line : Nat := 1
  /-- The command from whose text commands come, as complaints name it. -/
  origin : Raw := []
  /-- How many shells are inside each other. -/
  depth : Nat := 0

/-- An action of a shell. -/
abbrev Action := StateM State

def State.number (s : State) : Nat := 4242 + 100 * (s.depth - 1)

/-- The pipe with a number, with a text added. -/
def addToPipe (number : Nat) (text : Raw) (pipes : List Raw) : List Raw :=
  pipes.modify number (· ++ text)

/-- Prints a text where a sink leads. -/
def State.emit (s : State) (sink : Sink) (text : Raw) : State :=
  if text.isEmpty then s
  else
    match sink with
    | .out => { s with chunks := ⟨s.clock, false, text⟩ :: s.chunks }
    | .err => { s with chunks := ⟨s.clock, true, text⟩ :: s.chunks }
    | .nowhere => s
    | .pipe k => { s with pipes := addToPipe k text s.pipes }
    | .file p =>
      match s.tree.get? p with
      | some (.file bytes mode) =>
        { s with tree := s.tree.set p (.file (bytes ++ Raw.bytes text) mode) }
      | _ => s

def say (text : Raw) : Action Unit := modify fun s => s.emit s.outSink text

/-- Prints a text where errors go. -/
def complain (text : Raw) : Action Unit := modify fun s => s.emit s.errSink text

def setStatus (n : Nat) : Action Unit := modify fun s => { s with status := n }

/-- Prints a complaint of the shell itself, with its name and the line, and sets the status. -/
def fail (status : Nat) (text : Raw) : Action Unit := do
  let s ← get
  complain (s.title ++ ": ".toList ++ Raw.ofNat s.line ++ ": ".toList ++ text ++ ['\n'])
  setStatus status

/-- As `fail`, with the command from whose text the commands come. -/
def failHere (status : Nat) (text : Raw) : Action Unit := do fail status ((← get).origin ++ text)

/-- As `failHere`, and leaves the shell. -/
def failAndLeave (status : Nat) (text : Raw) : Action Unit := do
  failHere status text
  modify fun s => { s with flow := .leaving }

def report (p : Printed) : Action Unit := do
  say p.out
  complain p.err
  setStatus p.status

def reportChange (c : Changed) : Action Unit := do
  modify fun s => { s with tree := c.tree }
  report c.printed

def setFlow (f : Flow) : Action Unit := modify fun s => { s with flow := f }

def isRunning : Action Bool := return (← get).flow == .running

def passTo (time : Nat) : Action Unit := modify fun s =>
  let clock := max s.clock time
  { s with clock, flow := if s.limit ≤ clock then .late else s.flow }

def assign (name value : Raw) : Action Unit := modify fun s =>
  { s with vars := s.vars.insert name value }

def State.value? (s : State) (name : Raw) : Option Raw :=
  match name with
  | ['?'] => some (Raw.ofNat s.status)
  | ['$'] => some (Raw.ofNat s.number)
  | ['!'] => s.jobs.getLast?.map fun j => Raw.ofNat j.number
  | ['#'] => some (Raw.ofNat s.args.length)
  | ['-'] => some s.options
  | ['@'] | ['*'] => if s.args.isEmpty then none else some (spaced s.args)
  | ['0'] => some s.title
  | name =>
    match Raw.toNat? name with
    | some n => s.args[n - 1]?
    | none => s.vars.get? name

def State.separators (s : State) : Raw := (s.vars.get? "IFS".toList).getD [' ', '\t', '\n']

def State.place (s : State) : Place := s.tree.current

/-- Opens a file for writing; its old contents are kept if `append`. -/
def openFile (append : Bool) (name : Raw) : Action (Except FileError Sink) := do
  let s ← get
  match Raw.toString? name with
  | none => return .error .notFound
  | some "/dev/null" => return .ok .nowhere
  | some "/dev/stdout" => return .ok s.outSink
  | some "/dev/stderr" => return .ok s.errSink
  | some path =>
    let old := if append then ((s.tree.readBytes ⟨path⟩).toOption).getD .empty else .empty
    match s.tree.write ⟨path⟩ old with
    | .error e => return .error e
    | .ok t =>
      set { s with tree := t }
      match t.canonical ⟨path⟩ with
      | .ok p => return .ok (.file p)
      | .error e => return .error e

end Shell

end TestRepair
