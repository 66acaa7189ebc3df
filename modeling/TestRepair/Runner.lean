import TestRepair.Shell.Run
import TestRepair.Trial.Skipped
import TestRepair.Trial.Surroundings

/-!
The test runner: a command of the settings with the path of the script behind it, carried out in the
work directory. What it prints on both streams goes into one log, line by line. A runner that is not
done in time is killed, and one whose tests were all skipped has not succeeded.
-/

namespace TestRepair

namespace Runner

/-- The program and its arguments; none if the command is empty. -/
def command? (s : RunnerSettings) (inv : Invocation) : Option (String × List String) :=
  match s.command with
  | [] => none
  | program :: args =>
    let flag :=
      match inv.mode with
      | .visible => s.visibleFlag
      | .headless => s.headlessFlag
    some (program, args ++ [inv.scriptPath.text] ++ flag.toList)

/-- Why a program cannot be started; none if it can. -/
def startFault? (t : FileTree) (inv : Invocation) (program : String) (args : List String) :
    Option String :=
  let texts := program :: args ++ inv.env.keys ++ inv.env.values
  let missing := "No such file or directory (os error 2)"
  if texts.any fun s => s.toList.contains '\x00' then some "nul byte found in provided data"
  else
    match t.canonical inv.workDir with
    | .error e => some e.message
    | .ok place =>
      let inside := { t with current := place }
      if !(t.get? place).any Node.isDir then some FileError.notDirectory.message
      else if Shell.toolNames.contains program then none
      else if !program.toList.contains '/' then some missing
      else
        match inside.node ⟨program⟩ with
        | .error e => some e.message
        | .ok _ =>
          if inside.isFile ⟨program⟩ && Shell.fileHas inside 'x' ⟨program⟩ then none
          else some "Permission denied (os error 13)"

/-- What has been read of a stream: the line that is not complete yet. -/
structure Stream where
  pending : Raw := []
  /-- Whether it is still read: a line that is no text ends it. -/
  isOpen : Bool := true

namespace Stream

/-- A line as it goes into the log. -/
def logged? (line : Raw) : Option String := (Raw.toString? line).map (· ++ "\n")

def withoutReturn (line : Raw) : Raw := (Text.front? ['\r'] line).getD line

/-- Takes in complete lines; gives what goes into the log. -/
def takeLines (s : Stream) : List Raw → String × Stream
  | [] => ("", s)
  | l :: ls =>
    if !s.isOpen then ("", s)
    else
      match logged? (withoutReturn l) with
      | none => ("", { s with isOpen := false })
      | some text =>
        let (more, s) := takeLines s ls
        (text ++ more, s)

/-- Takes in a piece; gives what goes into the log. -/
def feed (s : Stream) (text : Raw) : String × Stream :=
  let pieces := Text.splitAtChar '\n' (s.pending ++ text)
  takeLines { s with pending := pieces.getLast?.getD [] } pieces.dropLast

/-- What goes into the log at the end of the stream. -/
def finish (s : Stream) : String :=
  if s.isOpen && !s.pending.isEmpty then (logged? s.pending).getD "" else ""

end Stream

/-- The log of pieces that both streams printed. -/
def logFrom (out err : Stream) : List Shell.Chunk → String
  | [] => out.finish ++ err.finish
  | c :: cs =>
    if c.toErr then
      let (text, err) := err.feed c.text
      text ++ logFrom out err cs
    else
      let (text, out) := out.feed c.text
      text ++ logFrom out err cs

/-- How long the streams are still read when the runner is gone, in milliseconds. -/
def drainTime : Nat := 5000

/-- The log of what was printed up to a time, in the order of time. -/
def logUntil (time : Nat) (chunks : List Shell.Chunk) : String :=
  let inOrder := chunks.reverse.mergeSort fun a b => decide (a.time ≤ b.time)
  logFrom {} {} (inOrder.filter fun c => c.time ≤ time)

def killedLine (limit : Nat) : String :=
  "[mend] runner killed after " ++ toString (limit / 1000) ++ "s without exiting\n"

def start (t : FileTree) (surrounding : Dictionary String String) (limit : Nat) (inv : Invocation) :
    Shell.State :=
  let env := (surrounding.entries ++ inv.env.entries).map fun e =>
    (Raw.ofString e.1, Raw.ofString e.2)
  let place := ((t.canonical inv.workDir).toOption).getD t.current
  { tree := { t with current := place }
    vars := Dictionary.ofList env
    exported := (Dictionary.ofList env).keys
    limit }

def ended (s : Shell.State) : Execution :=
  match s.flow with
  | .late =>
    { success := false
      exitCode := none
      log := logUntil s.limit s.chunks ++ killedLine s.limit
      timedOut := true }
  | flow =>
    let log := logUntil (s.clock + drainTime) s.chunks
    let exitCode :=
      match flow with
      | .killed _ => none
      | _ => some s.status
    { success := exitCode == some 0 && !TestCount.onlySkipped log, exitCode, log }

/-- Runs the command of the settings, for `limit` milliseconds at most. -/
def execute (s : RunnerSettings) (surrounding : Dictionary String String) (limit : Nat)
    (cancelled : Bool) (inv : Invocation) (t : FileTree) :
    Except RunnerError Execution × FileTree :=
  match command? s inv with
  | none => (.error .emptyCommand, t)
  | some (program, args) =>
    match startFault? t inv program args with
    | some fault => (.error (.spawn program fault), t)
    | none =>
      if cancelled then (.error .cancelled, t)
      else
        let action :=
          Shell.runProgram Shell.budget (Raw.ofString program) (args.map Raw.ofString)
        let (_, s) := action.run (start t surrounding limit inv)
        (.ok (ended s), { s.tree with current := t.current })

/-- The time limit of a call, in milliseconds. -/
def limitOf (inv : Invocation) : Nat := 1000 * inv.timeoutSecs.toNat

end Runner

end TestRepair
