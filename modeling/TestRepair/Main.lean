import TestRepair.CommandLine.Commands
import TestRepair.CommandLine.Outside

/-!
The program itself. It takes in the files below the current directory, the settings below the home
directory and whatever else its arguments name, carries the arguments out, and writes back what has
changed. Nothing is decided here.
-/

namespace TestRepair

namespace Disk

/-- The directories whose contents no command looks at. -/
def passedOver : List String := ["node_modules", ".git"]

def depth : Nat := 64

/-- Puts a node at a place, and directories at the places above it. -/
def put (t : FileTree) (place : Place) (n : Node) : FileTree :=
  let above := (List.range place.length).map place.take
  (above.foldl (fun t p => if (t.get? p).isSome then t else t.set p .dir) t).set place n

def loadFile (place : Place) (t : FileTree) : IO FileTree := do
  try return put t place (.file (← IO.FS.readBinFile (Place.path place).text) FileTree.plainMode)
  catch _ => return t

/-- Takes in an entry of a directory and what is below it. A link is kept as the path that it leads
to. -/
def loadEntry : (depth : Nat) → Place → IO.FS.DirEntry → FileTree → IO FileTree
  | 0, _, _, t => return t
  | depth + 1, above, e, t => do
    let place := above ++ [e.fileName]
    match (← e.path.symlinkMetadata).type with
    | .file => loadFile place t
    | .symlink =>
      try return put t place (.link ⟨(← IO.FS.realPath e.path).toString⟩)
      catch _ => return t
    | .dir =>
      let inner ← if passedOver.contains e.fileName then pure #[] else e.path.readDir
      inner.foldlM (fun t e => loadEntry depth place e t) (put t place .dir)
    | .other => return t

/-- Takes in what an absolute path names, unless it is there. -/
def load (path : Path) (t : FileTree) : IO FileTree := do
  let place := path.normalize.steps
  if (t.get? place).isSome then return t
  let entry : IO.FS.DirEntry := ⟨(Place.path place.dropLast).text, place.getLast?.getD ""⟩
  try loadEntry depth place.dropLast entry t
  catch _ => return t

/-- Whether a node is written at its place again. -/
def isSame : Node → Node → Bool
  | .dir, .dir => true
  | .link p, .link q => p = q
  | .file a _, .file b _ => a.toList == b.toList
  | _, _ => false

def store (place : Place) : Node → IO Unit
  | .dir => IO.FS.createDirAll (Place.path place).text
  | .file bytes _ => do
    IO.FS.createDirAll (Place.path place.dropLast).text
    IO.FS.writeBinFile (Place.path place).text bytes
  | .link _ => return ()

/-- Writes what has changed between two trees, and takes away the files that are gone. -/
def storeChanges (before after : FileTree) : IO Unit := do
  for (place, n) in after.nodes.entries do
    if !(before.get? place).any (isSame n) then store place n
  for (place, n) in before.nodes.entries do
    if (after.get? place).isNone && !n.isDir then IO.FS.removeFile (Place.path place).text

end Disk

/-- Carries the arguments out in the files of the disk; gives the exit code. -/
def start (args : List String) : IO UInt32 := do
  let current : Path := ⟨(← IO.currentDir).toString⟩
  let home := (← IO.getEnv "HOME").map Path.mk
  let named := (args.flatMap fun a => a.splitOn "=").filter fun a => !a.startsWith "-"
  let roots := current :: (home.map Settings.homeFile).toList ++ named.map fun a => current.join ⟨a⟩
  let before ← roots.foldlM (fun t p => Disk.load p t) FileTree.empty
  let before := { before with current := current.normalize.steps }
  let env := Dictionary.ofList (home.toList.map fun p => ("HOME", p.text))
  let e := CommandLine.program (CommandLine.outside env) home args ⟨(), before⟩
  Disk.storeChanges before e.world.tree
  IO.print e.printed
  if let some text := e.complaint then IO.eprintln ("error: " ++ text)
  return UInt32.ofNat e.exitCode

end TestRepair

def main (args : List String) : IO UInt32 := TestRepair.start args
