import TestRepair.FileTree.Glob
import TestRepair.FileTree.Write

/-!
Replacing files as a whole. The new file is laid out beside the old one and then takes its place, so
the old contents are there until the new ones are. An error leaves the tree as it was.
-/

namespace TestRepair

/-- Why sources could not be found or replaced. -/
inductive PatchError
  | read (path : Path) (cause : FileError)
  | write (path : Path) (cause : FileError)
  | pattern (cause : GlobError)
  deriving DecidableEq, Repr

namespace PatchError

def message : PatchError → String
  | read path cause => "Failed to read " ++ path.text ++ ": " ++ cause.message
  | write path cause => "Failed to write " ++ path.text ++ ": " ++ cause.message
  | pattern cause => "Invalid search pattern: " ++ cause.message

end PatchError

/-- Replaces the file that a path leads to, through links; the mode of an old file is kept. Where the
new file cannot take its place it is taken away again. -/
def FileTree.replaceText (t : FileTree) (p : Path) (s : String) : Except PatchError FileTree := do
  let target := t.target p
  let laid := t.stage .none target.steps target s.toUTF8
  let draft ← laid.1.mapError (.write target)
  (laid.2.persist draft target).mapError (.write p)

end TestRepair
