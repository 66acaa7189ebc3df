import TestRepair.FileTree.Replace
import TestRepair.Locator.Replacement
import TestRepair.Settings

/-!
Swapping a locator in all sources of a project. All files are read and laid out first; only then are
they replaced, and whatever was laid out is taken away where that fails. A file that several paths
lead to is replaced once.
-/

namespace TestRepair

namespace Patch

open FileTree (Refusals)

/-- Adds a path to an ordered list without repetition; an equal path that is there stays. -/
def insertPath (p : Path) : List Path → List Path
  | [] => [p]
  | q :: qs =>
    match p.compare q with
    | .lt => p :: q :: qs
    | .eq => q :: qs
    | .gt => q :: insertPath p qs

/-- The files with one of the endings below a directory, if it is there. -/
def sourcesBelow (t : FileTree) (dir : Path) (extensions : List String) :
    Except GlobError (List Path) := do
  if t.isDir dir then
    let found ← extensions.mapM (Glob.withEnding t dir)
    pure (found.flatten.filter t.isFile)
  else pure []

/-- The files below the locator directories that locators may be written in, in the order of paths. -/
def sources (t : FileTree) (workDir : Path) (dirs : List Path) (extensions : List String) :
    Except PatchError (List Path) := do
  let found ← (dirs.mapM fun dir => sourcesBelow t (workDir.join dir) extensions).mapError .pattern
  pure (found.flatten.foldl (fun ps p => insertPath p ps) [])

/-- A file that is ready to be replaced. -/
structure Staged where
  /-- The path under which it was listed. -/
  path : Path
  /-- Where its links lead. -/
  target : Path
  /-- What it holds. -/
  original : String
  /-- Where what it will hold is laid out. -/
  draft : Place

def discard (t : FileTree) (staged : List Staged) : FileTree :=
  staged.foldl (fun t s => t.remove s.draft) t

/-- Lays out what one listed file will hold, unless it stays or is laid out already. -/
def stageOne (refused : Refusals) (known : List String) (old new : String) (t : FileTree)
    (staged : List Staged) (path : Path) : Except PatchError (List Staged) × FileTree :=
  let target := t.target path
  if staged.any fun s => s.target.same target then (.ok staged, t)
  else
    t.attempt ((t.readTextUnder refused target).mapError (.read path)) fun original =>
      match Replacement.inText? original old new with
      | none => (.ok staged, t)
      | some contents =>
        match t.stage refused known target contents.toUTF8 with
        | (.error e, t) => (.error (.write target e), t)
        | (.ok draft, t) => (.ok (staged ++ [⟨path, target, original, draft⟩]), t)

/-- Lays out what the listed files will hold. An error takes away what was laid out before. -/
def stage (refused : Refusals) (known : List String) (old new : String) (t : FileTree)
    (staged : List Staged) : List Path → Except PatchError (List Staged) × FileTree
  | [] => (.ok staged, t)
  | path :: paths =>
    match stageOne refused known old new t staged path with
    | (.error e, t) => (.error e, discard t staged)
    | (.ok staged, t) => stage refused known old new t staged paths

/-- Gives files that were replaced their old contents back, as far as that is possible. -/
def restore (t : FileTree) (replaced : List Staged) : FileTree :=
  replaced.foldl (fun t s => ((t.writeText s.target s.original).toOption).getD t) t

/-- Puts the files that are laid out in the places of the old ones; gives the paths of all that were
`replaced`. An error takes back what was done and takes away what is still laid out. -/
def commit (t : FileTree) (replaced : List Staged) :
    List Staged → Except PatchError (List Path) × FileTree
  | [] => (.ok (replaced.map (·.path)), t)
  | s :: staged =>
    match t.persist s.draft s.target with
    | .error e => (.error (.write s.path e), discard (restore t replaced) (s :: staged))
    | .ok t => commit t (replaced ++ [s]) staged

/-- Swaps a locator in the listed files, as far as the system lets it; gives the paths of the files that
changed, and the tree. -/
def swapUnder (refused : Refusals) (t : FileTree) (files : List Path) (old new : String) :
    Except PatchError (List Path) × FileTree :=
  match stage refused (files.flatMap (·.steps)) old new t [] files with
  | (.error e, t) => (.error e, t)
  | (.ok staged, t) => commit t [] staged

/-- Swaps a locator where the system refuses nothing. -/
def swap (t : FileTree) (files : List Path) (old new : String) :
    Except PatchError (List Path) × FileTree :=
  swapUnder .none t files old new

/-- The same for those who keep their own tree where nothing could be swapped. -/
def apply (t : FileTree) (files : List Path) (old new : String) :
    Except PatchError (List Path × FileTree) :=
  match swap t files old new with
  | (.error e, _) => .error e
  | (.ok changed, t) => .ok (changed, t)

end Patch

end TestRepair
