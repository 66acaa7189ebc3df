import TestRepair.Dictionary
import TestRepair.Path

/-!
A tree of directories, files and symbolic links as a map from places to nodes. A place is the list of
names from the root; the root itself is always a directory. `walk` finds the place that a path leads
to and follows links on the way, forty of them at most; a relative path starts from the tree's
current directory.
-/

namespace TestRepair

/-- The names from the root down to a node. -/
abbrev Place := List String

/-- Equality of byte arrays as the core library decides it, whatever other way is in scope. -/
instance (priority := high) decidableEqBytes : DecidableEq ByteArray := ByteArray.instDecidableEq

/-- What stands at a place. -/
inductive Node
  | dir
  | file (bytes : ByteArray) (mode : Nat)
  | link (target : Path)
  deriving DecidableEq

def Node.isDir : Node → Bool
  | dir => true
  | _ => false

/-- Why a look-up or a change failed. -/
inductive FileError
  | notFound
  | exists
  | notDirectory
  | isDirectory
  | nameTooLong
  | tooManyLinks
  | nulInName
  | notText
  /-- The system refuses for a reason that the tree does not show. -/
  | refused (code : Nat) (reason : String)
  deriving DecidableEq, Repr

namespace FileError

def message : FileError → String
  | notFound => "No such file or directory (os error 2)"
  | «exists» => "File exists (os error 17)"
  | notDirectory => "Not a directory (os error 20)"
  | isDirectory => "Is a directory (os error 21)"
  | nameTooLong => "File name too long (os error 36)"
  | tooManyLinks => "Too many levels of symbolic links (os error 40)"
  | nulInName => "file name contained an unexpected NUL byte"
  | notText => "stream did not contain valid UTF-8"
  | refused code reason => reason ++ " (os error " ++ toString code ++ ")"

end FileError

namespace Place

def path (p : Place) : Path := ⟨"/" ++ String.intercalate "/" p⟩

/-- The names that lead from `dir` down to `p`. -/
def below? : (dir p : Place) → Option Place
  | [], p => some p
  | _ :: _, [] => none
  | d :: dir, n :: p => if d = n then below? dir p else none

end Place

/-- A tree: every place other than the root that holds something, with its node, and the directory
from which relative paths start. -/
structure FileTree where
  nodes : Dictionary Place Node
  current : Place := []

namespace FileTree

/-- The tree that holds nothing but the root. -/
def empty : FileTree := ⟨Dictionary.empty, []⟩

instance : Inhabited FileTree := ⟨empty⟩

def get? (t : FileTree) (p : Place) : Option Node := if p = [] then some .dir else t.nodes.get? p

def set (t : FileTree) (p : Place) (n : Node) : FileTree := { t with nodes := t.nodes.insert p n }

def remove (t : FileTree) (p : Place) : FileTree := { t with nodes := t.nodes.erase p }

theorem get?_set (t : FileTree) (p q : Place) (n : Node) (h : p ≠ []) :
    (t.set p n).get? q = if q = p then some n else t.get? q := by
  unfold get? set
  by_cases hq : q = []
  · subst hq; simp [Ne.symm h]
  · simp only [hq, if_false, Dictionary.get?_insert]

/-- Where a path leads. -/
inductive Goal
  | node (p : Place)
  /-- Nothing has this name yet in a directory that is there. -/
  | free (dir : Place) (name : String)
  deriving DecidableEq, Repr

/-- How many links one look-up may follow. -/
def linkLimit : Nat := 40

/-- The longest name in bytes. -/
def nameLimit : Nat := 255

/-- Takes `steps` from the directory `dir`, with `jump` at links. A link in last position is followed if
`follow` says so. -/
def walkSteps (t : FileTree) (follow : Bool) (jump : Place → List String → Except FileError Goal) :
    (dir : Place) → (steps : List String) → Except FileError Goal
  | dir, [] => .ok (.node dir)
  | dir, name :: rest =>
    if name = "." then walkSteps t follow jump dir rest
    else if name = ".." then walkSteps t follow jump dir.dropLast rest
    else if nameLimit < name.utf8ByteSize then .error .nameTooLong
    else
      match t.get? (dir ++ [name]) with
      | none => if rest = [] then .ok (.free dir name) else .error .notFound
      | some .dir => walkSteps t follow jump (dir ++ [name]) rest
      | some (.file ..) => if rest = [] then .ok (.node (dir ++ [name])) else .error .notDirectory
      | some (.link target) =>
        if rest = [] ∧ follow = false then .ok (.node (dir ++ [name]))
        else jump (if target.isAbsolute then [] else dir) (target.steps ++ rest)

/-- Takes steps from a directory and follows `links` links at most. -/
def walk (t : FileTree) (follow : Bool) :
    (links : Nat) → (dir : Place) → (steps : List String) → Except FileError Goal
  | 0 => walkSteps t follow fun _ _ => .error .tooManyLinks
  | links + 1 => walkSteps t follow (walk t follow links)

/-- Where a path leads. -/
def goal (t : FileTree) (follow : Bool) (p : Path) : Except FileError Goal :=
  if p.text.isEmpty then .error .notFound
  else if p.text.toList.contains '\x00' then .error .nulInName
  else walk t follow linkLimit (if p.isAbsolute then [] else t.current) p.steps

/-- The place of the node that a path leads to, links followed. -/
def canonical (t : FileTree) (p : Path) : Except FileError Place := do
  match ← t.goal true p with
  | .node q => pure q
  | .free .. => throw .notFound

def node (t : FileTree) (p : Path) : Except FileError Node := do
  let q ← t.canonical p
  match t.get? q with
  | some n => pure n
  | none => throw .notFound

def isDir (t : FileTree) (p : Path) : Bool :=
  match t.node p with
  | .ok .dir => true
  | _ => false

def isFile (t : FileTree) (p : Path) : Bool :=
  match t.node p with
  | .ok (.file ..) => true
  | _ => false

def «exists» (t : FileTree) (p : Path) : Bool := (t.node p).toBool

/-- The bytes of the file that a path leads to. -/
def readBytes (t : FileTree) (p : Path) : Except FileError ByteArray := do
  match ← t.node p with
  | .file bytes _ => pure bytes
  | _ => throw .isDirectory

/-- The text of the file that a path leads to. -/
def readText (t : FileTree) (p : Path) : Except FileError String := do
  match String.fromUTF8? (← t.readBytes p) with
  | some s => pure s
  | none => throw .notText

/-- The mode of the file that a path leads to. -/
def mode? (t : FileTree) (p : Path) : Option Nat :=
  match t.node p with
  | .ok (.file _ mode) => some mode
  | _ => none

/-- The names in a directory with their nodes, in the order of the names. -/
def children (t : FileTree) (dir : Place) : List (String × Node) :=
  let named := t.nodes.entries.filterMap fun e =>
    match Place.below? dir e.1 with
    | some [name] => some (name, e.2)
    | _ => none
  named.mergeSort fun a b => decide (a.1 ≤ b.1)

/-- The nodes below a directory with the names that lead to them. -/
def under (t : FileTree) (dir : Place) : List (Place × Node) :=
  t.nodes.entries.filterMap fun e =>
    match Place.below? dir e.1 with
    | some [] | none => none
    | some rest => some (rest, e.2)

end FileTree

end TestRepair
