import TestRepair.FileTree.Basic

/-!
Changing a tree: making directories, writing a file in place, and replacing one as a whole. Writing
in place goes through links and keeps the mode; replacing first lays the new file beside the old one
and then moves it there, so that the old contents stay until the new ones are complete. The system may
refuse any step of laying out a file; nothing in a tree tells when, so that is a parameter.
-/

namespace TestRepair

namespace FileTree

/-- The mode of a file that is newly written in place. -/
def plainMode : Nat := 0o644

/-- The mode of a file that is laid out beside another one before it replaces it. -/
def privateMode : Nat := 0o600

def makeDir (t : FileTree) (p : Path) : Except FileError FileTree := do
  match ← t.goal false p with
  | .node _ => throw .exists
  | .free dir name => pure (t.set (dir ++ [name]) .dir)

/-- Makes one directory unless it is there. -/
def ensureDir (t : FileTree) (p : Path) : Except FileError FileTree :=
  match t.makeDir p with
  | .ok t => .ok t
  | .error e => if t.isDir p then .ok t else .error e

/-- Makes a directory and those above it that are missing; `depth` bounds how many. An error leaves
those that were made before it. -/
def ensureDirs (t : FileTree) : (depth : Nat) → Path → Except FileError Unit × FileTree
  | 0, _ => (.error .notFound, t)
  | depth + 1, p =>
    if p.text.isEmpty then (.ok (), t)
    else
      match t.makeDir p with
      | .ok t => (.ok (), t)
      | .error .notFound =>
        match p.parent? with
        | none => (.error .notFound, t)
        | some q =>
          match ensureDirs t depth q with
          | (.error e, t) => (.error e, t)
          | (.ok (), t) =>
            match t.ensureDir p with
            | .error e => (.error e, t)
            | .ok t => (.ok (), t)
      | .error e => if t.isDir p then (.ok (), t) else (.error e, t)

/-- Makes a directory and those above it that are missing. -/
def makeDirs (t : FileTree) (p : Path) : Except FileError Unit × FileTree :=
  t.ensureDirs (p.text.length + 1) p

/-- Whether a path ends in a slash, so that it can only name a directory. -/
def namesDirectory (p : Path) : Bool := p.text.toList.getLast? == some '/'

/-- The place of the directory above `p`. -/
def parentPlace (t : FileTree) (p : Path) : Except FileError Place := do
  match ← t.goal true ((p.parent?.getD ⟨"."⟩).join ⟨"."⟩) with
  | .node q => pure q
  | .free .. => throw .notFound

/-- Writes a file in place: through links, keeping the mode of a file that is there. -/
def write (t : FileTree) (p : Path) (bytes : ByteArray) : Except FileError FileTree := do
  if namesDirectory p then
    let _ ← t.parentPlace p
    throw .isDirectory
  match ← t.goal true p with
  | .free dir name => pure (t.set (dir ++ [name]) (.file bytes plainMode))
  | .node q =>
    match t.get? q with
    | some (.file _ mode) => pure (t.set q (.file bytes mode))
    | _ => throw .isDirectory

def writeText (t : FileTree) (p : Path) (s : String) : Except FileError FileTree :=
  t.write p s.toUTF8

/-- What will be replaced when a path is replaced: the place its links lead to, as a path, or the
path itself where they lead nowhere. -/
def target (t : FileTree) (p : Path) : Path :=
  match t.canonical p with
  | .ok q => q.path
  | .error _ => p

/-- Every name that a tree mentions: in its places, in what its links say, and in the current
directory. -/
def names (t : FileTree) : List String :=
  t.current ++ t.nodes.entries.flatMap fun e =>
    match e.2 with
    | .link target => e.1 ++ target.steps
    | _ => e.1

def draftName (n : Nat) : String := ".tmp" ++ String.ofList (List.replicate n 'x')

/-- The first of these names that is not among the given ones. -/
def freshName (known : List String) : String :=
  draftName (((List.range (known.length + 1)).find? fun n => !known.contains (draftName n)).getD 0)

/-- What the system is asked for until a new file lies beside the one that it will replace. -/
inductive Access
  | read
  | create
  | write
  | flush
  | setMode
  deriving DecidableEq, Repr

/-- What the system refuses and why, by the path of the file that is to be replaced. A disk may be full,
a directory may not be writable. -/
abbrev Refusals := Path → Access → Option FileError

/-- The system that refuses nothing. -/
def Refusals.none : Refusals := fun _ _ => Option.none

/-- The text of the file that a path leads to, unless the system refuses to read it. -/
def readTextUnder (refused : Refusals) (t : FileTree) (p : Path) : Except FileError String :=
  match refused p .read with
  | some e => .error e
  | none => t.readText p

/-- The steps in which a file is laid out, each with what is there after it. The mode is that of the
file that will be replaced, if one is there. -/
def laySteps (bytes : ByteArray) (mode : Option Nat) : List (Access × Node) :=
  [(.create, .file .empty privateMode), (.write, .file bytes privateMode),
    (.flush, .file bytes privateMode)] ++ mode.toList.map fun mode => (.setMode, .file bytes mode)

/-- Takes steps of laying out a file at `draft`. What is there is taken away when one is refused. -/
def lay (refused : Access → Option FileError) (draft : Place) (t : FileTree) :
    List (Access × Node) → Except FileError Unit × FileTree
  | [] => (.ok (), t)
  | (access, node) :: steps =>
    match refused access with
    | some e => (.error e, t.remove draft)
    | none => lay refused draft (t.set draft node) steps

/-- Goes on with what is given. An error leaves the tree as it is. -/
def attempt {ε α β : Type} (t : FileTree) (x : Except ε α) (f : α → Except ε β × FileTree) :
    Except ε β × FileTree :=
  match x with
  | .error e => (.error e, t)
  | .ok a => f a

@[simp] theorem attempt_ok {ε α β : Type} (t : FileTree) (a : α)
    (f : α → Except ε β × FileTree) : t.attempt (.ok a) f = f a := rfl

@[simp] theorem attempt_error {ε α β : Type} (t : FileTree) (e : ε)
    (f : α → Except ε β × FileTree) : t.attempt (.error e) f = (.error e, t) := rfl

/-- Lays out a file beside `target`, with the mode of the file that is there, and gives its place.
Its name is one that neither the tree nor anybody who has named the `known` ones can have in mind. -/
def stage (refused : Refusals) (t : FileTree) (known : List String) (target : Path)
    (bytes : ByteArray) : Except FileError Place × FileTree :=
  t.attempt (t.parentPlace target) fun dir =>
    let draft := dir ++ [freshName (t.names ++ known)]
    match t.lay (refused target) draft (laySteps bytes (t.mode? target)) with
    | (.error e, t) => (.error e, t)
    | (.ok (), t) => (.ok draft, t)

/-- Moves the file that is laid out at `draft` to where `target` is. A link is replaced itself. -/
def persist (t : FileTree) (draft : Place) (target : Path) : Except FileError FileTree := do
  if namesDirectory target && !t.isDir target then throw .notDirectory
  let some file := t.get? draft | throw .notFound
  match ← t.goal false target with
  | .free dir name => pure ((t.set (dir ++ [name]) file).remove draft)
  | .node q =>
    match t.get? q with
    | some .dir => throw .isDirectory
    | _ => pure ((t.set q file).remove draft)

end FileTree

end TestRepair
