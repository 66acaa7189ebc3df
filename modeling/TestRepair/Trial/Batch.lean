import TestRepair.Trial.Run

/-!
Several trials at once, each in a private copy of its work directory. Directories of installed
dependencies are shared by a link; a link that stays inside is copied as it is written, and one that
leaves goes to the absolute place it led to. The copies are made one after the other, while the trials
that have begun take their steps in any order.
-/

namespace TestRepair

namespace Batch

/-- A work directory that could not be copied. -/
structure CopyError where
  path : Path
  cause : FileError
  deriving DecidableEq, Repr

def CopyError.message (e : CopyError) : String :=
  "Failed to copy " ++ e.path.text ++ ": " ++ e.cause.message

/-- Directories with this name are shared and not copied. -/
def sharedName : String := "node_modules"

/-- Where the link at `place` has to lead in a copy of `root`. -/
def copiedTarget (t : FileTree) (root place : Place) (target : Path) : Path :=
  if target.isAbsolute then target
  else
    match t.canonical ((Place.path place.dropLast).join target) with
    | .ok q => if (Place.below? root q).isSome then target else q.path
    | .error _ => target

/-- The node that stands in a copy of `root` for the one at `names` below it. -/
def copiedNode? (t : FileTree) (root names : Place) (node : Node) : Option Node :=
  if names.dropLast.contains sharedName then none
  else
    match node with
    | .dir => if names.getLast? = some sharedName then some (.link (root ++ names).path) else some .dir
    | .link target => some (.link (copiedTarget t root (root ++ names) target))
    | .file bytes mode => some (.file bytes mode)

/-- The nodes of a copy of `root` with the names that lead to them. -/
def copiedNodes (t : FileTree) (root : Place) : List (Place × Node) :=
  (t.under root).filterMap fun (names, node) => (copiedNode? t root names node).map (names, ·)

/-- Whether a copy of `root` at `dest` would be part of what is copied. -/
def takesIn (root dest : Place) : Bool :=
  match Place.below? root dest with
  | some names => !names.contains sharedName
  | none => false

/-- Copies the directory at a path to `dest`. The nodes are read while they are copied, so a copy that is
part of what is copied goes on until its names get too long. -/
def copy (t : FileTree) (source : Path) (dest : Place) : Except CopyError FileTree := do
  let root ← (t.canonical source).mapError (⟨source, ·⟩)
  if takesIn root dest then throw ⟨dest.path, .nameTooLong⟩
  let t' := t.set dest .dir
  pure ((copiedNodes t root).foldl (fun t e => t.set (dest ++ e.1) e.2) t')

/-- A trial of a batch with its private copy. -/
structure Member where
  setup : Trial.Setup
  progress : Trial.Progress
  copy : Place

/-- How far a batch has come. -/
structure Course (σ : Type) where
  /-- The requests that have no copy yet. -/
  pending : List TrialRequest
  /-- The trials that have begun, in the order of their requests. -/
  members : List Member := []
  world : World σ
  /-- Why the batch ended before its time. -/
  failed : Option CopyError := none

/-- What can happen next in a batch. -/
inductive Move
  /-- The next request gets its copy, and its trial begins. -/
  | launch
  /-- The trial with a number takes one step. -/
  | step (i : Nat)
  deriving DecidableEq, Repr

variable {σ : Type}

/-- The trial of a request in its private copy. -/
def Member.start (settings : Settings) (table : List Signature) (r : TrialRequest) (copy : Place) :
    Member :=
  let setup : Trial.Setup := { settings, table, request := { r with workDir := copy.path } }
  ⟨setup, .start setup, copy⟩

/-- Begins the trial of the next request; the `i`-th one gets its copy at `dest i`. -/
def launch (settings : Settings) (table : List Signature) (dest : Nat → Place) (c : Course σ) :
    Course σ :=
  match c.pending with
  | [] => c
  | r :: rs =>
    let place := dest c.members.length
    match copy c.world.tree r.workDir place with
    | .error e => { c with failed := some e }
    | .ok tree =>
      { c with
        pending := rs
        members := c.members ++ [.start settings table r place]
        world := { c.world with tree } }

/-- Lets the trial with a number take one step; each trial has surroundings of its own. -/
def stepAt (env : Nat → Surroundings σ) (i : Nat) (c : Course σ) : Course σ :=
  match c.members[i]? with
  | none => c
  | some m =>
    let (progress, world) := Trial.step (env i) m.setup m.progress c.world
    { c with members := c.members.set i { m with progress }, world }

/-- Makes a move. Nothing happens any more once a work directory could not be copied. -/
def play (env : Nat → Surroundings σ) (settings : Settings) (table : List Signature)
    (dest : Nat → Place) (c : Course σ) (m : Move) : Course σ :=
  if c.failed.isSome then c
  else
    match m with
    | .launch => launch settings table dest c
    | .step i => stepAt env i c

/-- Makes moves one after the other. -/
def follow (env : Nat → Surroundings σ) (settings : Settings) (table : List Signature)
    (dest : Nat → Place) (c : Course σ) (moves : List Move) : Course σ :=
  moves.foldl (play env settings table dest) c

/-- As many steps for each of the trials as one can take. -/
def inTurn (ms : List Member) : List Move :=
  (ms.zipIdx.map fun (m, i) => List.replicate (Trial.stepLimit m.setup) (.step i)).flatten

/-- A whole batch: first the moves of a schedule, then what is left of it in turn. -/
def course (env : Nat → Surroundings σ) (settings : Settings) (table : List Signature)
    (dest : Nat → Place) (requests : List TrialRequest) (schedule : List Move) (w : World σ) :
    Course σ :=
  let c := follow env settings table dest { pending := requests, world := w } schedule
  let c := follow env settings table dest c (c.pending.map fun _ => .launch)
  follow env settings table dest c (inTurn c.members)

/-- What a batch gives: the trials in the order of the requests, and the world they leave. -/
def Course.result (c : Course σ) : Except CopyError (List Member × World σ) :=
  match c.failed with
  | some e => .error e
  | none => .ok (c.members, c.world)

/-- Runs every request in a private copy. -/
def run (env : Nat → Surroundings σ) (settings : Settings) (table : List Signature)
    (dest : Nat → Place) (requests : List TrialRequest) (schedule : List Move) (w : World σ) :
    Except CopyError (List Member × World σ) :=
  (course env settings table dest requests schedule w).result

end Batch

end TestRepair
