import TestRepair.Locator.Ledger
import TestRepair.Locator.Proposal
import TestRepair.Repair.Patch

/-!
Healing a failing selector: the first candidate that has not been tried is noted in the ledger and
swapped into the sources. A selector that was tried for the failing one, or that has failed itself, is
never chosen, so healing cannot go in circles.
-/

namespace TestRepair

/-- Why a selector could not be healed. -/
inductive HealError
  | pageRoot (selector : String)
  | patch (cause : PatchError)
  deriving DecidableEq, Repr

namespace HealError

def message : HealError → String
  | pageRoot selector => "Refusing to heal degenerate selector '" ++ selector ++ "'"
  | patch cause => cause.message

end HealError

namespace Healing

/-- Whether a candidate is still to be tried for a failing selector. -/
def isUntried (l : Ledger) (failing : String) (c : Candidate) : Bool :=
  !l.hasTried failing c.selector && !l.hasFailed c.selector

/-- The candidate to try next, if one is left, and the ledger with it. -/
def choose (s : HealingSettings) (l : Ledger) (failing : String) (actions : List RecordedAction)
    (log : String) : Except HealError (Option Candidate × Ledger) :=
  if Selector.isPageRoot failing then .error (.pageRoot failing)
  else
    let pool := Candidate.all failing actions log s.textLengthLimit.toNat
    match pool.find? (isUntried l failing) with
    | some c => .ok (some c, l.record failing c.selector)
    | none => .ok (none, l)

/-- A selector that was replaced, and the sources in which it was. -/
structure Healed where
  candidate : Candidate
  patched : List Path

/-- What healing leaves behind: also a candidate that could not be written counts as tried. -/
structure Outcome where
  result : Except HealError (Option Healed)
  ledger : Ledger
  tree : FileTree

def write (s : HealingSettings) (t : FileTree) (workDir : Path) (failing : String) (c : Candidate) :
    Except PatchError Healed × FileTree :=
  match Patch.sources t workDir s.locatorDirs s.sourceExtensions with
  | .error e => (.error e, t)
  | .ok files =>
    match Patch.swap t files failing c.selector with
    | (.error e, t) => (.error e, t)
    | (.ok patched, t) => (.ok ⟨c, patched⟩, t)

/-- Chooses a candidate and writes it into the sources of a project. -/
def heal (s : HealingSettings) (l : Ledger) (t : FileTree) (workDir : Path) (failing : String)
    (actions : List RecordedAction) (log : String) : Outcome :=
  match choose s l failing actions log with
  | .error e => ⟨.error e, l, t⟩
  | .ok (none, l) => ⟨.ok none, l, t⟩
  | .ok (some c, l) =>
    match write s t workDir failing c with
    | (.error e, t) => ⟨.error (.patch e), l, t⟩
    | (.ok healed, t) => ⟨.ok (some healed), l, t⟩

end Healing

end TestRepair
