import TestRepair.Dictionary

/-!
Which candidates were tried for which failing selector during one trial. Entries are only added.
-/

namespace TestRepair

/-- For each failing selector the candidates that were tried, in order. -/
structure Ledger where
  tried : Dictionary String (List String) := {}
  deriving DecidableEq, Repr

namespace Ledger

def empty : Ledger := {}

/-- The candidates tried for a failing selector, in order. -/
def triedFor (l : Ledger) (failing : String) : List String := (l.tried.get? failing).getD []

def hasTried (l : Ledger) (failing candidate : String) : Bool := (l.triedFor failing).contains candidate

def hasFailed (l : Ledger) (selector : String) : Bool := l.tried.contains selector

def record (l : Ledger) (failing candidate : String) : Ledger :=
  if l.hasTried failing candidate then l
  else ⟨l.tried.insert failing (l.triedFor failing ++ [candidate])⟩

def size (l : Ledger) : Nat := l.tried.values.flatten.length

/-- Whether no candidate was tried. -/
def isEmpty (l : Ledger) : Bool := l.size == 0

end Ledger

end TestRepair
