import TestRepair.Failure.Signatures

/-!
The class that a log complains about: it is no constructor, or a module does not export it.
-/

namespace TestRepair

namespace MissingClass

open Text

def complaints : List (Recogniser (List Char)) :=
  [Signature.notConstructor, Signature.noExport, Signature.noMember]

/-- The first complaint of each kind with its place, unless it is about a default export. -/
def mentions (log : List Char) : List (Nat × List Char) :=
  complaints.filterMap fun complaint =>
    (complaint.first? log).bind fun o =>
      if o.value == "default".toList then none else some (o.start.offset, o.value)

/-- The mention with the least place. -/
def earliest? : List (Nat × List Char) → Option (List Char)
  | [] => none
  | m :: ms => some (ms.foldl (fun a b => if b.1 < a.1 then b else a) m).2

/-- The class that a log complains about first. -/
def ofLog? (log : String) : Option String := (earliest? (mentions log.toList)).map String.ofList

end MissingClass

end TestRepair
