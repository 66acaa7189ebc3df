import TestRepair.Dictionary
import TestRepair.Json.Value

/-!
Turning JSON values into the values of a field and back. A field is required, has a default, or is
optional; a default stands only for a field that is absent, while an optional field may also be null.
-/

namespace TestRepair

namespace Json

/-- The members of an object, if none of the given fields occurs twice. -/
def record? (fields : List String) : Json → Option (List (String × Json))
  | obj ms => if fields.all fun f => (ms.filter (·.1 == f)).length ≤ 1 then some ms else none
  | _ => none

def field? (ms : List (String × Json)) (name : String) : Option Json :=
  (ms.find? (·.1 == name)).map (·.2)

variable {α : Type}

def required (ms : List (String × Json)) (name : String) (decode : Json → Option α) : Option α :=
  (field? ms name).bind decode

def defaulted (ms : List (String × Json)) (name : String) (decode : Json → Option α) (value : α) :
    Option α :=
  match field? ms name with
  | none => some value
  | some j => decode j

def nullable (decode : Json → Option α) : Json → Option (Option α)
  | null => some none
  | j => (decode j).map some

/-- A field that may be absent or null. -/
def optionalField (ms : List (String × Json)) (name : String) (decode : Json → Option α) :
    Option (Option α) :=
  defaulted ms name (nullable decode) none

def toText? : Json → Option String
  | str s => some s
  | _ => none

def toBool? : Json → Option Bool
  | bool b => some b
  | _ => none

/-- A whole number below `bound`, written without a sign. -/
def toNat? (bound : Nat) : Json → Option Nat
  | num (.whole false n) => if n < bound then some n else none
  | _ => none

def toUInt64? (j : Json) : Option UInt64 := (toNat? UInt64.size j).map UInt64.ofNat

def toUInt32? (j : Json) : Option UInt32 := (toNat? UInt32.size j).map UInt32.ofNat

/-- A number, whole or not. -/
def toFloat? : Json → Option Float
  | num n => some n.toFloat
  | _ => none

def toList? (decode : Json → Option α) : Json → Option (List α)
  | arr js => js.mapM decode
  | _ => none

def toTexts? : Json → Option (Dictionary String String)
  | obj ms => (ms.mapM fun m => (toText? m.2).map (m.1, ·)).map Dictionary.ofList
  | _ => none

/-- The name of a case: a text, or an object whose only member has that key and is null. -/
def caseName? : Json → Option String
  | str s => some s
  | obj [(s, null)] => some s
  | _ => none

def ofNat (n : Nat) : Json := num (.whole false n)

def ofTexts (ts : List String) : Json := arr (ts.map str)

def ofOption (encode : α → Json) : Option α → Json
  | none => null
  | some a => encode a

/-- A member that is left out when it has no value. -/
def memberIfSome (name : String) (encode : α → Json) : Option α → List (String × Json)
  | none => []
  | some a => [(name, encode a)]

def ofDictionary (d : Dictionary String String) : Json := obj (d.entries.map fun e => (e.1, str e.2))

end Json

end TestRepair
