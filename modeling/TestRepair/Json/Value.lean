/-!
JSON values. Numbers keep the form in which they are written, because a whole number is told from a
fraction by its form; objects keep the order of their members.
-/

namespace TestRepair

/-- A number as it is written. -/
inductive JsonNumber
  /-- Digits without a point or an exponent. -/
  | whole (negative : Bool) (magnitude : Nat)
  /-- Digits with a point or an exponent: `mantissa * 10 ^ exponent`. -/
  | fraction (negative : Bool) (mantissa : Nat) (exponent : Int)
  deriving DecidableEq, Repr

/-- A JSON value. -/
inductive Json
  | null
  | bool (b : Bool)
  | num (n : JsonNumber)
  | str (s : String)
  /-- A well-formed string that denotes no text: it holds half of a surrogate pair. -/
  | brokenStr
  | arr (items : List Json)
  | obj (members : List (String × Json))
  deriving Repr

namespace JsonNumber

def toFloat : JsonNumber → Float
  | whole negative n => signed negative (Float.ofNat n)
  | fraction negative m e =>
    signed negative <|
      match e with
      | .ofNat e => Float.ofScientific m false e
      | .negSucc e => Float.ofScientific m true (e + 1)
where
  /-- `x` or its opposite. -/
  signed (negative : Bool) (x : Float) : Float := if negative then -x else x

end JsonNumber

end TestRepair
