/-!
Decimal texts of binary fractions. A finite floating-point number is a whole number times a power of
two, so its decimal expansion is exact and a fixed number of places is reached by one rounding.
-/

namespace TestRepair.Text

/-- The whole number nearest to `num / den`; a half goes to the even neighbour. -/
def roundHalfEven (num den : Nat) : Nat :=
  let q := num / den
  let twice := 2 * (num % den)
  if twice < den then q
  else if den < twice then q + 1
  else if q % 2 == 0 then q else q + 1

/-- A finite floating-point number as `mantissa * 2 ^ exponent` with a sign. -/
structure BinaryFraction where
  negative : Bool
  mantissa : Nat
  exponent : Int

namespace BinaryFraction

def ofBits (bits : UInt64) : BinaryFraction :=
  let n := bits.toNat
  let exponent : Nat := n / Nat.pow 2 52 % Nat.pow 2 11
  let fraction : Nat := n % Nat.pow 2 52
  { negative := n / Nat.pow 2 63 == 1
    mantissa := if exponent == 0 then fraction else fraction + Nat.pow 2 52
    exponent := if exponent == 0 then -1074 else Int.ofNat exponent - 1075 }

/-- The magnitude in units of `10 ^ -places`, rounded. -/
def scaled (x : BinaryFraction) (places : Nat) : Nat :=
  let m := x.mantissa * Nat.pow 10 places
  match x.exponent with
  | .ofNat e => m * Nat.pow 2 e
  | .negSucc e => roundHalfEven m (Nat.pow 2 (e + 1))

/-- The number with exactly `places` digits behind the point; a negative number keeps its sign even
when all its digits are zero. -/
def fixed (x : BinaryFraction) (places : Nat) : List Char :=
  let n := x.scaled places
  let whole := Nat.toDigits 10 (n / Nat.pow 10 places)
  let rest := Nat.toDigits 10 (n % Nat.pow 10 places)
  let padded := List.replicate (places - rest.length) '0' ++ rest
  (if x.negative then ['-'] else []) ++ whole ++ (if places = 0 then [] else '.' :: padded)

end BinaryFraction

def twoPlaces (x : Float) : List Char := (BinaryFraction.ofBits x.toBits).fixed 2

end TestRepair.Text
