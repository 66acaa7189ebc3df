import TestRepair.Json.Value

/-!
Reading JSON text. Every function takes what is left of the text and gives back a value with what is
left after it. Nested values use a budget that the length of the text always covers.
-/

namespace TestRepair

namespace Json

/-- The blanks that may stand between the parts of a JSON text. -/
def isBlank (c : Char) : Bool := c == ' ' || c == '\t' || c == '\n' || c == '\r'

def skipBlanks (s : List Char) : List Char := s.dropWhile isBlank

def hexValue? (c : Char) : Option Nat :=
  if c.isDigit then some (c.toNat - '0'.toNat)
  else if 'a' ≤ c ∧ c ≤ 'f' then some (c.toNat - 'a'.toNat + 10)
  else if 'A' ≤ c ∧ c ≤ 'F' then some (c.toNat - 'A'.toNat + 10)
  else none

/-- What a short escape stands for. -/
def shortEscape? : Char → Option Char
  | '"' => some '"'
  | '\\' => some '\\'
  | '/' => some '/'
  | 'b' => some '\x08'
  | 'f' => some '\x0c'
  | 'n' => some '\n'
  | 'r' => some '\r'
  | 't' => some '\t'
  | _ => none

/-- The characters up to the closing quote as code units: an escape gives the unit it names, any
other character its code point. -/
def units? : List Char → Option (List Nat × List Char)
  | [] => none
  | '"' :: s => some ([], s)
  | '\\' :: 'u' :: a :: b :: c :: d :: s => do
    let a ← hexValue? a
    let b ← hexValue? b
    let c ← hexValue? c
    let d ← hexValue? d
    let (us, rest) ← units? s
    pure ((((a * 16 + b) * 16 + c) * 16 + d) :: us, rest)
  | '\\' :: e :: s => do
    let c ← shortEscape? e
    let (us, rest) ← units? s
    pure (c.toNat :: us, rest)
  | c :: s => do
    if c.toNat < 32 || c == '\\' then none
    else
      let (us, rest) ← units? s
      pure (c.toNat :: us, rest)

/-- Whether a unit is the first half of a pair. -/
def isHighHalf (u : Nat) : Bool := 0xd800 ≤ u && u < 0xdc00

/-- Whether a unit is the second half of a pair. -/
def isLowHalf (u : Nat) : Bool := 0xdc00 ≤ u && u < 0xe000

/-- The text that code units denote; `none` where half of a pair stands alone. -/
def unitsText? : List Nat → Option (List Char)
  | [] => some []
  | [u] => if isHighHalf u || isLowHalf u then none else some [Char.ofNat u]
  | u :: v :: us =>
    if isHighHalf u then
      if isLowHalf v then
        (unitsText? us).map (Char.ofNat (0x10000 + (u - 0xd800) * 0x400 + (v - 0xdc00)) :: ·)
      else none
    else if isLowHalf u then none
    else (unitsText? (v :: us)).map (Char.ofNat u :: ·)

/-- The value of a string whose opening quote has been read. -/
def string? (s : List Char) : Option (Json × List Char) := do
  let (us, rest) ← units? s
  match unitsText? us with
  | some text => pure (.str (String.ofList text), rest)
  | none => pure (.brokenStr, rest)

def digitsValue (ds : List Char) : Nat :=
  ds.foldl (fun n c => 10 * n + (c.toNat - '0'.toNat)) 0

/-- The digits of a whole number: a zero stands alone. -/
def wholeDigits? (s : List Char) : Option (List Char × List Char) :=
  match s with
  | '0' :: rest => some (['0'], rest)
  | _ =>
    let ds := s.takeWhile Char.isDigit
    if ds.isEmpty then none else some (ds, s.dropWhile Char.isDigit)

/-- The digits behind a point, if there is one. -/
def fractionDigits? : List Char → Option (Option (List Char) × List Char)
  | '.' :: s =>
    let ds := s.takeWhile Char.isDigit
    if ds.isEmpty then none else some (some ds, s.dropWhile Char.isDigit)
  | s => some (none, s)

/-- The digits of an exponent, one at least. -/
def exponentDigits? (negative : Bool) (s : List Char) : Option (Option Int × List Char) :=
  let ds := s.takeWhile Char.isDigit
  if ds.isEmpty then none
  else
    let n := Int.ofNat (digitsValue ds)
    some (some (if negative then -n else n), s.dropWhile Char.isDigit)

/-- The exponent, if there is one. -/
def exponent? : List Char → Option (Option Int × List Char)
  | c :: s =>
    if c == 'e' || c == 'E' then
      match s with
      | '-' :: s => exponentDigits? true s
      | '+' :: s => exponentDigits? false s
      | s => exponentDigits? false s
    else some (none, c :: s)
  | [] => some (none, [])

/-- A number whose sign has been read. -/
def number? (negative : Bool) (s : List Char) : Option (Json × List Char) := do
  let (whole, s) ← wholeDigits? s
  let (fraction, s) ← fractionDigits? s
  let (exponent, s) ← exponent? s
  let n := match fraction, exponent with
    | none, none => JsonNumber.whole negative (digitsValue whole)
    | fraction, exponent =>
      let ds := fraction.getD []
      .fraction negative (digitsValue (whole ++ ds)) (exponent.getD 0 - Int.ofNat ds.length)
  pure (.num n, s)

def word? (word : List Char) (j : Json) (s : List Char) : Option (Json × List Char) :=
  if word.isPrefixOf s then some (j, s.drop word.length) else none

mutual

/-- One value, with blanks allowed before it. -/
def value? : (budget : Nat) → List Char → Option (Json × List Char)
  | 0, _ => none
  | n + 1, s =>
    match skipBlanks s with
    | '\x7b' :: s =>
      match skipBlanks s with
      | '\x7d' :: s => some (.obj [], s)
      | s => (members? n s).map fun (ms, s) => (.obj ms, s)
    | '[' :: s =>
      match skipBlanks s with
      | ']' :: s => some (.arr [], s)
      | s => (items? n s).map fun (js, s) => (.arr js, s)
    | '"' :: s => string? s
    | '-' :: s => number? true s
    | 'n' :: s => word? "ull".toList .null s
    | 't' :: s => word? "rue".toList (.bool true) s
    | 'f' :: s => word? "alse".toList (.bool false) s
    | s => number? false s

/-- The items of an array, one at least, and its closing bracket. -/
def items? : (budget : Nat) → List Char → Option (List Json × List Char)
  | 0, _ => none
  | n + 1, s => do
    let (j, s) ← value? n s
    match skipBlanks s with
    | ',' :: s =>
      let (js, s) ← items? n s
      pure (j :: js, s)
    | ']' :: s => pure ([j], s)
    | _ => none

/-- The members of an object, one at least, and its closing brace. -/
def members? : (budget : Nat) → List Char → Option (List (String × Json) × List Char)
  | 0, _ => none
  | n + 1, s => do
    let s ← match skipBlanks s with
      | '"' :: s => some s
      | _ => none
    let (us, s) ← units? s
    let key ← unitsText? us
    let s ← match skipBlanks s with
      | ':' :: s => some s
      | _ => none
    let (j, s) ← value? n s
    match skipBlanks s with
    | ',' :: s =>
      let (ms, s) ← members? n s
      pure ((String.ofList key, j) :: ms, s)
    | '\x7d' :: s => pure ([(String.ofList key, j)], s)
    | _ => none

end

/-- The value that a text spells, blanks around it allowed. -/
def read? (text : String) : Option Json := do
  let s := text.toList
  let (j, rest) ← value? (s.length + 1) s
  if (skipBlanks rest).isEmpty then pure j else none

end Json

end TestRepair
