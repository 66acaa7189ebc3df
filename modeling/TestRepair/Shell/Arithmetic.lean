import TestRepair.Dictionary
import TestRepair.Shell.Reader

/-!
Sums of whole numbers of 64 bits, with variables that may be set on the way. A variable that is absent
or empty counts as zero. Where an operator leaves its second operand out of account, that operand sets
nothing and may divide by zero.
-/

namespace TestRepair

namespace Shell

/-- The operators between two sums, each with how tightly it binds; longer spellings come first. -/
def operators : List (String × Nat) := [
  ("||", 1), ("&&", 2), ("==", 6), ("!=", 6), ("<=", 7), (">=", 7), ("<<", 8), (">>", 8), ("|", 3),
  ("^", 4), ("&", 5), ("<", 7), (">", 7), ("+", 9), ("-", 9), ("*", 10), ("/", 10), ("%", 10)]

def tightest : Nat := 11

/-- A value as far as it fits into 64 bits. -/
def wrap (n : Int) : Int := Int.bmod n 0x10000000000000000

/-- A truth value as a number. -/
def truth (b : Bool) : Int := if b then 1 else 0

def bitsOf (n : Int) : UInt64 := UInt64.ofInt n

/-- Why a sum has no value. -/
inductive SumFault
  | primary
  | close
  | colon
  | rest
  | zero
  /-- A variable whose value is no number. -/
  | number (value : Raw)
  deriving DecidableEq, Repr

def SumFault.message (body : Raw) : SumFault → Raw
  | number value => "Illegal number: ".toList ++ value
  | primary => about "expecting primary"
  | close => about "expecting \x27)\x27"
  | colon => about "expecting \x27:\x27"
  | rest => about "expecting EOF"
  | zero => about "division by zero"
where
  /-- A complaint with the sum behind it. -/
  about (text : String) : Raw :=
    "arithmetic expression: ".toList ++ text.toList ++ ": \"".toList ++ body ++ ['"']

def operate (op : String) (a b : Int) : Except SumFault Int :=
  match op with
  | "||" => .ok (truth (a != 0 || b != 0))
  | "&&" => .ok (truth (a != 0 && b != 0))
  | "==" => .ok (truth (a == b))
  | "!=" => .ok (truth (a != b))
  | "<=" => .ok (truth (a ≤ b))
  | ">=" => .ok (truth (b ≤ a))
  | "<" => .ok (truth (a < b))
  | ">" => .ok (truth (b < a))
  | "<<" => .ok (wrap (a * Int.ofNat (1 <<< (Int.emod b 64).toNat)))
  | ">>" => .ok (Int.fdiv a (Int.ofNat (1 <<< (Int.emod b 64).toNat)))
  | "|" => .ok (wrap (Int.ofNat (bitsOf a ||| bitsOf b).toNat))
  | "^" => .ok (wrap (Int.ofNat (bitsOf a ^^^ bitsOf b).toNat))
  | "&" => .ok (wrap (Int.ofNat (bitsOf a &&& bitsOf b).toNat))
  | "+" => .ok (wrap (a + b))
  | "-" => .ok (wrap (a - b))
  | "*" => .ok (wrap (a * b))
  | "/" => if b = 0 then .error .zero else .ok (wrap (Int.tdiv a b))
  | "%" => if b = 0 then .error .zero else .ok (Int.tmod a b)
  | _ => .error .primary

/-- Variables as they are known and set in a sum. -/
abbrev Variables := Dictionary Raw Raw

def skipGaps (s : Raw) : Raw := s.dropWhile fun c => isBlank c || c == '\n'

/-- The value of digits to a base, and what follows them; a value too large is the largest there is. -/
def digits (base : Nat) (s : Raw) : Int × Raw :=
  let value (c : Char) : Nat := "0123456789abcdef".toList.idxOf c.toLower
  let ds := s.takeWhile fun c => value c < base
  let n := ds.foldl (fun n c => base * n + value c) 0
  (min (Int.ofNat n) 0x7fffffffffffffff, s.drop ds.length)

/-- The number that digits spell: decimal, octal behind a zero, hexadecimal behind `0x`. -/
def constant? (s : Raw) : Option (Int × Raw) :=
  match s with
  | '0' :: 'x' :: c :: r | '0' :: 'X' :: c :: r =>
    if c.isDigit || ('a' ≤ c.toLower && c.toLower ≤ 'f') then some (digits 16 (c :: r))
    else some (0, s.drop 1)
  | '0' :: _ => some (digits 8 s)
  | c :: _ => if c.isDigit then some (digits 10 s) else none
  | [] => none

def variableNumber (vars : Variables) (name : Raw) : Except SumFault Int :=
  let value := (vars.get? name).getD []
  let inner := (skipGaps (skipGaps value).reverse).reverse
  if inner.isEmpty then .ok 0
  else
    let (negative, s) :=
      match inner with
      | '-' :: s => (true, s)
      | '+' :: s => (false, s)
      | s => (false, s)
    match constant? s with
    | some (n, []) =>
      if n = 0x7fffffffffffffff && s.length > 19 then .error (.number value)
      else .ok (if negative then -n else n)
    | _ => .error (.number value)

/-- The operator of an assignment, empty for a plain one, and what follows it. -/
def assigning? (s : Raw) : Option (String × Raw) :=
  match s with
  | '=' :: '=' :: _ => none
  | '=' :: r => some ("", r)
  | c :: '=' :: r =>
    if "+-*/%&|^".toList.contains c then some (String.singleton c, r) else none
  | '<' :: '<' :: '=' :: r => some ("<<", r)
  | '>' :: '>' :: '=' :: r => some (">>", r)
  | _ => none

/-- What a reader of sums gives: the value, the variables behind it, and what follows. -/
abbrev SumResult := Except SumFault (Int × Variables × Raw)

mutual

/-- A sum: an assignment, a choice, or operators between operands. What is not `live` is read but does
nothing. -/
def sum : (budget : Nat) → (live : Bool) → Variables → Raw → SumResult
  | 0, _, _, _ => .error .primary
  | n + 1, live, vars, s => do
    let (a, vars, s) ← climb n live 1 vars s
    match skipGaps s with
    | '?' :: s =>
      let (yes, vars, s) ← sum n (live && a != 0) vars s
      match skipGaps s with
      | ':' :: s =>
        let (no, vars, s) ← sum n (live && a == 0) vars s
        pure (if a != 0 then yes else no, vars, s)
      | _ => .error .colon
    | s => pure (a, vars, s)

/-- Operands joined by operators that bind at least as tightly as `level`. -/
def climb : (budget : Nat) → (live : Bool) → (level : Nat) → Variables → Raw → SumResult
  | 0, _, _, _, _ => .error .primary
  | n + 1, live, level, vars, s => do
    let (a, vars, s) ← operand n live vars s
    more n live level a vars s

/-- What is joined to an operand by operators that bind at least as tightly as `level`. -/
def more : (budget : Nat) → (live : Bool) → (level : Nat) → Int → Variables → Raw → SumResult
  | 0, _, _, _, _, _ => .error .primary
  | n + 1, live, level, a, vars, s =>
    let s := skipGaps s
    match operators.find? fun o => o.1.toList.isPrefixOf s with
    | none => .ok (a, vars, s)
    | some (op, binding) =>
      if binding < level then .ok (a, vars, s)
      else do
        let decided := (op == "||" && a != 0) || (op == "&&" && a == 0)
        let (b, vars, s) ← climb n (live && !decided) (binding + 1) vars (s.drop op.length)
        let c ← if live then operate op a b else pure 0
        more n live level c vars s

def operand : (budget : Nat) → (live : Bool) → Variables → Raw → SumResult
  | 0, _, _, _ => .error .primary
  | n + 1, live, vars, s =>
    match skipGaps s with
    | '(' :: s => do
      let (a, vars, s) ← sum n live vars s
      match skipGaps s with
      | ')' :: s => pure (a, vars, s)
      | _ => .error .close
    | '-' :: s => do
      let (a, r) ← operand n live vars s
      pure (wrap (-a), r)
    | '+' :: s => operand n live vars s
    | '!' :: s => do
      let (a, r) ← operand n live vars s
      pure (truth (a == 0), r)
    | '~' :: s => do
      let (a, r) ← operand n live vars s
      pure (-a - 1, r)
    | c :: s =>
      if beginsName c then do
        let name := c :: s.takeWhile isNameChar
        let s := s.dropWhile isNameChar
        match assigning? (skipGaps s) with
        | none => pure (← if live then variableNumber vars name else pure 0, vars, s)
        | some (op, s) =>
          let (a, vars, s) ← sum n live vars s
          if !live then pure (0, vars, s)
          else
            let a ← if op.isEmpty then pure a else operate op (← variableNumber vars name) a
            pure (a, vars.insert name (Raw.ofInt a), s)
      else
        match constant? (c :: s) with
        | some (a, s) => .ok (a, vars, s)
        | none => .error .primary
    | [] => .error .primary

end

/-- The value of a sum and the variables behind it. -/
def evaluate (vars : Variables) (s : Raw) : Except SumFault (Int × Variables) := do
  let (a, vars, rest) ← sum (8 * s.length + 8) true vars s
  if (skipGaps rest).isEmpty then pure (a, vars) else .error .rest

end Shell

end TestRepair
