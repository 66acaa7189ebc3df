import TestRepair.Shell.State

/-!
The conditions of `test`: about files, texts and numbers, joined by `-a`, `-o`, `!` and parentheses.
-/

namespace TestRepair

namespace Shell

def fileHas (t : FileTree) (letter : Char) (p : Path) : Bool :=
  match letter with
  | 'e' | 'r' | 'w' => t.exists p
  | 'f' => t.isFile p
  | 'd' => t.isDir p
  | 's' => match t.node p with
    | .ok (.file bytes _) => 0 < bytes.size
    | .ok _ => true
    | .error _ => false
  | 'x' => t.isDir p || ((t.mode? p).getD 0) % 2 == 1 || (t.mode? p).getD 0 / 64 % 2 == 1
  | 'L' | 'h' =>
    match t.goal false p with
    | .ok (.node q) => match t.get? q with
      | some (.link _) => true
      | _ => false
    | _ => false
  | _ => false

/-- The value of a condition about one word; none if it is no such condition. -/
def unary? (t : FileTree) (op word : Raw) : Option Bool :=
  match op with
  | ['-', 'n'] => some (!word.isEmpty)
  | ['-', 'z'] => some word.isEmpty
  | ['-', c] =>
    if "efdsrwxLh".toList.contains c then some ((pathOf? word).any (fileHas t c)) else none
  | _ => none

def comparison? (op : Raw) : Option (Int → Int → Bool) :=
  match String.ofList op with
  | "-eq" => some fun a b => a == b
  | "-ne" => some fun a b => a != b
  | "-lt" => some fun a b => a < b
  | "-le" => some fun a b => a ≤ b
  | "-gt" => some fun a b => b < a
  | "-ge" => some fun a b => b ≤ a
  | _ => none

/-- Why a condition cannot be judged. -/
inductive ConditionFault
  | number (word : Raw)
  | incomplete (comparison : Raw)
  | unexpected (word : Raw)
  deriving DecidableEq, Repr

def ConditionFault.message : ConditionFault → Raw
  | number word => "Illegal number: ".toList ++ word
  | incomplete comparison => comparison ++ ": argument expected".toList
  | unexpected word => word ++ ": unexpected operator".toList

/-- The value of a condition about two words; none if it is no such condition. -/
def binary? (a op b : Raw) : Option (Except ConditionFault Bool) :=
  match op with
  | ['='] | ['=', '='] => some (.ok (a == b))
  | ['!', '='] => some (.ok (a != b))
  | ['<'] => some (.ok (rawLe a b && a != b))
  | ['>'] => some (.ok (rawLe b a && a != b))
  | op =>
    (comparison? op).map fun compare =>
      let number (s : Raw) : Except ConditionFault Int :=
        match Raw.toInt? (s.filter fun c => c != ' ') with
        | some n => .ok n
        | none => .error (.number s)
      do return compare (← number a) (← number b)

def isComparison (w : Raw) : Bool := (binary? [] w []).isSome

mutual

/-- Conditions joined by `-o`. -/
def anyOf? (t : FileTree) : (budget : Nat) → List Raw → Except ConditionFault (Bool × List Raw)
  | 0, ws => .ok (false, ws)
  | n + 1, ws => do
    let (a, ws) ← allOf? t n ws
    match ws with
    | ['-', 'o'] :: ws =>
      let (b, ws) ← anyOf? t n ws
      pure (a || b, ws)
    | ws => pure (a, ws)

/-- Conditions joined by `-a`. -/
def allOf? (t : FileTree) : (budget : Nat) → List Raw → Except ConditionFault (Bool × List Raw)
  | 0, ws => .ok (false, ws)
  | n + 1, ws => do
    let (a, ws) ← condition? t n ws
    match ws with
    | ['-', 'a'] :: ws =>
      let (b, ws) ← allOf? t n ws
      pure (a && b, ws)
    | ws => pure (a, ws)

def condition? (t : FileTree) : (budget : Nat) → List Raw → Except ConditionFault (Bool × List Raw)
  | 0, ws => .ok (false, ws)
  | n + 1, ws => do
    match ws with
    | a :: op :: b :: rest =>
      match binary? a op b with
      | some v => return (← v, rest)
      | none => single? t n ws
    | [a, op] =>
      if isComparison op && (unary? t a op).isNone && a != ['!'] then .error (.incomplete op)
      else single? t n ws
    | _ => single? t n ws

/-- One condition that is no comparison. -/
def single? (t : FileTree) : (budget : Nat) → List Raw → Except ConditionFault (Bool × List Raw)
  | 0, ws => .ok (false, ws)
  | n + 1, ws => do
    match ws with
    | [] => pure (false, [])
    | [w] => pure (!w.isEmpty, [])
    | ['!'] :: ws =>
      let (a, ws) ← condition? t n ws
      pure (!a, ws)
    | ['('] :: ws =>
      let (a, ws) ← anyOf? t n ws
      match ws with
      | [')'] :: ws => pure (a, ws)
      | ws => pure (a, ws)
    | op :: w :: rest =>
      match unary? t op w with
      | some v => pure (v, rest)
      | none => pure (!op.isEmpty, w :: rest)

end

/-- The status of a condition, and a complaint if it cannot be judged. -/
def judge (t : FileTree) (ws : List Raw) : Nat × Option Raw :=
  match anyOf? t (8 * ws.length + 8) ws with
  | .error fault => (2, some fault.message)
  | .ok (v, []) => (if v then 0 else 1, none)
  | .ok (_, left) =>
    let judged := ws.take (ws.length - left.length)
    (2, some (ConditionFault.unexpected (judged.getLast?.getD [])).message)

end Shell

end TestRepair
