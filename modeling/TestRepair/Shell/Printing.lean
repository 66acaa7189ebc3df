import TestRepair.Shell.Raw

/-!
Tools that print what they are given: `echo`, `printf` and `seq`.
-/

namespace TestRepair

namespace Shell

/-- What a tool prints, and whether it succeeded. -/
structure Printed where
  status : Nat := 0
  out : Raw := []
  err : Raw := []
  deriving DecidableEq, Repr

/-- The value of octal digits, three at most, and what follows them. -/
def octal (limit : Nat) (s : Raw) : Nat × Raw :=
  let isOctal (c : Char) : Bool := '0' ≤ c && c ≤ '7'
  let ds := (s.take limit).takeWhile isOctal
  (ds.foldl (fun n c => 8 * n + (c.toNat - '0'.toNat)) 0, s.drop ds.length)

def byteChar (n : Nat) : Char := Char.ofNat (n % 256)

/-- The character that a letter behind a backslash stands for. -/
def letterEscape? : Char → Option Char
  | '\\' => some '\\'
  | 'a' => some '\x07'
  | 'b' => some '\x08'
  | 'f' => some '\x0c'
  | 'n' => some '\n'
  | 'r' => some '\r'
  | 't' => some '\t'
  | 'v' => some '\x0b'
  | _ => none

/-- What stands behind a backslash, and what follows it; an unknown letter keeps its backslash. -/
def escape (s : Raw) : Raw × Raw :=
  match s with
  | [] => (['\\'], [])
  | c :: r =>
    match letterEscape? c with
    | some d => ([d], r)
    | none =>
      if '0' ≤ c && c ≤ '7' then
        let (n, r) := octal 3 s
        ([byteChar n], r)
      else (['\\', c], r)

/-- A text with its escapes carried out, and whether more may be printed behind it. -/
def unescaped : (budget : Nat) → Raw → Raw × Bool
  | 0, _ => ([], true)
  | _, [] => ([], true)
  | n + 1, '\\' :: 'c' :: _ => if n = 0 then ([], true) else ([], false)
  | n + 1, '\\' :: '0' :: s =>
    let (k, s) := octal 3 s
    let (t, more) := unescaped n s
    (byteChar k :: t, more)
  | n + 1, '\\' :: s =>
    let (e, s) := escape s
    let (t, more) := unescaped n s
    (e ++ t, more)
  | n + 1, c :: s =>
    let (t, more) := unescaped n s
    (c :: t, more)

def spaced (ws : List Raw) : Raw := Text.joinWith [' '] ws

/-- The `echo` of a shell, which carries out escapes. -/
def echo (args : List Raw) : Raw :=
  let silent := args.head? == some ['-', 'n']
  let s := spaced (if silent then args.drop 1 else args)
  let (t, more) := unescaped (s.length + 2) s
  if silent || !more then t else t ++ ['\n']

/-- Whether an argument of the program `echo` is an option. -/
def isEchoOption (a : Raw) : Bool :=
  match a with
  | '-' :: c :: s => (c :: s).all ['n', 'e', 'E'].contains
  | _ => false

/-- The program `echo`, which prints its arguments as they are unless it is told otherwise. -/
def plainEcho (args : List Raw) : Raw :=
  let options := (args.takeWhile isEchoOption).flatten
  let s := spaced (args.dropWhile isEchoOption)
  let escapes := (options.filter fun c => c == 'e' || c == 'E').getLast? == some 'e'
  let (t, more) := if escapes then unescaped (s.length + 2) s else (s, true)
  if options.contains 'n' || !more then t else t ++ ['\n']

/-- How a value is printed. -/
structure Field where
  left : Bool := false
  zero : Bool := false
  plus : Bool := false
  blank : Bool := false
  marked : Bool := false
  width : Nat := 0
  precision : Option Nat := none

def flags (f : Field) : Raw → Field × Raw
  | '-' :: s => flags { f with left := true } s
  | '0' :: s => flags { f with zero := true } s
  | '+' :: s => flags { f with plus := true } s
  | ' ' :: s => flags { f with blank := true } s
  | '#' :: s => flags { f with marked := true } s
  | s => (f, s)

/-- Reads a field up to the letter of its conversion. -/
def field (s : Raw) : Field × Raw :=
  let (f, s) := flags {} s
  let f := { f with width := (Raw.toNat? (s.takeWhile Char.isDigit)).getD 0 }
  match s.dropWhile Char.isDigit with
  | '.' :: s =>
    let ds := s.takeWhile Char.isDigit
    ({ f with precision := some ((Raw.toNat? ds).getD 0) }, s.dropWhile Char.isDigit)
  | s => (f, s)

def Field.fill (f : Field) (s : Raw) : Raw :=
  let gap := List.replicate (f.width - s.length) ' '
  if f.left then s ++ gap else gap ++ s

/-- Fills the digits of a number up with zeros, behind its sign. -/
def Field.fillNumber (f : Field) (sign digits : Raw) : Raw :=
  let wanted :=
    match f.precision with
    | some p => p
    | none => if f.zero && !f.left then f.width - sign.length else 0
  f.fill (sign ++ List.replicate (wanted - digits.length) '0' ++ digits)

/-- The number that an argument spells: decimal, octal, hexadecimal, or the code of a character. -/
def number? (s : Raw) : Option Int :=
  match s with
  | [] => some 0
  | '\x27' :: c :: _ | '"' :: c :: _ => some (Int.ofNat c.toNat)
  | '0' :: 'x' :: ds =>
    (ds.foldlM (fun n c =>
      let d := "0123456789abcdef".toList.idxOf c.toLower
      if d < 16 then some (16 * n + d) else none) 0).map Int.ofNat
  | '0' :: d :: ds => if (octal (ds.length + 1) (d :: ds)).2.isEmpty then
      some (Int.ofNat (octal (ds.length + 1) (d :: ds)).1) else none
  | s => Raw.toInt? s

/-- A number as a conversion prints it. -/
def Field.number (f : Field) (letter : Char) (n : Int) : Raw :=
  let unsigned := (if n < 0 then n + 18446744073709551616 else n).toNat
  match letter with
  | 'o' => f.fillNumber (if f.marked then ['0'] else []) (Nat.toDigits 8 unsigned)
  | 'x' => f.fillNumber (if f.marked then ['0', 'x'] else []) (Nat.toDigits 16 unsigned)
  | 'X' =>
    f.fillNumber (if f.marked then ['0', 'X'] else []) ((Nat.toDigits 16 unsigned).map Char.toUpper)
  | 'u' => f.fillNumber [] (Raw.ofNat unsigned)
  | _ =>
    let sign := if n < 0 then ['-'] else if f.plus then ['+'] else if f.blank then [' '] else []
    f.fillNumber sign (Raw.ofNat n.natAbs)

/-- How far `printf` has come. -/
structure Printing where
  out : Raw := []
  args : List Raw
  /-- Whether an argument was used in this round. -/
  used : Bool := false
  stopped : Bool := false
  status : Nat := 0
  faults : List Raw := []

/-- The number that an argument begins with, and what is wrong with the argument. -/
def numberOf (arg : Raw) : Int × Option Raw :=
  match number? arg with
  | some n => (n, none)
  | none =>
    let digits := arg.takeWhile Char.isDigit
    match Raw.toInt? digits with
    | some n => (n, some (arg ++ ": not completely converted".toList))
    | none => (0, some (arg ++ ": expected numeric value".toList))

/-- Prints by a format once. -/
def printOnce : (budget : Nat) → Printing → Raw → Printing
  | 0, p, _ => p
  | _, p, [] => p
  | n + 1, p, '\\' :: s =>
    let (e, s) := escape s
    printOnce n { p with out := p.out ++ e } s
  | n + 1, p, '%' :: '%' :: s => printOnce n { p with out := p.out ++ ['%'] } s
  | n + 1, p, '%' :: s =>
    let (f, s) := field s
    match s with
    | [] => { p with out := p.out ++ ['%'], status := 1 }
    | letter :: s =>
      let arg := p.args.head?.getD []
      let p := { p with args := p.args.drop 1, used := p.used || !p.args.isEmpty }
      if letter == 's' then
        let text := (f.precision.map arg.take).getD arg
        printOnce n { p with out := p.out ++ f.fill text } s
      else if letter == 'b' then
        let (text, more) := unescaped (arg.length + 2) arg
        let p := { p with out := p.out ++ f.fill ((f.precision.map text.take).getD text) }
        if more then printOnce n p s else { p with stopped := true }
      else if letter == 'c' then printOnce n { p with out := p.out ++ f.fill (arg.take 1) } s
      else if "dioxXu".toList.contains letter then
        let (value, fault) := numberOf arg
        let p := { p with out := p.out ++ f.number letter value, faults := p.faults ++ fault.toList }
        printOnce n { p with status := if fault.isSome then 1 else p.status } s
      else
        let fault := '%' :: letter :: ": invalid directive".toList
        { p with stopped := true, status := 2, faults := p.faults ++ [fault] }
  | n + 1, p, c :: s => printOnce n { p with out := p.out ++ [c] } s

/-- Prints by a format until every argument is used. -/
def printRounds (format : Raw) : (budget : Nat) → Printing → Printing
  | 0, p => p
  | n + 1, p =>
    let p := printOnce (format.length + 1) { p with used := false } format
    if p.stopped || p.args.isEmpty || !p.used then p else printRounds format n p

/-- The tool `printf`; what is wrong with its arguments stands in lines of its own. -/
def printf (args : List Raw) : Nat × Raw × List Raw :=
  let args := if args.head? == some ['-', '-'] then args.drop 1 else args
  match args with
  | [] => (2, [], ["usage: printf format [arg ...]".toList])
  | format :: args =>
    let p := printRounds format (args.length + 1) { args }
    (p.status, p.out, p.faults)

/-- The numbers from `low` to `high` in steps. -/
def steps (low step high : Int) : List Int :=
  if step = 0 then []
  else
    let count := Int.fdiv (high - low) step
    if count < 0 then []
    else (List.range (count.toNat + 1)).map fun (k : Nat) => low + step * Int.ofNat k

/-- The tool `seq`, for whole numbers. -/
def seq (args : List Raw) : Printed :=
  let (separator, args) :=
    match args with
    | ['-', 's'] :: sep :: args => (sep, args)
    | ('-' :: 's' :: sep) :: args => (sep, args)
    | args => (['\n'], args)
  match args.mapM Raw.toInt? with
  | some [high] => print separator (steps 1 1 high)
  | some [low, high] => print separator (steps low 1 high)
  | some [low, step, high] => print separator (steps low step high)
  | _ => { status := 1, err := "seq: invalid argument\n".toList }
where
  /-- Numbers with a separator between them and a line end behind them. -/
  print (separator : Raw) (ns : List Int) : Printed :=
    { out := if ns.isEmpty then [] else Text.joinWith separator (ns.map Raw.ofInt) ++ ['\n'] }

end Shell

end TestRepair
