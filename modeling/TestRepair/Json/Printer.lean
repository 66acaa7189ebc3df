import TestRepair.Json.Value

/-!
Writing JSON text, either without any blanks or with one member or item on each line. Only quotes,
backslashes and control characters are escaped.
-/

namespace TestRepair

namespace Json

def fourHex (n : Nat) : List Char :=
  let ds := Nat.toDigits 16 n
  List.replicate (4 - ds.length) '0' ++ ds

def writeChar (c : Char) : List Char :=
  if c == '"' then ['\\', '"']
  else if c == '\\' then ['\\', '\\']
  else if c == '\n' then ['\\', 'n']
  else if c == '\r' then ['\\', 'r']
  else if c == '\t' then ['\\', 't']
  else if c == '\x08' then ['\\', 'b']
  else if c == '\x0c' then ['\\', 'f']
  else if c.toNat < 32 then '\\' :: 'u' :: fourHex c.toNat
  else [c]

def writeString (s : String) : List Char := '"' :: s.toList.flatMap writeChar ++ ['"']

def writeNumber : JsonNumber → List Char
  | .whole negative n => (if negative then ['-'] else []) ++ Nat.toDigits 10 n
  | .fraction negative m e =>
    (if negative then ['-'] else []) ++ Nat.toDigits 10 m ++
      match e with
      | .ofNat e => 'e' :: Nat.toDigits 10 e
      | .negSucc e => 'e' :: '-' :: Nat.toDigits 10 (e + 1)

mutual

def write : Json → List Char
  | null => "null".toList
  | bool true => "true".toList
  | bool false => "false".toList
  | num n => writeNumber n
  | str s => writeString s
  | brokenStr => "\"\\ud800\"".toList
  | arr [] => "[]".toList
  | arr (j :: js) => '[' :: write j ++ writeItems js
  | obj [] => ['\x7b', '\x7d']
  | obj ((k, j) :: ms) => '\x7b' :: writeString k ++ ':' :: write j ++ writeMembers ms

/-- The items after the first one, and the closing bracket. -/
def writeItems : List Json → List Char
  | [] => [']']
  | j :: js => ',' :: write j ++ writeItems js

/-- The members after the first one, and the closing brace. -/
def writeMembers : List (String × Json) → List Char
  | [] => ['\x7d']
  | (k, j) :: ms => ',' :: writeString k ++ ':' :: write j ++ writeMembers ms

end

/-- A line break and the blanks before what stands `depth` levels deep. -/
def newline (depth : Nat) : List Char := '\n' :: List.replicate (2 * depth) ' '

mutual

/-- A value laid out over lines, `depth` levels deep. -/
def layout (depth : Nat) : Json → List Char
  | arr [] => "[]".toList
  | arr (j :: js) => '[' :: newline (depth + 1) ++ layout (depth + 1) j ++ layoutItems depth js
  | obj [] => ['\x7b', '\x7d']
  | obj ((k, j) :: ms) =>
    '\x7b' :: newline (depth + 1) ++ writeString k ++ ": ".toList ++ layout (depth + 1) j ++
      layoutMembers depth ms
  | null => "null".toList
  | bool true => "true".toList
  | bool false => "false".toList
  | num n => writeNumber n
  | str s => writeString s
  | brokenStr => write brokenStr

/-- The items after the first one, each on its line, and the closing bracket. -/
def layoutItems (depth : Nat) : List Json → List Char
  | [] => newline depth ++ [']']
  | j :: js => ',' :: newline (depth + 1) ++ layout (depth + 1) j ++ layoutItems depth js

/-- The members after the first one, each on its line, and the closing brace. -/
def layoutMembers (depth : Nat) : List (String × Json) → List Char
  | [] => newline depth ++ ['\x7d']
  | (k, j) :: ms =>
    ',' :: newline (depth + 1) ++ writeString k ++ ": ".toList ++ layout (depth + 1) j ++
      layoutMembers depth ms

end

def compact (j : Json) : String := String.ofList (write j)

def pretty (j : Json) : String := String.ofList (layout 0 j)

end Json

end TestRepair
