import TestRepair.Json.Codec
import TestRepair.Yaml.Reader

/-!
What a YAML value stands for depends on what is expected in its place: a plain `5` is a number where
a number is expected and a text where a text is. A shape says what is expected; with it a value turns
into one that needs no further knowledge.
-/

namespace TestRepair

namespace Yaml

/-- What is expected in the place of a value. -/
inductive Shape
  | text
  | number
  /-- A text, or a word or nothing for its absence. -/
  | textOrNothing
  | texts
  | record (fields : List (String × Shape))

/-- Reads digits of a base. -/
def digits? (base : Nat) (s : List Char) : Option Nat :=
  if s.isEmpty then none
  else
    s.foldlM (fun n c =>
      (Json.hexValue? c).bind fun d => if d < base then some (base * n + d) else none) 0

/-- Whether digits begin with a zero that says nothing; such a scalar is a text. -/
def hasIdleZero : List Char → Bool
  | '0' :: c :: rest => (c :: rest).all Char.isDigit
  | _ => false

/-- The number that a plain scalar spells, in base ten or with `0x`, `0o` or `0b` before it. -/
def number? (s : String) : Option Nat :=
  let s := match s.toList with
    | '+' :: rest => rest
    | s => s
  match s with
  | '0' :: 'x' :: rest => digits? 16 rest
  | '0' :: 'o' :: rest => digits? 8 rest
  | '0' :: 'b' :: rest => digits? 2 rest
  | s => if hasIdleZero s then none else digits? 10 s

def nothingWords : List String := ["", "~", "null", "Null", "NULL"]

def text? : Yaml → Option String
  | scalar _ s => some s
  | _ => none

/-- Turns a value into what is expected in its place, if that is no record. -/
def leaf? : Shape → Yaml → Option Json
  | .text, y => (text? y).map .str
  | .number, scalar true s => (number? s).map Json.ofNat
  | .textOrNothing, scalar true s => some (if nothingWords.contains s then .null else .str s)
  | .textOrNothing, y => (text? y).map .str
  | .texts, sequence ys => (ys.mapM text?).map Json.ofTexts
  | .texts, scalar true "" => some (.arr [])
  | _, _ => none

mutual

/-- Turns a value into what is expected in its place. Entries that no field has the name of do not
count; a record whose every field is left out may be left out itself. -/
def shaped? (shape : Shape) : Yaml → Option Json
  | mapping es =>
    match shape with
    | .record fields => (entries? fields es).map .obj
    | _ => none
  | scalar true "" =>
    match shape with
    | .record _ => some (.obj [])
    | shape => leaf? shape empty
  | y => leaf? shape y

/-- The entries of a record that its fields have the names of. -/
def entries? (fields : List (String × Shape)) : List (Yaml × Yaml) → Option (List (String × Json))
  | [] => some []
  | (key, value) :: es => do
    let name ← text? key
    let ms ← entries? fields es
    match fields.find? (·.1 == name) with
    | none => pure ms
    | some (_, shape) =>
      let j ← shaped? shape value
      pure ((name, j) :: ms)

end

end Yaml

end TestRepair
