import TestRepair.Text.Search

/-!
Texts as a shell sees them: bytes. A byte is written as the character with its number, so a shell's
text is a list of characters of which none is above 255, and nothing is lost where bytes do not spell
characters.
-/

namespace TestRepair

/-- Bytes, each as the character with its number. -/
abbrev Raw := List Char

namespace Raw

/-- Bytes as a shell sees them. -/
def ofBytes (bytes : ByteArray) : Raw := bytes.toList.map fun b => Char.ofNat b.toNat

/-- The bytes that a shell's text stands for. -/
def bytes (s : Raw) : ByteArray := ⟨(s.map fun c => UInt8.ofNat c.toNat).toArray⟩

/-- The bytes of a text. -/
def ofString (s : String) : Raw := ofBytes s.toUTF8

/-- The text that bytes spell. -/
def toString? (s : Raw) : Option String := String.fromUTF8? s.bytes

def ofNat (n : Nat) : Raw := (toString n).toList

/-- The decimal digits of a number, with a sign if it is negative. -/
def ofInt (n : Int) : Raw := (toString n).toList

def toNat? (s : Raw) : Option Nat :=
  if s.isEmpty || !s.all Char.isDigit then none
  else some (s.foldl (fun n c => 10 * n + (c.toNat - '0'.toNat)) 0)

/-- The number that decimal digits with an optional sign spell. -/
def toInt? : Raw → Option Int
  | '-' :: ds => (toNat? ds).map fun n => -Int.ofNat n
  | '+' :: ds => (toNat? ds).map Int.ofNat
  | ds => (toNat? ds).map Int.ofNat

/-- The lines of a text without their ends; what follows the last end counts if there is anything. -/
def lines (s : Raw) : List Raw :=
  let ls := Text.splitAtChar '\n' s
  if ls.getLast? == some [] then ls.dropLast else ls

def unlines (ls : List Raw) : Raw := ls.flatMap (· ++ ['\n'])

end Raw

end TestRepair
