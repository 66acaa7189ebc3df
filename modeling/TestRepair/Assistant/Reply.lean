import TestRepair.Text.Cursor
import TestRepair.Text.Lines

/-!
Taking a script out of a free-form reply. The first fenced block counts; without one, the whole reply
counts if it reads like code.
-/

namespace TestRepair

namespace AssistantReply

open Text Recogniser

def fence : List Char := ['\x60', '\x60', '\x60']

/-- What stands before the first `pat`, and what follows it. -/
def before? (pat : List Char) : List Char → Option (List Char × List Char)
  | [] => if pat.isEmpty then some ([], []) else none
  | c :: s =>
    match rest? pat (c :: s) with
    | some rest => some ([], rest)
    | none => (before? pat s).map fun (b, rest) => (c :: b, rest)

def isTagChar (c : Char) : Bool := isWord c || c == '+' || c == '.' || c == '-'

/-- A fenced block: a fence with a tag on its line, code, and the next fence. -/
def fencedBlock : Recogniser (List Char) := do
  literal fence
  let _ ← run isTagChar
  let _ ← run fun c => c == ' ' || c == '\t'
  optional ['\r']
  literal ['\n']
  fun c => (before? fence c.after).map fun (code, rest) =>
    (code, ⟨fence ++ code.reverse ++ c.before, rest⟩)

def anchors : List (List Char) :=
  ["import ", "test(", "await ", "export ", "describe("].map String.toList

def codeEnds : List (List Char) := [[';'], ['\x7b'], ['\x7d']]

def codeStarts : List (List Char) :=
  ["//", "import ", "const ", "let ", "await "].map String.toList

def isCodeLine (line : List Char) : Bool :=
  codeEnds.any (endsWith · line) || codeStarts.any (startsWith · line)

/-- Whether a text reads like code: it holds an anchor, and at least half of its lines are code. -/
def readsLikeCode (text : List Char) : Bool :=
  let ls := ((lines text).map trim).filter (!·.isEmpty)
  !ls.isEmpty && anchors.any (Text.occursIn · text) &&
    ls.length ≤ 2 * (ls.filter isCodeLine).length

/-- The script that a reply holds, with one line feed at its end. -/
def script? (reply : List Char) : Option (List Char) :=
  match fencedBlock.first? reply with
  | some block =>
    let code := trimEnd block.value
    if (trim code).isEmpty then none else some (code ++ ['\n'])
  | none => if readsLikeCode reply then some (trim reply ++ ['\n']) else none

def code? (reply : String) : Option String := (script? reply.toList).map String.ofList

end AssistantReply

end TestRepair
