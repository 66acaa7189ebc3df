import TestRepair.Failure.Kind
import TestRepair.Text.Cursor
import TestRepair.Text.Lines

/-!
Reading a runner's log. A table of signatures is walked in order; the first row with an occurrence
that its guard accepts decides. A diagnosis shows the text that was recognised, the lines around it
and, where one is named there or elsewhere in the log, a place in the sources.
-/

namespace TestRepair

/-- What a log says about a failed run. -/
structure Diagnosis where
  kind : FailureKind
  /-- The text that the deciding signature recognised. -/
  matched : String
  /-- The lines of the log around it. -/
  context : String
  /-- The source file the log points at. -/
  file : Option String := none
  /-- The line of that file. -/
  line : Option UInt32 := none
  deriving DecidableEq, Repr

/-- One row of a table: a recognised text stands for a kind of failure. -/
structure Signature where
  kind : FailureKind
  pattern : Text.Recogniser Unit
  /-- When given, it has to occur in the lines around the recognised text as well. -/
  guard : Option (Text.Recogniser Unit) := none

/-- A place in a source file. -/
structure SourceLine where
  file : List Char
  line : UInt32
  deriving DecidableEq, Repr

namespace SourceLine

open Text Recogniser

def extensions : List (List Char) :=
  [".ts".toList, ".tsx".toList, ".js".toList, ".jsx".toList, ".mjs".toList, ".cjs".toList]

/-- A character of a path as logs write it. -/
def isPathChar (c : Char) : Bool :=
  isWord c || c == '@' || c == '.' || c == '~' || c == '/' || c == '\\' || c == '-'

/-- Whether a path has a source ending after one character at least. -/
def isSourcePath (path : List Char) : Bool :=
  let backwards := path.reverse
  extensions.any fun ext => (rest? ext.reverse backwards).any fun stem => !stem.isEmpty

/-- A path to a source file: the longest run of path characters. -/
def path : Recogniser Unit := do
  let read ← run isPathChar
  if isSourcePath read then pure () else failure

def drive : Recogniser Unit := do
  let _ ← one Char.isAlpha
  literal [':']

/-- Where a mention can start. Inside a run of path characters nothing starts that could not have
started before, except a drive, and what follows the digits that end another mention. -/
def mayStart (c : Cursor) : Bool :=
  match c.before, c.after with
  | x :: _, y :: after =>
    !isPathChar x || (isDigit x && !isDigit y) || after.head? == some ':'
  | _, _ => true

/-- A file, a colon and the digits of a line; a colon and a column may follow. -/
def mention : Recogniser (List Char × List Char) := do
  require mayStart
  let file ← withText ((do drive; path) <|> path)
  literal [':']
  let digits ← run1 isDigit
  (do literal [':']; let _ ← run1 isDigit; pure ()) <|> pure ()
  pure (file, digits)

/-- The line number that ASCII digits denote, if it fits. -/
def lineNumber? (digits : List Char) : Option UInt32 :=
  if digits.all Char.isDigit then
    let n := digits.foldl (fun n c => 10 * n + (c.toNat - '0'.toNat)) 0
    if n < UInt32.size then some (UInt32.ofNat n) else none
  else none

/-- The usable mentions of source lines in a text, in order. -/
def all (s : List Char) : List SourceLine :=
  (mention.occurrences s).filterMap fun o => (lineNumber? o.value.2).map (⟨o.value.1, ·⟩)

def isDependency (l : SourceLine) : Bool := Text.occursIn "node_modules".toList l.file

/-- The first mention of a project file, else the first mention. -/
def best? (s : List Char) : Option SourceLine :=
  ((all s).find? fun l => !l.isDependency) <|> (all s).head?

end SourceLine

namespace Signature

open Text

/-- How many lines are shown on each side of the recognised text. -/
def contextRadius : Nat := 3

/-- The lines around the place where an occurrence starts. -/
def contextAt (log : List Char) (o : Occurrence Unit) : List Char :=
  window (lines log) (lineFeeds o.start.before) contextRadius

def admits (row : Signature) (log : List Char) (o : Occurrence Unit) : Bool :=
  match row.guard with
  | none => true
  | some guard => guard.occursIn (contextAt log o)

/-- The first occurrence that the row accepts. -/
def find? (row : Signature) (log : List Char) : Option (Occurrence Unit) :=
  (row.pattern.occurrences log).find? (row.admits log)

end Signature

namespace Diagnosis

def ofOccurrence (kind : FailureKind) (log : List Char) (o : Text.Occurrence Unit) : Diagnosis :=
  let context := Signature.contextAt log o
  let place := SourceLine.best? context <|> SourceLine.best? log
  { kind
    matched := String.ofList o.text
    context := String.ofList context
    file := place.map (String.ofList ·.file)
    line := place.map (·.line) }

/-- What the first row with an accepted occurrence says about a log. -/
def ofLog? (table : List Signature) (log : String) : Option Diagnosis :=
  table.findSome? fun row => (row.find? log.toList).map (ofOccurrence row.kind log.toList)

end Diagnosis

end TestRepair
