/-!
Places in a YAML text. Blocks are told by their columns and keys by their lines, so a place knows
both beside the text that is left.
-/

namespace TestRepair

namespace Yaml

/-- A place in a text. -/
structure Spot where
  rest : List Char
  column : Nat := 0
  line : Nat := 0
  deriving DecidableEq, Repr

def isBlank (c : Char) : Bool := c == ' ' || c == '\t'

def isBreak (c : Char) : Bool := c == '\n' || c == '\u2028' || c == '\u2029'

/-- Whether a blank, the end of the line or the end of the text comes next. -/
def isApart : List Char → Bool
  | [] => true
  | c :: _ => isBlank c || isBreak c

/-- Whether three characters stand apart here: the line that begins or ends a document. -/
def isMark (mark : List Char) (s : List Char) : Bool := mark.isPrefixOf s && isApart (s.drop 3)

def startMark : List Char := ['-', '-', '-']

def endMark : List Char := ['.', '.', '.']

/-- Whether a line that begins or ends a document starts here. -/
def isDocumentMark (column : Nat) (s : List Char) : Bool :=
  column == 0 && (isMark startMark s || isMark endMark s)

/-- Passes blanks, line breaks and comments. Tabs count as blanks only behind something on the same
line, unless `tabs` keeps them allowed. -/
def skipFrom (keep : Bool) : (tabs comment : Bool) → (column line : Nat) → List Char → Spot
  | _, _, column, line, [] => ⟨[], column, line⟩
  | tabs, comment, column, line, c :: rest =>
    if isBreak c then skipFrom keep keep false 0 (line + 1) rest
    else if comment then skipFrom keep tabs true (column + 1) line rest
    else if c == ' ' || (c == '\t' && tabs) || (c == '\ufeff' && column == 0) then
      skipFrom keep tabs false (column + 1) line rest
    else if c == '#' then skipFrom keep tabs true (column + 1) line rest
    else ⟨c :: rest, column, line⟩

namespace Spot

/-- The place after the next `n` characters of the same line. -/
def advance (n : Nat) (p : Spot) : Spot := { p with rest := p.rest.drop n, column := p.column + n }

/-- Passes blanks, line breaks and comments between blocks. -/
def skip (tabs : Bool) (p : Spot) : Spot := skipFrom false tabs false p.column p.line p.rest

/-- Passes blanks, line breaks and comments between brackets. -/
def skipInside (p : Spot) : Spot := skipFrom true true false p.column p.line p.rest

def skipBlanks (p : Spot) : Spot := p.advance (p.rest.takeWhile isBlank).length

def atEnd (p : Spot) : Bool := p.rest.isEmpty || isDocumentMark p.column p.rest

def atItem (p : Spot) : Bool :=
  match p.rest with
  | '-' :: rest => isApart rest
  | _ => false

/-- Whether the value of a block mapping's key follows here. -/
def atValue (p : Spot) : Bool :=
  match p.rest with
  | ':' :: rest => isApart rest
  | _ => false

/-- The most characters from the start of a key to its colon. -/
def keyLimit : Nat := 1024

/-- Whether what stands between two places can be a key: it is short and on one line. -/
def spansKey (p q : Spot) : Bool := p.line == q.line && q.column ≤ p.column + keyLimit

end Spot

end Yaml

end TestRepair
