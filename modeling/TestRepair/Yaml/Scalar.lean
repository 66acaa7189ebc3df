import TestRepair.Json.Reader
import TestRepair.Yaml.Spot

/-!
YAML scalars: plain ones, which end where the context says, and quoted ones. A scalar may go over
several lines; one line break in it counts as a space, and of several the first does not count.
-/

namespace TestRepair

namespace Yaml

/-- Blanks and line breaks that are kept only if more of the scalar follows. -/
structure Gap where
  blanks : List Char := []
  /-- The line breaks that count. -/
  breaks : List Char := []
  /-- Whether a line has ended. -/
  broken : Bool := false
  /-- Whether the first line break is written with a backslash and so does not count at all. -/
  joined : Bool := false

namespace Gap

/-- Whether nothing is pending. -/
def isEmpty (g : Gap) : Bool := g.blanks.isEmpty && !g.broken

/-- Adds a blank; at the beginning of a line it does not count. -/
def addBlank (g : Gap) (c : Char) : Gap := if g.broken then g else { g with blanks := g.blanks ++ [c] }

def addBreak (g : Gap) (c : Char) : Gap :=
  if g.joined && !g.broken then { g with broken := true }
  else { g with blanks := [], breaks := g.breaks ++ [c], broken := true }

def text (g : Gap) : List Char :=
  if !g.broken then g.blanks
  else if g.joined then g.breaks
  else
    match g.breaks with
    | ['\n'] => [' ']
    | '\n' :: breaks => breaks
    | breaks => breaks

end Gap

def isFlowMark (c : Char) : Bool := [',', '[', ']', '\x7b', '\x7d'].contains c

def endsPlain (flow : Bool) : List Char → Bool
  | [] => true
  | c :: rest => (c == ':' && isApart rest) || (flow && isFlowMark c)

/-- Whether a colon stands here that is neither part of a plain scalar nor behind a key. -/
def isStrayColon (flow : Bool) : List Char → Bool
  | ':' :: c :: _ => flow && (isFlowMark c || c == '?')
  | _ => false

/-- Whether a plain scalar ends between its words: before a comment, a line that begins or ends a
document, or a line that is not far enough to the right. -/
def endsBetween (flow : Bool) (least : Nat) (gap : Gap) (column : Nat) (s : List Char) : Bool :=
  !gap.isEmpty &&
    (s.head? == some '#' || isDocumentMark column s || (gap.broken && !flow && column < least))

/-- The text of a plain scalar and the place after it and the blanks behind it. -/
def plainFrom (flow : Bool) (least : Nat) :
    (gap : Gap) → (done : List Char) → (column line : Nat) → List Char → Option (List Char × Spot)
  | _, done, column, line, [] => some (done, ⟨[], column, line⟩)
  | gap, done, column, line, c :: rest =>
    if isBlank c then
      if gap.broken && c == '\t' && column < least then none
      else plainFrom flow least (gap.addBlank c) done (column + 1) line rest
    else if isBreak c then plainFrom flow least (gap.addBreak c) done 0 (line + 1) rest
    else if endsBetween flow least gap column (c :: rest) then some (done, ⟨c :: rest, column, line⟩)
    else if isStrayColon flow (c :: rest) then none
    else if endsPlain flow (c :: rest) then some (done, ⟨c :: rest, column, line⟩)
    else plainFrom flow least {} (done ++ gap.text ++ [c]) (column + 1) line rest

def isIndicator (c : Char) : Bool := "-?:,[]\x7b\x7d#&*!|>\x27\"%@\x60".toList.contains c

def startsPlain (flow : Bool) : List Char → Bool
  | [] => false
  | c :: rest =>
    (!isApart [c] && !isIndicator c) || (c == '-' && !rest.head?.any isBlank) ||
      (!flow && (c == '?' || c == ':') && !isApart rest)

def plain? (flow : Bool) (least : Nat) (p : Spot) : Option (List Char × Spot) :=
  if startsPlain flow p.rest then plainFrom flow least {} [] p.column p.line p.rest else none

/-- The text between single quotes, in which a quote is written twice, and the place after it. -/
def singleFrom : (skip : Nat) → (gap : Gap) → (done : List Char) → (column line : Nat) →
    List Char → Option (List Char × Spot)
  | _, _, _, _, _, [] => none
  | skip + 1, gap, done, column, line, _ :: rest => singleFrom skip gap done (column + 1) line rest
  | 0, gap, done, column, line, c :: rest =>
    if isDocumentMark column (c :: rest) then none
    else if isBlank c then singleFrom 0 (gap.addBlank c) done (column + 1) line rest
    else if isBreak c then singleFrom 0 (gap.addBreak c) done 0 (line + 1) rest
    else if c != '\x27' then singleFrom 0 {} (done ++ gap.text ++ [c]) (column + 1) line rest
    else if rest.head? == some '\x27' then
      singleFrom 1 {} (done ++ gap.text ++ ['\x27']) (column + 1) line rest
    else some (done ++ gap.text, ⟨rest, column + 1, line⟩)

/-- The character that a letter behind a backslash stands for. -/
def shortEscape? : Char → Option Char
  | '0' => some '\x00'
  | 'a' => some '\x07'
  | 'b' => some '\x08'
  | 't' => some '\t'
  | '\t' => some '\t'
  | 'n' => some '\n'
  | 'v' => some '\x0b'
  | 'f' => some '\x0c'
  | 'r' => some '\r'
  | 'e' => some '\x1b'
  | ' ' => some ' '
  | '"' => some '"'
  | '/' => some '/'
  | '\\' => some '\\'
  | 'N' => some '\u0085'
  | '_' => some '\u00a0'
  | 'L' => some '\u2028'
  | 'P' => some '\u2029'
  | _ => none

/-- The character with a number, if there is one. -/
def charOfNumber? (n : Nat) : Option Char := if n.isValidChar then some (Char.ofNat n) else none

def hexNumber? (ds : List Char) : Option Nat :=
  ds.foldlM (fun n c => (Json.hexValue? c).map (16 * n + ·)) 0

/-- How many hexadecimal digits follow a letter behind a backslash. -/
def hexLength? : Char → Option Nat
  | 'x' => some 2
  | 'u' => some 4
  | 'U' => some 8
  | _ => none

/-- The character that is written behind a backslash, and how many characters it takes. -/
def escape? : List Char → Option (Char × Nat)
  | [] => none
  | c :: rest =>
    match hexLength? c with
    | none => (shortEscape? c).map (·, 1)
    | some n =>
      if rest.length < n then none
      else ((hexNumber? (rest.take n)).bind charOfNumber?).map (·, n + 1)

/-- The text between double quotes, in which backslashes count, and the place after it. -/
def doubleFrom : (skip : Nat) → (gap : Gap) → (done : List Char) → (column line : Nat) →
    List Char → Option (List Char × Spot)
  | _, _, _, _, _, [] => none
  | skip + 1, gap, done, column, line, _ :: rest => doubleFrom skip gap done (column + 1) line rest
  | 0, gap, done, column, line, c :: rest =>
    if isDocumentMark column (c :: rest) then none
    else if isBlank c then doubleFrom 0 (gap.addBlank c) done (column + 1) line rest
    else if isBreak c then doubleFrom 0 (gap.addBreak c) done 0 (line + 1) rest
    else
      let done := done ++ gap.text
      if c == '"' then some (done, ⟨rest, column + 1, line⟩)
      else if c != '\\' then doubleFrom 0 {} (done ++ [c]) (column + 1) line rest
      else if rest.head?.any isBreak then
        doubleFrom 0 { joined := true } done (column + 1) line rest
      else
        match escape? rest with
        | none => none
        | some (e, n) => doubleFrom n {} (done ++ [e]) (column + 1) line rest

end Yaml

end TestRepair
