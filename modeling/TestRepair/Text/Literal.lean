import TestRepair.Text.Cursor

/-!
String literals of scripts: quoting a text between quote characters, finding where a literal ends,
and undoing escapes one kind after the other.
-/

namespace TestRepair.Text

def quotes : List Char := ['\x27', '"', '\x60']

/-- The text as it stands inside a literal: backslashes and the quote itself get a backslash. -/
def escapeFor (quote : Char) (s : List Char) : List Char :=
  s.flatMap fun c => if c = '\\' then ['\\', '\\'] else if c = quote then ['\\', quote] else [c]

/-- The text as a literal. -/
def literalOf (quote : Char) (s : List Char) : List Char := quote :: escapeFor quote s ++ [quote]

/-- What stands up to the closing quote, and what follows it. A backslash takes the next character
of the line with it. -/
def literalBody? (quote : Char) : List Char → Option (List Char × List Char)
  | [] => none
  | [c] => if c = quote then some ([], []) else none
  | c :: d :: s =>
    if c = '\\' then
      if d = '\n' then none
      else (literalBody? quote s).map fun (body, rest) => (c :: d :: body, rest)
    else if c = quote then some ([], d :: s)
    else (literalBody? quote (d :: s)).map fun (body, rest) => (c :: body, rest)

/-- Reads on over the body of a literal and its closing quote. -/
def literalBody (quote : Char) : Recogniser (List Char) := fun c =>
  (literalBody? quote c.after).map fun (body, rest) =>
    (body, ⟨quote :: body.reverse ++ c.before, rest⟩)

/-- Removes the backslash in front of every `c`. -/
def unescapeChar (c : Char) (s : List Char) : List Char := replaceAll ['\\', c] [c] s

/-- Removes the backslashes in front of single quotes, double quotes and backslashes, in this
order. -/
def unescape (s : List Char) : List Char :=
  unescapeChar '\\' (unescapeChar '"' (unescapeChar '\x27' s))

/-- Removes the backslashes in front of the three quote characters. -/
def unescapeQuotes (s : List Char) : List Char :=
  unescapeChar '\x60' (unescapeChar '"' (unescapeChar '\x27' s))

end TestRepair.Text
