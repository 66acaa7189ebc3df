import TestRepair.Dictionary
import TestRepair.Text.Case
import TestRepair.Text.Cursor

/-!
The opening tag of a piece of markup: its name and its attributes, names in lower case.
-/

namespace TestRepair

namespace Markup

open Text Recogniser

/-- The first character of the name of an attribute. -/
def isNameStart (c : Char) : Bool := c.isAlpha || c == '_' || c == ':'

def isNameChar (c : Char) : Bool := isWord c || c == ':' || c == '.' || c == '-'

def isBareChar (c : Char) : Bool := !isBlank c && !"\"'=<>`".toList.contains c

def quotedValue (quote : Char) : Recogniser (List Char) := do
  literal [quote]
  let value ← run (· != quote)
  literal [quote]
  pure value

/-- Whether a name can start at a place. If the characters before it hold the beginning of a name
that goes on here, what could be read from here has been tried from that beginning. -/
def mayStartName (c : Cursor) : Bool :=
  c.after.head?.any isNameStart &&
    !(c.before.find? fun x => isNameStart x || !isNameChar x).any isNameStart

def nameAndValue : Recogniser (List Char × List Char) := do
  require mayStartName
  let first ← one isNameStart
  let others ← run isNameChar
  let _ ← run isBlank
  literal ['=']
  let _ ← run isBlank
  let value ← firstOf [quotedValue '"', quotedValue '\x27', run1 isBareChar]
  pure (first :: others, value)

/-- The attributes of the opening tag; the last of several with one name counts. -/
def attributes (markup : String) : Dictionary String String :=
  let opening := markup.toList.takeWhile (· != '>')
  Dictionary.ofList <| (nameAndValue.occurrences opening).map fun o =>
    (String.ofList (asciiLower o.value.1), String.ofList o.value.2)

/-- The beginning of an opening tag, with its name. -/
def tagName : Recogniser (List Char) := do
  let _ ← run isBlank
  literal ['<']
  let first ← one Char.isAlpha
  let others ← run fun c => isWord c || c == '-'
  pure (first :: others)

/-- The name of the opening tag, in lower case. -/
def tag? (markup : String) : Option String :=
  (tagName.parse? markup.toList).map fun name => String.ofList (asciiLower name)

end Markup

end TestRepair
