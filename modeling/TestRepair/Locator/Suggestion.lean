import TestRepair.Locator.Candidate
import TestRepair.Text.Literal

/-!
Selectors that the runner itself suggests, as in `aka getByTestId('x')`. A builder call becomes the
engine selector of the same meaning.
-/

namespace TestRepair

namespace Suggestion

open Text Recogniser

/-- The calls in which a suggestion may be written. -/
inductive Method
  | testId
  | placeholder
  | label
  | altText
  | title
  | text
  | role
  | locator
  deriving DecidableEq, Repr

def Method.name : Method → String
  | testId => "getByTestId"
  | placeholder => "getByPlaceholder"
  | label => "getByLabel"
  | altText => "getByAltText"
  | title => "getByTitle"
  | text => "getByText"
  | role => "getByRole"
  | locator => "locator"

def Method.all : List Method :=
  [testId, placeholder, label, altText, title, text, role, locator]

/-- The rest of the line up to its last closing parenthesis, which is read as well. -/
def argumentsOnLine : Recogniser (List Char) := fun c =>
  (splitLast? ')' (c.after.takeWhile (· != '\n'))).map fun (args, rest) =>
    (args, ⟨')' :: args.reverse ++ c.before, rest ++ c.after.dropWhile (· != '\n')⟩)

/-- A suggestion: the word `aka`, a method and its arguments. -/
def mention : Recogniser (Method × List Char) := do
  boundary
  literal "aka".toList
  let _ ← run1 isBlank
  let method ← firstOf (Method.all.map fun m => do literal (m.name.toList ++ ['(']); pure m)
  let args ← argumentsOnLine
  pure (method, args)

/-- The value of the first argument, if it is a literal, and what follows it. -/
def firstLiteral? (args : List Char) : Option (List Char × List Char) :=
  match trimStart args with
  | [] => none
  | quote :: s =>
    if quotes.contains quote then
      (literalBody? quote s).map fun (body, rest) => (unescapeQuotes body, rest)
    else none

def nameOption : Recogniser (List Char) := do
  literal "name:".toList
  let _ ← run isBlank
  firstOf [do literal ['\x27']; literalBody '\x27', do literal ['"']; literalBody '"']

/-- A value with a backslash before every `quote`. -/
def escapeQuote (quote : Char) (s : List Char) : List Char := replaceAll [quote] ['\\', quote] s

/-- A selector for elements with an attribute of the given value. -/
def attributeSelector (name : String) (value : List Char) : List Char :=
  '[' :: name.toList ++ "='".toList ++ escapeQuote '\x27' value ++ "']".toList

def textSelector (value : List Char) : List Char :=
  "text=\"".toList ++ escapeQuote '"' value ++ ['"']

/-- The selector that a suggested call means, if its first argument is a literal. -/
def selector? (method : Method) (args : List Char) : Option (List Char) := do
  let (value, rest) ← firstLiteral? args
  pure <|
    match method with
    | .testId => attributeSelector "data-testid" value
    | .placeholder => attributeSelector "placeholder" value
    | .label => attributeSelector "aria-label" value
    | .altText => attributeSelector "alt" value
    | .title => attributeSelector "title" value
    | .text => textSelector value
    | .role =>
      let role := "role=".toList ++ value
      match nameOption.first? rest with
      | some o =>
        role ++ "[name='".toList ++ escapeQuote '\x27' (unescapeQuotes o.value) ++ "']".toList
      | none => role
    | .locator => value

/-- The candidates that a log suggests, in order. -/
def ofLog (log : String) : List Candidate :=
  (mention.occurrences log.toList).filterMap fun o =>
    (selector? o.value.1 o.value.2).map fun s => { selector := String.ofList s, tier := .suggestion }

end Suggestion

end TestRepair
