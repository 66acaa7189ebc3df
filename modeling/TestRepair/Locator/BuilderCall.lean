import TestRepair.Failure.Signatures
import TestRepair.Text.Literal

/-!
Calls of the semantic locator builders, such as `getByRole('button')`, with arguments on one line and
parentheses at most one level deep.
-/

namespace TestRepair

namespace BuilderCall

open Text Recogniser

def isArgumentChar (c : Char) : Bool := c != '(' && c != ')' && c != '\n'

/-- Where the arguments end whose opening parenthesis has been read: the text up to and with the
closing one, and what follows. `nested` says that an inner parenthesis is open. -/
def arguments? (nested : Bool) : List Char → Option (List Char × List Char)
  | [] => none
  | c :: s =>
    if c = ')' then
      if nested then (arguments? false s).map fun (body, rest) => (c :: body, rest)
      else some ([c], s)
    else if c = '(' then
      if nested then none else (arguments? true s).map fun (body, rest) => (c :: body, rest)
    else if c = '\n' then none
    else (arguments? nested s).map fun (body, rest) => (c :: body, rest)

def arguments : Recogniser Unit := fun c =>
  (arguments? false c.after).map fun (body, rest) => ((), ⟨body.reverse ++ c.before, rest⟩)

def call : Recogniser Unit := do
  boundary
  literal "getBy".toList
  firstOf (Signature.builderSubjects.map fun subject => literal (subject ++ ['(']))
  arguments

end BuilderCall

/-- Whether a selector is written as the call of a locator builder and as nothing else. -/
def Selector.isBuilderCall (selector : String) : Bool := BuilderCall.call.accepts selector.toList

end TestRepair
