import TestRepair.Shell.Raw

/-!
What a shell script says, once its words and its commands have been told apart. Words keep what is
to be put in for variables and other commands, and which of their characters are quoted.
-/

namespace TestRepair

namespace Shell

/-- What is done with the value of a variable before it is put in. -/
inductive Modifier
  | none
  /-- The word in place of an absent value; with a colon also in place of an empty one. -/
  | default (colon : Bool)
  /-- As `default`, and the variable is set to the word. -/
  | assign (colon : Bool)
  /-- The word in place of a value that is there. -/
  | alternative (colon : Bool)
  /-- A complaint about an absent value. -/
  | complain (colon : Bool)
  /-- The value without a part at its end that the word is a pattern for. -/
  | dropEnd (longest : Bool)
  /-- The value without a part at its beginning that the word is a pattern for. -/
  | dropStart (longest : Bool)
  | length
  /-- Anything else, which is refused only when it is carried out. -/
  | unknown
  deriving DecidableEq, Repr

/-- Where a stream is turned to. -/
inductive Turn
  | read
  /-- From the text itself. -/
  | here
  | write
  | append
  /-- To where another stream goes. -/
  | like
  deriving DecidableEq, Repr

/-- A stream that is turned away from where it went. -/
structure Redirect (α : Type) where
  stream : Nat
  turn : Turn
  target : α

mutual

/-- A part of a word. -/
inductive Part
  | text (quoted : Bool) (s : Raw)
  | variable (quoted : Bool) (name : Raw) (modifier : Modifier) (word : List Part)
  /-- What a command prints. -/
  | output (quoted : Bool) (body : Command)
  /-- The value of a sum. -/
  | sum (quoted : Bool) (body : List Part)

/-- A command. -/
inductive Command
  | nothing
  | simple (line : Nat) (assignments : List (Raw × List Part)) (words : List (List Part))
    (redirects : List (Redirect (List Part)))
  | sequence (first second : Command)
  /-- The second command if the first one succeeds. -/
  | both (first second : Command)
  /-- The second command if the first one fails. -/
  | either (first second : Command)
  | pipe (first second : Command)
  | negated (body : Command)
  | background (body : Command)
  /-- A command in a shell of its own. -/
  | apart (body : Command)
  | redirected (body : Command) (redirects : List (Redirect (List Part)))
  | branch (test yes no : Command)
  /-- A loop as long as the test succeeds, or fails if `until`. -/
  | loop (untilTrue : Bool) (test body : Command)
  | each (name : Raw) (items : Option (List (List Part))) (body : Command)
  | choose (word : List Part) (arms : List (List (List Part) × Command))
  | define (name : Raw) (body : Command)

end

/-- A word. -/
abbrev Word := List Part

end Shell

end TestRepair
