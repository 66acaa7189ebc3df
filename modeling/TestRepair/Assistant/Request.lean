import TestRepair.Failure.Diagnosis

/-!
What an assistant is asked: the script, why it failed, and the end of the log.
-/

namespace TestRepair

/-- The request to rewrite a script. -/
structure RewriteRequest where
  script : String
  kind : FailureKind
  context : String
  /-- The end of the log. -/
  excerpt : String
  deriving DecidableEq, Repr

namespace RewriteRequest

/-- The request for a diagnosed failure, with at most `limit` characters of the log. -/
def ofDiagnosis (script : String) (d : Diagnosis) (log : String) (limit : Nat) : RewriteRequest where
  script
  kind := d.kind
  context := d.context
  excerpt := String.ofList (Text.lastChars limit log.toList)

def fenced (text : String) : String := "```\n" ++ text ++ "\n```\n"

def prompt (r : RewriteRequest) : String :=
  "The following test script failed because " ++ r.kind.description ++ ".\n" ++
    "Return the complete corrected script in one fenced code block.\n\n" ++
    "Script:\n" ++ fenced r.script ++ "\nError context:\n" ++ fenced r.context ++
    "\nLog (tail):\n" ++ fenced r.excerpt

end RewriteRequest

/-- Why an assistant gave no reply. -/
inductive AssistantError
  | disabled
  | invalidEndpoint (reason : String)
  /-- The address is not one that a request can be sent to. -/
  | unsent (address : String)
  | status (code : Nat) (body : String)
  | emptyResponse
  deriving DecidableEq, Repr

namespace AssistantError

def message : AssistantError → String
  | disabled => "Authoring assistant is not configured"
  | invalidEndpoint reason => "Invalid assistant endpoint: " ++ reason
  | unsent address =>
    "Assistant request failed: builder error for url (" ++ address ++
      "): URL scheme is not allowed"
  | status code body => "Assistant returned " ++ toString code ++ ": " ++ body
  | emptyResponse => "Assistant returned no content"

end AssistantError

end TestRepair
