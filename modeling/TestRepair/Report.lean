import TestRepair.Locator.Candidate
import TestRepair.Text.Case
import TestRepair.Text.Decimal
import TestRepair.Text.Printable
import TestRepair.Trial.Record

/-!
Texts for people: how a trial went, what a log was found to say, which candidates there are, and the
environment of a run without its secrets.
-/

namespace TestRepair

namespace Report

def fixLine (f : FixRecord) : String :=
  let files := if f.filesTouched.isEmpty then "" else
    " (files: " ++ ", ".intercalate f.filesTouched ++ ")"
  "  #" ++ toString f.attempt.toNat ++ " " ++ f.kind.code ++ ": " ++ f.description ++ files ++ "\n"

def ofResult (r : TrialResult) : String :=
  let heading := (if r.success then "PASSED" else "FAILED") ++ " after " ++
    toString r.attempts.toNat ++ " attempt" ++ (if r.attempts = 1 then "" else "s") ++
    " [" ++ r.ending.code ++ "]\n"
  let stopped := (r.note.map fun note => "Stopped: " ++ note ++ "\n").getD ""
  heading ++ String.join (r.fixes.map fixLine) ++ stopped

def ofDiagnosis (d : Diagnosis) : String :=
  let place :=
    match d.file, d.line with
    | some file, some line => "at " ++ file ++ ":" ++ toString line.toNat ++ "\n"
    | some file, none => "at " ++ file ++ "\n"
    | none, _ => ""
  d.kind.code ++ " (" ++ d.kind.description ++ ")\nmatched: " ++
    String.ofList (Text.shown d.matched.toList) ++ "\n" ++ place ++ "---\n" ++ d.context ++ "\n"

/-- One line for a candidate with its number in the list. -/
def candidateLine (number : Nat) (c : Candidate) : String :=
  let score := (c.score.map fun x => " score=" ++ String.ofList (Text.twoPlaces x)).getD ""
  let reason := (c.reason.map fun r => " - " ++ r).getD ""
  "[" ++ toString number ++ "] " ++ c.selector ++ " (" ++ c.tier.label ++ ")" ++ score ++ reason ++
    "\n"

def ofCandidates (cs : List Candidate) : String :=
  String.join (cs.zipIdx.map fun (c, i) => candidateLine (i + 1) c)

def secretWords : List String := ["password", "secret", "token", "key", "credential"]

/-- Whether a variable holds a secret, by its name. -/
def isSecret (name : String) : Bool :=
  secretWords.any fun word => Text.occursIn word.toList (Text.lowercase name.toList)

def mask : String := "••••••••"

/-- The value of a variable as it may be shown. -/
def shownValue (name value : String) : String := if isSecret name then mask else value

/-- The environment of a run, a line for each variable, by name. -/
def ofEnv (env : Dictionary String String) : String :=
  let sorted := env.entries.mergeSort fun a b => decide (a.1 ≤ b.1)
  "\n".intercalate (sorted.map fun e => e.1 ++ "=" ++ shownValue e.1 e.2)

end Report

end TestRepair
