import TestRepair.Proofs.Assistant.Fences
import TestRepair.Proofs.Trial.Account

/-!
An assistant that sends back the script it was asked to rewrite. Its reply is read as that very
script, so nothing has changed and the trial ends instead of running the script again.
-/

namespace TestRepair
namespace Trial

open AssistantReply Text

variable {σ : Type} {env : Surroundings σ} {s : Setup} {p : Progress} {w w₁ : World σ}
  {d : Diagnosis} {log text : String}

/-- The last character is a line feed, and no blank stands before it. -/
def EndsInOneFeed (script : String) : Prop :=
  ∃ body c, script.toList = body ++ [c, '\n'] ∧ isBlank c = false

theorem EndsInOneFeed.trimEnd_append {script : String} (h : EndsInOneFeed script) :
    trimEnd script.toList ++ ['\n'] = script.toList := by
  obtain ⟨body, c, split, ink⟩ := h
  have feed : Blank ['\n'] := by decide
  rw [split, List.append_cons body c, trimEnd_append_blank feed,
    trimEnd_append_of_getLast? (w := [c]) rfl ink]

/-- What an assistant is asked when a failure of the script is to be repaired. -/
def question (s : Setup) (p : Progress) (d : Diagnosis) (log : String) : RewriteRequest :=
  .ofDiagnosis p.script d log s.settings.assistant.maxLogChars.toNat

/-- The repair that consists of a script from the assistant. -/
def rewritten (script : String) : Repair :=
  { script, description := "rewrote script with the authoring assistant" }

theorem step_of_reply (hp : p.phase = .repairing d log) (hd : Repair.needsAssistant d.kind = true)
    (hn : env.noticed w.state = false)
    (reply : (env.consult (question s p d log) w.state).1 = .replied text)
    {script : String} (read : code? text = some script) :
    step env s p w = (afterRepair p d (rewritten script),
      ⟨(env.consult (question s p d log) w.state).2, w.tree⟩) := by
  have mended : mend env s p.script p.ledger d log w =
      (some ⟨rewritten script, p.ledger, w.tree⟩,
        ⟨(env.consult (question s p d log) w.state).2, w.tree⟩) := by
    unfold question at reply
    simp only [mend, hn, Bool.false_eq_true, if_false, Repair.repair?, hd, if_true, reply,
      Repair.ofConsultation?, read, Option.map_some, Repair.report]
    rfl
  have next : step env s p w = repair env s p d log w := by simp only [step, hp]
  rw [next, repair, mended]

theorem afterRepair_rewritten (p : Progress) (d : Diagnosis) :
    afterRepair p d (rewritten p.script) = p.finish .noFix (some (noFixNote d (rewritten p.script))) := by
  have nothing : changesAnything p.script (rewritten p.script) = false := by
    simp [changesAnything, rewritten]
  simp only [afterRepair, nothing, Bool.false_eq_true, if_false]

/-- A trial ends with the first step after which it has ended. -/
theorem run_of_step {n : Nat} {p' : Progress} {w' : World σ} {e : Ending}
    (moment : steps env s n (Progress.start s) w = (p, w₁)) (last : step env s p w₁ = (p', w'))
    (ended : p'.phase = .done e) : run env s w = (p', w') := by
  have enough : stepLimit s ≤ n + (stepLimit s + 1) := by omega
  rw [← steps_of_stepLimit_le env s w enough, steps_add, moment, steps_of_step last,
    steps_done env s ended]

/-- The first block of a reply is read as it stands. So where an assistant sends back a script that
ends in one line feed, the trial ends with that script and without a further run. -/
theorem firstBlock_kept {prose tag code : String} (h : FirstBlock prose tag code) (tail : String) :
    code? (withBlock prose tag code tail) =
        some (String.ofList (trimEnd code.toList ++ ['\n'])) ∧
      ∀ {σ : Type} (env : Surroundings σ) (s : Setup) (w w₁ : World σ) (n : Nat) (p : Progress)
        (d : Diagnosis) (log : String), steps env s n (Progress.start s) w = (p, w₁) →
        p.phase = .repairing d log → Repair.needsAssistant d.kind = true →
        env.noticed w₁.state = false → p.script = code → EndsInOneFeed code →
        (env.consult (question s p d log) w₁.state).1 = .replied (withBlock prose tag code tail) →
        (run env s w).1 = p.finish .noFix (some (noFixNote d (rewritten code))) ∧
          (run env s w).2.tree = w₁.tree := by
  have read := code?_of_firstBlock h tail
  refine ⟨read, ?_⟩
  rintro σ env s w w₁ n p d log moment hp hd hn rfl feed reply
  rw [feed.trimEnd_append, String.ofList_toList] at read
  have last := step_of_reply hp hd hn reply read
  rw [afterRepair_rewritten] at last
  rw [run_of_step moment last rfl]
  exact ⟨rfl, rfl⟩

/-- A runner that always fails in one way, and an assistant that finds nothing to change. -/
def echoing : Surroundings Unit where
  execute _ _ t := (.ok { success := false, log := "TypeError: page is undefined" }, (), t)
  consult r _ := (.replied (withBlock "Nothing to change:\n" "ts" r.script "\nGood luck"), ())
  cancelled _ := false

def clicking : Setup where
  settings := {}
  request := { script := "await page.click('#a');\n", workDir := ⟨"/"⟩ }

/-- The trial when the assistant is asked. -/
def asked : Progress × World Unit := steps echoing clicking 2 (Progress.start clicking) ⟨(), .empty⟩

def undefinedPage : Diagnosis where
  kind := .typeError
  matched := "TypeError: page is undefined"
  context := "TypeError: page is undefined"

theorem clicking_kept :
    code? (withBlock "Nothing to change:\n" "ts" "await page.click('#a');\n" "\nGood luck") =
        some "await page.click('#a');\n" ∧
      asked.1.phase = .repairing undefinedPage "TypeError: page is undefined" ∧
      (run echoing clicking ⟨(), .empty⟩).1 =
        asked.1.finish .noFix (some (noFixNote undefinedPage (rewritten "await page.click('#a');\n"))) ∧
      (run echoing clicking ⟨(), .empty⟩).2.tree = asked.2.tree := by
  have tagged : "ts".toList.all Char.isAlphanum = true := by decide
  have first : FirstBlock "Nothing to change:\n" "ts" "await page.click('#a');\n" :=
    ⟨by decide +kernel, fun c hc => .inl (List.all_eq_true.mp tagged c hc), by decide,
      ⟨by decide +kernel, by decide⟩⟩
  have feed : EndsInOneFeed "await page.click('#a');\n" :=
    ⟨"await page.click('#a')".toList, ';', by decide, by decide⟩
  obtain ⟨script, phase⟩ : asked.1.script = "await page.click('#a');\n" ∧
      asked.1.phase = .repairing undefinedPage "TypeError: page is undefined" := by decide +kernel
  have reply : (echoing.consult
      (question clicking asked.1 undefinedPage "TypeError: page is undefined") asked.2.state).1 =
        .replied (withBlock "Nothing to change:\n" "ts" "await page.click('#a');\n" "\nGood luck") := by
    simp only [echoing, question, RewriteRequest.ofDiagnosis, script]
  obtain ⟨read, ends⟩ := firstBlock_kept first "\nGood luck"
  rw [feed.trimEnd_append, String.ofList_toList] at read
  exact ⟨read, phase, ends echoing clicking ⟨(), .empty⟩ asked.2 2 asked.1 undefinedPage _ rfl phase
    rfl rfl script feed reply⟩

end Trial
end TestRepair
