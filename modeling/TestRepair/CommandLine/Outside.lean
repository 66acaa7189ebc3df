import TestRepair.Assistant.Endpoint
import TestRepair.Runner

/-!
What the program meets outside: the runner of its settings, and the assistant of its settings. No
network is at hand, so an assistant with a usable address can be asked but never answers.
-/

namespace TestRepair

namespace CommandLine

def consult (s : AssistantSettings) : Consultation :=
  match Endpoint.checkSettings s with
  | .ok address => .failed (.unsent address)
  | .error _ => .failed .disabled

/-- Runner and assistant of the settings; nobody cancels. -/
def outside (env : Dictionary String String) (s : Settings) : Surroundings Unit where
  execute inv _ t :=
    let (result, t) := Runner.execute s.runner env (Runner.limitOf inv) false inv t
    (result, (), t)
  consult _ _ := (CommandLine.consult s.assistant, ())
  cancelled _ := false

end CommandLine

end TestRepair
