/-!
YAML values before anything is known about what they stand for. A scalar keeps its text; only one
that stands without quotes can be more than a text.
-/

namespace TestRepair

/-- A YAML value. -/
inductive Yaml
  | scalar (plain : Bool) (text : String)
  | sequence (items : List Yaml)
  | mapping (entries : List (Yaml × Yaml))

namespace Yaml

/-- What stands where nothing is written. -/
def empty : Yaml := scalar true ""

end Yaml

end TestRepair
