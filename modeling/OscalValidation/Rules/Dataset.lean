import OscalValidation.Files.Source
import OscalValidation.Rules.Engine

set_option autoImplicit false

/-! # Reference datasets

Rules look up baselines and registered values in datasets, of which each ruleset has its own.
-/

namespace OscalValidation

/-- The datasets of a ruleset: the parameter that rules know each by, and its name. -/
def Ruleset.datasets (ruleset : Ruleset) : List (String × String) :=
  [("baselines-base-path", s!"{ruleset.key}/baselines/xml"),
    ("registry-base-path", s!"{ruleset.key}/resources/xml")]

/-- **The parameters of rules:** where the datasets of the ruleset are. -/
def ArtifactSource.parameters (content : ArtifactSource) (ruleset : Ruleset) : Parameters :=
  ruleset.datasets.map fun (parameter, name) => (parameter, content.resolve name)

/-- The warnings about datasets that are not there. -/
def ArtifactSource.datasetWarnings (content : ArtifactSource) (files : FileTree)
    (ruleset : Ruleset) : Except FileFault (List String) := do
  let warnings ← ruleset.datasets.mapM fun (_, name) => do
    let warns := (← content.exists? files name) == some false
    return if warns then some s!"Reference dataset not found: {content.resolve name}" else none
  return warnings.filterMap id

end OscalValidation
