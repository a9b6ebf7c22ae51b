import OscalValidation.Conversion.Registry
import OscalValidation.Rules.Artifact
import OscalValidation.Session.Configuration
import OscalValidation.Summaries.Repository
import OscalValidation.Validation.Service

set_option autoImplicit false

/-! # Sessions

A session holds what one run of the program works with: the configuration and the converters.
Everything else follows from the configuration.
-/

namespace OscalValidation

/-- **A session.** -/
structure Session where
  configuration : Configuration
  registry : Registry

namespace Session

def create (library : SchemaLibrary) (c : Configuration) (files : FileTree) :
    Except ArtifactFault Session :=
  match c.conversionDirectory with
  | none => .ok ⟨c, .bundled⟩
  | some directory => (Registry.load library files directory).map fun registry => ⟨c, registry⟩

def rules (session : Session) : ArtifactSource := .ofBase session.configuration.rulesBase

def content (session : Session) : ArtifactSource := .ofBase session.configuration.contentBase

def engine (session : Session) : RuleEngine Storage RuleArtifact :=
  artifactEngine session.rules session.configuration.ruleArtifactPattern

/-- The severity policy. A failure without a role blocks. -/
def policy (session : Session) : SeverityPolicy :=
  .ofRoles session.configuration.blockingRoles true

/-- **The service that validates documents** with a rule engine. -/
def serviceWith {σ α : Type} (session : Session) (engine : RuleEngine σ α) :
    ValidationService σ α where
  registry := session.registry
  engine := engine
  content := session.content
  usualRuleset := session.configuration.ruleset
  policy := session.policy

/-- The service with the engine of rule artifacts. -/
def service (session : Session) : ValidationService Storage RuleArtifact :=
  session.serviceWith session.engine

/-- Where the sources of rules are. -/
def schematron (session : Session) : ArtifactSource :=
  .ofBase session.configuration.schematronDirectory.text

/-- Where the sources of tests are. -/
def xspec (session : Session) : ArtifactSource :=
  .ofBase session.configuration.xspecDirectory.text

def repository (session : Session) : SummaryRepository :=
  ⟨.ofBase session.configuration.summaryDirectory.text⟩

end Session

end OscalValidation
