import OscalValidation.Document.Type
import OscalValidation.Rules.Outcome
import OscalValidation.Text.Template
import OscalValidation.Xml.Tree
import OscalValidation.Xml.Writable

set_option autoImplicit false

/-! # Rule engines

A rule engine makes a rule artifact ready once and evaluates documents with it. What it keeps
for itself is a state that it hands on from call to call.
-/

namespace OscalValidation

/-- **A rule key** selects one rule artifact. -/
structure RuleKey where
  type : DocumentType
  ruleset : Ruleset
deriving DecidableEq, Inhabited

/-- The key as it is written. -/
def RuleKey.text (key : RuleKey) : String := s!"{key.type.tag}/{key.ruleset.key}"

/-- **Why rules could not judge a document.** -/
inductive EngineFault
  /-- The rule artifact cannot be read. -/
  | unreadable (location reason : String)
  /-- The rule artifact is no rules. -/
  | invalid (location reason : String)
  | brokenOff (reason : String)
  /-- An engine tells its own reason. -/
  | reported (message : String)
  /-- The pattern of the names of artifacts has no text for the key. -/
  | naming (fault : Text.TemplateFault)
  /-- The root of the rules has a prefix that is not declared. -/
  | undeclaredPrefix (nsPrefix : Option String)
  /-- The text of a parameter is none that rules can be told. -/
  | parameter (fault : Xml.MarkupFault)
deriving DecidableEq

namespace EngineFault

def message : EngineFault → String
  | unreadable location reason => s!"Could not load rule artifact {location}: {reason}"
  | invalid location reason => s!"Could not compile rule artifact {location}: {reason}"
  | brokenOff reason => s!"Rule evaluation failed: {reason}"
  | reported message => message
  | naming fault => fault.message
  | undeclaredPrefix none => "None"
  | undeclaredPrefix (some p) => Text.quoted p
  | parameter fault => fault.message

/-- The fault is one that engines report; the others are faults of the configuration. -/
def isReported : EngineFault → Bool
  | naming _ | undeclaredPrefix _ | parameter _ => false
  | _ => true

end EngineFault

/-- How a load ends. -/
inductive LoadResult (α : Type)
  | loaded (handle : α)
  /-- It could not be made ready. -/
  | failed (fault : EngineFault)
  | cancelled
deriving Inhabited

/-- The handle of a load that succeeded. -/
def LoadResult.handle? {α : Type} : LoadResult α → Option α
  | loaded handle => some handle
  | _ => none

/-- The names of the datasets and where they are, as rules are told. -/
abbrev Parameters := List (String × String)

/-- **A rule engine** with a state of type `σ` and handles of type `α`. -/
structure RuleEngine (σ α : Type) where
  /-- Makes an artifact ready; no result means that the load goes on. -/
  load : RuleKey → σ → Option (LoadResult α) × σ
  evaluate : α → Xml.Document → Parameters → σ → Except EngineFault (List Outcome) × σ

end OscalValidation
