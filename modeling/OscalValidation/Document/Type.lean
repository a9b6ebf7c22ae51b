import OscalValidation.Json.Printer
import OscalValidation.Text.Blank
import OscalValidation.Text.LowerCase

set_option autoImplicit false

/-! # Document types and rulesets

Four types of documents are judged, each with a root element, a title and a place on the
rules site of its own, and two rulesets are judged by. Both are named by tags, which are read
without regard to case and to blanks around them. A tag may come from outside as any value;
only a text can name something.
-/

namespace OscalValidation

def oscalNamespace : String := "http://csrc.nist.gov/ns/oscal/1.0"

/-! ## Document types -/

/-- **The document types.** -/
inductive DocumentType
  | ssp
  | sap
  | sar
  | poam
deriving DecidableEq, Inhabited

namespace DocumentType

/-- All document types, in the order in which they are reported. -/
def all : List DocumentType := [ssp, sap, sar, poam]

def tag : DocumentType → String
  | ssp => "ssp"
  | sap => "sap"
  | sar => "sar"
  | poam => "poam"

def rootName : DocumentType → String
  | ssp => "system-security-plan"
  | sap => "assessment-plan"
  | sar => "assessment-results"
  | poam => "plan-of-action-and-milestones"

/-- The name of a type in addresses. -/
def slug : DocumentType → String
  | ssp => "system-security-plan"
  | sap => "security-assessment-plan"
  | sar => "security-assessment-report"
  | poam => "plan-of-action-and-milestones"

def title : DocumentType → String
  | ssp => "System Security Plan"
  | sap => "Security Assessment Plan"
  | sar => "Security Assessment Report"
  | poam => "Plan of Action and Milestones"

/-- The name of a type's model, as in the names of its conversion artifacts. -/
def model : DocumentType → String
  | ssp => "ssp"
  | sap => "assessment-plan"
  | sar => "assessment-results"
  | poam => "poam"

/-- The file with the rules for converting documents of the type. -/
def conversionArtifact (type : DocumentType) : String :=
  s!"oscal_{type.model}_json-to-xml-converter.json"

/-- The type whose documents have a root of that name. -/
def ofRootName? (name : String) : Option DocumentType := all.find? (·.rootName == name)

end DocumentType

/-! ## Rulesets -/

/-- **The rulesets.** -/
inductive Ruleset
  | rev4
  | rev5
deriving DecidableEq, Inhabited

namespace Ruleset

def all : List Ruleset := [rev4, rev5]

def key : Ruleset → String
  | rev4 => "rev4"
  | rev5 => "rev5"

end Ruleset

/-! ## Tags -/

/-- A tag as it is compared. -/
def normalizeTag (s : String) : String := Text.lowerCase (Text.trim s)

/-- A tag that names nothing. -/
inductive UnknownTag
  | documentType (tag : Json)
  | ruleset (key : Json)

/-- The wording for a tag that names nothing. -/
def UnknownTag.message : UnknownTag → String
  | .documentType tag => s!"Unsupported document type: {tag.shown}"
  | .ruleset key => s!"Unsupported ruleset: {key.shown}"

/-- The document type that a text names. -/
def DocumentType.ofTag? (s : String) : Option DocumentType :=
  DocumentType.all.find? (·.tag == normalizeTag s)

/-- The ruleset that a text names. -/
def Ruleset.ofKey? (s : String) : Option Ruleset := Ruleset.all.find? (·.key == normalizeTag s)

/-- **The document type that a tag names.** -/
def DocumentType.parse (tag : Json) : Except UnknownTag DocumentType :=
  match tag.text?.bind ofTag? with
  | some type => .ok type
  | none => .error (.documentType tag)

/-- **The ruleset that a key names.** -/
def Ruleset.parse (key : Json) : Except UnknownTag Ruleset :=
  match key.text?.bind ofKey? with
  | some ruleset => .ok ruleset
  | none => .error (.ruleset key)

end OscalValidation
