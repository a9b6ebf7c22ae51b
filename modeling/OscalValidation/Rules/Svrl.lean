import OscalValidation.Rules.Outcome
import OscalValidation.Text.Blank
import OscalValidation.Xml.Tree

set_option autoImplicit false

/-! # Validation reports

A rule engine's report is a structural document. Its failed asserts and successful reports,
wherever they stand, are the outcomes, in document order across both kinds.
-/

namespace OscalValidation.Svrl

def uri : String := "http://purl.oclc.org/dsdl/svrl"

/-- The kind of outcome that an element reports, if it reports one. -/
def kindOf? (tag : Xml.Tag) : Option OutcomeKind :=
  if tag.name.denotes uri "failed-assert" then some .assert
  else if tag.name.denotes uri "successful-report" then some .report
  else none

/-- The message of an outcome: its first text with blanks made uniform, nothing without one. -/
def messageOf (e : Xml.Element) : String :=
  match e.child? uri "text" with
  | some text => Text.normalizeSpace text.textContent
  | none => ""

/-- The outcome that an element reports. -/
def outcomeOf (kind : OutcomeKind) (e : Xml.Element) : Outcome where
  kind := kind
  id := e.attribute? "id"
  role := e.attribute? "role"
  location := e.attribute? "location"
  test := e.attribute? "test"
  message := messageOf e

/-- **The outcomes of a report.** -/
def outcomes (report : Xml.Element) : List Outcome :=
  (report.node.select fun tag => (kindOf? tag).isSome).filterMap fun e =>
    (kindOf? e.tag).map fun kind => outcomeOf kind e

end OscalValidation.Svrl
