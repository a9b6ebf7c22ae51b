import OscalValidation.Document.Type
import OscalValidation.Json.Basic
import OscalValidation.Validation.Policy

set_option autoImplicit false

/-! # Results of validation

A document passes unless an assertion blocks it. A document that could not be brought into the
structural representation is malformed; it has diagnostics and no assertions.
-/

namespace OscalValidation

/-- **The verdict on a document.** -/
inductive Verdict
  | pass
  | fail
  /-- It could not be judged by rules. -/
  | malformed
deriving DecidableEq

def Verdict.name : Verdict → String
  | .pass => "pass"
  | .fail => "fail"
  | .malformed => "malformed"

/-- The name of a verdict in capitals. -/
def Verdict.heading : Verdict → String
  | .pass => "PASS"
  | .fail => "FAIL"
  | .malformed => "MALFORMED"

/-- **The result of validating a document** against a ruleset. -/
structure ValidationResult where
  verdict : Verdict
  /-- The type of the document, as far as it is known. -/
  type : Option DocumentType
  ruleset : Ruleset
  /-- The assertions, in the order of the engine. -/
  assertions : List Assertion
  diagnostics : List String
deriving DecidableEq

namespace ValidationResult

/-- The result for a document that is malformed. -/
def ofDiagnostics (type : Option DocumentType) (ruleset : Ruleset) (diagnostics : List String) :
    ValidationResult :=
  ⟨.malformed, type, ruleset, [], diagnostics⟩

/-- The result for a document that was judged: it fails if some assertion blocks it. -/
def ofAssertions (type : Option DocumentType) (ruleset : Ruleset) (policy : SeverityPolicy)
    (assertions : List Assertion) : ValidationResult :=
  ⟨if assertions.any policy.blocks then .fail else .pass, type, ruleset, assertions, []⟩

def passed (result : ValidationResult) : Bool := result.verdict == .pass

def failures (result : ValidationResult) : List Assertion :=
  result.assertions.filter fun a => !a.passed

/-- The number of assertions that are no failures. -/
def reportCount (result : ValidationResult) : Nat :=
  result.assertions.length - result.failures.length

end ValidationResult

/-! ## As object documents -/

def Assertion.toJson (a : Assertion) : Json :=
  .obj [("id", .ofText? a.outcome.id), ("message", .str a.outcome.message),
    ("role", .ofText? a.outcome.role), ("location", .ofText? a.outcome.location),
    ("line", match a.line with
      | some line => .int line
      | none => .null),
    ("kind", .str a.outcome.kind.name), ("test", .ofText? a.outcome.test),
    ("passed", .bool a.passed)]

def ValidationResult.members (result : ValidationResult) : List (String × Json) :=
  [("outcome", .str result.verdict.name),
    ("document-type", .ofText? (result.type.map DocumentType.tag)),
    ("ruleset", .str result.ruleset.key),
    ("summary", .obj [("total", .ofNat result.assertions.length),
      ("failed", .ofNat result.failures.length), ("passed", .ofNat result.reportCount)]),
    ("diagnostics", .ofTexts result.diagnostics),
    ("assertions", .arr (result.assertions.map Assertion.toJson))]

/-- **The result as an object document.** -/
def ValidationResult.toJson (result : ValidationResult) : Json := .obj result.members

/-- The report on a result: where the document came from, when the report was made, and the
result itself. -/
def ValidationResult.report (result : ValidationResult) (source : Option String)
    (generated : String) : Json :=
  .obj (("report_metadata", .obj [("source", .ofText? source), ("generated", .str generated),
    ("generator", .str "oscalcheck validation reporter")]) :: result.members)

end OscalValidation
