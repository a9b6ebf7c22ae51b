import OscalValidation.Rules.Dataset
import OscalValidation.Rules.Gateway
import OscalValidation.Rules.Location
import OscalValidation.Validation.Preparation

set_option autoImplicit false

/-! # Validation

A document that could be prepared is judged by the rules of its type and ruleset, which the
gateway supplies. Each outcome of the rules becomes an assertion with the line of the node it
is about, and the policy says whether the assertions make the document fail. A document that
could not be prepared is malformed, and no rules are asked.
-/

namespace OscalValidation

variable {σ α : Type}

/-- **What validation works with.** -/
structure ValidationService (σ α : Type) where
  registry : Registry
  engine : RuleEngine σ α
  content : ArtifactSource
  /-- The ruleset where none is asked for. -/
  usualRuleset : Ruleset
  policy : SeverityPolicy

/-- What changes from one validation to the next. -/
structure ValidationState (σ α : Type) where
  gateway : Gateway α
  engine : σ

/-- The outcomes of the rules of a key for a document. -/
def evaluateRules (engine : RuleEngine σ α) (content : ArtifactSource) (key : RuleKey)
    (document : Xml.Document) (state : ValidationState σ α) :
    Except ValidationFault (List Outcome) × ValidationState σ α :=
  let (result, gateway, inner) := state.gateway.load engine state.engine key
  match result with
  | some (.loaded handle) =>
      let (outcomes, inner) :=
        engine.evaluate handle document (content.parameters key.ruleset) inner
      (outcomes.mapError .engine, ⟨gateway, inner⟩)
  | some (.failed fault) => (.error (.engine fault), ⟨gateway, inner⟩)
  | some .cancelled | none => (.error .cancelled, ⟨gateway, inner⟩)

/-- The assertions of outcomes about a document. -/
def assertionsOf (document : Xml.Document) (outcomes : List Outcome) :
    Except ValidationFault (List Assertion) :=
  outcomes.mapM fun outcome => do
    let line ← (Location.line document outcome.location).mapError .location
    return ⟨outcome, line.map Int.ofNat⟩

namespace ValidationService

/-- The result for a prepared document. -/
def judge (service : ValidationService σ α) (key : RuleKey) (document : Xml.Document)
    (state : ValidationState σ α) :
    Except ValidationFault ValidationResult × ValidationState σ α :=
  let (outcomes, state) := evaluateRules service.engine service.content key document state
  let result := do
    let assertions ← assertionsOf document (← outcomes)
    return .ofAssertions (some key.type) key.ruleset service.policy assertions
  (result, state)

/-- **The result of validating a document.** -/
def validate (service : ValidationService σ α) (input : DocumentInput)
    (request : ValidationRequest) (state : ValidationState σ α) :
    Except ValidationFault ValidationResult × ValidationState σ α :=
  match prepare service.registry service.usualRuleset input request with
  | .error fault => (.error fault, state)
  | .ok (.malformed result) => (.ok result, state)
  | .ok (.ready key document) => service.judge key document state

/-- The result of validating a file; its name says nothing about its content. -/
def validateFile (service : ValidationService σ α) (files : FileTree) (path : Path)
    (request : ValidationRequest) (state : ValidationState σ α) :
    Except ValidationFault ValidationResult × ValidationState σ α :=
  match files.read path with
  | .error fault => (.error (.file fault), state)
  | .ok content =>
      service.validate (.bytes content)
        { request with representation := Representation.ofBytes? content } state

end ValidationService

end OscalValidation
