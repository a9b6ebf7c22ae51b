import OscalValidation.Proofs.Attempts
import OscalValidation.Validation.Service

set_option autoImplicit false

/-! # Documents that can be judged

`Rejected` lists where a document may fail to be brought into the structural representation of its
type, and `Accepted` says that it is brought there. Preparing a document decides between the two
(`prepareDocument_malformed`, `prepareDocument_ready`).
-/

namespace OscalValidation

/-! ## The two outcomes of preparing -/

section Outcomes

variable (registry : Registry) (input : DocumentInput) (representation : Option Representation)
  (declared : Option DocumentType)

/-- **Reading, finding the type or converting fails** with the fault. -/
inductive Rejected : DocumentFault → Prop
  | unread {fault : DocumentFault}
      (read : input.parse representation = .error (.malformed fault)) : Rejected fault
  /-- It has no type, or another one than declared. -/
  | untyped {parsed : ParsedDocument} {fault : DocumentFault}
      (read : input.parse representation = .ok parsed)
      (typed : parsed.resolveType declared = .error fault) : Rejected fault
  /-- It is not of the structure of its type and cannot be converted. -/
  | unstructured {parsed : ParsedDocument} {type : DocumentType} {fault : DocumentFault}
      (read : input.parse representation = .ok parsed)
      (typed : parsed.resolveType declared = .ok type)
      (converted : parsed.toStructural registry type = .error (.malformed fault)) :
      Rejected fault

/-- **The document is or becomes a structural document** of the type. -/
inductive Accepted (type : DocumentType) (document : Xml.Document) : Prop
  /-- Reading, finding the type and converting succeed. -/
  | intro {parsed : ParsedDocument} (read : input.parse representation = .ok parsed)
      (typed : parsed.resolveType declared = .ok type)
      (converted : parsed.toStructural registry type = .ok document)

end Outcomes

section Prepare

variable {registry : Registry} {input : DocumentInput} {representation : Option Representation}
  {declared : Option DocumentType}

variable {ruleset : Ruleset}

/-- **A document is found malformed because it is rejected,** and the diagnostics tell why. -/
theorem prepareDocument_malformed {result : ValidationResult}
    (h : prepareDocument registry input declared ruleset representation =
      .ok (.malformed result)) :
    ∃ type fault, Rejected registry input representation declared fault ∧
      result = .ofDiagnostics type ruleset fault.diagnostics := by
  unfold prepareDocument at h
  dsimp only at h
  split at h
  · cases h
  · next fault hread =>
    cases h
    exact ⟨declared, fault, .unread hread, rfl⟩
  · next parsed hread =>
    split at h
    · next fault htype =>
      cases h
      exact ⟨declared, fault, .untyped hread htype, rfl⟩
    · next type htype =>
      split at h
      · cases h
      · next fault hconverted =>
        cases h
        exact ⟨some type, fault, .unstructured hread htype hconverted, rfl⟩
      · cases h

/-- Every document that is rejected is found malformed. -/
theorem prepareDocument_of_rejected {fault : DocumentFault}
    (h : Rejected registry input representation declared fault) :
    ∃ type, prepareDocument registry input declared ruleset representation =
      .ok (.malformed (.ofDiagnostics type ruleset fault.diagnostics)) := by
  cases h with
  | unread read => exact ⟨declared, by simp [prepareDocument, read]⟩
  | untyped read typed => exact ⟨declared, by simp [prepareDocument, read, typed]⟩
  | @unstructured _ type _ read typed converted =>
      exact ⟨some type, by simp [prepareDocument, read, typed, converted]⟩

/-- **A document is ready because it is accepted.** -/
theorem prepareDocument_ready {key : RuleKey} {document : Xml.Document}
    (h : prepareDocument registry input declared ruleset representation =
      .ok (.ready key document)) :
    Accepted registry input representation declared key.type document ∧
      key.ruleset = ruleset := by
  unfold prepareDocument at h
  dsimp only at h
  split at h
  · cases h
  · cases h
  · next parsed hread =>
    split at h
    · cases h
    · next type htype =>
      split at h
      · cases h
      · cases h
      · next hconverted =>
        cases h
        exact ⟨⟨hread, htype, hconverted⟩, rfl⟩

end Prepare

namespace ValidationService

variable {σ α : Type}

/-- **The service cannot judge the document** because of the fault. -/
def Rejects (service : ValidationService σ α) (input : DocumentInput)
    (request : ValidationRequest) (fault : DocumentFault) : Prop :=
  ∃ declared, parseTag? DocumentType.parse request.type = .ok declared ∧
    Rejected service.registry input request.representation declared fault

/-- **The service judges the structural document** by the rules of the key. -/
def Prepares (service : ValidationService σ α) (input : DocumentInput)
    (request : ValidationRequest) (key : RuleKey) (document : Xml.Document) : Prop :=
  ∃ declared ruleset, parseTag? DocumentType.parse request.type = .ok declared ∧
    parseTag? Ruleset.parse request.ruleset = .ok ruleset ∧
    key.ruleset = ruleset.getD service.usualRuleset ∧
    Accepted service.registry input request.representation declared key.type document

/-- A document that the service cannot judge is found malformed, if the ruleset is known. -/
theorem Rejects.prepare_eq {service : ValidationService σ α} {input : DocumentInput}
    {request : ValidationRequest} {fault : DocumentFault} {ruleset : Option Ruleset}
    (h : service.Rejects input request fault)
    (hr : parseTag? Ruleset.parse request.ruleset = .ok ruleset) :
    ∃ type, prepare service.registry service.usualRuleset input request =
      .ok (.malformed (.ofDiagnostics type (ruleset.getD service.usualRuleset)
        fault.diagnostics)) := by
  obtain ⟨declared, hdeclared, hrejected⟩ := h
  obtain ⟨type, hprepared⟩ := prepareDocument_of_rejected hrejected
  refine ⟨type, bind_eq_ok_iff.mpr ⟨ruleset, mapError_eq_ok_iff.mpr hr, ?_⟩⟩
  exact bind_eq_ok_iff.mpr ⟨declared, mapError_eq_ok_iff.mpr hdeclared, hprepared⟩

/-- A document that the service judges is prepared for the rules of the key. -/
theorem Prepares.prepare_eq {service : ValidationService σ α} {input : DocumentInput}
    {request : ValidationRequest} {key : RuleKey} {document : Xml.Document}
    (h : service.Prepares input request key document) :
    prepare service.registry service.usualRuleset input request = .ok (.ready key document) := by
  obtain ⟨type, ruleset⟩ := key
  obtain ⟨declared, asked, hdeclared, hruleset, hkey, read, typed, converted⟩ := h
  refine bind_eq_ok_iff.mpr ⟨asked, mapError_eq_ok_iff.mpr hruleset, ?_⟩
  refine bind_eq_ok_iff.mpr ⟨declared, mapError_eq_ok_iff.mpr hdeclared, ?_⟩
  obtain rfl : ruleset = asked.getD service.usualRuleset := hkey
  simp [prepareDocument, read, typed, converted]

/-- What preparing a document for the service comes to. -/
theorem prepare_cases (service : ValidationService σ α) (input : DocumentInput)
    (request : ValidationRequest) :
    (∃ fault, prepare service.registry service.usualRuleset input request = .error fault) ∨
    (∃ type ruleset fault, service.Rejects input request fault ∧
      prepare service.registry service.usualRuleset input request =
        .ok (.malformed (.ofDiagnostics type ruleset fault.diagnostics))) ∨
    ∃ key document, service.Prepares input request key document ∧
      prepare service.registry service.usualRuleset input request =
        .ok (.ready key document) := by
  cases h : prepare service.registry service.usualRuleset input request with
  | error fault => exact Or.inl ⟨fault, rfl⟩
  | ok preparation =>
      obtain ⟨ruleset, hruleset, hrest⟩ := bind_eq_ok_iff.mp h
      obtain ⟨declared, hdeclared, hprepared⟩ := bind_eq_ok_iff.mp hrest
      rw [mapError_eq_ok_iff] at hruleset hdeclared
      right
      cases preparation with
      | malformed result =>
          obtain ⟨type, fault, hrejected, rfl⟩ := prepareDocument_malformed hprepared
          exact Or.inl ⟨type, _, fault, ⟨declared, hdeclared, hrejected⟩, rfl⟩
      | ready key document =>
          obtain ⟨haccepted, hkey⟩ := prepareDocument_ready hprepared
          exact Or.inr ⟨key, document,
            ⟨declared, ruleset, hdeclared, hruleset, hkey, haccepted⟩, rfl⟩

end ValidationService

end OscalValidation
