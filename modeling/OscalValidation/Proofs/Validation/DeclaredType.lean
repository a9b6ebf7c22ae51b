import OscalValidation.Proofs.Conversion.Acceptance
import OscalValidation.Proofs.Validation.Detection
import OscalValidation.Proofs.Validation.Verdicts

set_option autoImplicit false

/-! # Declared types

A caller may declare the type of a document. `Restricts` says what this can change while the
document is prepared: it is prepared as it would be without, or it is found malformed. Main
statement: with the bundled converters, declaring a type leaves a judgment as it is or refuses the
document, and a document that is malformed without a declared type is so with any
(`validate_declared`).
-/

namespace OscalValidation

/-! ## What a document shows -/

theorem DocumentType.ofRootName?_rootName (type : DocumentType) :
    ofRootName? type.rootName = some type := by
  cases type <;> decide

namespace ParsedDocument

variable {parsed : ParsedDocument} {type : DocumentType}

/-- A document that shows a type has it with that type declared, and none with another one. -/
theorem resolveType_declared (h : parsed.resolveType none = .ok type) (declared : DocumentType) :
    parsed.resolveType (some declared) =
      if declared = type then .ok declared else .error (.otherType declared type) := by
  cases hshown : parsed.shownType? with
  | none => simp [resolveType, hshown] at h
  | some shown =>
      have htype : shown = type := by simpa [resolveType, hshown] using h
      simp only [resolveType, hshown, htype]

/-- A document has no type of its own only if it shows none. -/
theorem shownType?_of_error {fault : DocumentFault} (h : parsed.resolveType none = .error fault) :
    parsed.shownType? = none := by
  cases hshown : parsed.shownType? with
  | none => rfl
  | some shown => simp [resolveType, hshown] at h

/-- An object without a root of any type has none of the roots as a member. -/
theorem lookup_of_ofJson? {members : List (String × Json)}
    (h : DocumentType.ofJson? (.obj members) = none) (type : DocumentType) :
    members.lookup type.rootName = none := by
  rw [DocumentType.ofJson?, List.findSome?_eq_none_iff] at h
  refine List.lookup_eq_none_iff.mpr fun member hmember => ?_
  rw [bne_iff_ne]
  intro heq
  have hnone := h member hmember
  rw [← heq, type.ofRootName?_rootName] at hnone
  cases hnone

/-- **A document that shows no type is of the structure of none,** and no bundled converter takes
it. -/
theorem toStructural_of_not_shown (h : parsed.shownType? = none) (type : DocumentType) :
    ∃ fault, parsed.toStructural .bundled type = .error (.malformed fault) := by
  cases parsed with
  | tree document =>
      have hroot : document.root.denotes oscalNamespace type.rootName = false := by
        by_contra hdenotes
        rw [Bool.not_eq_false, Xml.Element.denotes, Xml.Name.denotes, Bool.and_eq_true,
          beq_iff_eq, beq_iff_eq] at hdenotes
        have hnone : DocumentType.ofRootName? document.root.tag.name.localName = none := h
        rw [hdenotes.2, type.ofRootName?_rootName] at hnone
        cases hnone
      exact ⟨_, by rw [toStructural, hroot, if_neg Bool.false_ne_true]⟩
  | object value =>
      have hmember : value.member? type.rootName = none := by
        cases value with
        | obj members => exact lookup_of_ofJson? h type
        | _ => rfl
      have hconvert : (Registry.bundled.converter type).convert type value = _ :=
        Converter.convert_of_not_member hmember
      exact ⟨_, by rw [toStructural, hconvert]; rfl⟩

end ParsedDocument

/-! ## Preparing with and without a declared type -/

/-- **What declaring a type can make of a preparation:** the second attempt is with the type
declared, the first one without. -/
inductive Restricts (declared : DocumentType) :
    Except ValidationFault Preparation → Except ValidationFault Preparation → Prop
  /-- A document of the declared type is prepared the same. -/
  | kept {key : RuleKey} {document : Xml.Document} (same : declared = key.type) :
      Restricts declared (.ok (.ready key document)) (.ok (.ready key document))
  /-- A document of another type is found malformed. -/
  | refused {key : RuleKey} {document : Xml.Document} {result : ValidationResult}
      (other : declared ≠ key.type) (malformed : result.verdict = .malformed) :
      Restricts declared (.ok (.ready key document)) (.ok (.malformed result))
  | malformed {before result : ValidationResult} (already : before.verdict = .malformed)
      (malformed : result.verdict = .malformed) :
      Restricts declared (.ok (.malformed before)) (.ok (.malformed result))
  | fault {fault : ValidationFault} : Restricts declared (.error fault) (.error fault)
  /-- The document is found malformed before the fault comes up. -/
  | avoided {fault : ValidationFault} {result : ValidationResult}
      (malformed : result.verdict = .malformed) :
      Restricts declared (.error fault) (.ok (.malformed result))

section Prepare

variable {registry : Registry} {input : DocumentInput} {representation : Option Representation}
  {ruleset : Ruleset} {declared : DocumentType}

/-- **Every document that is accepted is ready.** -/
theorem prepareDocument_of_accepted {declared : Option DocumentType} {type : DocumentType}
    {document : Xml.Document}
    (h : Accepted registry input representation declared type document) :
    prepareDocument registry input declared ruleset representation =
      .ok (.ready ⟨type, ruleset⟩ document) := by
  obtain ⟨read, typed, converted⟩ := h
  simp [prepareDocument, read, typed, converted]

/-- A document ends its preparation with a fault while it is read or converted. -/
theorem prepareDocument_error {declared : Option DocumentType} {fault : ValidationFault}
    (h : prepareDocument registry input declared ruleset representation = .error fault) :
    input.parse representation = .error (.stop fault) ∨
    ∃ parsed type, input.parse representation = .ok parsed ∧
      parsed.resolveType declared = .ok type ∧
      parsed.toStructural registry type = .error (.stop fault) := by
  unfold prepareDocument at h
  dsimp only at h
  split at h
  · next hread =>
    cases h
    exact Or.inl hread
  · cases h
  · next parsed hread =>
    split at h
    · cases h
    · next type htype =>
      split at h
      · next hconverted =>
        cases h
        exact Or.inr ⟨parsed, type, hread, htype, hconverted⟩
      · cases h
      · cases h

/-- A document that shows another type than the declared one is rejected. -/
theorem rejected_of_other {parsed : ParsedDocument} {type : DocumentType}
    (read : input.parse representation = .ok parsed) (typed : parsed.resolveType none = .ok type)
    (other : declared ≠ type) :
    Rejected registry input representation (some declared) (.otherType declared type) := by
  have hother := ParsedDocument.resolveType_declared typed declared
  rw [if_neg other] at hother
  exact .untyped read hother

/-- The type that a document shows is its type with that type declared, too. -/
theorem resolveType_same {parsed : ParsedDocument} (typed : parsed.resolveType none = .ok declared) :
    parsed.resolveType (some declared) = .ok declared := by
  have hsame := ParsedDocument.resolveType_declared typed declared
  rwa [if_pos rfl] at hsame

/-- **A document that is rejected without a declared type is rejected with any.** -/
theorem Rejected.declaring {fault : DocumentFault}
    (h : Rejected .bundled input representation none fault) (declared : DocumentType) :
    ∃ fault', Rejected .bundled input representation (some declared) fault' := by
  cases h with
  | unread read => exact ⟨fault, .unread read⟩
  | @untyped parsed _ read typed =>
      -- the declared type is taken, but the document is not of its structure
      have hshown := ParsedDocument.shownType?_of_error typed
      have htyped : parsed.resolveType (some declared) = .ok declared := by
        simp only [ParsedDocument.resolveType, hshown]
      obtain ⟨fault', hconverted⟩ := ParsedDocument.toStructural_of_not_shown hshown declared
      exact ⟨fault', .unstructured read htyped hconverted⟩
  | @unstructured parsed type _ read typed converted =>
      by_cases hsame : declared = type
      · subst hsame
        exact ⟨fault, .unstructured read (resolveType_same typed) converted⟩
      · exact ⟨_, rejected_of_other read typed hsame⟩

/-- **Declaring a type keeps what a preparation comes to or makes the document malformed.** -/
theorem restricts_prepareDocument (input : DocumentInput) (representation : Option Representation)
    (ruleset : Ruleset) (declared : DocumentType) :
    Restricts declared (prepareDocument .bundled input none ruleset representation)
      (prepareDocument .bundled input (some declared) ruleset representation) := by
  have hmalformed : ∀ {fault : DocumentFault},
      Rejected .bundled input representation (some declared) fault →
      ∃ result : ValidationResult, result.verdict = .malformed ∧
        prepareDocument .bundled input (some declared) ruleset representation =
          .ok (.malformed result) := by
    intro fault hrejected
    obtain ⟨type, hprepared⟩ : ∃ type,
        prepareDocument .bundled input (some declared) ruleset representation =
          .ok (.malformed (.ofDiagnostics type ruleset fault.diagnostics)) :=
      prepareDocument_of_rejected hrejected
    exact ⟨_, rfl, hprepared⟩
  -- the cases are those of the preparation without a declared type
  cases hopen : prepareDocument .bundled input none ruleset representation with
  | error fault =>
      rcases prepareDocument_error hopen with read | ⟨parsed, type, read, typed, converted⟩
      · rw [prepareDocument, read]
        exact .fault
      · by_cases hsame : declared = type
        · subst hsame
          have hfault : prepareDocument .bundled input (some declared) ruleset representation =
              .error fault := by
            simp [prepareDocument, read, resolveType_same typed, converted]
          rw [hfault]
          exact .fault
        · obtain ⟨result, hverdict, hprepared⟩ := hmalformed (rejected_of_other read typed hsame)
          rw [hprepared]
          exact .avoided hverdict
  | ok preparation =>
      cases preparation with
      | malformed before =>
          obtain ⟨type, fault, hrejected, rfl⟩ := prepareDocument_malformed hopen
          obtain ⟨fault', hdeclared⟩ := hrejected.declaring declared
          obtain ⟨result, hverdict, hprepared⟩ := hmalformed hdeclared
          rw [hprepared]
          exact .malformed rfl hverdict
      | ready key document =>
          obtain ⟨haccepted, hruleset⟩ := prepareDocument_ready hopen
          obtain ⟨read, typed, converted⟩ := haccepted
          by_cases hsame : declared = key.type
          · have hready : prepareDocument .bundled input (some declared) ruleset representation =
                .ok (.ready key document) := by
              subst hruleset
              have htyped : _ = Except.ok declared := resolveType_same (hsame ▸ typed)
              rw [prepareDocument_of_accepted ⟨read, htyped, hsame ▸ converted⟩, hsame]
            rw [hready]
            exact .kept hsame
          · obtain ⟨result, hverdict, hprepared⟩ :=
              hmalformed (rejected_of_other read typed hsame)
            rw [hprepared]
            exact .refused hsame hverdict

/-- A caller that declares a type restricts what the preparation comes to without. -/
theorem restricts_prepare (usual : Ruleset) (input : DocumentInput) (request : ValidationRequest)
    {tag : Json} (names : DocumentType.parse tag = .ok declared) :
    Restricts declared (prepare .bundled usual input { request with type := .null })
      (prepare .bundled usual input { request with type := tag }) := by
  have htag : parseTag? DocumentType.parse tag = .ok (some declared) := by
    unfold parseTag?
    split
    · cases names
    · rw [names]
      rfl
  cases hruleset : parseTag? Ruleset.parse request.ruleset with
  | error fault =>
      simp only [prepare, hruleset]
      exact .fault
  | ok ruleset =>
      simp only [prepare, hruleset, htag]
      exact restricts_prepareDocument input request.representation (ruleset.getD usual) declared

end Prepare

/-! ## Judging with and without a declared type -/

namespace ValidationService

variable {σ α : Type}

/-- A prepared document is not found malformed, and the result tells the type it was judged as. -/
theorem judge_eq_ok {service : ValidationService σ α} {key : RuleKey} {document : Xml.Document}
    {state : ValidationState σ α} {result : ValidationResult}
    (h : (service.judge key document state).1 = .ok result) :
    result.type = some key.type ∧ result.verdict ≠ .malformed := by
  obtain ⟨outcomes, -, h⟩ := bind_eq_ok_iff.mp h
  obtain ⟨assertions, -, h⟩ := bind_eq_ok_iff.mp h
  rw [pure_eq_ok_iff] at h
  subst h
  exact ⟨rfl, (verdict_ofAssertions _ _ _ _).2⟩

/-- **The document is refused:** it is found malformed, and neither gateway nor engine have been
asked for anything. -/
def Refused (before : ValidationState (σ × List (EngineCall α)) α)
    (report : Except ValidationFault ValidationResult ×
      ValidationState (σ × List (EngineCall α)) α) : Prop :=
  ∃ result, report = (.ok result, before) ∧ result.verdict = .malformed

/-- **Declaring a type can only restrict a judgment.** A document that is judged as some type
without a declared one is judged just the same with that type declared, and refused with any other
type. A document that is malformed without a declared type is refused with any type. A validation
that ends without a result does so with a declared type, too, or the document is refused. -/
theorem validate_declared (service : ValidationService σ α) (bundled : service.registry = .bundled)
    (input : DocumentInput) (request : ValidationRequest) {tag : Json} {declared : DocumentType}
    (names : DocumentType.parse tag = .ok declared) (gateway : Gateway α) (state : σ)
    (calls : List (EngineCall α)) :
    let before : ValidationState (σ × List (EngineCall α)) α := ⟨gateway, (state, calls)⟩
    let opened := service.recording.validate input { request with type := .null } before
    let report := service.recording.validate input { request with type := tag } before
    (∀ result, opened.1 = .ok result → result.verdict ≠ .malformed →
      ∃ type, result.type = some type ∧ (declared = type → report = opened) ∧
        (declared ≠ type → Refused before report)) ∧
    (∀ result, opened.1 = .ok result → result.verdict = .malformed → Refused before report) ∧
    ∀ fault, opened.1 = .error fault → report = opened ∨ Refused before report := by
  intro before opened report
  obtain ⟨registry, engine, content, usual, policy⟩ := service
  cases bundled
  have hrestricts := restricts_prepare usual input request names
  generalize hopen : prepare .bundled usual input { request with type := .null } = without
    at hrestricts
  generalize hdeclare : prepare .bundled usual input { request with type := tag } = declaring
    at hrestricts
  have hopened : opened = _ := validate_eq _ input _ before without hopen
  have hreport : report = _ := validate_eq _ input _ before declaring hdeclare
  clear_value opened report
  -- a document that is ready either way goes through the same judgment
  cases hrestricts with
  | @kept key document same =>
      have hequal : report = opened := hreport.trans hopened.symm
      refine ⟨fun result hresult judged => ?_, fun result hresult malformed => ?_,
        fun _ _ => Or.inl hequal⟩
      · rw [hopened] at hresult
        obtain ⟨htype, -⟩ := judge_eq_ok hresult
        exact ⟨key.type, htype, fun _ => hequal, fun other => absurd same other⟩
      · rw [hopened] at hresult
        exact absurd malformed (judge_eq_ok hresult).2
  | @refused key document refusal other malformed =>
      have hrefused : Refused before report := ⟨refusal, hreport, malformed⟩
      refine ⟨fun result hresult judged => ?_, fun _ _ _ => hrefused, fun _ _ => Or.inr hrefused⟩
      rw [hopened] at hresult
      obtain ⟨htype, -⟩ := judge_eq_ok hresult
      exact ⟨key.type, htype, fun same => absurd same other, fun _ => hrefused⟩
  | @malformed unjudged refusal already malformed =>
      have hrefused : Refused before report := ⟨refusal, hreport, malformed⟩
      refine ⟨fun result hresult judged => ?_, fun _ _ _ => hrefused, fun _ _ => Or.inr hrefused⟩
      rw [hopened] at hresult
      cases hresult
      exact absurd already judged
  | fault =>
      refine ⟨fun result hresult _ => ?_, fun result hresult _ => ?_,
        fun _ _ => Or.inl (hreport.trans hopened.symm)⟩
      · rw [hopened] at hresult
        cases hresult
      · rw [hopened] at hresult
        cases hresult
  | @avoided _ refusal malformed =>
      have hrefused : Refused before report := ⟨refusal, hreport, malformed⟩
      refine ⟨fun result hresult _ => ?_, fun _ _ _ => hrefused, fun _ _ => Or.inr hrefused⟩
      rw [hopened] at hresult
      cases hresult

/-- A plan without any content, as a structural document. -/
def planTree : Xml.Document :=
  ⟨[], ⟨⟨⟨none, some oscalNamespace, "system-security-plan"⟩, [], [], none⟩, []⟩, []⟩

/-- The plan passes with its type declared, be it in capitals and with blanks around it, and is
refused with another type. -/
theorem validate_planTree :
    (DocumentType.parse (.str " SSP ") = .ok .ssp ∧ DocumentType.parse (.str "sap") = .ok .sap) ∧
    lenient.registry = .bundled ∧
    (lenient.recording.validate (.tree planTree) { type := .str " SSP " } ⟨{}, ((), [])⟩).1 =
      .ok planResult ∧
    Refused ⟨{}, ((), [])⟩
      (lenient.recording.validate (.tree planTree) { type := .str "sap" } ⟨{}, ((), [])⟩) := by
  have hssp : DocumentType.parse (.str " SSP ") = .ok .ssp := by rfl
  have hsap : DocumentType.parse (.str "sap") = .ok .sap := by rfl
  have hopened : (lenient.recording.validate (.tree planTree) {} ⟨{}, ((), [])⟩).1 =
      .ok planResult := eq_ok_of_toOption (by decide +kernel)
  have judged : planResult.verdict ≠ .malformed := by decide
  obtain ⟨hdeclared, -, -⟩ := validate_declared lenient rfl (.tree planTree) {} hssp {} () []
  obtain ⟨hother, -, -⟩ := validate_declared lenient rfl (.tree planTree) {} hsap {} () []
  obtain ⟨type, htype, hsame, -⟩ := hdeclared planResult hopened judged
  obtain ⟨type', htype', -, hrefused⟩ := hother planResult hopened judged
  cases htype
  cases htype'
  refine ⟨⟨hssp, hsap⟩, rfl, ?_, hrefused (by decide)⟩
  rw [hsame rfl]
  exact hopened

end ValidationService

end OscalValidation
