import OscalValidation.Proofs.Conversion.Documents
import OscalValidation.Proofs.Document.Detection
import OscalValidation.Proofs.Validation.Preparing

set_option autoImplicit false

/-! # Documents whose representation is left open

A document that is judged in a given representation is judged the same where the representation is
left open, if its content shows it; else it is found malformed (`detects_iff`). Contents that do
not show it: those in big-endian units of two bytes, say, though they can be read
(`not_detects_bigEndian`).
-/

namespace OscalValidation

open Text OscalValidation.Representation

/-! ## Reading -/

/-- **The content shows the representation:** its mark is in the part looked at, and nothing that
hides it comes before. What was read already need not show anything. -/
def DocumentInput.shows (r : Representation) : DocumentInput → Bool
  | .text s | .object (.str s) => leads r.mark '\x00' s.toList
  | .bytes content => leads (byteOf r.mark) 0 content
  | .object _ | .tree _ => true

/-- The value, if it is one, is an object. -/
def ParsedDocument.IsObjectOrTree (parsed : ParsedDocument) : Prop :=
  ∀ value, parsed = .object value → ∃ members, value = .obj members

section Reading

variable {r : Representation}

theorem value_of_parsedObject {x : Except Json.BytesError Json} {parsed : ParsedDocument}
    (h : parsedObject x = .ok parsed) : ∃ value, x = .ok value ∧ parsed = .object value := by
  unfold parsedObject at h
  split at h
  · next value =>
    cases h
    exact ⟨value, rfl, rfl⟩
  · cases h
  · cases h

theorem document_of_parsedTree {bytes : Bytes} {parsed : ParsedDocument}
    (h : parsedTree bytes = .ok parsed) : ∃ document, Xml.readBytes? bytes = some document := by
  unfold parsedTree at h
  split at h
  · next document hdocument => exact ⟨document, hdocument⟩
  · cases h

/-- A text opens with the mark of the representation that it can be read in. -/
theorem opensText_of_parseText {s : String} {parsed : ParsedDocument}
    (h : parseText s (some r) = .ok parsed) (hparsed : parsed.IsObjectOrTree) :
    OpensText r s.toList := by
  cases r with
  | xml =>
      obtain ⟨document, hdocument⟩ := document_of_parsedTree h
      exact opensText_of_encode (Xml.opens_of_readBytes? hdocument)
  | json =>
      obtain ⟨value, hvalue, hobject⟩ := value_of_parsedObject h
      obtain ⟨members, rfl⟩ := hparsed value hobject
      have hopens := Json.opensText_of_read (mapError_eq_ok_iff.mp hvalue)
      rw [withoutMarks, String.toList_ofList] at hopens
      -- the byte order marks that reading leaves out are padding as well
      rw [← List.takeWhile_append_dropWhile (p := (· == '\uFEFF')) (l := s.toList)]
      generalize s.toList.dropWhile (· == '\uFEFF') = cs at hopens ⊢
      obtain ⟨hpads, hfirst⟩ := hopens
      rw [← List.append_assoc]
      refine .intro (fun c hc => ?_) hfirst
      rcases List.mem_append.mp hc with hc | hc
      · have hmark := List.mem_takeWhile_imp hc
        rw [beq_iff_eq] at hmark
        subst hmark
        rfl
      · exact hpads c hc

/-- Bytes open with the mark of the representation that they can be read in. -/
theorem opensBytes_of_parseBytes {bytes : Bytes} {parsed : ParsedDocument}
    (h : parseBytes bytes (some r) = .ok parsed) (hparsed : parsed.IsObjectOrTree) :
    OpensBytes r bytes := by
  cases r with
  | xml =>
      obtain ⟨document, hdocument⟩ := document_of_parsedTree h
      exact Xml.opens_of_readBytes? hdocument
  | json =>
      obtain ⟨value, hvalue, hobject⟩ := value_of_parsedObject h
      obtain ⟨members, rfl⟩ := hparsed value hobject
      exact Json.opens_of_readBytes hvalue

theorem parseText_none {s : String} (h : OpensText r s.toList) :
    parseText s none = if leads r.mark '\x00' s.toList then parseText s (some r)
      else .error (.malformed .unrecognized) := by
  have hshown : (none <|> ofText? s) = ofText? s := rfl
  rw [parseText, hshown, ofText?_of_opens h]
  by_cases hleads : leads r.mark '\x00' s.toList = true
  · rw [if_pos hleads, if_pos hleads]
    rfl
  · rw [if_neg hleads, if_neg hleads]

theorem parseBytes_none {bytes : Bytes} (h : OpensBytes r bytes) :
    parseBytes bytes none = if leads (byteOf r.mark) 0 bytes then parseBytes bytes (some r)
      else .error (.malformed .unrecognized) := by
  have hshown : (none <|> ofBytes? bytes) = ofBytes? bytes := rfl
  rw [parseBytes, hshown, ofBytes?_of_opens h]
  by_cases hleads : leads (byteOf r.mark) 0 bytes = true
  · rw [if_pos hleads, if_pos hleads]
    rfl
  · rw [if_neg hleads, if_neg hleads]

/-- **A document that can be read in a representation** is read the same with the representation
left open if it shows it, and is not recognized if it does not. -/
theorem DocumentInput.parse_none {input : DocumentInput} {parsed : ParsedDocument}
    (h : input.parse (some r) = .ok parsed) (hparsed : parsed.IsObjectOrTree) :
    input.parse none = if input.shows r then input.parse (some r)
      else .error (.malformed .unrecognized) := by
  cases input with
  | text s => exact parseText_none (opensText_of_parseText h hparsed)
  | bytes content => exact parseBytes_none (opensBytes_of_parseBytes h hparsed)
  | tree document => rfl
  | object value =>
      cases value with
      | str s => exact parseText_none (opensText_of_parseText h hparsed)
      | _ => rfl

end Reading

/-! ## Judging -/

/-- What is of the structure of a type is an object, if it is a value. -/
theorem ParsedDocument.isObjectOrTree_of_toStructural {parsed : ParsedDocument}
    {registry : Registry} {type : DocumentType} {document : Xml.Document}
    (h : parsed.toStructural registry type = .ok document) : parsed.IsObjectOrTree := by
  rintro value rfl
  unfold toStructural at h
  dsimp only at h
  split at h
  · next hconverted =>
    obtain ⟨root, body, -, -, hbody, -⟩ := Converter.convert_eq_ok_iff.mp hconverted
    cases value with
    | obj members => exact ⟨members, rfl⟩
    | _ => cases hbody
  · split at h <;> cases h

/-- Documents that read the same are prepared the same. -/
theorem prepareDocument_congr {registry : Registry} {input input' : DocumentInput}
    {declared : Option DocumentType} {ruleset : Ruleset}
    {representation representation' : Option Representation}
    (h : input.parse representation = input'.parse representation') :
    prepareDocument registry input declared ruleset representation =
      prepareDocument registry input' declared ruleset representation' := by
  rw [prepareDocument, prepareDocument, h]

namespace ValidationService

variable {σ α : Type} {service : ValidationService σ α} {input : DocumentInput}
  {request : ValidationRequest} {r : Representation} {state state' : ValidationState σ α}
  {result : ValidationResult}

/-- **Leaving the representation open makes no difference** where the document is judged in the
representation `r`: the result is the same, be the document handed over or read from a file. -/
def Detects (service : ValidationService σ α) (input : DocumentInput) (r : Representation)
    (request : ValidationRequest) (state : ValidationState σ α) : Prop :=
  ∀ result state', service.validate input { request with representation := some r } state =
      (.ok result, state') → result.verdict ≠ .malformed →
    service.validate input { request with representation := none } state = (.ok result, state') ∧
    ∀ files path content, input = .bytes content → files.read path = .ok content →
      service.validateFile files path request state = (.ok result, state')

/-- Documents that read the same are judged the same. -/
theorem validate_congr {input' : DocumentInput} {representation representation' : Option Representation}
    (h : input.parse representation = input'.parse representation') :
    service.validate input { request with representation := representation } state =
      service.validate input' { request with representation := representation' } state := by
  have hprepare : prepare service.registry service.usualRuleset input
        { request with representation := representation } =
      prepare service.registry service.usualRuleset input'
        { request with representation := representation' } := by
    unfold prepare
    simp only [prepareDocument_congr h]
  rw [validate, validate, hprepare]

/-- A file is judged as its content is with the representation left open, whatever its name. -/
theorem validateFile_eq {files : FileTree} {path : Path} {content : Bytes}
    (h : files.read path = .ok content) :
    service.validateFile files path request state =
      service.validate (.bytes content) { request with representation := none } state := by
  have hparse : (DocumentInput.bytes content).parse (ofBytes? content) =
      (DocumentInput.bytes content).parse none := by
    show parseBytes content (ofBytes? content) = parseBytes content none
    unfold parseBytes
    cases ofBytes? content <;> rfl
  rw [validateFile, h]
  exact validate_congr hparse

/-- A document that is judged is or becomes a structural document. -/
theorem prepares_of_judged (forced : service.validate input request state = (.ok result, state'))
    (judged : result.verdict ≠ .malformed) :
    ∃ key document, service.Prepares input request key document := by
  rw [validate] at forced
  rcases service.prepare_cases input request with ⟨fault, h⟩ | ⟨type, ruleset, fault, -, h⟩ |
    ⟨key, document, hprepares, -⟩
  · rw [h] at forced
    cases forced
  · rw [h] at forced
    cases forced
    exact absurd rfl judged
  · exact ⟨key, document, hprepares⟩

/-- A document that shows no representation is found malformed, and nothing else happens. -/
theorem validate_of_unrecognized {key : RuleKey} {document : Xml.Document}
    (hprepares : service.Prepares input { request with representation := some r } key document)
    (h : input.parse none = .error (.malformed .unrecognized)) :
    ∃ type ruleset, service.validate input { request with representation := none } state =
      (.ok (.ofDiagnostics type ruleset DocumentFault.unrecognized.diagnostics), state) := by
  obtain ⟨declared, ruleset, hdeclared, hruleset, -⟩ := hprepares
  have hrejects : service.Rejects input { request with representation := none } .unrecognized :=
    ⟨declared, hdeclared, .unread h⟩
  obtain ⟨type, hprepare⟩ := hrejects.prepare_eq hruleset
  exact ⟨type, _, by rw [validate, hprepare]⟩

/-- **A document that is judged in a representation is judged the same with the representation left
open exactly if its content shows it.** If not, it is found malformed. -/
theorem detects_iff
    (forced : service.validate input { request with representation := some r } state =
      (.ok result, state')) (judged : result.verdict ≠ .malformed) :
    (service.Detects input r request state ↔ input.shows r = true) ∧
    (input.shows r = false → ∃ type ruleset,
      service.validate input { request with representation := none } state =
        (.ok (.ofDiagnostics type ruleset ["content is neither XML nor JSON"]), state)) := by
  obtain ⟨key, document, hprepares⟩ := prepares_of_judged forced judged
  have hparse : input.parse none = if input.shows r then input.parse (some r)
      else .error (.malformed .unrecognized) := by
    obtain ⟨_, _, _, _, _, read, _, converted⟩ := hprepares
    exact DocumentInput.parse_none read (ParsedDocument.isObjectOrTree_of_toStructural converted)
  have hhidden : input.shows r = false → ∃ type ruleset,
      service.validate input { request with representation := none } state =
        (.ok (.ofDiagnostics type ruleset ["content is neither XML nor JSON"]), state) := by
    intro hshows
    rw [hshows, if_neg Bool.false_ne_true] at hparse
    exact validate_of_unrecognized hprepares hparse
  refine ⟨⟨fun hdetects => ?_, fun hshows => ?_⟩, hhidden⟩
  · rcases Bool.eq_false_or_eq_true (input.shows r) with hshows | hshows
    · exact hshows
    · -- the result would be malformed, but the document is judged
      obtain ⟨type, ruleset, hopen⟩ := hhidden hshows
      rw [(hdetects result state' forced judged).1] at hopen
      cases hopen
      exact absurd rfl judged
  · rw [hshows, if_pos rfl] at hparse
    rintro result' state'' forced' -
    have hopen := (validate_congr hparse).trans forced'
    refine ⟨hopen, ?_⟩
    rintro files path content rfl hread
    exact (validateFile_eq hread).trans hopen

/-! ## A document that is not detected -/

/-- A service whose rules find nothing. -/
def lenient : ValidationService Unit Unit where
  registry := .bundled
  engine := ⟨fun _ s => (some (.loaded ()), s), fun _ _ _ s => (.ok [], s)⟩
  content := ⟨"content", false⟩
  usualRuleset := .rev5
  policy := {}

def emptyPlan : String :=
  "<system-security-plan xmlns=\"http://csrc.nist.gov/ns/oscal/1.0\"/>"

/-- The plan in big-endian units of two bytes, behind a byte order mark. -/
def bigEndianPlan : Bytes :=
  0xFE :: 0xFF :: emptyPlan.toList.flatMap (Encoding.utf16 true).asciiBytes

/-- The result of judging the plan. -/
def planResult : ValidationResult := .ofAssertions (some .ssp) .rev5 {} []

/-- The lenient service comes to the result of the plan from some content in some representation. -/
theorem lenient_validate (content : Bytes) (request : ValidationRequest)
    (h : (lenient.validate (.bytes content) request ⟨{}, ()⟩).1.toOption = some planResult) :
    ∃ state, lenient.validate (.bytes content) request ⟨{}, ()⟩ = (.ok planResult, state) :=
  ⟨_, Prod.ext (eq_ok_of_toOption h) rfl⟩

/-- In units of one byte the plan is judged with the representation given or left open. -/
theorem detects_emptyPlan : ∃ state,
    lenient.validate (.bytes (encode emptyPlan)) { representation := some .xml } ⟨{}, ()⟩ =
      (.ok planResult, state) ∧ planResult.verdict ≠ .malformed ∧
    lenient.Detects (.bytes (encode emptyPlan)) .xml {} ⟨{}, ()⟩ := by
  obtain ⟨state, forced⟩ := lenient_validate (encode emptyPlan)
    { representation := some .xml } (by decide +kernel)
  have judged : planResult.verdict ≠ .malformed := by decide
  have hshows : (DocumentInput.bytes (encode emptyPlan)).shows .xml = true := by decide +kernel
  obtain ⟨hiff, -⟩ : (lenient.Detects (.bytes (encode emptyPlan)) .xml {} ⟨{}, ()⟩ ↔ _) ∧ _ :=
    detects_iff forced judged
  exact ⟨state, forced, judged, hiff.mpr hshows⟩

/-- **In big-endian units of two bytes the plan is judged with the representation given,** but not
with the representation left open. -/
theorem not_detects_bigEndian :
    ¬ lenient.Detects (.bytes bigEndianPlan) .xml {} ⟨{}, ()⟩ := by
  intro hdetects
  obtain ⟨state, forced⟩ := lenient_validate bigEndianPlan
    { representation := some .xml } (by decide +kernel)
  have judged : planResult.verdict ≠ .malformed := by decide
  have opened : (lenient.validate (.bytes bigEndianPlan) {} ⟨{}, ()⟩).1.toOption ≠
      some planResult := by decide +kernel
  obtain ⟨hopen, -⟩ := hdetects planResult state forced judged
  exact opened (congrArg (·.1.toOption) hopen)

end ValidationService

end OscalValidation
