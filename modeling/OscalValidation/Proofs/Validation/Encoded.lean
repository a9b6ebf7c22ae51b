import OscalValidation.Proofs.Document.Encoded
import OscalValidation.Proofs.Validation.Detection

set_option autoImplicit false

/-! # Texts and their bytes are judged alike

A text is judged as its bytes in UTF-8 are if the two are taken alike (`isTakenAlike`): the first
significant character is near, and an object document begins plainly. Where the text or its bytes
are judged at all, this is the exact condition (`judgesAlike_iff`). An object behind two byte order
marks is judged as a text, but not as bytes (`not_judgesAlike_marks`).
-/

namespace OscalValidation

open Text OscalValidation.Representation

/-! ## Reading -/

/-- **The text and its bytes are taken alike.** -/
def isTakenAlike (s : String) : Option Representation → Bool
  | some .xml => true
  | some .json => Json.beginsPlainly s.toList
  | none =>
      match ofText? s with
      | none => true
      | some .xml => isNear s
      | some .json => isNear s && Json.beginsPlainly s.toList

section Reading

variable {s : String}

/-- Without the marks in front there is nothing to complain about. -/
theorem Json.read_withoutMarks (s : String) :
    Json.read (withoutMarks s) = Json.readDecoded (withoutMarks s) := by
  unfold Json.read
  split
  · next rest hmark =>
    have hhead := List.head?_dropWhile_not (· == '\uFEFF') s.toList
    rw [withoutMarks, String.toList_ofList] at hmark
    rw [hmark] at hhead
    cases hhead
  · rfl

/-- Where the representation is left open, it is the one that the text shows. -/
theorem parseText_open (s : String) : parseText s none =
    match ofText? s with
    | some r => parseText s (some r)
    | none => .error (.malformed .unrecognized) := by
  unfold parseText
  rcases ofText? s with _ | (_ | _) <;> rfl

theorem parseBytes_open (bytes : Bytes) : parseBytes bytes none =
    match ofBytes? bytes with
    | some r => parseBytes bytes (some r)
    | none => .error (.malformed .unrecognized) := by
  unfold parseBytes
  rcases ofBytes? bytes with _ | (_ | _) <;> rfl

theorem parseBytes_encode_json (h : Json.beginsPlainly s.toList = true) :
    parseBytes (encode s) (some .json) = parseText s (some .json) := by
  show parsedObject (Json.readBytes (encode s)) =
    parsedObject ((Json.read (withoutMarks s)).mapError .read)
  rw [Json.readBytes_encode h, Json.read_withoutMarks]
  rfl

/-- **A text and its bytes that are taken alike are read alike.** -/
theorem parseBytes_encode {representation : Option Representation}
    (h : isTakenAlike s representation = true) :
    parseBytes (encode s) representation = parseText s representation := by
  rcases representation with _ | r | r
  · -- the bytes show what the text shows
    rw [parseBytes_open, parseText_open, ofBytes?_encode]
    rw [isTakenAlike] at h
    cases hshown : ofText? s with
    | none => rw [ite_self]
    | some r =>
        rw [hshown] at h
        cases r with
        | xml =>
            rw [if_pos h]
            rfl
        | json =>
            obtain ⟨hnear, hplain⟩ := Bool.and_eq_true_iff.mp h
            rw [if_pos hnear]
            exact parseBytes_encode_json hplain
  · rfl
  · exact parseBytes_encode_json h

/-- Where a text and its bytes both hold an object, the text begins plainly. -/
theorem beginsPlainly_of_parses {parsed parsed' : ParsedDocument}
    (htext : parseText s (some .json) = .ok parsed) (hparsed : parsed.IsObjectOrTree)
    (hbytes : parseBytes (encode s) (some .json) = .ok parsed')
    (hparsed' : parsed'.IsObjectOrTree) : Json.beginsPlainly s.toList = true := by
  obtain ⟨value, hvalue, hobject⟩ := value_of_parsedObject htext
  obtain ⟨members, rfl⟩ := hparsed value hobject
  obtain ⟨value', hvalue', hobject'⟩ := value_of_parsedObject hbytes
  obtain ⟨members', rfl⟩ := hparsed' value' hobject'
  rw [mapError_eq_ok_iff, Json.read_withoutMarks] at hvalue
  by_contra hplain
  rcases Json.not_beginsPlainly_cases hplain with ⟨rest, hs⟩ | ⟨c, d, rest, hs, hmark, hzero⟩
  · exact Json.not_obj_of_marks hs members' hvalue'
  · rw [withoutMarks, Json.dropWhile_eq_self (by simpa [hs] using hmark),
      String.ofList_toList] at hvalue
    exact Json.not_obj_of_zero hs hzero members hvalue

/-- **Where a text and its bytes both hold an object or a structural document, they are taken
alike.** -/
theorem isTakenAlike_of_parses {representation : Option Representation}
    {parsed parsed' : ParsedDocument} (htext : parseText s representation = .ok parsed)
    (hparsed : parsed.IsObjectOrTree)
    (hbytes : parseBytes (encode s) representation = .ok parsed')
    (hparsed' : parsed'.IsObjectOrTree) : isTakenAlike s representation = true := by
  rcases representation with _ | r | r
  · rw [isTakenAlike]
    rw [parseText_open] at htext
    rw [parseBytes_open, ofBytes?_encode] at hbytes
    cases hshown : ofText? s with
    | none => rfl
    | some r =>
        have hnear : isNear s = true := by
          by_contra hfar
          rw [if_neg hfar] at hbytes
          cases hbytes
        rw [if_pos hnear, hshown] at hbytes
        rw [hshown] at htext
        cases r with
        | xml => exact hnear
        | json =>
            rw [Bool.and_eq_true]
            exact ⟨hnear, beginsPlainly_of_parses htext hparsed hbytes hparsed'⟩
  · rfl
  · exact beginsPlainly_of_parses htext hparsed hbytes hparsed'

end Reading

/-! ## Judging -/

namespace ValidationService

variable {σ α : Type} {service : ValidationService σ α} {input : DocumentInput} {s : String}
  {request : ValidationRequest} {state : ValidationState σ α}

/-- **The document is judged:** it passes or fails. -/
def IsJudged (service : ValidationService σ α) (input : DocumentInput)
    (request : ValidationRequest) (state : ValidationState σ α) : Prop :=
  ∃ result, (service.validate input request state).1 = .ok result ∧ result.verdict ≠ .malformed

/-- **Judging the text and judging its bytes give the same result.** -/
def JudgesAlike (service : ValidationService σ α) (s : String) (request : ValidationRequest)
    (state : ValidationState σ α) : Prop :=
  (service.validate (.bytes (encode s)) request state).1 =
    (service.validate (.text s) request state).1

/-- A document that is judged was read, and is an object if it is a value. -/
theorem parses_of_isJudged (h : service.IsJudged input request state) :
    ∃ parsed, input.parse request.representation = .ok parsed ∧ parsed.IsObjectOrTree := by
  obtain ⟨result, hresult, judged⟩ := h
  obtain ⟨key, document, hprepares⟩ := prepares_of_judged (Prod.ext hresult rfl) judged
  obtain ⟨_, _, _, _, _, read, _, converted⟩ := hprepares
  exact ⟨_, read, ParsedDocument.isObjectOrTree_of_toStructural converted⟩

theorem isJudged_iff_of_judgesAlike (h : service.JudgesAlike s request state) :
    service.IsJudged (.bytes (encode s)) request state ↔
      service.IsJudged (.text s) request state := by
  rw [IsJudged, IsJudged, show (service.validate (.bytes (encode s)) request state).1 = _ from h]

/-- **A text and its bytes that are taken alike are judged alike,** and leave the same behind; where
one of them is judged, they are judged alike only then. -/
theorem judgesAlike_iff (service : ValidationService σ α) (s : String)
    (request : ValidationRequest) (state : ValidationState σ α) :
    (isTakenAlike s request.representation = true →
      service.validate (.bytes (encode s)) request state =
        service.validate (.text s) request state) ∧
    (service.IsJudged (.text s) request state ∨
        service.IsJudged (.bytes (encode s)) request state →
      (service.JudgesAlike s request state ↔
        isTakenAlike s request.representation = true)) := by
  have hsame : isTakenAlike s request.representation = true →
      service.validate (.bytes (encode s)) request state =
        service.validate (.text s) request state := by
    intro halike
    have hparse : (DocumentInput.bytes (encode s)).parse request.representation =
        (DocumentInput.text s).parse request.representation := parseBytes_encode halike
    show service.validate (.bytes (encode s))
        { request with representation := request.representation } state =
      service.validate (.text s) { request with representation := request.representation } state
    exact validate_congr hparse
  refine ⟨hsame, fun judged => ⟨fun halike => ?_, fun halike => ?_⟩⟩
  · -- then both of them are judged
    have hboth : service.IsJudged (.text s) request state ∧
        service.IsJudged (.bytes (encode s)) request state := by
      have hiff := isJudged_iff_of_judgesAlike halike
      exact judged.elim (fun h => ⟨h, hiff.mpr h⟩) fun h => ⟨hiff.mp h, h⟩
    obtain ⟨parsed, htext, hparsed⟩ := parses_of_isJudged hboth.1
    obtain ⟨parsed', hbytes, hparsed'⟩ := parses_of_isJudged hboth.2
    exact isTakenAlike_of_parses htext hparsed hbytes hparsed'
  · exact congrArg (·.1) (hsame halike)

/-! ## A text that is not taken like its bytes -/

/-- A plan of action without any content, as an object. -/
def emptyActionPlan : Json :=
  .obj [("plan-of-action-and-milestones",
    .obj [("uuid", .str "11111111-1111-4111-8111-111111111111"),
      ("metadata", .obj [("title", .str ""), ("last-modified", .str ""), ("version", .str ""),
        ("oscal-version", .str "")]),
      ("poam-items", .arr [])])]

/-- The text of the plan of action behind a number of byte order marks. -/
def markedActionPlan (marks : Nat) : String :=
  String.ofList (List.replicate marks '\uFEFF' ++ emptyActionPlan.writeIndented 0)

/-- The result of judging the plan of action. -/
def actionPlanResult : ValidationResult := .ofAssertions (some .poam) .rev5 {} []

/-- As a text the plan of action can be read behind any number of marks. -/
theorem parseText_markedActionPlan (marks : Nat) :
    parseText (markedActionPlan marks) (some .json) = .ok (.object emptyActionPlan) := by
  have hmarks : ∀ c ∈ List.replicate marks '\uFEFF', (c == '\uFEFF') = true := by
    intro c hc
    rw [List.eq_of_mem_replicate hc]
    rfl
  have hwithout : withoutMarks (markedActionPlan marks) =
      String.ofList (emptyActionPlan.writeIndented 0) := by
    rw [withoutMarks, markedActionPlan, String.toList_ofList,
      List.dropWhile_append_of_pos hmarks, Json.dropWhile_eq_self (by decide)]
  have hread : Json.readDocument (emptyActionPlan.writeIndented 0 ++ []) = .ok emptyActionPlan :=
    Json.readDocument_writeIndented (by decide) (by decide) (by decide) rfl
  show parsedObject ((Json.read (withoutMarks (markedActionPlan marks))).mapError .read) = _
  rw [Json.read_withoutMarks, hwithout, Json.readDecoded, String.toList_ofList,
    ← List.append_nil (emptyActionPlan.writeIndented 0), hread]
  rfl

theorem isJudged_markedActionPlan (marks : Nat) :
    lenient.IsJudged (.text (markedActionPlan marks)) { representation := some .json }
      ⟨{}, ()⟩ := by
  have hparse : (DocumentInput.text (markedActionPlan marks)).parse (some .json) =
      (DocumentInput.object emptyActionPlan).parse (some .json) :=
    parseText_markedActionPlan marks
  have judged : (lenient.validate (.object emptyActionPlan) { representation := some .json }
      ⟨{}, ()⟩).1.toOption = some actionPlanResult := by decide +kernel
  have heq : lenient.validate (.text (markedActionPlan marks)) { representation := some .json }
      ⟨{}, ()⟩ = lenient.validate (.object emptyActionPlan) { representation := some .json }
      ⟨{}, ()⟩ := @validate_congr _ _ lenient _ {} ⟨{}, ()⟩ _ _ _ hparse
  rw [← heq] at judged
  exact ⟨actionPlanResult, eq_ok_of_toOption judged, by decide⟩

/-- Behind one byte order mark the plan of action is judged alike as a text and as bytes. -/
theorem judgesAlike_mark :
    isTakenAlike (markedActionPlan 1) (some .json) = true ∧
    lenient.IsJudged (.text (markedActionPlan 1)) { representation := some .json } ⟨{}, ()⟩ ∧
    lenient.JudgesAlike (markedActionPlan 1) { representation := some .json } ⟨{}, ()⟩ := by
  have halike : isTakenAlike (markedActionPlan 1) (some .json) = true := by
    rw [isTakenAlike, markedActionPlan, String.toList_ofList]
    decide
  have judged := isJudged_markedActionPlan 1
  obtain ⟨-, hiff⟩ := judgesAlike_iff lenient (markedActionPlan 1)
    { representation := some .json } ⟨{}, ()⟩
  exact ⟨halike, judged, (hiff (Or.inl judged)).mpr halike⟩

/-- **Behind two byte order marks the plan of action is judged as a text,** but not as bytes. -/
theorem not_judgesAlike_marks :
    lenient.IsJudged (.text (markedActionPlan 2)) { representation := some .json } ⟨{}, ()⟩ ∧
    ¬ lenient.JudgesAlike (markedActionPlan 2) { representation := some .json } ⟨{}, ()⟩ := by
  have judged := isJudged_markedActionPlan 2
  refine ⟨judged, fun halike => ?_⟩
  obtain ⟨parsed, hparse, hparsed⟩ :=
    parses_of_isJudged ((isJudged_iff_of_judgesAlike halike).mpr judged)
  obtain ⟨value, hvalue, hobject⟩ := value_of_parsedObject hparse
  obtain ⟨members, rfl⟩ := hparsed value hobject
  have hmarks : (markedActionPlan 2).toList =
      '\uFEFF' :: '\uFEFF' :: emptyActionPlan.writeIndented 0 := String.toList_ofList
  exact Json.not_obj_of_marks hmarks members hvalue

end ValidationService

end OscalValidation
