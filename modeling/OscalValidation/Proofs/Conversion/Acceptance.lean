import OscalValidation.Conversion.Bundled
import OscalValidation.Proofs.Conversion.Documents
import OscalValidation.Proofs.Conversion.Long

set_option autoImplicit false

/-! # What the bundled converters accept

Main statement: a bundled converter makes a document of just those values that are objects with the
root member, conform to the schema and hold only what is convertible below the root member. Every
other value is refused with a diagnostic, unless an integer with too many digits is in it, and if it
is refused only for what is below the root member, the one diagnostic names the first place that
cannot be converted (`ofType_convert`).
-/

namespace OscalValidation

/-! ## Conformance -/

/-- In a document that conforms to a bundled schema the root member is an object. -/
theorem Converter.object_of_conforms {type : DocumentType} {document body : Json}
    (hbody : document.member? type.rootName = some body)
    (h : (Converter.ofType type).schema.violations document = []) :
    ∃ members, body = .obj members := by
  rw [SchemaDocument.violations_eq_nil_iff] at h
  cases document with
  | obj members =>
      have hdocument : Schema.Conforms (Converter.ofType type).schema.targets
          (Schema.document type) (.obj members) := ⟨_, h⟩
      have hproperty : Schema.HasProperty (Converter.ofType type).schema.targets
          (Schema.document type) type.rootName (Schema.body type) :=
        ⟨_, List.mem_of_mem_tail (List.mem_of_mem_tail List.mem_cons_self), List.mem_cons_self⟩
      have hroot := hdocument.property hproperty hbody
      apply hroot.object
      cases type <;> exact List.mem_cons_self
  | _ => cases hbody

/-! ## Bundled tables -/

namespace ConversionRules

/-- The bundled tables make attributes only under names that attributes can have. -/
theorem isName_of_isFlag (type : DocumentType) {label : Label} {key : String}
    (h : (ofType type).isFlag label key = true) : Conversion.IsName key := by
  have hall : ∀ key ∈ (ofType type).flagNames, Conversion.IsName key := by
    cases type <;> decide +kernel
  exact hall key (mem_flagNames_of_isFlag h)

theorem isName_rootName (type : DocumentType) : Conversion.IsName type.rootName := by
  unfold Conversion.IsName
  cases type <;> decide +kernel

theorem isTabled_ofType (type : DocumentType) : Conversion.IsTabled (ofType type) := by
  cases type <;> exact ⟨rfl, rfl⟩

end ConversionRules

/-! ## Conversion with the bundled tables -/

namespace Converter

open Conversion

variable {type : DocumentType} {document body : Json}

theorem root_ofType (type : DocumentType) : (ofType type).rules.root = .str type.rootName := by
  cases type <;> rfl

theorem rules_ofType (type : DocumentType) : (ofType type).rules = .ofType type := by
  cases type <;> rfl

/-- The bundled schemas use known words only. -/
theorem further_ofType (type : DocumentType) (document : Json) :
    (ofType type).schema.further document = .ok [] := by
  cases type <;> rfl

theorem rootMember_ofType (type : DocumentType) (document : Json) :
    (ofType type).rootMember type document = match document.member? type.rootName with
      | some body => .ok (type.rootName, body)
      | none => .error (.notOfType type type.rootName) := by
  cases type <;> rfl

theorem convert_of_not_member (h : document.member? type.rootName = none) :
    (ofType type).convert type document = .error (.notOfType type type.rootName) := by
  rw [convert, rootMember_ofType, h]
  rfl

theorem conform_of_violations (h : (ofType type).schema.violations document ≠ []) :
    ∃ fault, (ofType type).conform document = .error fault ∧
      ((fault.isReported = true ∧ fault.diagnostics ≠ []) ∨
        (fault = .integerTooLong ∧ document.holdsLong = true)) := by
  have hfindings : (ofType type).schema.findings document =
      .ok (byPlace ((ofType type).schema.violations document)) := by
    simp [SchemaDocument.findings, further_ofType, bind, Except.bind, pure, Except.pure]
  have hsome : byPlace ((ofType type).schema.violations document) ≠ [] :=
    fun hnil => h (byPlace_eq_nil_iff.mp hnil)
  rw [conform, hfindings]
  split
  · next heq => cases heq
  · next heq => exact absurd (Except.ok.inj heq) hsome
  · next violations _ heq =>
    cases heq
    split
    · next hlong =>
      obtain ⟨violation, hmem, hlong⟩ := List.any_eq_true.mp hlong
      rw [byPlace, List.mem_mergeSort] at hmem
      exact ⟨_, rfl, Or.inr ⟨rfl, SchemaDocument.holdsLong_of_violations hmem hlong⟩⟩
    · exact ⟨_, rfl, Or.inl ⟨rfl, by simpa [ConversionFault.diagnostics] using hsome⟩⟩

/-- Of a document that has the root member and conforms, the root member is converted. -/
theorem passes_convert (hbody : document.member? type.rootName = some body)
    (h : (ofType type).schema.violations document = []) :
    Passes (.ofType type) ((ofType type).convert type document)
      (valueSpots (.ofType type) type.rootName (Place.root.below (.member type.rootName))
        body) := by
  have hn := ConversionRules.isName_rootName type
  have hmember := rootMember_ofType type document
  rw [hbody] at hmember
  have hconform : (ofType type).conform document = .ok () :=
    conform_eq_ok_iff.mpr ⟨h, further_ofType type document⟩
  have hname : nameRoot type.rootName = .ok () := by
    rcases checkElementName_cases type.rootName with ⟨-, hcheck⟩ | ⟨hnot, -⟩
    · exact nameRoot_eq_ok_iff.mpr hcheck
    · exact absurd hn hnot
  rw [convert, hmember]
  dsimp only [bind, Except.bind]
  rw [hconform, hname, rules_ofType]
  exact (passes_partsOf (ConversionRules.isTabled_ofType type) type.rootName _ hn body).map
    fun parts => (⟨[], assemble type.rootName declarations parts, []⟩ : Xml.Document)

/-- In a document that conforms all spots below the root member fit if it is convertible. -/
theorem fit_iff_convertible_of_conforms (hbody : document.member? type.rootName = some body)
    (h : (ofType type).schema.violations document = []) :
    (∀ s ∈ valueSpots (.ofType type) type.rootName (Place.root.below (.member type.rootName)) body,
      s.Fits (.ofType type)) ↔ Convertible (.ofType type) type.rootName body := by
  obtain ⟨members, rfl⟩ := object_of_conforms hbody h
  have hroot : IsName (Label.text type.rootName).written := ConversionRules.isName_rootName type
  exact fit_iff_convertible hroot
    (fun _ _ hflag => ⟨_, .plain (ConversionRules.isName_of_isFlag type hflag)⟩) (by simp) _

/-- What a bundled converter comes to: the root member is missing, the document does not conform, or
its root member is converted. -/
theorem convert_ofType_cases (type : DocumentType) (document : Json) :
    (document.member? type.rootName = none ∧
        (ofType type).convert type document = .error (.notOfType type type.rootName)) ∨
      ((ofType type).schema.violations document ≠ [] ∧
        ∃ fault, (ofType type).convert type document = .error fault ∧
          ((fault.isReported = true ∧ fault.diagnostics ≠ []) ∨
            (fault = .integerTooLong ∧ document.holdsLong = true))) ∨
      ∃ body, document.member? type.rootName = some body ∧
        (ofType type).schema.violations document = [] := by
  have hmember := rootMember_ofType type document
  cases hbody : document.member? type.rootName with
  | none => exact Or.inl ⟨rfl, convert_of_not_member hbody⟩
  | some body =>
      by_cases hv : (ofType type).schema.violations document = []
      · exact Or.inr (Or.inr ⟨body, rfl, hv⟩)
      · rw [hbody] at hmember
        obtain ⟨fault, hconform, hfault⟩ := conform_of_violations hv
        refine Or.inr (Or.inl ⟨hv, fault, ?_, hfault⟩)
        rw [convert, hmember]
        dsimp only [bind, Except.bind]
        rw [hconform]

/-- A bundled converter refuses a value with at least one diagnostic, unless an integer with too
many digits is in it. -/
theorem diagnostics_of_convert {fault : ConversionFault}
    (h : (ofType type).convert type document = .error fault) :
    (fault.isReported = true ∧ fault.diagnostics ≠ []) ∨
      (fault = .integerTooLong ∧ document.holdsLong = true) := by
  rcases convert_ofType_cases type document with
    ⟨-, hfault⟩ | ⟨-, other, hother, hfault⟩ | ⟨body, hbody, hv⟩
  · cases h.symm.trans hfault
    exact Or.inl ⟨rfl, by simp [ConversionFault.diagnostics]⟩
  · cases h.symm.trans hother
    exact hfault
  · have hpasses := passes_convert hbody hv
    rw [h] at hpasses
    obtain ⟨before, spot, after, hspots, -, -, blames⟩ := hpasses.first_of_error
    rcases blames.diagnostics with ⟨hreported, words, more, hone⟩ | ⟨rfl, -⟩
    · exact Or.inl ⟨hreported, by simp [hone]⟩
    · have hmem : spot ∈ valueSpots (.ofType type) type.rootName
          (Place.root.below (.member type.rootName)) body := by
        rw [hspots]
        exact List.mem_append_right _ List.mem_cons_self
      exact Or.inr ⟨rfl, Json.holdsLong_of_member? hbody (holdsLong_of_blames hmem blames)⟩

/-- **What a bundled converter accepts, and why it refuses the rest:** it makes a document of just
the objects that have the root member, conform to the schema and are convertible below the root
member. It refuses anything else with a fault that is told and has a diagnostic, unless an integer
with too many digits is in it, which no document that is read can hold. If only what is below the
root member is at fault, it is the first place, in the order of the members, that does not fit, and
the one diagnostic names this place. -/
theorem ofType_convert (type : DocumentType) (document : Json) :
    (∀ fault, (ofType type).convert type document = .error fault →
      (fault.isReported = true ∧ fault.diagnostics ≠ []) ∨
        (fault = .integerTooLong ∧ document.holdsLong = true)) ∧
    (∀ text, Json.read text = .ok document → document.holdsLong = false) ∧
    ((∃ tree, (ofType type).convert type document = .ok tree) ↔
      ∃ members body, document = .obj members ∧ members.lookup type.rootName = some body ∧
        (ofType type).schema.violations document = [] ∧
        Convertible (.ofType type) type.rootName body) ∧
    ∀ body fault, document.member? type.rootName = some body →
      (ofType type).schema.violations document = [] →
      (ofType type).convert type document = .error fault →
      ∃ before spot after,
        valueSpots (.ofType type) type.rootName (Place.root.below (.member type.rootName)) body =
          before ++ spot :: after ∧
        (∀ s ∈ before, s.Fits (.ofType type)) ∧ ¬ spot.Fits (.ofType type) ∧ Blames fault spot ∧
        ((∃ words more, fault.diagnostics = [words ++ " at " ++ spot.place.text ++ more]) ∨
          (fault = .integerTooLong ∧ document.holdsLong = true)) := by
  refine ⟨fun fault h => diagnostics_of_convert h, fun text h => Json.holdsLong_of_read h,
    ⟨?_, ?_⟩, ?_⟩
  · rintro ⟨tree, h⟩
    rcases convert_ofType_cases type document with
      ⟨-, hfault⟩ | ⟨-, fault, hfault, -⟩ | ⟨body, hbody, hv⟩
    · cases h.symm.trans hfault
    · cases h.symm.trans hfault
    · have hpasses := passes_convert hbody hv
      rw [h] at hpasses
      have hconvertible := (fit_iff_convertible_of_conforms hbody hv).mp hpasses.fit_of_ok
      cases document with
      | obj members => exact ⟨members, body, rfl, hbody, hv, hconvertible⟩
      | _ => cases hbody
  · rintro ⟨members, body, rfl, hbody, hv, hconvertible⟩
    have hmember : (Json.obj members).member? type.rootName = some body := hbody
    exact (passes_convert hmember hv).ok_of_fit
      ((fit_iff_convertible_of_conforms hmember hv).mpr hconvertible)
  · intro body fault hbody hv h
    have hpasses := passes_convert hbody hv
    have hfault := diagnostics_of_convert h
    rw [h] at hpasses
    obtain ⟨before, spot, after, hspots, fit, unfit, blames⟩ := hpasses.first_of_error
    refine ⟨before, spot, after, hspots, fit, unfit, blames, ?_⟩
    rcases blames.diagnostics with ⟨-, hone⟩ | ⟨rfl, -⟩
    · exact Or.inl hone
    · exact Or.inr (hfault.resolve_left fun told => nomatch told.1)

/-- A plan of action with one further member. -/
def actionPlanWith (name : String) (value : Json) : Json :=
  .obj [("plan-of-action-and-milestones", .obj [
    ("uuid", .str "11111111-1111-4111-8111-111111111111"),
    ("metadata", .obj [("title", .str ""), ("last-modified", .str ""), ("version", .str ""),
      ("oscal-version", .str "")]),
    ("poam-items", .arr []), (name, value)])]

/-- **An integer with too many digits is refused without a diagnostic,** and not as a fault of the
document. -/
theorem convert_longInteger :
    (ofType .poam).convert .poam (actionPlanWith "further" (.int (10 ^ 4300))) =
      .error .integerTooLong ∧
    ConversionFault.integerTooLong.isReported = false ∧
    ConversionFault.integerTooLong.diagnostics = [] := by
  have hends : (((ofType .poam).convert .poam (actionPlanWith "further" (.int (10 ^ 4300)))).map
      (fun _ => true) |>.tryCatch fun fault => .ok fault.isReported).toOption = some false := by
    decide +kernel
  refine ⟨?_, rfl, rfl⟩
  cases h : (ofType .poam).convert .poam (actionPlanWith "further" (.int (10 ^ 4300))) with
  | ok tree =>
      rw [h] at hends
      cases hends
  | error fault =>
      rw [h] at hends
      -- a fault that is not told is that of the integer
      rcases diagnostics_of_convert h with ⟨hreported, -⟩ | ⟨rfl, -⟩
      · exact absurd (hreported.symm.trans (Option.some.inj hends)) Bool.noConfusion
      · rfl

/-- A separator is no character of markup, but trimming takes it from a paragraph. -/
example :
    (partsOf (.ofType .ssp) "remarks" .root (.str "text\x1c")).isOk = true ∧
      (partsOf (.ofType .ssp) "title" .root (.str "text\x1c")).isOk = false := by
  decide +kernel

end Converter

end OscalValidation
