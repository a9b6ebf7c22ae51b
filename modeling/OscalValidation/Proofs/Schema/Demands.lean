import OscalValidation.Proofs.Attempts
import OscalValidation.Schema.Check

set_option autoImplicit false

/-! # What a schema demands

A value without violations of a schema meets each of its requirements, and so do its members and
items of theirs (`Conforms.property`, `Conforms.item`).
-/

namespace OscalValidation

namespace Schema

/-! ## Requirements -/

/-- The requirements that a schema makes, references followed. -/
def demands (targets : List (String × Schema)) (schema : Schema) : List Requirement :=
  match schema.resolve targets (targets.length + 1) with
  | .all requirements => requirements
  | _ => []

section Demands

variable (targets : List (String × Schema)) (schema : Schema)

/-- An object must have the member. -/
def Requires (key : String) : Prop :=
  ∃ names, .required names ∈ demands targets schema ∧ key ∈ names

/-- The member of an object has a schema. -/
def HasProperty (key : String) (inner : Schema) : Prop :=
  ∃ properties, .properties properties ∈ demands targets schema ∧ (key, inner) ∈ properties

def IsTyped (type : ValueType) : Prop := .type [type] ∈ demands targets schema

/-- The items of an array have a schema. -/
def HasItems (item : Schema) : Prop := .items item ∈ demands targets schema

/-- An array has at least so many items. -/
def HasAtLeast (count : Nat) : Prop := .minItems count ∈ demands targets schema

/-- A pattern is to be found in the text, whatever its written form. -/
def HasPattern (pattern : Text.Pattern) : Prop :=
  ∃ source, .pattern source pattern ∈ demands targets schema

end Demands

/-! ## Conformance -/

/-- **The value conforms to the schema.** -/
def Conforms (targets : List (String × Schema)) (schema : Schema) (value : Json) : Prop :=
  ∃ place, violations targets value schema place = []

variable {targets : List (String × Schema)} {schema inner : Schema} {value : Json} {place : Place}

/-- The checks of the items of a value. -/
def itemChecksOf (targets : List (String × Schema)) : Json → List PartCheck
  | .arr values => itemChecks targets values
  | _ => []

/-- The checks of the members of a value. -/
def memberChecksOf (targets : List (String × Schema)) : Json → List (String × PartCheck)
  | .obj members => memberChecks targets members
  | _ => []

theorem violations_eq (targets : List (String × Schema)) (value : Json) :
    violations targets value =
      violationsWith targets value (itemChecksOf targets value) (memberChecksOf targets value) := by
  cases value <;> rw [violations] <;> first | rfl | simp

/-- A value that conforms meets each of the requirements. -/
theorem conforms_requirement
    (h : violations targets value schema place = []) {requirement : Requirement}
    (hmem : requirement ∈ demands targets schema) :
    Requirement.violations place value (itemChecksOf targets value)
      (memberChecksOf targets value) requirement = [] := by
  rw [violations_eq, violationsWith] at h
  unfold demands at hmem
  split at hmem
  · next requirements hresolve =>
    rw [hresolve] at h
    exact List.flatMap_eq_nil_iff.mp h requirement hmem
  · cases hmem

theorem lookup_memberChecks (targets : List (String × Schema)) (name : String)
    (members : List (String × Json)) :
    (memberChecks targets members).lookup name =
      (members.lookup name).map (violations targets) := by
  induction members with
  | nil => rfl
  | cons m rest ih =>
      obtain ⟨key, value⟩ := m
      rw [memberChecks, List.lookup_cons, List.lookup_cons, ih]
      cases name == key <;> rfl

theorem getElem?_itemChecks (targets : List (String × Schema)) (items : List Json) (n : Nat) :
    (itemChecks targets items)[n]? = items[n]?.map (violations targets) := by
  induction items generalizing n with
  | nil => rfl
  | cons item rest ih =>
      cases n with
      | zero => rfl
      | succ n => exact ih n

/-- A value is of the type that is asked for. -/
theorem Conforms.typed {type : ValueType} (h : Conforms targets schema value)
    (htype : IsTyped targets schema type) : type.holds value = true := by
  obtain ⟨place, h⟩ := h
  have hholds := conforms_requirement h htype
  rw [Requirement.violations] at hholds
  split at hholds
  · next hany => simpa using hany
  · cases hholds

theorem Conforms.object (h : Conforms targets schema value)
    (htype : IsTyped targets schema .object) : ∃ members, value = .obj members := by
  have hholds := h.typed htype
  cases value with
  | obj members => exact ⟨members, rfl⟩
  | _ => cases hholds

theorem Conforms.array (h : Conforms targets schema value)
    (htype : IsTyped targets schema .array) : ∃ items, value = .arr items := by
  have hholds := h.typed htype
  cases value with
  | arr items => exact ⟨items, rfl⟩
  | _ => cases hholds

theorem Conforms.string (h : Conforms targets schema value)
    (htype : IsTyped targets schema .string) : ∃ text, value = .str text := by
  have hholds := h.typed htype
  cases value with
  | str text => exact ⟨text, rfl⟩
  | _ => cases hholds

/-- An object has the members that are asked for. -/
theorem Conforms.required {members : List (String × Json)} {key : String}
    (h : Conforms targets schema (.obj members)) (hrequires : Requires targets schema key) :
    ∃ value, members.lookup key = some value := by
  obtain ⟨place, h⟩ := h
  obtain ⟨names, hnames, hkey⟩ := hrequires
  have hmissing := conforms_requirement h hnames
  rw [Requirement.violations, List.map_eq_nil_iff, List.filter_eq_nil_iff] at hmissing
  cases hlookup : members.lookup key with
  | some value => exact ⟨value, rfl⟩
  | none => exact absurd (by rw [hlookup]; rfl) (hmissing key hkey)

/-- **A member conforms to its schema.** -/
theorem Conforms.property {members : List (String × Json)} {key : String}
    (h : Conforms targets schema (.obj members)) (hproperty : HasProperty targets schema key inner)
    (hmember : members.lookup key = some value) : Conforms targets inner value := by
  obtain ⟨place, h⟩ := h
  obtain ⟨properties, hproperties, hkey⟩ := hproperty
  have hall := conforms_requirement h hproperties
  refine ⟨place.below (.member key), ?_⟩
  have hone := List.flatMap_eq_nil_iff.mp hall (key, inner) hkey
  rw [memberChecksOf] at hone
  dsimp only at hone
  rwa [lookup_memberChecks, hmember] at hone

/-- **An item conforms to the schema of the items.** -/
theorem Conforms.item {items : List Json} (h : Conforms targets schema (.arr items))
    (hitems : HasItems targets schema inner) (hmem : value ∈ items) :
    Conforms targets inner value := by
  obtain ⟨place, h⟩ := h
  obtain ⟨n, hn⟩ := List.mem_iff_getElem?.mp hmem
  have hall := conforms_requirement h hitems
  refine ⟨place.below (.item n), ?_⟩
  have hcheck : (violations targets value, n) ∈ (itemChecks targets items).zipIdx := by
    rw [List.mem_zipIdx_iff_getElem?, getElem?_itemChecks, hn]
    rfl
  exact List.flatMap_eq_nil_iff.mp hall (violations targets value, n) hcheck

/-- An array has as many items as are asked for. -/
theorem Conforms.length {items : List Json} {count : Nat}
    (h : Conforms targets schema (.arr items)) (hcount : HasAtLeast targets schema count) :
    count ≤ items.length := by
  obtain ⟨place, h⟩ := h
  have hshort := conforms_requirement h hcount
  rw [Requirement.violations] at hshort
  split at hshort
  · cases hshort
  · next henough => exact Nat.le_of_not_lt henough

/-- The pattern that is asked for is found in a text. -/
theorem Conforms.found {text : String} {pattern : Text.Pattern}
    (h : Conforms targets schema (.str text)) (hpattern : HasPattern targets schema pattern) :
    pattern.foundIn text = true := by
  obtain ⟨place, h⟩ := h
  obtain ⟨source, hpattern⟩ := hpattern
  have hmismatch := conforms_requirement h hpattern
  rw [Requirement.violations] at hmismatch
  split at hmismatch
  · assumption
  · cases hmismatch

end Schema

/-- Sorting neither makes nor hides violations. -/
theorem byPlace_eq_nil_iff {violations : List Violation} :
    byPlace violations = [] ↔ violations = [] := by
  rw [byPlace]
  constructor
  · intro h
    have hlength := congrArg List.length h
    rw [List.length_mergeSort] at hlength
    exact List.length_eq_zero_iff.mp hlength
  · rintro rfl
    exact List.mergeSort_nil

namespace SchemaDocument

theorem violations_eq_nil_iff (schema : SchemaDocument) (value : Json) :
    schema.violations value = [] ↔
      Schema.violations schema.targets value schema.root .root = [] :=
  byPlace_eq_nil_iff

/-- Nothing is found exactly if neither the known requirements nor the others find anything. -/
theorem findings_eq_ok_nil_iff {schema : SchemaDocument} {value : Json} :
    schema.findings value = .ok [] ↔
      schema.violations value = [] ∧ schema.further value = .ok [] := by
  unfold findings
  rw [bind_eq_ok_iff]
  simp only [pure_eq_ok_iff, byPlace_eq_nil_iff, List.append_eq_nil_iff, List.map_eq_nil_iff]
  constructor
  · rintro ⟨more, hmore, hviolations, rfl⟩
    exact ⟨hviolations, hmore⟩
  · rintro ⟨hviolations, hmore⟩
    exact ⟨[], hmore, hviolations, rfl⟩

end SchemaDocument

end OscalValidation
