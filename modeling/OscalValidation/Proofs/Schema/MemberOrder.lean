import OscalValidation.Proofs.Conversion.Acceptance
import OscalValidation.Proofs.Json.MemberOrder

set_option autoImplicit false

/-! # Conformance in another order

Whether a value conforms to a schema does not depend on the order of members: no requirement finds
anything in the one order and nothing in the other (`SchemaDocument.conforms_iff`). The violations
themselves need not be the same, since their wordings show the members in their order.
-/

namespace OscalValidation

open Json (Reordered)

/-- A type holds of values in both orders or in neither. -/
theorem ValueType.holds_eq {value value' : Json} (h : Reordered value value') (type : ValueType) :
    type.holds value = type.holds value' := by
  cases h with
  | leaf => rfl
  | arr => cases type <;> rfl
  | obj => cases type <;> rfl

namespace Schema

/-- Both checks find something or neither does, whatever the schema and the place. -/
def SameVerdict (check check' : PartCheck) : Prop :=
  ∀ schema place, check schema place = [] ↔ check' schema place = []

/-! ## Requirements -/

section Requirements

variable {value value' : Json} {items items' : List PartCheck}
  {members members' : List (String × PartCheck)} {place : Place}

/-- The same members are missing in both orders. -/
theorem required_nil_iff (h : Reordered value value') (hd : value.isDistinct = true)
    (names : List String) :
    Requirement.violations place value items members (.required names) = [] ↔
      Requirement.violations place value' items' members' (.required names) = [] := by
  have hmember := h.member? hd
  cases h with
  | leaf => rfl
  | arr => rfl
  | obj =>
      simp only [Requirement.violations, List.map_eq_nil_iff, List.filter_eq_nil_iff]
      refine forall₂_congr fun name _ => ?_
      have hname := hmember name
      rw [Json.member?, Json.member?] at hname
      generalize List.lookup name _ = found at hname ⊢
      generalize List.lookup name _ = found' at hname ⊢
      cases hname <;> rfl

/-- A member that is given conforms in both orders or in neither. -/
theorem properties_nil_iff
    (h : ∀ name, Option.Rel SameVerdict (members.lookup name) (members'.lookup name))
    (schemas : List (String × Schema)) :
    Requirement.violations place value items members (.properties schemas) = [] ↔
      Requirement.violations place value' items' members' (.properties schemas) = [] := by
  simp only [Requirement.violations, List.flatMap_eq_nil_iff]
  refine forall₂_congr fun property _ => ?_
  have hproperty := h property.1
  generalize List.lookup property.1 members = found at hproperty ⊢
  generalize List.lookup property.1 members' = found' at hproperty ⊢
  cases hproperty with
  | none => rfl
  | some hchecks => exact hchecks property.2 _

/-- Items conform in both orders or in neither. -/
theorem items_nil_iff (h : List.Forall₂ SameVerdict items items') (schema : Schema) :
    Requirement.violations place value items members (.items schema) = [] ↔
      Requirement.violations place value' items' members' (.items schema) = [] := by
  -- the positions of the items count on from any first one
  have hall : ∀ first,
      ((items.zipIdx first).flatMap fun item =>
        item.1 schema (place.below (.item item.2))) = [] ↔
      ((items'.zipIdx first).flatMap fun item =>
        item.1 schema (place.below (.item item.2))) = [] := by
    induction h with
    | nil => exact fun _ => Iff.rfl
    | cons first _ ih =>
        intro position
        rw [List.zipIdx_cons, List.zipIdx_cons, List.flatMap_cons, List.flatMap_cons,
          List.append_eq_nil_iff, List.append_eq_nil_iff, first, ih]
  exact hall 0

/-- **A requirement is met in both orders or in neither,** if this holds of what is in the
values. -/
theorem requirement_nil_iff (h : Reordered value value') (hd : value.isDistinct = true)
    (hitems : List.Forall₂ SameVerdict items items')
    (hmembers : ∀ name, Option.Rel SameVerdict (members.lookup name) (members'.lookup name))
    (requirement : Requirement) :
    Requirement.violations place value items members requirement = [] ↔
      Requirement.violations place value' items' members' requirement = [] := by
  cases requirement with
  | type types => simp [Requirement.violations, ValueType.holds_eq h]
  | required names => exact required_nil_iff h hd names
  | properties schemas => exact properties_nil_iff hmembers schemas
  | items schema => exact items_nil_iff hitems schema
  | minItems count =>
      cases h with
      | leaf => rfl
      | arr h =>
          simp only [Requirement.violations, h.length_eq]
          split <;> simp
      | obj => rfl
  | enum values => simp [Requirement.violations, h.same_eq hd]
  | pattern source pattern => cases h <;> rfl

/-- Values in both orders have violations of a schema or neither has, if this holds of what is in
them. -/
theorem violationsWith_sameVerdict (targets : List (String × Schema))
    (h : Reordered value value') (hd : value.isDistinct = true)
    (hitems : List.Forall₂ SameVerdict items items')
    (hmembers : ∀ name, Option.Rel SameVerdict (members.lookup name) (members'.lookup name)) :
    SameVerdict (violationsWith targets value items members)
      (violationsWith targets value' items' members') := by
  intro schema place
  unfold violationsWith
  cases schema.resolve targets (targets.length + 1) with
  | always => rfl
  | reference target => rfl
  | never => simp
  | all requirements =>
      dsimp only
      rw [List.flatMap_eq_nil_iff, List.flatMap_eq_nil_iff]
      exact forall₂_congr fun requirement _ => requirement_nil_iff h hd hitems hmembers requirement

end Requirements

/-! ## Values -/

/-- **A value conforms in both orders or in neither.** -/
theorem sameVerdict_of_reordered (targets : List (String × Schema)) {value value' : Json}
    (h : Reordered value value') (hd : value.isDistinct = true) :
    SameVerdict (violations targets value) (violations targets value') := by
  refine Reordered.induction
    (P := fun v v' => SameVerdict (violations targets v) (violations targets v'))
    ⟨?_, ?_, ?_⟩ h hd
  · intro value _ schema place
    rfl
  · intro items items' distinct h
    have hitems : List.Forall₂ SameVerdict (itemChecks targets items)
        (itemChecks targets items') := by
      clear distinct
      induction h with
      | nil => exact .nil
      | cons first _ ih => exact .cons first.2 ih
    have hreordered : Reordered (.arr items) (.arr items') :=
      .arr (.of_forall₂ (h.imp fun _ _ h => h.1))
    rw [violations, violations]
    exact violationsWith_sameVerdict targets hreordered distinct hitems fun _ => .none
  · intro members ordered members' distinct h perm
    have hmembers (name : String) : Option.Rel SameVerdict
        ((memberChecks targets members).lookup name)
        ((memberChecks targets members').lookup name) := by
      have hfound := Json.lookup_rel (Json.isDistinct_obj_iff.mp distinct).1 h perm name
      rw [lookup_memberChecks, lookup_memberChecks]
      generalize members.lookup name = found at hfound ⊢
      generalize members'.lookup name = found' at hfound ⊢
      cases hfound with
      | none => exact .none
      | some hvalues => exact .some hvalues.2
    have hreordered : Reordered (.obj members) (.obj members') :=
      .obj (.of_forall₂ (h.imp fun _ _ h => h.imp fun _ _ h => h.1)) perm
    rw [violations, violations]
    exact violationsWith_sameVerdict targets hreordered distinct .nil hmembers

end Schema

/-- **Conformance does not depend on the order of members.** -/
theorem SchemaDocument.conforms_iff (schema : SchemaDocument) {document document' : Json}
    (h : Reordered document document') (hd : document.isDistinct = true) :
    schema.violations document = [] ↔ schema.violations document' = [] := by
  rw [schema.violations_eq_nil_iff, schema.violations_eq_nil_iff]
  exact Schema.sameVerdict_of_reordered schema.targets h hd schema.root .root

end OscalValidation
