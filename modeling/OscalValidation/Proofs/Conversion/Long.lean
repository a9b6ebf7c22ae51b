import OscalValidation.Proofs.Conversion.Convertible
import OscalValidation.Proofs.Json.Reading
import OscalValidation.Proofs.Json.Distinct

set_option autoImplicit false

/-! # Integers with too many digits

An integer that cannot be written is a fault of its own where a conversion or the wording of a
violation comes to it. It must be in the document then (`holdsLong_of_blames`,
`Schema.holdsLong_of_violations`), and no document that is read holds one
(`Json.holdsLong_of_read`).
-/

namespace OscalValidation

/-! ## Values that hold one -/

namespace Json

theorem itemsHoldLong_iff {items : List Json} :
    itemsHoldLong items = true ↔ ∃ item ∈ items, item.holdsLong = true := by
  induction items with
  | nil => simp [itemsHoldLong]
  | cons item rest ih => rw [itemsHoldLong, Bool.or_eq_true, ih, List.exists_mem_cons_iff]

theorem membersHoldLong_iff {members : List (String × Json)} :
    membersHoldLong members = true ↔ ∃ m ∈ members, m.2.holdsLong = true := by
  induction members with
  | nil => simp [membersHoldLong]
  | cons m rest ih => rw [membersHoldLong, Bool.or_eq_true, ih, List.exists_mem_cons_iff]

theorem holdsLong_arr_iff {items : List Json} :
    (arr items).holdsLong = true ↔ ∃ item ∈ items, item.holdsLong = true := by
  rw [holdsLong, itemsHoldLong_iff]

theorem holdsLong_obj_iff {members : List (String × Json)} :
    (obj members).holdsLong = true ↔ ∃ m ∈ members, m.2.holdsLong = true := by
  rw [holdsLong, membersHoldLong_iff]

/-- What is in a value is in it with all that it holds. -/
theorem Holds.holdsLong {value inner : Json} (h : value.Holds inner)
    (hinner : inner.holdsLong = true) : value.holdsLong = true := by
  induction h with
  | self => exact hinner
  | member mem _ ih => exact holdsLong_obj_iff.mpr ⟨_, mem, ih hinner⟩
  | item mem _ ih => exact holdsLong_arr_iff.mpr ⟨_, mem, ih hinner⟩

theorem holdsLong_of_member? {document value : Json} {name : String}
    (h : document.member? name = some value) (hvalue : value.holdsLong = true) :
    document.holdsLong = true := by
  cases document with
  | obj members => exact holdsLong_obj_iff.mpr ⟨_, mem_of_lookup h, hvalue⟩
  | _ => cases h

theorem keptByReading_not_holdsLong : KeptByReading fun value => value.holdsLong = false where
  str _ := rfl
  literal := by decide
  int short := short
  real _ _ _ := rfl
  arr h := by
    rw [← Bool.not_eq_true, holdsLong_arr_iff]
    rintro ⟨item, hitem, hlong⟩
    rw [h item hitem] at hlong
    cases hlong
  obj h := by
    rw [← Bool.not_eq_true, holdsLong_obj_iff]
    rintro ⟨m, hm, hlong⟩
    have hnone : ∀ m ∈ ([] : List (String × Json)), m.2.holdsLong = false := nofun
    have hshort := forall_mem_setMembers (p := fun v => v.holdsLong = false) hnone h m hm
    rw [hshort] at hlong
    cases hlong

/-- **No document that is read holds an integer with too many digits.** -/
theorem holdsLong_of_read {text : String} {document : Json} (h : read text = .ok document) :
    document.holdsLong = false :=
  keptByReading_not_holdsLong.of_read h

end Json

/-! ## Spots -/

namespace Conversion

section Spots

variable (rules : ConversionRules)

mutual

theorem holds_of_mem_valueSpots (label : Label) (place : Place) :
    (value : Json) → ∀ s ∈ valueSpots rules label place value, value.Holds s.value
  | .obj members => by
      intro s hs
      rw [valueSpots] at hs
      rcases List.mem_cons.mp hs with rfl | hs
      · exact .self _
      · obtain ⟨m, hm, hholds⟩ := holds_of_mem_memberSpots label place members s hs
        exact .member hm hholds
  | .null | .bool _ | .int _ | .real _ | .str _ | .arr _ => by
      intro s hs
      rw [valueSpots] at hs <;> try simp
      rw [List.mem_singleton.mp hs]
      exact .self _

theorem holds_of_mem_memberSpots (label : Label) (place : Place) :
    (members : List (String × Json)) → ∀ s ∈ memberSpots rules label place members,
      ∃ m ∈ members, m.2.Holds s.value
  | [] => by
      intro s hs
      rw [memberSpots] at hs
      cases hs
  | (key, value) :: rest => by
      intro s hs
      have hrest : s ∈ memberSpots rules label place rest →
          ∃ m ∈ (key, value) :: rest, m.2.Holds s.value := fun hs =>
        (holds_of_mem_memberSpots label place rest s hs).imp
          fun m hm => ⟨List.mem_cons_of_mem _ hm.1, hm.2⟩
      unfold memberSpots at hs
      rcases List.mem_append.mp hs with hs | hs
      · refine ⟨_, List.mem_cons_self, ?_⟩
        split at hs
        · rw [List.mem_singleton.mp hs]
          exact .self _
        split at hs
        · rw [List.mem_singleton.mp hs]
          exact .self _
        cases value with
        | arr items =>
            obtain ⟨item, hitem, hholds⟩ := holds_of_mem_itemSpots _ _ 0 items s hs
            exact .item hitem hholds
        | _ => exact holds_of_mem_valueSpots _ _ _ s hs
      · exact hrest hs

theorem holds_of_mem_itemSpots (label : Label) (place : Place) (position : Nat) :
    (items : List Json) → ∀ s ∈ itemSpots rules label place position items,
      ∃ item ∈ items, item.Holds s.value
  | [] => by
      intro s hs
      rw [itemSpots] at hs
      cases hs
  | item :: rest => by
      intro s hs
      rw [itemSpots] at hs
      rcases List.mem_append.mp hs with hs | hs
      · exact ⟨item, List.mem_cons_self, holds_of_mem_valueSpots _ _ item s hs⟩
      · obtain ⟨other, hother, hholds⟩ := holds_of_mem_itemSpots label place (position + 1) rest s hs
        exact ⟨other, List.mem_cons_of_mem _ hother, hholds⟩

end

end Spots

/-- **A conversion that ends for too many digits has come to an integer that has them.** -/
theorem holdsLong_of_blames {rules : ConversionRules} {label : Label} {place : Place}
    {value : Json} {spot : Spot} (hs : spot ∈ valueSpots rules label place value)
    (h : Blames .integerTooLong spot) : value.holdsLong = true := by
  have hholds := holds_of_mem_valueSpots rules label place value spot hs
  cases h with
  | integerTooLong long => exact hholds.holdsLong long

end Conversion

/-! ## Violations -/

namespace Schema

/-- What the check finds shows such an integer only if the value holds one. -/
def ShowsHeld (value : Json) (check : PartCheck) : Prop :=
  ∀ schema place, ∀ violation ∈ check schema place, violation.offence.holdsLong = true →
    value.holdsLong = true

variable {value : Json}

/-- What a requirement finds shows the value, or what the checks of its parts show. -/
theorem showsHeld_requirement {place : Place} {items : List PartCheck}
    {members : List (String × PartCheck)} (hitems : ∀ check ∈ items, ShowsHeld value check)
    (hmembers : ∀ m ∈ members, ShowsHeld value m.2) (requirement : Requirement) :
    ∀ violation ∈ Requirement.violations place value items members requirement,
      violation.offence.holdsLong = true → value.holdsLong = true := by
  intro violation hviolation hlong
  unfold Requirement.violations at hviolation
  -- an offence shows the value itself, except below members and items and for absent members
  cases requirement with
  | type types =>
      dsimp only at hviolation
      split at hviolation
      · cases hviolation
      · rw [List.mem_singleton.mp hviolation] at hlong
        exact hlong
  | required names =>
      dsimp only at hviolation
      split at hviolation
      · obtain ⟨name, -, rfl⟩ := List.mem_map.mp hviolation
        cases hlong
      · cases hviolation
  | properties schemas =>
      obtain ⟨⟨name, schema⟩, -, hviolation⟩ := List.mem_flatMap.mp hviolation
      dsimp only at hviolation
      split at hviolation
      · next check hcheck => exact hmembers _ (mem_of_lookup hcheck) _ _ _ hviolation hlong
      · cases hviolation
  | items schema =>
      obtain ⟨⟨check, n⟩, hcheck, hviolation⟩ := List.mem_flatMap.mp hviolation
      exact hitems check (List.fst_mem_of_mem_zipIdx hcheck) _ _ _ hviolation hlong
  | minItems count =>
      dsimp only at hviolation
      split at hviolation
      · split at hviolation
        · rw [List.mem_singleton.mp hviolation] at hlong
          exact hlong
        · cases hviolation
      · cases hviolation
  | enum values =>
      dsimp only at hviolation
      split at hviolation
      · cases hviolation
      · rw [List.mem_singleton.mp hviolation] at hlong
        exact hlong
  | pattern source pattern =>
      dsimp only at hviolation
      split at hviolation
      · split at hviolation
        · cases hviolation
        · rw [List.mem_singleton.mp hviolation] at hlong
          exact hlong
      · cases hviolation

theorem showsHeld_violationsWith (targets : List (String × Schema)) {items : List PartCheck}
    {members : List (String × PartCheck)} (hitems : ∀ check ∈ items, ShowsHeld value check)
    (hmembers : ∀ m ∈ members, ShowsHeld value m.2) :
    ShowsHeld value (violationsWith targets value items members) := by
  intro schema place violation hviolation hlong
  unfold violationsWith at hviolation
  split at hviolation
  · cases hviolation
  · cases hviolation
  · rw [List.mem_singleton.mp hviolation] at hlong
    exact hlong
  · obtain ⟨requirement, -, hviolation⟩ := List.mem_flatMap.mp hviolation
    exact showsHeld_requirement hitems hmembers requirement violation hviolation hlong

section Values

variable (targets : List (String × Schema))

mutual

/-- **A violation shows such an integer only if the value holds one.** -/
theorem showsHeld_violations : (value : Json) → ShowsHeld value (violations targets value)
  | .arr items => by
      rw [violations]
      refine showsHeld_violationsWith targets (fun check hcheck => ?_) nofun
      obtain ⟨item, hitem, held⟩ := showsHeld_itemChecks items check hcheck
      exact fun schema place violation hviolation hlong =>
        Json.holdsLong_arr_iff.mpr ⟨item, hitem, held schema place violation hviolation hlong⟩
  | .obj members => by
      rw [violations]
      refine showsHeld_violationsWith targets nofun fun check hcheck => ?_
      obtain ⟨m, hm, held⟩ := showsHeld_memberChecks members check hcheck
      exact fun schema place violation hviolation hlong =>
        Json.holdsLong_obj_iff.mpr ⟨m, hm, held schema place violation hviolation hlong⟩
  | .null | .bool _ | .int _ | .real _ | .str _ => showsHeld_violationsWith targets nofun nofun

theorem showsHeld_itemChecks : (items : List Json) → ∀ check ∈ itemChecks targets items,
    ∃ item ∈ items, ShowsHeld item check
  | [] => nofun
  | item :: rest => by
      intro check hcheck
      rcases List.mem_cons.mp hcheck with rfl | hcheck
      · exact ⟨item, List.mem_cons_self, showsHeld_violations item⟩
      · obtain ⟨other, hother, held⟩ := showsHeld_itemChecks rest check hcheck
        exact ⟨other, List.mem_cons_of_mem _ hother, held⟩

theorem showsHeld_memberChecks : (members : List (String × Json)) →
    ∀ check ∈ memberChecks targets members, ∃ m ∈ members, ShowsHeld m.2 check.2
  | [] => nofun
  | (name, value) :: rest => by
      intro check hcheck
      rcases List.mem_cons.mp hcheck with rfl | hcheck
      · exact ⟨_, List.mem_cons_self, showsHeld_violations value⟩
      · obtain ⟨other, hother, held⟩ := showsHeld_memberChecks rest check hcheck
        exact ⟨other, List.mem_cons_of_mem _ hother, held⟩

end

end Values

end Schema

theorem SchemaDocument.holdsLong_of_violations {schema : SchemaDocument} {value : Json}
    {violation : Violation} (h : violation ∈ schema.violations value)
    (hlong : violation.offence.holdsLong = true) : value.holdsLong = true := by
  rw [violations, byPlace, List.mem_mergeSort] at h
  exact Schema.showsHeld_violations _ value _ _ violation h hlong

end OscalValidation
