import Mathlib.Data.List.Perm.Basic
import OscalValidation.Proofs.Json.Distinct

set_option autoImplicit false

/-! # The order of members

`Reordered` says that two documents differ only in the order in which objects have their members.
What holds of such documents is proved by one induction (`Reordered.induction`): scalars are the
same, items of arrays are reordered one by one, and the members of an object are reordered in
their values and then put in another order. As long as names are distinct, the order does not show
when a member is looked up (`Reordered.member?`) or a value is compared (`Reordered.same_eq`).
-/

namespace OscalValidation

namespace Json

/-! ## Documents with members in another order -/

/-- The value is neither an array nor an object. -/
def IsLeaf : Json → Prop
  | .arr _ | .obj _ => False
  | _ => True

mutual

/-- **The documents differ only in the order of members,** at any depth. -/
inductive Reordered : Json → Json → Prop
  | leaf {value : Json} (h : value.IsLeaf) : Reordered value value
  /-- Arrays have their items in the same order. -/
  | arr {items items' : List Json} (h : ReorderedItems items items') :
      Reordered (.arr items) (.arr items')
  /-- Objects have the same members, in any order. -/
  | obj {members ordered members' : List (String × Json)} (h : ReorderedMembers members ordered)
      (perm : ordered.Perm members') : Reordered (.obj members) (.obj members')

/-- The items differ one by one only in the order of members. -/
inductive ReorderedItems : List Json → List Json → Prop
  | nil : ReorderedItems [] []
  | cons {item item' : Json} {items items' : List Json} (first : Reordered item item')
      (rest : ReorderedItems items items') : ReorderedItems (item :: items) (item' :: items')

/-- The members have the same names, and their values differ only in the order of members. -/
inductive ReorderedMembers : List (String × Json) → List (String × Json) → Prop
  | nil : ReorderedMembers [] []
  | cons {name : String} {value value' : Json} {members members' : List (String × Json)}
      (first : Reordered value value') (rest : ReorderedMembers members members') :
      ReorderedMembers ((name, value) :: members) ((name, value') :: members')

end

/-- Two members have one name, and their values are related. -/
def MembersAlike (r : Json → Json → Prop) (m m' : String × Json) : Prop :=
  m.1 = m'.1 ∧ r m.2 m'.2

theorem ReorderedItems.of_forall₂ {items items' : List Json}
    (h : List.Forall₂ Reordered items items') : ReorderedItems items items' := by
  induction h with
  | nil => exact .nil
  | cons first _ ih => exact .cons first ih

/-- There are as many items in both orders. -/
theorem ReorderedItems.length_eq {items items' : List Json} :
    ReorderedItems items items' → items.length = items'.length
  | .nil => rfl
  | .cons _ rest => congrArg (· + 1) rest.length_eq

theorem ReorderedMembers.of_forall₂ {members members' : List (String × Json)}
    (h : List.Forall₂ (MembersAlike Reordered) members members') :
    ReorderedMembers members members' := by
  induction h with
  | nil => exact .nil
  | @cons m m' _ _ first _ ih =>
      obtain ⟨name, value⟩ := m
      obtain ⟨name', value'⟩ := m'
      obtain ⟨rfl, hvalue⟩ := first
      exact .cons hvalue ih

/-! ## Induction -/

/-- **What holds of values in both orders if it holds of what is in them.** -/
structure KeptByOrder (P : Json → Json → Prop) : Prop where
  /-- It holds of a scalar and the scalar itself. -/
  leaf {value : Json} (h : value.IsLeaf) : P value value
  /-- It holds of arrays if it does item by item. -/
  arr {items items' : List Json} (distinct : (Json.arr items).isDistinct = true)
    (h : List.Forall₂ (fun v v' => Reordered v v' ∧ P v v') items items') :
    P (.arr items) (.arr items')
  /-- It holds of objects if it does member by member, in any order. -/
  obj {members ordered members' : List (String × Json)}
    (distinct : (Json.obj members).isDistinct = true)
    (h : List.Forall₂ (MembersAlike fun v v' => Reordered v v' ∧ P v v') members ordered)
    (perm : ordered.Perm members') : P (.obj members) (.obj members')

section Induction

variable {P : Json → Json → Prop}

mutual

/-- **Induction over documents with distinct names that differ only in the order of members.** -/
theorem Reordered.induction (kept : KeptByOrder P) {value value' : Json} :
    Reordered value value' → value.isDistinct = true → P value value'
  | .leaf h, _ => kept.leaf h
  | .arr h, hd => kept.arr hd (ReorderedItems.forall₂ kept h hd)
  | .obj h perm, hd =>
      kept.obj hd (ReorderedMembers.forall₂ kept h (isDistinct_obj_iff.mp hd).2) perm

theorem ReorderedItems.forall₂ (kept : KeptByOrder P) {items items' : List Json} :
    ReorderedItems items items' → areDistinct items = true →
      List.Forall₂ (fun v v' => Reordered v v' ∧ P v v') items items'
  | .nil, _ => .nil
  | .cons first rest, hd =>
      have hitems := areDistinct_cons_iff.mp hd
      .cons ⟨first, Reordered.induction kept first hitems.1⟩
        (ReorderedItems.forall₂ kept rest hitems.2)

theorem ReorderedMembers.forall₂ (kept : KeptByOrder P) {members members' : List (String × Json)} :
    ReorderedMembers members members' → haveDistinct members = true →
      List.Forall₂ (MembersAlike fun v v' => Reordered v v' ∧ P v v') members members'
  | .nil, _ => .nil
  | .cons first rest, hd =>
      have hmembers := haveDistinct_cons_iff.mp hd
      .cons ⟨rfl, first, Reordered.induction kept first hmembers.1⟩
        (ReorderedMembers.forall₂ kept rest hmembers.2)

end

end Induction

section Members

variable {r s : Json → Json → Prop} {members ordered members' : List (String × Json)}

theorem MembersAlike.imp {m m' : String × Json} (h : MembersAlike r m m')
    (himp : ∀ v v', r v v' → s v v') : MembersAlike s m m' :=
  ⟨h.1, himp _ _ h.2⟩

/-- Members that are alike have the same names. -/
theorem map_fst_of_membersAlike (h : List.Forall₂ (MembersAlike r) members ordered) :
    members.map (·.1) = ordered.map (·.1) := by
  induction h with
  | nil => rfl
  | cons first _ ih => rw [List.map_cons, List.map_cons, first.1, ih]

end Members

/-- **Names are distinct in the other order too.** -/
theorem Reordered.isDistinct {value value' : Json} (h : Reordered value value')
    (hd : value.isDistinct = true) : value'.isDistinct = true := by
  refine Reordered.induction (P := fun _ v' => v'.isDistinct = true) ⟨?_, ?_, ?_⟩ h hd
  · intro value hleaf
    cases value <;> first | rfl | contradiction
  · rintro items items' - h
    induction h with
    | nil => rfl
    | cons first _ ih => exact areDistinct_cons_iff.mpr ⟨first.2, ih⟩
  · intro members ordered members' distinct h perm
    have names := (isDistinct_obj_iff.mp distinct).1
    have hordered : haveDistinct ordered = true := by
      clear names distinct perm
      induction h with
      | nil => rfl
      | cons first _ ih => exact haveDistinct_cons_iff.mpr ⟨first.2.2, ih⟩
    rw [map_fst_of_membersAlike h] at names
    refine isDistinct_obj_iff.mpr ⟨(perm.map (·.1)).nodup_iff.mp names, ?_⟩
    rw [haveDistinct_iff] at hordered ⊢
    exact fun m hm => hordered m (perm.mem_iff.mpr hm)

/-- **Putting members in another order can be undone.** -/
theorem Reordered.symm {value value' : Json} (h : Reordered value value')
    (hd : value.isDistinct = true) : Reordered value' value := by
  refine Reordered.induction (P := fun v v' => Reordered v' v) ⟨?_, ?_, ?_⟩ h hd
  · intro value hleaf
    exact .leaf hleaf
  · rintro items items' - h
    exact .arr (.of_forall₂ (h.imp fun _ _ h => h.2).flip)
  · intro members ordered members' _ h perm
    have hback : List.Forall₂ (MembersAlike Reordered) ordered members :=
      (h.imp fun _ _ h => (⟨h.1.symm, h.2.2⟩ : MembersAlike Reordered _ _)).flip
    -- the members are put in the other order before their values are put in theirs
    obtain ⟨ordered', hordered, hperm⟩ := List.perm_comp_forall₂ perm.symm hback
    exact .obj (.of_forall₂ hordered) hperm

/-! ## Members -/

section Members

variable {r : Json → Json → Prop} {members ordered members' : List (String × Json)}

theorem lookup_eq_of_perm (perm : ordered.Perm members') (h : (ordered.map (·.1)).Nodup)
    (name : String) : ordered.lookup name = members'.lookup name := by
  have h' := (perm.map (·.1)).nodup_iff.mp h
  refine Option.ext fun value => ?_
  rw [lookup_eq_some_iff_mem h, lookup_eq_some_iff_mem h', perm.mem_iff]

theorem lookup_rel_of_membersAlike (h : List.Forall₂ (MembersAlike r) members ordered)
    (name : String) : Option.Rel r (members.lookup name) (ordered.lookup name) := by
  induction h with
  | nil => exact .none
  | @cons m m' _ _ first _ ih =>
      rw [List.lookup_cons, List.lookup_cons, ← first.1]
      split
      · exact .some first.2
      · exact ih

/-- **What is found under a name in the one object and in the other:** nothing, or values that are
alike. -/
theorem lookup_rel (names : (members.map (·.1)).Nodup)
    (h : List.Forall₂ (MembersAlike r) members ordered) (perm : ordered.Perm members')
    (name : String) : Option.Rel r (members.lookup name) (members'.lookup name) := by
  rw [map_fst_of_membersAlike h] at names
  rw [← lookup_eq_of_perm perm names]
  exact lookup_rel_of_membersAlike h name

end Members

/-- **A member has a value in both orders or in neither,** and the values are reordered. -/
theorem Reordered.member? {value value' : Json} (h : Reordered value value')
    (hd : value.isDistinct = true) (name : String) :
    Option.Rel Reordered (value.member? name) (value'.member? name) := by
  refine Reordered.induction
    (P := fun v v' => Option.Rel Reordered (v.member? name) (v'.member? name)) ⟨?_, ?_, ?_⟩ h hd
  · intro value hleaf
    cases value <;> first | exact .none | contradiction
  · intro items items' _ _
    exact .none
  · intro members ordered members' distinct h perm
    have names := (isDistinct_obj_iff.mp distinct).1
    exact lookup_rel names (h.imp fun _ _ h => h.imp fun _ _ h => h.1) perm name

/-! ## Equality -/

/-- **Equality with a value does not depend on the order of members.** -/
theorem Reordered.same_eq {value value' : Json} (h : Reordered value value')
    (hd : value.isDistinct = true) (truthIsNumber : Bool) (other : Json) :
    same truthIsNumber other value = same truthIsNumber other value' := by
  refine Reordered.induction (P := fun v v' => ∀ other,
    same truthIsNumber other v = same truthIsNumber other v') ⟨?_, ?_, ?_⟩ h hd other
  · intro value _ other
    rfl
  · rintro items items' - h other
    cases other with
    | arr xs =>
        rw [same, same]
        induction h generalizing xs with
        | nil => rfl
        | cons first _ ih =>
            cases xs with
            | nil => rfl
            | cons x xs => rw [sameItems, sameItems, first.2, ih]
    | real value => cases value <;> rfl
    | _ => rfl
  · intro members ordered members' distinct h perm other
    have names := (isDistinct_obj_iff.mp distinct).1
    cases other with
    | obj xs =>
        -- members of the right side are looked up by name, those of the left go one by one
        have hmembers : sameMembers truthIsNumber xs members =
            sameMembers truthIsNumber xs members' := by
          induction xs with
          | nil => rfl
          | cons x xs ih =>
              obtain ⟨name, x⟩ := x
              have hfound := lookup_rel names h perm name
              rw [sameMembers, sameMembers, ih]
              generalize members.lookup name = found at hfound ⊢
              generalize members'.lookup name = found' at hfound ⊢
              cases hfound with
              | none => rfl
              | some hvalue =>
                  dsimp only
                  rw [hvalue.2 x]
        rw [same, same, hmembers, h.length_eq, perm.length_eq]
    | real value => cases value <;> rfl
    | _ => rfl

end Json

end OscalValidation
