import Mathlib.Data.List.Nodup
import OscalValidation.Proofs.Json.Reading

set_option autoImplicit false

/-! # Names of members

No object of a document has two members of one name: setting a member never adds a name that is
already there (`nodup_setMember`), so no document that is read has one (`isDistinct_of_read`).
-/

namespace OscalValidation

namespace Json

mutual

/-- **No object in the value has two members of one name.** -/
def isDistinct : Json → Bool
  | .arr items => areDistinct items
  | .obj members => decide (members.map (·.1)).Nodup && haveDistinct members
  | _ => true

/-- The items have no objects with two members of one name. -/
def areDistinct : List Json → Bool
  | [] => true
  | item :: rest => item.isDistinct && areDistinct rest

/-- The values of the members have no objects with two members of one name. -/
def haveDistinct : List (String × Json) → Bool
  | [] => true
  | (_, value) :: rest => value.isDistinct && haveDistinct rest

end

theorem isDistinct_obj_iff {members : List (String × Json)} :
    (obj members).isDistinct = true ↔
      (members.map (·.1)).Nodup ∧ haveDistinct members = true := by
  rw [isDistinct, Bool.and_eq_true, decide_eq_true_eq]

theorem areDistinct_cons_iff {item : Json} {rest : List Json} :
    areDistinct (item :: rest) = true ↔ item.isDistinct = true ∧ areDistinct rest = true := by
  rw [areDistinct, Bool.and_eq_true]

theorem haveDistinct_cons_iff {name : String} {value : Json} {rest : List (String × Json)} :
    haveDistinct ((name, value) :: rest) = true ↔
      value.isDistinct = true ∧ haveDistinct rest = true := by
  rw [haveDistinct, Bool.and_eq_true]

theorem areDistinct_iff {items : List Json} :
    areDistinct items = true ↔ ∀ item ∈ items, item.isDistinct = true := by
  induction items with
  | nil => simp [areDistinct]
  | cons item rest ih => rw [areDistinct_cons_iff, ih, List.forall_mem_cons]

theorem haveDistinct_iff {members : List (String × Json)} :
    haveDistinct members = true ↔ ∀ m ∈ members, m.2.isDistinct = true := by
  induction members with
  | nil => simp [haveDistinct]
  | cons m rest ih => rw [haveDistinct_cons_iff, ih, List.forall_mem_cons]

/-- The value of a member has distinct names if the document has. -/
theorem isDistinct_of_member? {document value : Json} {name : String}
    (h : document.member? name = some value) (hd : document.isDistinct = true) :
    value.isDistinct = true := by
  cases document with
  | obj members =>
      rw [member?] at h
      have hm := (isDistinct_obj_iff.mp hd).2
      clear hd
      induction members with
      | nil => cases h
      | cons member rest ih =>
          obtain ⟨hvalue, hrest⟩ := haveDistinct_cons_iff.mp hm
          rw [List.lookup_cons] at h
          split at h
          · cases h
            exact hvalue
          · exact ih h hrest
  | _ => cases h

/-! ## Setting members -/

/-- A name that is not there comes last. -/
theorem map_fst_setMember {name : String} {value : Json} {members : List (String × Json)} :
    (setMember name value members).map (·.1) =
      members.map (·.1) ++ if name ∈ members.map (·.1) then [] else [name] := by
  induction members with
  | nil => simp [setMember]
  | cons member rest ih =>
      obtain ⟨other, old⟩ := member
      rw [setMember]
      by_cases hother : other = name
      · simp [hother]
      · have hother' : name ≠ other := Ne.symm hother
        rw [if_neg hother, List.map_cons, List.map_cons, ih, List.cons_append]
        simp only [List.mem_cons, hother', false_or]

theorem nodup_setMember {name : String} {value : Json} {members : List (String × Json)}
    (h : (members.map (·.1)).Nodup) : ((setMember name value members).map (·.1)).Nodup := by
  rw [map_fst_setMember]
  by_cases hname : name ∈ members.map (·.1)
  · rw [if_pos hname, List.append_nil]
    exact h
  · rw [if_neg hname]
    exact h.append (List.nodup_singleton name) (by simpa using hname)

/-- What holds of the members and of a value holds after the value was set. -/
theorem forall_mem_setMember {p : Json → Prop} {name : String} {value : Json}
    {members : List (String × Json)} (hv : p value) (h : ∀ m ∈ members, p m.2) :
    ∀ m ∈ setMember name value members, p m.2 := by
  induction members with
  | nil => exact List.forall_mem_singleton.mpr hv
  | cons member rest ih =>
      obtain ⟨hfirst, hrest⟩ := List.forall_mem_cons.mp h
      rw [setMember]
      split
      · exact List.forall_mem_cons.mpr ⟨hv, hrest⟩
      · exact List.forall_mem_cons.mpr ⟨hfirst, ih hrest⟩

theorem forall_mem_setMembers {p : Json → Prop} {members added : List (String × Json)}
    (h : ∀ m ∈ members, p m.2) (ha : ∀ m ∈ added, p m.2) :
    ∀ m ∈ setMembers members added, p m.2 := by
  induction added generalizing members with
  | nil => exact h
  | cons member rest ih =>
      obtain ⟨hfirst, hrest⟩ := List.forall_mem_cons.mp ha
      exact ih (forall_mem_setMember hfirst h) hrest

theorem haveDistinct_setMember {name : String} {value : Json} {members : List (String × Json)}
    (hv : value.isDistinct = true) (h : haveDistinct members = true) :
    haveDistinct (setMember name value members) = true :=
  haveDistinct_iff.mpr
    (forall_mem_setMember (p := fun value => value.isDistinct = true) hv (haveDistinct_iff.mp h))

/-- **Members that are set one by one make an object with distinct names.** -/
theorem isDistinct_setMembers {members added : List (String × Json)}
    (h : (obj members).isDistinct = true) (ha : haveDistinct added = true) :
    (obj (setMembers members added)).isDistinct = true := by
  induction added generalizing members with
  | nil => exact h
  | cons member rest ih =>
      obtain ⟨hnodup, hold⟩ := isDistinct_obj_iff.mp h
      obtain ⟨hv, hrest⟩ := haveDistinct_cons_iff.mp ha
      exact ih (isDistinct_obj_iff.mpr
        ⟨nodup_setMember hnodup, haveDistinct_setMember hv hold⟩) hrest

/-! ## Reading -/

/-- Reading makes objects with distinct names. -/
theorem keptByReading_isDistinct : KeptByReading fun value => value.isDistinct = true where
  str _ := rfl
  literal := by decide
  int _ := rfl
  real _ _ _ := rfl
  arr h := areDistinct_iff.mpr h
  -- a name that comes again replaces the member that it had
  obj h := isDistinct_setMembers rfl (haveDistinct_iff.mpr h)

/-- **A document that is read has distinct names.** -/
theorem isDistinct_of_read {text : String} {document : Json} (h : read text = .ok document) :
    document.isDistinct = true :=
  keptByReading_isDistinct.of_read h

end Json

end OscalValidation
