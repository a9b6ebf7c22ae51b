import Mathlib.Data.List.Perm.Subperm
import OscalValidation.Proofs.Decimal.Standard
import OscalValidation.Proofs.Json.MemberOrder

set_option autoImplicit false

/-! # Equality of values

Scalars are equal exactly if they denote the same (`sameScalar_iff`), whether they are written as
truth values, integers or numbers with a fraction. So equality is an equivalence of the values that
can be read (`same_refl`, `same_symm`, `same_trans`).
-/

namespace OscalValidation

namespace Json

/-! ## Values that can be read -/

/-- **The value is as values that are read are:** names are distinct and numbers are in standard
form, at any depth. -/
inductive IsProper : Json → Prop
  /-- A scalar is, if it is no number out of standard form. -/
  | leaf {value : Json} (h : value.IsLeaf)
      (standard : ∀ number, value = .real number → number.IsStandard) : IsProper value
  /-- An array is if its items are. -/
  | arr {items : List Json} (h : ∀ item ∈ items, IsProper item) : IsProper (.arr items)
  /-- An object is if its names are distinct and its values are proper. -/
  | obj {members : List (String × Json)} (names : (members.map (·.1)).Nodup)
      (h : ∀ m ∈ members, IsProper m.2) : IsProper (.obj members)

theorem isProper_str (text : String) : (str text).IsProper := .leaf trivial nofun

theorem isProper_arr_iff {items : List Json} :
    (arr items).IsProper ↔ ∀ item ∈ items, item.IsProper := by
  refine ⟨fun h => ?_, .arr⟩
  cases h with
  | leaf h => cases h
  | arr h => exact h

theorem isProper_obj_iff {members : List (String × Json)} :
    (obj members).IsProper ↔ (members.map (·.1)).Nodup ∧ ∀ m ∈ members, m.2.IsProper := by
  refine ⟨fun h => ?_, fun h => .obj h.1 h.2⟩
  cases h with
  | leaf h => cases h
  | obj names h => exact ⟨names, h⟩

/-- Members that are set one by one make a proper object. -/
theorem isProper_setMembers {members added : List (String × Json)} (h : (obj members).IsProper)
    (ha : ∀ m ∈ added, m.2.IsProper) : (obj (setMembers members added)).IsProper := by
  induction added generalizing members with
  | nil => exact h
  | cons member rest ih =>
      obtain ⟨names, hvalues⟩ := isProper_obj_iff.mp h
      obtain ⟨hfirst, hrest⟩ := List.forall_mem_cons.mp ha
      exact ih (.obj (nodup_setMember names) (forall_mem_setMember hfirst hvalues)) hrest

/-- **Whatever is read is proper.** -/
theorem keptByReading_isProper : KeptByReading IsProper where
  str := isProper_str
  literal := by
    intro literal hliteral
    simp only [literals, List.mem_cons, List.not_mem_nil, or_false] at hliteral
    rcases hliteral with rfl | rfl | rfl | rfl | rfl | rfl <;> refine .leaf trivial ?_ <;>
      rintro _ ⟨⟩ <;> trivial
  int _ := .leaf trivial nofun
  real negative digits exponent := by
    refine .leaf trivial ?_
    rintro _ ⟨⟩
    exact Binary64.isStandard_ofDecimal negative digits exponent
  arr := .arr
  obj h := isProper_setMembers (.obj .nil nofun) h

/-! ## What scalars denote -/

/-- What a scalar denotes. -/
inductive Meaning
  | nothing
  | text (content : String)
  | number (value : ℚ)
  | infinity (negative : Bool)
  | notANumber

/-- What a number of double precision denotes. -/
def Meaning.ofNumber : Binary64 → Meaning
  | .nan => .notANumber
  | .infinity negative => .infinity negative
  | .finite negative mantissa exponent =>
      .number (if negative then -(mantissa * 2 ^ exponent) else mantissa * 2 ^ exponent)

/-- **What a scalar denotes,** if truth values count as numbers. -/
def meaning? : Json → Option Meaning
  | .null => some .nothing
  | .bool value => some (.number ((if value then 1 else 0 : Int) : ℚ))
  | .int value => some (.number value)
  | .real value => some (.ofNumber value)
  | .str value => some (.text value)
  | .arr _ | .obj _ => none

theorem ofNumber_eq_number_iff {x : Binary64} {q : ℚ} :
    Meaning.ofNumber x = .number q ↔ x.value? = some q := by
  cases x <;> simp [Meaning.ofNumber, Binary64.value?]

theorem sameScalar_real_iff {x y : Binary64} (hx : x.IsStandard) (hy : y.IsStandard) :
    sameScalar true (.real x) (.real y) = true ↔
      Meaning.ofNumber x = Meaning.ofNumber y := by
  by_cases hnan : x = .nan ∧ y = .nan
  · obtain ⟨rfl, rfl⟩ := hnan
    exact iff_of_true rfl rfl
  · have hscalar : sameScalar true (.real x) (.real y) = x.sameValue y := by
      unfold sameScalar
      split <;> simp_all
    rw [hscalar, Binary64.sameValue_iff hx hy]
    constructor
    · rintro (⟨q, hq, hq'⟩ | ⟨negative, rfl, rfl⟩)
      · rw [ofNumber_eq_number_iff.mpr hq, ofNumber_eq_number_iff.mpr hq']
      · rfl
    · intro heq
      cases hd : Meaning.ofNumber x with
      | number q =>
          exact Or.inl ⟨q, ofNumber_eq_number_iff.mp hd, ofNumber_eq_number_iff.mp (heq ▸ hd)⟩
      | _ =>
          cases x <;> cases y <;> simp_all [Meaning.ofNumber]

theorem IsProper.isStandard {x : Binary64} (h : (real x).IsProper) : x.IsStandard := by
  cases h with
  | leaf _ standard => exact standard x rfl

@[simp] theorem ofNumber_ne_nothing (x : Binary64) : Meaning.ofNumber x ≠ .nothing := by
  cases x <;> simp [Meaning.ofNumber]

@[simp] theorem ofNumber_ne_text (x : Binary64) (content : String) :
    Meaning.ofNumber x ≠ .text content := by
  cases x <;> simp [Meaning.ofNumber]

theorem isSome_meaning?_iff {value : Json} :
    value.meaning?.isSome = true ↔ value.IsLeaf := by
  cases value <;> simp [meaning?, IsLeaf]

/-- **Scalars are equal exactly if they denote the same;** arrays and objects are no scalars. -/
theorem sameScalar_iff {a b : Json} (ha : a.IsProper) (hb : b.IsProper) :
    sameScalar true a b = true ↔
      a.meaning?.isSome = true ∧ a.meaning? = b.meaning? := by
  have hnumber (x : Binary64) (n : Int) :
      x.equalsInt n = true ↔ Meaning.ofNumber x = .number n :=
    Binary64.equalsInt_iff.trans ofNumber_eq_number_iff.symm
  have hnumber' (x : Binary64) (n : Int) :
      x.equalsInt n = true ↔ .number n = Meaning.ofNumber x := (hnumber x n).trans eq_comm
  cases a <;> cases b
  case real.real x y => simp [meaning?, sameScalar_real_iff ha.isStandard hb.isStandard]
  case real.bool | real.int => simp [sameScalar, asInt?, meaning?, hnumber]
  case bool.real | int.real => simp [sameScalar, asInt?, meaning?, hnumber']
  case bool.bool a b => cases a <;> cases b <;> simp [sameScalar, meaning?]
  all_goals simp [sameScalar, asInt?, meaning?, (ofNumber_ne_nothing _).symm,
    (ofNumber_ne_text _ _).symm, -Int.cast_ite]

/-! ## Equality -/

/-- Items are equal one by one. -/
theorem sameItems_iff {truthIsNumber : Bool} {xs ys : List Json} :
    sameItems truthIsNumber xs ys = true ↔
      List.Forall₂ (fun x y => same truthIsNumber x y = true) xs ys := by
  induction xs generalizing ys with
  | nil => cases ys <;> simp [sameItems]
  | cons x xs ih => cases ys <;> simp [sameItems, ih]

/-- Each member has an equal one. -/
theorem sameMembers_iff {truthIsNumber : Bool} {xs ys : List (String × Json)} :
    sameMembers truthIsNumber xs ys = true ↔
      ∀ m ∈ xs, ∃ y, ys.lookup m.1 = some y ∧ same truthIsNumber m.2 y = true := by
  induction xs with
  | nil => simp [sameMembers]
  | cons m xs ih =>
      obtain ⟨name, x⟩ := m
      rw [sameMembers, Bool.and_eq_true, ih, List.forall_mem_cons]
      refine and_congr_left fun _ => ?_
      cases ys.lookup name <;> simp

/-- A scalar equals what denotes the same. -/
theorem same_leaf_iff {a b : Json} (ha : a.IsProper) (hb : b.IsProper) (hleaf : a.IsLeaf) :
    a.same true b = true ↔ a.meaning? = b.meaning? := by
  have hsome : a.meaning?.isSome = true := isSome_meaning?_iff.mpr hleaf
  have hscalar : a.same true b = sameScalar true a b := by
    cases a <;> first | contradiction | simp [same]
  rw [hscalar, sameScalar_iff ha hb, and_iff_right hsome]

/-- An array equals arrays with equal items. -/
theorem same_arr_iff {xs : List Json} {b : Json} :
    (arr xs).same true b = true ↔
      ∃ ys, b = .arr ys ∧ List.Forall₂ (fun x y => same true x y = true) xs ys := by
  cases b <;> simp [same, sameScalar, asInt?, sameItems_iff]

/-- An object equals objects of its size in which each of its members has an equal one. -/
theorem same_obj_iff {xs : List (String × Json)} {b : Json} :
    (obj xs).same true b = true ↔
      ∃ ys, b = .obj ys ∧ xs.length = ys.length ∧
        ∀ m ∈ xs, ∃ y, ys.lookup m.1 = some y ∧ same true m.2 y = true := by
  cases b <;> simp [same, sameScalar, asInt?, sameMembers_iff]

section Items

variable {α β : Type} {r s : α → β → Prop} {xs : List α} {ys : List β}

/-- What is related one by one may be related otherwise where it is. -/
theorem forall₂_imp_of_mem (h : List.Forall₂ r xs ys)
    (himp : ∀ x ∈ xs, ∀ y ∈ ys, r x y → s x y) : List.Forall₂ s xs ys := by
  rw [List.forall₂_iff_zip] at h ⊢
  refine ⟨h.1, fun hmem => ?_⟩
  obtain ⟨hx, hy⟩ := List.of_mem_zip hmem
  exact himp _ hx _ hy (h.2 hmem)

/-- What is related one by one in two steps may be related in one. -/
theorem forall₂_trans_of_mem {γ : Type} {r' : β → γ → Prop} {s : α → γ → Prop} {zs : List γ}
    (h : List.Forall₂ r xs ys) (h' : List.Forall₂ r' ys zs)
    (htrans : ∀ x ∈ xs, ∀ y ∈ ys, ∀ z ∈ zs, r x y → r' y z → s x z) :
    List.Forall₂ s xs zs := by
  induction h generalizing zs with
  | nil =>
      cases h'
      exact .nil
  | cons first _ ih =>
      cases h' with
      | cons first' rest' =>
          refine .cons (htrans _ List.mem_cons_self _ List.mem_cons_self _ List.mem_cons_self
            first first') (ih rest' fun x hx y hy z hz => ?_)
          exact htrans x (List.mem_cons_of_mem _ hx) y (List.mem_cons_of_mem _ hy) z
            (List.mem_cons_of_mem _ hz)

end Items

/-- **A value equals itself.** -/
theorem same_refl {a : Json} (h : a.IsProper) : a.same true a = true := by
  induction h with
  | leaf hleaf standard =>
      exact (same_leaf_iff (.leaf hleaf standard) (.leaf hleaf standard) hleaf).mpr rfl
  | arr _ ih => exact same_arr_iff.mpr ⟨_, rfl, List.forall₂_same.mpr ih⟩
  | obj names _ ih =>
      exact same_obj_iff.mpr ⟨_, rfl, rfl, fun m hm =>
        ⟨m.2, (lookup_eq_some_iff_mem names).mpr hm, ih m hm⟩⟩

/-- Objects of one size whose members have equal ones have the same names. -/
theorem subset_names_of_sameMembers {xs ys : List (String × Json)}
    (names : (xs.map (·.1)).Nodup) (size : xs.length = ys.length)
    (members : ∀ m ∈ xs, ∃ y, ys.lookup m.1 = some y ∧ same true m.2 y = true) :
    ys.map (·.1) ⊆ xs.map (·.1) := by
  have hsub : xs.map (·.1) ⊆ ys.map (·.1) := by
    intro name hname
    obtain ⟨m, hm, rfl⟩ := List.mem_map.mp hname
    obtain ⟨y, hy, -⟩ := members m hm
    obtain ⟨before, after, rfl, -⟩ := List.lookup_eq_some_iff.mp hy
    simp
  exact ((List.subperm_of_subset names hsub).perm_of_length_le (by simp [size])).symm.subset

/-- **Equality goes both ways.** -/
theorem same_symm {a b : Json} (ha : a.IsProper) (hb : b.IsProper) (h : a.same true b = true) :
    b.same true a = true := by
  induction ha generalizing b with
  | leaf hleaf standard =>
      rw [same_leaf_iff (.leaf hleaf standard) hb hleaf] at h
      have hleaf' : b.IsLeaf := isSome_meaning?_iff.mp (h ▸ isSome_meaning?_iff.mpr hleaf)
      exact (same_leaf_iff hb (.leaf hleaf standard) hleaf').mpr h.symm
  | arr _ ih =>
      obtain ⟨ys, rfl, items⟩ := same_arr_iff.mp h
      have hothers := isProper_arr_iff.mp hb
      exact same_arr_iff.mpr ⟨_, rfl, (forall₂_imp_of_mem items fun x hx y hy hsame =>
        ih x hx (hothers y hy) hsame).flip⟩
  | obj names _ ih =>
      obtain ⟨ys, rfl, size, members⟩ := same_obj_iff.mp h
      obtain ⟨hnames, hothers⟩ := isProper_obj_iff.mp hb
      refine same_obj_iff.mpr ⟨_, rfl, size.symm, fun m hm => ?_⟩
      -- the member of this name in the first object has none but this one as its equal
      have hname := subset_names_of_sameMembers names size members (List.mem_map_of_mem hm)
      obtain ⟨m', hm', heq⟩ := List.mem_map.mp hname
      obtain ⟨y, hy, hsame⟩ := members m' hm'
      rw [heq, (lookup_eq_some_iff_mem hnames).mpr hm] at hy
      cases hy
      exact ⟨m'.2, heq ▸ (lookup_eq_some_iff_mem names).mpr hm', ih m' hm' (hothers m hm) hsame⟩

/-- **What equals an equal value is equal.** -/
theorem same_trans {a b c : Json} (ha : a.IsProper) (hb : b.IsProper) (hc : c.IsProper)
    (hab : a.same true b = true) (hbc : b.same true c = true) : a.same true c = true := by
  induction ha generalizing b c with
  | leaf hleaf standard =>
      rw [same_leaf_iff (.leaf hleaf standard) hb hleaf] at hab
      have hleaf' : b.IsLeaf := isSome_meaning?_iff.mp (hab ▸ isSome_meaning?_iff.mpr hleaf)
      rw [same_leaf_iff hb hc hleaf'] at hbc
      exact (same_leaf_iff (.leaf hleaf standard) hc hleaf).mpr (hab.trans hbc)
  | arr _ ih =>
      obtain ⟨ys, rfl, items⟩ := same_arr_iff.mp hab
      obtain ⟨zs, rfl, items'⟩ := same_arr_iff.mp hbc
      have hsecond := isProper_arr_iff.mp hb
      have hthird := isProper_arr_iff.mp hc
      exact same_arr_iff.mpr ⟨_, rfl, forall₂_trans_of_mem items items' fun x hx y hy z hz =>
        ih x hx (hsecond y hy) (hthird z hz)⟩
  | obj _ _ ih =>
      obtain ⟨ys, rfl, size, members⟩ := same_obj_iff.mp hab
      obtain ⟨zs, rfl, size', members'⟩ := same_obj_iff.mp hbc
      obtain ⟨hnames, hsecond⟩ := isProper_obj_iff.mp hb
      obtain ⟨hnames', hthird⟩ := isProper_obj_iff.mp hc
      refine same_obj_iff.mpr ⟨_, rfl, size.trans size', fun m hm => ?_⟩
      obtain ⟨y, hy, hsame⟩ := members m hm
      have hmem := (lookup_eq_some_iff_mem hnames).mp hy
      obtain ⟨z, hz, hsame'⟩ := members' (m.1, y) hmem
      have hmem' := (lookup_eq_some_iff_mem hnames').mp hz
      exact ⟨z, hz, ih m hm (hsecond _ hmem) (hthird _ hmem') hsame hsame'⟩

/-- Only a text equals a text. -/
theorem eq_of_same_str {a : Json} {text : String} (ha : a.IsProper)
    (h : a.same true (.str text) = true) : a = .str text := by
  have heq := (same_leaf_iff (isProper_str text) ha trivial).mp
    (same_symm ha (isProper_str text) h)
  cases a <;> simp_all [meaning?, (ofNumber_ne_text _ _).symm]

end Json

end OscalValidation
