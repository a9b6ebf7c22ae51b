import OscalValidation.Proofs.Conversion.Spots

set_option autoImplicit false

/-! # What can be converted

`Convertible` says what may stand below a root member: which values, under which names, with which
characters. It speaks of the value alone and of the elements that are to come about. Main statement:
all spots of a value fit exactly if the value is convertible (`fit_iff_convertible`).
-/

namespace OscalValidation

/-! ## Values in values -/

namespace Json

/-- The value is the other or is in it, at any depth. -/
inductive Holds : Json → Json → Prop
  | self (value : Json) : Holds value value
  | member {members : List (String × Json)} {m : String × Json} {inner : Json}
      (mem : m ∈ members) (holds : Holds m.2 inner) : Holds (.obj members) inner
  | item {items : List Json} {item inner : Json} (mem : item ∈ items) (holds : Holds item inner) :
      Holds (.arr items) inner

theorem Holds.trans {u v w : Json} (h : Holds u v) (h' : Holds v w) : Holds u w := by
  induction h with
  | self => exact h'
  | member mem _ ih => exact .member mem (ih h')
  | item mem _ ih => exact .item mem (ih h')

/-- The value is a text, a number or a truth value. -/
def IsScalar : Json → Prop
  | .bool _ | .int _ | .real _ | .str _ => True
  | _ => False

/-- A scalar has a text, unless it is an integer with too many digits. -/
theorem exists_scalarText?_iff {value : Json} : (∃ text, value.scalarText? = some text) ↔
    value.IsScalar ∧ ∀ n, value = .int n → isLong n = false := by
  cases value with
  | int n => cases h : isLong n <;> simp [IsScalar, scalarText?, h]
  | _ => simp [IsScalar, scalarText?]

/-- There is nothing in a scalar but the scalar. -/
theorem Holds.eq_of_isScalar {u v : Json} (h : Holds u v) (hu : u.IsScalar) : v = u := by
  cases h with
  | self => rfl
  | member => cases hu
  | item => cases hu

end Json

namespace Conversion

/-! ## What is convertible -/

/-- **What is below a root member can be converted.** -/
structure Convertible (rules : ConversionRules) (root : Label) (body : Json) : Prop where
  noNull {value : Json} (h : body.Holds value) : value ≠ .null
  /-- No array is an item of an array. -/
  noNested {items inner : List Json} (h : body.Holds (.arr items)) : .arr inner ∉ items
  /-- No integer has too many digits. -/
  noLong {value : Int} (h : body.Holds (.int value)) : Json.isLong value = false
  /-- Members that become attributes or texts are scalars. -/
  scalar {label : Label} {members : List (String × Json)} {m : String × Json}
    (h : HasElement rules root body label (.obj members)) (mem : m ∈ members)
    (role : rules.isValue label m.1 = true ∨ rules.isFlag label m.1 = true) : m.2.IsScalar
  /-- What becomes an element has a name for it. -/
  named {label : Label} {members : List (String × Json)} {b : Label × Json}
    (h : HasElement rules root body label (.obj members)) (mem : b ∈ branches rules label members) :
    IsName b.1.written
  /-- The texts of attributes can be written, and those of members that become texts. -/
  writable {label : Label} {text : String} {members : List (String × Json)} {m : String × Json}
    (h : HasElement rules root body label (.obj members)) (mem : m ∈ members)
    (role : rules.isValue label m.1 = true ∨ rules.isFlag label m.1 = true)
    (scalar : m.2.scalarText? = some text) : IsWritable text
  /-- The texts of scalars that become elements can be written. -/
  plain {label : Label} {text : String} {value : Json} (h : HasElement rules root body label value)
    (isPlain : rules.isProse label = false) (scalar : value.scalarText? = some text) :
    IsWritable text
  /-- Where prose is expected, all paragraphs can be written. -/
  prose {label : Label} {text : String} {value : Json} (h : HasElement rules root body label value)
    (isProse : rules.isProse label = true) (scalar : value.scalarText? = some text) :
    ∀ p ∈ Text.paragraphs text, IsWritable p

/-! ## Elements and spots -/

section Elements

variable {rules : ConversionRules} {root : Label} {body : Json}

/-- A branch stands for a member, or for an item of one. -/
theorem holds_of_mem_branches {label : Label} {members : List (String × Json)}
    {b : Label × Json} (h : b ∈ branches rules label members) :
    ∃ m ∈ members, (m.2 = b.2 ∧ ∀ items, b.2 ≠ .arr items) ∨
      ∃ items, m.2 = .arr items ∧ b.2 ∈ items := by
  obtain ⟨⟨key, value⟩, hm, hb⟩ := List.mem_flatMap.mp h
  have hmem := (List.mem_filter.mp hm).1
  cases value with
  | arr items =>
      obtain ⟨item, hitem, rfl⟩ := List.mem_map.mp hb
      exact ⟨_, hmem, Or.inr ⟨items, rfl, hitem⟩⟩
  | _ =>
      rw [branchesOf, List.mem_singleton] at hb
      · subst hb
        exact ⟨_, hmem, Or.inl ⟨rfl, by simp⟩⟩
      · simp

/-- A member that is neither attribute nor text becomes an element, or each item of it does. -/
theorem HasElement.of_mem_branchesOf {label : Label} {members : List (String × Json)}
    {m : String × Json} {b : Label × Json} (h : HasElement rules root body label (.obj members)) (mem : m ∈ members)
    (hv : ¬ rules.isValue label m.1 = true) (hf : ¬ rules.isFlag label m.1 = true)
    (hb : b ∈ branchesOf rules m) : HasElement rules root body b.1 b.2 :=
  h.branch (List.mem_flatMap.mpr ⟨m, List.mem_filter.mpr ⟨mem, by simp [hv, hf]⟩, hb⟩)

theorem mem_branchesOf_of_not_arr {key : String} {value : Json}
    (ha : ∀ items, value ≠ .arr items) : (Label.text key, value) ∈ branchesOf rules (key, value) := by
  rw [branchesOf]
  · exact List.mem_singleton_self _
  · exact ha

theorem mem_branchesOf_arr {key : String} {items : List Json} {item : Json} (h : item ∈ items) :
    (itemLabel rules key, item) ∈ branchesOf rules (key, .arr items) :=
  List.mem_map.mpr ⟨item, h, rfl⟩

/-- The value of an element is in the body. -/
theorem HasElement.holds {label : Label} {value : Json}
    (h : HasElement rules root body label value) : body.Holds value := by
  induction h with
  | root => exact .self _
  | @branch label members b _ mem ih =>
      obtain ⟨m, hm, ⟨heq, -⟩ | ⟨items, heq, hitem⟩⟩ := holds_of_mem_branches mem
      · refine ih.trans (.member hm ?_)
        rw [heq]
        exact .self _
      · refine ih.trans (.member hm ?_)
        rw [heq]
        exact .item hitem (.self _)

/-- An element that is an array is that of the body, or an item of an array. -/
theorem HasElement.not_arr (h : Convertible rules root body) (hbody : ∀ items, body ≠ .arr items)
    {label : Label} {value : Json} (he : HasElement rules root body label value)
    (items : List Json) : value ≠ .arr items := by
  cases he with
  | root => exact hbody items
  | @branch label members b parent mem =>
      obtain ⟨m, hm, ⟨-, hnot⟩ | ⟨outer, heq, hitem⟩⟩ := holds_of_mem_branches mem
      · exact hnot items
      · intro harr
        rw [harr] at hitem
        refine h.noNested (parent.holds.trans (.member hm ?_)) hitem
        rw [heq]
        exact .self _

/-! ## Elements that fit -/

/-- **An element can be made of its label and value,** apart from the elements in it. -/
structure ElementFits (rules : ConversionRules) (label : Label) (value : Json) : Prop where
  named : IsName label.written
  /-- The value can stand in an element. -/
  held : FitsElement rules label value
  /-- Members that become texts can do so. -/
  content {members : List (String × Json)} {m : String × Json} (eq : value = .obj members)
    (mem : m ∈ members) (role : rules.isValue label m.1 = true) : FitsText m.2
  /-- Members that become attributes can do so. -/
  flag {members : List (String × Json)} {m : String × Json} (eq : value = .obj members)
    (mem : m ∈ members) (noValue : ¬ rules.isValue label m.1 = true)
    (role : rules.isFlag label m.1 = true) : (∃ name, Spells m.1 name) ∧ FitsText m.2

/-- **All elements that are to come about can be made.** -/
def ElementsFit (rules : ConversionRules) (root : Label) (body : Json) : Prop :=
  ∀ {label : Label} {value : Json}, HasElement rules root body label value →
    ElementFits rules label value

theorem memberSpots_eq_flatMap (label : Label) (place : Place) (members : List (String × Json)) :
    memberSpots rules label place members =
      members.flatMap fun m => memberSpots rules label place [m] := by
  induction members with
  | nil => rw [memberSpots]; rfl
  | cons m rest ih =>
      obtain ⟨key, value⟩ := m
      rw [List.flatMap_cons, ← ih]
      cases value <;> simp [memberSpots]

/-- Every spot of a single member is one of the members. -/
theorem mem_memberSpots {label : Label} {place : Place} {members : List (String × Json)}
    {m : String × Json} {s : Spot} (hm : m ∈ members) (hs : s ∈ memberSpots rules label place [m]) :
    s ∈ memberSpots rules label place members := by
  rw [memberSpots_eq_flatMap]
  exact List.mem_flatMap.mpr ⟨m, hm, hs⟩

/-- If the spots of items fit, those of each item do, wherever it stands. -/
theorem fit_of_mem_items {label : Label} {place : Place} {position : Nat} {items : List Json}
    {item : Json} (h : ∀ s ∈ itemSpots rules label place position items, s.Fits rules)
    (hitem : item ∈ items) :
    ∃ place', ∀ s ∈ valueSpots rules label place' item, s.Fits rules := by
  induction items generalizing position with
  | nil => cases hitem
  | cons first rest ih =>
      rw [itemSpots] at h
      rcases List.mem_cons.mp hitem with rfl | hitem
      · exact ⟨_, fun s hs => h s (List.mem_append_left _ hs)⟩
      · exact ih (fun s hs => h s (List.mem_append_right _ hs)) hitem

/-- If the spots of members fit, those of each element that they become do. -/
theorem fit_of_mem_branches {label : Label} {place : Place} {members : List (String × Json)}
    {b : Label × Json} (h : ∀ s ∈ memberSpots rules label place members, s.Fits rules)
    (hb : b ∈ branches rules label members) :
    ∃ place', ∀ s ∈ valueSpots rules b.1 place' b.2, s.Fits rules := by
  obtain ⟨⟨key, value⟩, hm, hb⟩ := List.mem_flatMap.mp hb
  obtain ⟨hmem, hrole⟩ := List.mem_filter.mp hm
  simp only [Bool.and_eq_true, Bool.not_eq_true'] at hrole
  have hone : ∀ s ∈ memberSpots rules label place [(key, value)], s.Fits rules :=
    fun s hs => h s (mem_memberSpots hmem hs)
  cases value with
  | arr items =>
      obtain ⟨item, hitem, rfl⟩ := List.mem_map.mp hb
      rw [memberSpots] at hone
      simp only [hrole.1, hrole.2, Bool.false_eq_true, if_false] at hone
      exact fit_of_mem_items (fun s hs => hone s (List.mem_append_left _ hs)) hitem
  | _ =>
      rw [branchesOf, List.mem_singleton] at hb
      · subst hb
        rw [memberSpots] at hone
        · simp only [hrole.1, hrole.2, Bool.false_eq_true, if_false] at hone
          exact ⟨_, fun s hs => hone s (List.mem_append_left _ hs)⟩
        · simp
      · simp

/-- If all spots fit, so do those of every element that is to come about. -/
theorem HasElement.fit {label : Label} {value : Json} (h : HasElement rules root body label value)
    {place : Place} (hfit : ∀ s ∈ valueSpots rules root place body, s.Fits rules) :
    ∃ place', ∀ s ∈ valueSpots rules label place' value, s.Fits rules := by
  induction h with
  | root => exact ⟨place, hfit⟩
  | branch _ mem ih =>
      obtain ⟨place', h⟩ := ih
      rw [valueSpots] at h
      exact fit_of_mem_branches (fun s hs => h s (List.mem_cons_of_mem _ hs)) mem

/-- An element fits if its spots do. -/
theorem elementFits_of_fit {label : Label} {value : Json} {place : Place}
    (h : ∀ s ∈ valueSpots rules label place value, s.Fits rules) :
    ElementFits rules label value := by
  obtain ⟨rest, hrest⟩ := valueSpots_eq_cons rules label place value
  have hfirst : Spot.Fits rules ⟨place, value, .element label⟩ :=
    h _ (by rw [hrest]; exact List.mem_cons_self)
  refine ⟨hfirst.1, hfirst.2, fun {members m} heq hmem hv => ?_,
    fun {members m} heq hmem hv hf => ?_⟩
  · obtain ⟨key, inner⟩ := m
    subst heq
    rw [valueSpots] at h
    have hspot : ⟨place.below (.member key), inner, .content⟩ ∈
        memberSpots rules label place [(key, inner)] := by
      unfold memberSpots
      rw [if_pos hv]
      exact List.mem_cons_self
    exact h _ (List.mem_cons_of_mem _ (mem_memberSpots hmem hspot))
  · obtain ⟨key, inner⟩ := m
    subst heq
    rw [valueSpots] at h
    have hspot : ⟨place.below (.member key), inner, .flag key⟩ ∈
        memberSpots rules label place [(key, inner)] := by
      unfold memberSpots
      rw [if_neg hv, if_pos hf]
      exact List.mem_cons_self
    exact h _ (List.mem_cons_of_mem _ (mem_memberSpots hmem hspot))

mutual

/-- If all elements that are to come about fit, so do the spots of each of them. -/
theorem ElementsFit.fit_valueSpots (hall : ElementsFit rules root body) (label : Label)
    (place : Place) : (value : Json) → HasElement rules root body label value →
      ∀ s ∈ valueSpots rules label place value, s.Fits rules
  | .obj members, h => by
      rw [valueSpots]
      intro s hs
      rcases List.mem_cons.mp hs with rfl | hs
      · exact ⟨(hall h).named, trivial⟩
      · exact ElementsFit.fit_memberSpots hall label place members members h (fun _ hm => hm) s hs
  | .null, h | .bool _, h | .int _, h | .real _, h | .str _, h | .arr _, h => by
      rw [valueSpots] <;> try simp
      exact ⟨(hall h).named, (hall h).held⟩

theorem ElementsFit.fit_memberSpots (hall : ElementsFit rules root body) (label : Label)
    (place : Place) (all : List (String × Json)) :
    (members : List (String × Json)) → HasElement rules root body label (.obj all) →
      (∀ m ∈ members, m ∈ all) → ∀ s ∈ memberSpots rules label place members, s.Fits rules
  | [], _, _ => by
      rw [memberSpots]
      simp
  | (key, value) :: rest, h, hsub => by
      have hmem : (key, value) ∈ all := hsub _ List.mem_cons_self
      have hrest := ElementsFit.fit_memberSpots hall label place all rest h
        fun m hm => hsub m (List.mem_cons_of_mem _ hm)
      by_cases hv : rules.isValue label key = true
      · unfold memberSpots
        rw [if_pos hv]
        intro s hs
        rcases List.mem_cons.mp hs with rfl | hs
        · exact (hall h).content rfl hmem hv
        · exact hrest s hs
      by_cases hf : rules.isFlag label key = true
      · unfold memberSpots
        rw [if_neg hv, if_pos hf]
        intro s hs
        rcases List.mem_cons.mp hs with rfl | hs
        · exact (hall h).flag rfl hmem hv hf
        · exact hrest s hs
      have hbranch : ∀ b ∈ branchesOf rules (key, value), HasElement rules root body b.1 b.2 :=
        fun b hb => h.of_mem_branchesOf hmem hv hf hb
      -- anything but an array becomes one element under the member's own label
      have helement : (∀ items, value ≠ .arr items) →
          ∀ s ∈ memberSpots rules label place ((key, value) :: rest), s.Fits rules := by
        intro ha
        rw [memberSpots, if_neg hv, if_neg hf]
        · intro s hs
          rcases List.mem_append.mp hs with hs | hs
          · exact ElementsFit.fit_valueSpots hall key _ value
              (hbranch (.text key, value) (mem_branchesOf_of_not_arr ha)) s hs
          · exact hrest s hs
        · exact ha
      cases value with
      | arr items =>
          rw [memberSpots, if_neg hv, if_neg hf]
          intro s hs
          rcases List.mem_append.mp hs with hs | hs
          · refine ElementsFit.fit_itemSpots hall _ _ 0 items (fun item hitem => ?_) s hs
            exact hbranch (itemLabel rules key, item) (mem_branchesOf_arr hitem)
          · exact hrest s hs
      | _ => exact helement fun _ => Json.noConfusion

theorem ElementsFit.fit_itemSpots (hall : ElementsFit rules root body) (label : Label)
    (place : Place) (position : Nat) :
    (items : List Json) → (∀ item ∈ items, HasElement rules root body label item) →
      ∀ s ∈ itemSpots rules label place position items, s.Fits rules
  | [], _ => by
      rw [itemSpots]
      simp
  | item :: rest, h => by
      rw [itemSpots]
      intro s hs
      rcases List.mem_append.mp hs with hs | hs
      · exact ElementsFit.fit_valueSpots hall label _ item (h item List.mem_cons_self) s hs
      · exact ElementsFit.fit_itemSpots hall label place (position + 1) rest
          (fun i hi => h i (List.mem_cons_of_mem _ hi)) s hs

end

/-! ## Convertible bodies -/

theorem FitsText.isScalar {value : Json} (h : FitsText value) : value.IsScalar :=
  let ⟨text, htext, _⟩ := h
  (Json.exists_scalarText?_iff.mp ⟨text, htext⟩).1

/-- An array is no element. -/
theorem not_fitsElement_arr {label : Label} {items : List Json} :
    ¬ FitsElement rules label (.arr items) := by
  rintro ⟨text, htext, -⟩
  cases htext

/-- A scalar that is held has a text. -/
theorem Convertible.exists_text (h : Convertible rules root body) {value : Json}
    (hscalar : value.IsScalar) (hholds : body.Holds value) :
    ∃ text, value.scalarText? = some text := by
  refine Json.exists_scalarText?_iff.mpr ⟨hscalar, ?_⟩
  rintro n rfl
  exact h.noLong hholds

/-- The elements of what is convertible fit. -/
theorem Convertible.elementFits (h : Convertible rules root body) (hroot : IsName root.written)
    (hflags : ∀ label key, rules.isFlag label key = true → ∃ name, Spells key name)
    (hbody : ∀ items, body ≠ .arr items) {label : Label} {value : Json}
    (he : HasElement rules root body label value) : ElementFits rules label value where
  named := by
    cases he with
    | root => exact hroot
    | branch parent mem => exact h.named parent mem
  held := by
    have hscalar : value.IsScalar → FitsElement rules label value := by
      intro hs
      obtain ⟨text, htext⟩ := h.exists_text hs he.holds
      have hfits : if rules.isProse label then ∀ p ∈ Text.paragraphs text, IsWritable p
          else IsWritable text := by
        split
        · next hprose => exact h.prose he hprose htext
        · next hplain => exact h.plain he (Bool.eq_false_iff.mpr hplain) htext
      cases value with
      | obj members => trivial
      | _ => exact ⟨text, htext, hfits⟩
    cases value with
    | obj members => trivial
    | null => exact absurd rfl (h.noNull he.holds)
    | arr items => exact absurd rfl (he.not_arr h hbody items)
    | _ => exact hscalar trivial
  content {members m} heq mem role := by
    subst heq
    obtain ⟨text, htext⟩ :=
      h.exists_text (h.scalar he mem (Or.inl role)) (he.holds.trans (.member mem (.self _)))
    exact ⟨text, htext, h.writable he mem (Or.inl role) htext⟩
  flag {members m} heq mem _ role := by
    subst heq
    obtain ⟨text, htext⟩ :=
      h.exists_text (h.scalar he mem (Or.inr role)) (he.holds.trans (.member mem (.self _)))
    exact ⟨hflags _ _ role, text, htext, h.writable he mem (Or.inr role) htext⟩

/-- What a value must be like to be anywhere in what is convertible. -/
structure IsSound (value : Json) : Prop where
  noNull : value ≠ .null
  noLong {n : Int} (eq : value = .int n) : Json.isLong n = false
  noNested {items inner : List Json} (eq : value = .arr items) : .arr inner ∉ items

theorem IsSound.of_text {value : Json} {text : String} (h : value.scalarText? = some text) :
    IsSound value where
  noNull := by
    rintro rfl
    cases h
  noLong heq := (Json.exists_scalarText?_iff.mp ⟨text, h⟩).2 _ heq
  noNested := by
    rintro items inner rfl
    cases h

/-- Whatever is in an element, or in an array whose items are elements, is sound. -/
theorem ElementsFit.isSound_of_holds (hall : ElementsFit rules root body) {u v : Json}
    (h : u.Holds v) :
    ((∃ label, HasElement rules root body label u) ∨
      ∃ items, u = .arr items ∧ ∀ item ∈ items, ∃ label, HasElement rules root body label item) →
    IsSound v := by
  have harr : ∀ label items, ¬ HasElement rules root body label (.arr items) :=
    fun label items he => not_fitsElement_arr (hall he).held
  induction h with
  | self value =>
      rintro (⟨label, he⟩ | ⟨items, rfl, hitems⟩)
      · have hheld := (hall he).held
        cases value with
        | obj members => exact ⟨Json.noConfusion, nofun, nofun⟩
        | arr items => exact absurd he (harr label items)
        | _ =>
            obtain ⟨text, htext, -⟩ := hheld
            exact .of_text htext
      · refine ⟨Json.noConfusion, nofun, ?_⟩
        rintro items' inner heq hmem
        cases heq
        obtain ⟨label, he⟩ := hitems _ hmem
        exact harr label inner he
  | @member members m inner mem holds ih =>
      rintro (⟨label, he⟩ | ⟨items, heq, -⟩)
      · have hsound : FitsText m.2 → IsSound inner := by
          rintro ⟨text, htext, -⟩
          have heq := holds.eq_of_isScalar (Json.exists_scalarText?_iff.mp ⟨text, htext⟩).1
          rw [heq]
          exact .of_text htext
        by_cases hv : rules.isValue label m.1 = true
        · exact hsound ((hall he).content rfl mem hv)
        by_cases hf : rules.isFlag label m.1 = true
        · exact hsound ((hall he).flag rfl mem hv hf).2
        -- what is in any other member is in an element, or in an array of elements
        have hbranch : ∀ b ∈ branchesOf rules m, HasElement rules root body b.1 b.2 :=
          fun b hb => he.of_mem_branchesOf mem hv hf hb
        obtain ⟨key, value⟩ := m
        cases value with
        | arr items =>
            exact ih (Or.inr ⟨items, rfl, fun item hitem =>
              ⟨_, hbranch (itemLabel rules key, item) (mem_branchesOf_arr hitem)⟩⟩)
        | _ =>
            exact ih (Or.inl ⟨key, hbranch (.text key, _)
              (mem_branchesOf_of_not_arr fun _ => Json.noConfusion)⟩)
      · cases heq
  | @item items item inner mem holds ih =>
      rintro (⟨label, he⟩ | ⟨items', heq, hitems⟩)
      · exact absurd he (harr label items)
      · cases heq
        exact ih (Or.inl (hitems item mem))

/-- The text of a scalar that is an element can be written, or each paragraph of it. -/
theorem FitsElement.of_scalarText {label : Label} {text : String} {value : Json}
    (h : FitsElement rules label value) (scalar : value.scalarText? = some text) :
    if rules.isProse label then ∀ p ∈ Text.paragraphs text, IsWritable p
    else IsWritable text := by
  cases value with
  | obj members => cases scalar
  | _ =>
      obtain ⟨text', htext, hw⟩ := h
      rw [scalar] at htext
      cases htext
      exact hw

/-- What is made of elements that fit is convertible. -/
theorem ElementsFit.convertible (hall : ElementsFit rules root body) :
    Convertible rules root body where
  noNull h := (hall.isSound_of_holds h (Or.inl ⟨root, .root⟩)).noNull
  noNested h := (hall.isSound_of_holds h (Or.inl ⟨root, .root⟩)).noNested rfl
  noLong h := (hall.isSound_of_holds h (Or.inl ⟨root, .root⟩)).noLong rfl
  scalar {label members m} h mem role := by
    by_cases hv : rules.isValue label m.1 = true
    · exact ((hall h).content rfl mem hv).isScalar
    · exact ((hall h).flag rfl mem hv (role.resolve_left hv)).2.isScalar
  named h mem := (hall (h.branch mem)).named
  writable {label text members m} h mem role scalar := by
    have hfits : FitsText m.2 := by
      by_cases hv : rules.isValue label m.1 = true
      · exact (hall h).content rfl mem hv
      · exact ((hall h).flag rfl mem hv (role.resolve_left hv)).2
    obtain ⟨text', htext, hw⟩ := hfits
    rw [scalar] at htext
    cases htext
    exact hw
  plain {label text value} h isPlain scalar := by
    have hheld := (hall h).held.of_scalarText scalar
    rwa [if_neg (Bool.eq_false_iff.mp isPlain)] at hheld
  prose {label text value} h isProse scalar := by
    have hheld := (hall h).held.of_scalarText scalar
    rwa [if_pos isProse] at hheld

/-- **All spots of a body fit exactly if it is convertible.** -/
theorem fit_iff_convertible (hroot : IsName root.written)
    (hflags : ∀ label key, rules.isFlag label key = true → ∃ name, Spells key name)
    (hbody : ∀ items, body ≠ .arr items) (place : Place) :
    (∀ s ∈ valueSpots rules root place body, s.Fits rules) ↔ Convertible rules root body := by
  constructor
  · intro hfit
    refine ElementsFit.convertible fun he => ?_
    obtain ⟨place', h⟩ := he.fit hfit
    exact elementFits_of_fit h
  · intro h
    exact ElementsFit.fit_valueSpots (fun he => h.elementFits hroot hflags hbody he) root place
      body .root

end Elements

end Conversion

end OscalValidation
