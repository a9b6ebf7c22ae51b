import Mathlib.Algebra.Ring.Nat
import Mathlib.Data.List.Forall2
import OscalValidation.Proofs.Conversion.Attributes
import OscalValidation.Proofs.Json.Distinct

set_option autoImplicit false

/-! # What elements represent

`Represents` says, without regard to how a document is converted, which attributes and contents
an element must have to stand for a value. It leaves open what becomes of attributes that are set
one after another; main statement: they are just the flags exactly if no two flags of an object give
one name (`Represents.eq_iff`). `sumOver` adds up a number over all elements that a value stands
for.
-/

namespace OscalValidation

/-! ## Names of flags -/

namespace ConversionRules

/-- All names of members that can become attributes. -/
def flagNames (rules : ConversionRules) : List String :=
  rules.flags ++ rules.elementFlags.flatMap (·.2)

theorem mem_flagNames_of_isFlag {rules : ConversionRules} {label : Label} {key : String}
    (h : rules.isFlag label key = true) : key ∈ rules.flagNames := by
  rcases Bool.or_eq_true_iff.mp h with h | h
  · exact List.mem_append_left _ (List.contains_iff_mem.mp h)
  · refine List.mem_append_right _ ?_
    cases hlookup : label.lookup rules.elementFlags with
    | none =>
        rw [hlookup] at h
        cases h
    | some keys =>
        rw [hlookup] at h
        have hkey : key ∈ keys := List.contains_iff_mem.mp h
        cases label with
        | text name => exact List.mem_flatMap.mpr ⟨_, mem_of_lookup hlookup, hkey⟩
        | value entry => cases hlookup

end ConversionRules

namespace Conversion

open Xml (Node Attribute)

/-! ## The members of an object -/

section Members

variable (rules : ConversionRules) (label : Label)

/-- The members that become the text of their element. -/
def valueMembers (members : List (String × Json)) : List (String × Json) :=
  members.filter fun m => rules.isValue label m.1

/-- The members that become attributes of their element. -/
def flagMembers (members : List (String × Json)) : List (String × Json) :=
  members.filter fun m => !rules.isValue label m.1 && rules.isFlag label m.1

def childMembers (members : List (String × Json)) : List (String × Json) :=
  members.filter fun m => !rules.isValue label m.1 && !rules.isFlag label m.1

/-- **The elements that a member becomes,** as their labels and the values they stand for: one
for each item of an array, and one for anything else. -/
def branchesOf : String × Json → List (Label × Json)
  | (key, .arr items) => items.map fun item => (itemLabel rules key, item)
  | (key, value) => [(.text key, value)]

/-- The elements that members become, in the order of the members. -/
def branches (members : List (String × Json)) : List (Label × Json) :=
  (childMembers rules label members).flatMap (branchesOf rules)

end Members

/-! ## Elements and values -/

/-- The attribute represents the member. -/
structure IsFlagOf (m : String × Json) (a : Attribute) : Prop where
  name : Spells m.1 a.name
  value : m.2.scalarText? = some a.value
  plain : a.usesEntity = false

def paragraphNode (content : String) : Node :=
  .element ⟨elementName "p", [], [], none⟩ [.text content]

section Representing

variable (rules : ConversionRules) (Left : List Attribute → List Attribute → Prop)

mutual

/-- **The attributes and contents represent the value** in an element of a label. What is left of
attributes that are set is as told. -/
inductive Represents : Label → Json → List Attribute → List Node → Prop
  /-- An object has what is left of its flags as attributes and its value member as text, ahead of
  the elements of all other members. -/
  | object {label : Label} {members : List (String × Json)} {written attributes : List Attribute}
      {text : Option String} {children : List Node}
      (flags : List.Forall₂ IsFlagOf (flagMembers rules label members) written)
      (left : Left written attributes)
      (value : (valueMembers rules label members).map (·.2.scalarText?) = text.toList.map some)
      (others : RepresentAll (branches rules label members) children) :
      Represents label (.obj members) attributes (text.toList.map .text ++ children)
  /-- A scalar is divided into paragraphs where prose is expected. -/
  | prose {label : Label} {value : Json} {text : String}
      (isProse : rules.isProse label = true) (scalar : value.scalarText? = some text) :
      Represents label value [] ((Text.paragraphs text).map paragraphNode)
  /-- Any other scalar is the text. -/
  | text {label : Label} {value : Json} {text : String}
      (isPlain : rules.isProse label = false) (scalar : value.scalarText? = some text) :
      Represents label value [] [.text text]

/-- The nodes are elements that represent the values, one by one and under their labels. -/
inductive RepresentAll : List (Label × Json) → List Node → Prop
  | nil : RepresentAll [] []
  /-- An element for the first value, and elements for the others. -/
  | cons {label : Label} {value : Json} {attributes : List Attribute} {contents : List Node}
      {rest : List (Label × Json)} {nodes : List Node}
      (first : Represents label value attributes contents) (others : RepresentAll rest nodes) :
      RepresentAll ((label, value) :: rest)
        (.element ⟨elementName label, [], attributes, none⟩ contents :: nodes)

end

end Representing

/-! ## Elements that are to come about -/

/-- **The elements that are to come about** when a value becomes an element, with the values that
they stand for. -/
inductive HasElement (rules : ConversionRules) (root : Label) (body : Json) :
    Label → Json → Prop
  /-- The element of the value itself. -/
  | root : HasElement rules root body root body
  /-- An element that a member of an object becomes. -/
  | branch {label : Label} {members : List (String × Json)} {b : Label × Json}
      (parent : HasElement rules root body label (.obj members))
      (mem : b ∈ branches rules label members) : HasElement rules root body b.1 b.2

/-- **No two flags of an object give one name.** -/
def FlagsApart (rules : ConversionRules) (root : Label) (body : Json) : Prop :=
  ∀ {label : Label} {members : List (String × Json)},
    HasElement rules root body label (.obj members) →
    (flagMembers rules label members).Pairwise fun m m' => ∀ name, Spells m.1 name →
      ¬ Spells m'.1 name

section Apart

variable {rules : ConversionRules} {root label : Label} {body value : Json}
  {members : List (String × Json)}

/-- What comes about in an element that is to come about is to come about. -/
theorem HasElement.trans (h : HasElement rules root body label value) {inner : Label}
    {innerValue : Json} (h' : HasElement rules label value inner innerValue) :
    HasElement rules root body inner innerValue := by
  induction h' with
  | root => exact h
  | branch _ mem ih => exact ih.branch mem

/-- Elements stand for values whose members have different names if the whole does. -/
theorem HasElement.isDistinct (h : HasElement rules root body label value)
    (hd : body.isDistinct = true) : value.isDistinct = true := by
  induction h with
  | root => exact hd
  | @branch label members b _ mem ih =>
      obtain ⟨-, hvalues⟩ := Json.isDistinct_obj_iff.mp ih
      simp only [branches, childMembers, List.mem_flatMap, List.mem_filter] at mem
      obtain ⟨⟨key, inner⟩, ⟨hm, -⟩, hb⟩ := mem
      have hinner : inner.isDistinct = true := Json.haveDistinct_iff.mp hvalues _ hm
      cases inner with
      | arr items =>
          obtain ⟨item, hitem, rfl⟩ := List.mem_map.mp hb
          exact Json.areDistinct_iff.mp hinner _ hitem
      | _ =>
          rw [List.mem_singleton.mp hb]
          exact hinner

/-- Where flags are apart they are so in every element. -/
theorem FlagsApart.inside (h : FlagsApart rules root body)
    (he : HasElement rules root body label value) : FlagsApart rules label value :=
  fun h' => h (he.trans h')

/-- Flags are apart if they are so in an object and in all elements of it. -/
theorem flagsApart_obj_iff : FlagsApart rules label (.obj members) ↔
    ((flagMembers rules label members).Pairwise fun m m' => ∀ name, Spells m.1 name →
      ¬ Spells m'.1 name) ∧
    ∀ b ∈ branches rules label members, FlagsApart rules b.1 b.2 := by
  constructor
  · intro h
    exact ⟨h .root, fun b hb => h.inside (.branch .root hb)⟩
  · rintro ⟨hown, hinside⟩ inner innerMembers he
    -- the way to an inner element goes through one of the branches
    suffices hway : ∀ {inner : Label} {value : Json},
        HasElement rules label (.obj members) inner value →
        (inner = label ∧ value = .obj members) ∨
          ∃ b ∈ branches rules label members, HasElement rules b.1 b.2 inner value by
      rcases hway he with ⟨rfl, heq⟩ | ⟨b, hb, hbelow⟩
      · cases heq
        exact hown
      · exact hinside b hb hbelow
    intro inner value he
    induction he with
    | root => exact Or.inl ⟨rfl, rfl⟩
    | branch _ mem ih =>
        rcases ih with ⟨rfl, heq⟩ | ⟨b, hb, hbelow⟩
        · cases heq
          exact Or.inr ⟨_, mem, .root⟩
        · exact Or.inr ⟨b, hb, hbelow.branch mem⟩

/-- Only an object has flags. -/
theorem flagsApart_of_not_obj (h : ∀ members, value ≠ .obj members) :
    FlagsApart rules label value := by
  suffices hway : ∀ {inner : Label} {innerValue : Json},
      HasElement rules label value inner innerValue → innerValue = value by
    intro inner members he
    exact absurd (hway he).symm (h members)
  intro inner innerValue he
  induction he with
  | root => rfl
  | branch _ _ ih => exact absurd ih.symm (h _)

/-- The names of flags are different exactly if the flags are apart. -/
theorem nodup_names_iff {flags : List (String × Json)} {written : List Attribute}
    (h : List.Forall₂ IsFlagOf flags written) :
    (written.map (·.name)).Nodup ↔
      flags.Pairwise fun m m' => ∀ name, Spells m.1 name → ¬ Spells m'.1 name := by
  induction h with
  | nil => simp
  | @cons m a flags written first others ih =>
      rw [List.map_cons, List.nodup_cons, List.pairwise_cons, ih]
      refine and_congr_left fun _ => ?_
      rw [List.mem_map]
      constructor
      · intro hnot m' hm' name hname hname'
        obtain ⟨b, hb, hflag⟩ := exists_of_mem_forall₂ others hm'
        refine hnot ⟨b, hb, ?_⟩
        rw [hflag.name.unique hname', first.name.unique hname]
      · rintro hnot ⟨b, hb, hname⟩
        obtain ⟨m', hm', hflag⟩ := exists_of_mem_forall₂ others.flip hb
        refine hnot m' hm' a.name first.name ?_
        rw [← hname]
        exact hflag.name

/-- Flags are apart where all of them are names. -/
theorem flagsApart_of_names
    (hnames : ∀ key ∈ rules.flagNames, IsName key) (hd : body.isDistinct = true) : FlagsApart rules root body := by
  intro label members he
  obtain ⟨hnodup, -⟩ := Json.isDistinct_obj_iff.mp (he.isDistinct hd)
  have hkeys : (flagMembers rules label members).Pairwise fun m m' => m.1 ≠ m'.1 :=
    (List.pairwise_map.mp hnodup).filter _
  refine hkeys.imp_of_mem fun hm hm' hne name hname hname' => hne ?_
  have hlocal {m : String × Json} (hm : m ∈ flagMembers rules label members) : IsName m.1 := by
    rw [flagMembers, List.mem_filter, Bool.and_eq_true] at hm
    exact hnames _ (ConversionRules.mem_flagNames_of_isFlag hm.2.2)
  rw [(hlocal hm).spells_iff] at hname
  rw [(hlocal hm').spells_iff, hname] at hname'
  exact (Xml.Name.mk.inj hname').2.2

theorem IsFlagOf.unique {m : String × Json} {a b : Attribute} (h : IsFlagOf m a)
    (h' : IsFlagOf m b) : a = b := by
  have hname := h.name.unique h'.name
  have hvalue := Option.some.inj (h.value.symm.trans h'.value)
  have hplain := h.plain.trans h'.plain.symm
  cases a
  cases b
  simp_all

/-- Flags are represented by one list of attributes only. -/
theorem flags_unique {flags : List (String × Json)} {written others : List Attribute}
    (h : List.Forall₂ IsFlagOf flags written) (h' : List.Forall₂ IsFlagOf flags others) :
    written = others := by
  induction h generalizing others with
  | nil =>
      cases h'
      rfl
  | cons first _ ih =>
      cases h' with
      | cons first' more => rw [first.unique first', ih more]

end Apart

/-! ## Attributes that are just the flags -/

section Exactly

variable {rules : ConversionRules} {Left : List Attribute → List Attribute → Prop}

/-- What represents an object: the attributes left of its flags, its text and its elements. -/
theorem represents_obj_iff {label : Label} {members : List (String × Json)}
    {attributes : List Attribute} {contents : List Node} :
    Represents rules Left label (.obj members) attributes contents ↔
      ∃ (written : List Attribute) (text : Option String) (children : List Node),
        List.Forall₂ IsFlagOf (flagMembers rules label members) written ∧
        Left written attributes ∧
        (valueMembers rules label members).map (·.2.scalarText?) = text.toList.map some ∧
        RepresentAll rules Left (branches rules label members) children ∧
        contents = text.toList.map .text ++ children := by
  constructor
  · intro h
    generalize hvalue : Json.obj members = value at h
    cases h with
    | object flags left texts others =>
        cases hvalue
        exact ⟨_, _, _, flags, left, texts, others, rfl⟩
    | prose _ scalar =>
        subst hvalue
        cases scalar
    | text _ scalar =>
        subst hvalue
        cases scalar
  · rintro ⟨written, text, children, flags, left, texts, others, rfl⟩
    exact .object flags left texts others

/-- The text and the elements of an object are told apart in what represents it. -/
theorem contents_unique {texts : List (Option String)} {text text' : Option String}
    {children children' : List Node} (h : texts = text.toList.map some)
    (h' : texts = text'.toList.map some)
    (heq : text.toList.map Node.text ++ children = text'.toList.map .text ++ children') :
    children = children' := by
  have htext : text.toList = text'.toList :=
    List.map_injective_iff.mpr (fun _ _ => Option.some.inj) (h.symm.trans h')
  rw [htext] at heq
  exact List.append_cancel_left heq

mutual

/-- **What represents a value has just the flags as attributes exactly if they are apart.** -/
theorem Represents.eq_iff {label : Label} {value : Json} {attributes : List Attribute}
    {contents : List Node} : Represents rules Leaves label value attributes contents →
      (Represents rules Eq label value attributes contents ↔ FlagsApart rules label value)
  | .object flags left value others => by
      -- the flags and the elements are the same in both, so only what is left is compared
      rw [flagsApart_obj_iff, ← nodup_names_iff flags, ← left.eq_iff, ← others.eq_iff,
        represents_obj_iff]
      constructor
      · rintro ⟨written', text', children', flags', left', value', others', hcontents⟩
        obtain rfl := flags_unique flags flags'
        obtain rfl := contents_unique value value' hcontents
        exact ⟨left', others'⟩
      · rintro ⟨left', others'⟩
        exact ⟨_, _, _, flags, left', value, others', rfl⟩
  | .prose isProse scalar =>
      ⟨fun _ => flagsApart_of_not_obj (by rintro members rfl; cases scalar),
        fun _ => .prose isProse scalar⟩
  | .text isPlain scalar =>
      ⟨fun _ => flagsApart_of_not_obj (by rintro members rfl; cases scalar),
        fun _ => .text isPlain scalar⟩

theorem RepresentAll.eq_iff {values : List (Label × Json)} {nodes : List Node} :
    RepresentAll rules Leaves values nodes →
      (RepresentAll rules Eq values nodes ↔ ∀ b ∈ values, FlagsApart rules b.1 b.2)
  | .nil => ⟨fun _ => by simp, fun _ => .nil⟩
  | .cons first others => by
      rw [List.forall_mem_cons, ← first.eq_iff, ← others.eq_iff]
      constructor
      · intro h
        cases h with
        | cons first' others' => exact ⟨first', others'⟩
      · rintro ⟨first', others'⟩
        exact .cons first' others'

end

end Exactly

/-! ## Counting -/

mutual

/-- The sum of a number over an element of a name that stands for a value and over all elements
in it. -/
def sumOver (rules : ConversionRules) (weight : Label → Json → Nat) (label : Label) : Json → Nat
  | .obj members => weight label (.obj members) + sumOverMembers rules weight label members
  | value => weight label value

/-- The sum over the elements that members become. -/
def sumOverMembers (rules : ConversionRules) (weight : Label → Json → Nat) (label : Label) :
    List (String × Json) → Nat
  | [] => 0
  | (key, value) :: rest =>
      (if rules.isValue label key || rules.isFlag label key then 0
        else match value with
          | .arr items => sumOverItems rules weight (itemLabel rules key) items
          | value => sumOver rules weight key value) + sumOverMembers rules weight label rest

/-- The sum over the elements that items become. -/
def sumOverItems (rules : ConversionRules) (weight : Label → Json → Nat) (label : Label) :
    List Json → Nat
  | [] => 0
  | item :: rest => sumOver rules weight label item + sumOverItems rules weight label rest

end

/-- The elements that the members of an object are to become: as many as it has items for an
array, one for anything else. -/
def memberElements (rules : ConversionRules) (label : Label) : Json → Nat
  | .obj members => ((childMembers rules label members).map fun m => match m.2 with
      | .arr items => items.length
      | _ => 1).sum
  | _ => 0

/-- The paragraphs that a scalar is divided into where prose is expected. -/
def paragraphElements (rules : ConversionRules) (label : Label) (value : Json) : Nat :=
  match value.scalarText? with
  | some text => if rules.isProse label then (Text.paragraphs text).length else 0
  | none => 0

end Conversion

namespace Xml

mutual

/-- The number of elements in a node, the node itself included. -/
def Node.elementCount : Node → Nat
  | .element _ children => 1 + countElements children
  | _ => 0

/-- The number of elements in nodes. -/
def countElements : List Node → Nat
  | [] => 0
  | node :: rest => node.elementCount + countElements rest

end

end Xml

end OscalValidation
