import OscalValidation.Proofs.Conversion.Acceptance
import OscalValidation.Proofs.Conversion.Documents

set_option autoImplicit false

/-! # The skeleton of a converted document

A schema is followed into a document and into the element it is converted to at the same time
(`Describes`). Wherever the schema describes an object, what it demands of the object is in the
element (`HasSkeleton`): the texts and objects that must be there as attributes, text or elements
of their names, and the arrays that must not be empty as elements of the name of their items. So it
is in all documents that the bundled converters make (`Converter.convert_skeleton`).
-/

namespace OscalValidation

namespace Conversion

open Xml (Element Attribute Node)
open Schema (Requires HasProperty IsTyped HasItems HasAtLeast Conforms)

/-! ## Elements that stand for values -/

/-- **The element stands for the value** under a label, with just its flags as attributes. -/
structure StandsFor (rules : ConversionRules) (label : Label) (value : Json) (e : Element) :
    Prop where
  named : e.tag.name = elementName label
  represents : Represents rules Eq label value e.tag.attributes e.children

section Elements

variable {rules : ConversionRules} {label : Label} {members : List (String × Json)} {e : Element}

theorem RepresentAll.forall₂ {all : List (Label × Json)} {nodes : List Node}
    (h : RepresentAll rules Eq all nodes) :
    List.Forall₂ (fun branch child => StandsFor rules branch.1 branch.2 child) all
      (nodes.filterMap Node.element?) := by
  induction all generalizing nodes with
  | nil =>
      cases h
      exact .nil
  | cons branch rest ih =>
      cases h with
      | cons first others => exact .cons ⟨rfl, first⟩ (ih others)

/-- The parts of an element that stands for an object. -/
theorem StandsFor.parts (h : StandsFor rules label (.obj members) e) :
    ∃ (text : Option String) (nodes : List Node),
      List.Forall₂ IsFlagOf (flagMembers rules label members) e.tag.attributes ∧
      (valueMembers rules label members).map (·.2.scalarText?) = text.toList.map some ∧
      RepresentAll rules Eq (branches rules label members) nodes ∧
      e.children = text.toList.map .text ++ nodes := by
  obtain ⟨written, text, nodes, flags, rfl, value, others, hchildren⟩ :=
    represents_obj_iff.mp h.represents
  exact ⟨text, nodes, flags, value, others, hchildren⟩

/-- **The elements in an element that stands for an object** stand for what its members become. -/
theorem StandsFor.elements (h : StandsFor rules label (.obj members) e) :
    List.Forall₂ (fun branch child => StandsFor rules branch.1 branch.2 child)
      (branches rules label members) e.elements := by
  obtain ⟨text, nodes, -, -, others, hchildren⟩ := h.parts
  have htext : (text.toList.map Node.text).filterMap Node.element? = [] := by
    cases text <;> rfl
  rw [Element.elements, hchildren, List.filterMap_append, htext, List.nil_append]
  exact others.forall₂

theorem StandsFor.of_mem_zip (h : StandsFor rules label (.obj members) e)
    {branch : Label × Json} {child : Element}
    (hmem : (branch, child) ∈ (branches rules label members).zip e.elements) :
    StandsFor rules branch.1 branch.2 child :=
  (List.forall₂_iff_zip.mp h.elements).2 hmem

/-- Whatever a member becomes has an element. -/
theorem StandsFor.exists_element (h : StandsFor rules label (.obj members) e)
    {branch : Label × Json} (hbranch : branch ∈ branches rules label members) :
    ∃ child ∈ e.elements, (branch, child) ∈ (branches rules label members).zip e.elements := by
  have hlength := h.elements.length_eq
  obtain ⟨n, hn, rfl⟩ := List.mem_iff_getElem.mp hbranch
  have hn' : n < e.elements.length := by omega
  have hzip : n < ((branches rules label members).zip e.elements).length := by
    rw [List.length_zip]
    omega
  refine ⟨e.elements[n], List.getElem_mem hn', ?_⟩
  have hmem := List.getElem_mem hzip
  rwa [List.getElem_zip] at hmem

end Elements

/-! ## Members -/

section Members

variable {rules : ConversionRules} {label : Label} {key : String} {members : List (String × Json)}
  {value : Json} {e : Element}

/-- A member that becomes neither text nor an attribute becomes elements. -/
theorem mem_branches (h : members.lookup key = some value)
    (hv : rules.isValue label key = false) (hf : rules.isFlag label key = false)
    {branch : Label × Json} (hbranch : branch ∈ branchesOf rules (key, value)) :
    branch ∈ branches rules label members := by
  have hchild : (key, value) ∈ childMembers rules label members := by
    rw [childMembers, List.mem_filter]
    exact ⟨mem_of_lookup h, by simp [hv, hf]⟩
  exact List.mem_flatMap.mpr ⟨(key, value), hchild, hbranch⟩

/-- A member that becomes an attribute has a text. -/
theorem StandsFor.scalar_of_flag (h : StandsFor rules label (.obj members) e)
    (hmember : members.lookup key = some value) (hv : rules.isValue label key = false)
    (hf : rules.isFlag label key = true) : ∃ text, value.scalarText? = some text := by
  obtain ⟨_, _, flags, -⟩ := h.parts
  have hflag : (key, value) ∈ flagMembers rules label members := by
    rw [flagMembers, List.mem_filter]
    exact ⟨mem_of_lookup hmember, by simp [hv, hf]⟩
  obtain ⟨a, -, ha⟩ := exists_of_mem_forall₂ flags hflag
  exact ⟨a.value, ha.value⟩

/-- The member that becomes the text has one. -/
theorem StandsFor.text_of_value (h : StandsFor rules label (.obj members) e)
    (hmember : members.lookup key = some value) (hv : rules.isValue label key = true) :
    ∃ text, value.scalarText? = some text ∧ e.children.head? = some (.text text) := by
  obtain ⟨text, nodes, -, hvalue, -, hchildren⟩ := h.parts
  have hmem : value.scalarText? ∈ text.toList.map some := by
    rw [← hvalue]
    exact List.mem_map.mpr ⟨(key, value), List.mem_filter.mpr ⟨mem_of_lookup hmember, hv⟩, rfl⟩
  cases text with
  | none => cases hmem
  | some text =>
      refine ⟨text, by simpa using hmem, ?_⟩
      rw [hchildren]
      rfl

/-- The attribute of a name has the text of the first member of that name. -/
theorem attribute_of_flags {flags : List (String × Json)} {attributes : List Attribute}
    {text : String} (h : List.Forall₂ IsFlagOf flags attributes)
    (hnames : ∀ flag ∈ flags, IsName flag.1) (hmember : flags.lookup key = some value)
    (htext : value.scalarText? = some text) :
    (attributes.find? fun a => a.name.uri.isNone && a.name.localName == key).map (·.value) =
      some text := by
  induction h with
  | nil => cases hmember
  | @cons flag a rest more hfirst _ ih =>
      obtain ⟨key', value'⟩ := flag
      obtain ⟨hlocal, hrest⟩ := List.forall_mem_cons.mp hnames
      have hname : a.name = ⟨none, none, key'⟩ := hlocal.spells_iff.mp hfirst.name
      rw [List.lookup_cons] at hmember
      by_cases hkey : key = key'
      · subst hkey
        rw [beq_self_eq_true] at hmember
        cases hmember
        rw [List.find?_cons_of_pos (by simp [hname]), Option.map_some, ← hfirst.value, htext]
      · rw [beq_eq_false_iff_ne.mpr hkey] at hmember
        have hother : (key' == key) = false := beq_eq_false_iff_ne.mpr (Ne.symm hkey)
        rw [List.find?_cons_of_neg (by simp [hname, hother])]
        exact ih hrest hmember

/-- Leaving out members of other names does not matter. -/
theorem lookup_filter {p : String → Bool} (hp : p key = true) :
    (members.filter fun m => p m.1).lookup key = members.lookup key := by
  induction members with
  | nil => rfl
  | cons m rest ih =>
      obtain ⟨key', value⟩ := m
      by_cases hkey : key = key'
      · subst hkey
        rw [List.filter_cons, if_pos hp, List.lookup_cons, List.lookup_cons, beq_self_eq_true]
      · rw [List.lookup_cons, beq_eq_false_iff_ne.mpr hkey, List.filter_cons]
        split
        · rw [List.lookup_cons, beq_eq_false_iff_ne.mpr hkey]
          exact ih
        · exact ih

/-- An array or an object becomes neither text nor an attribute. -/
theorem StandsFor.not_flag (h : StandsFor rules label (.obj members) e)
    (hmember : members.lookup key = some value) (hnone : value.scalarText? = none) :
    rules.isFlag label key = false ∧ rules.isValue label key = false := by
  have hv : rules.isValue label key = false := by
    rw [Bool.eq_false_iff]
    intro hv
    obtain ⟨text, htext, -⟩ := h.text_of_value hmember hv
    rw [hnone] at htext
    cases htext
  refine ⟨?_, hv⟩
  rw [Bool.eq_false_iff]
  intro hf
  obtain ⟨text, htext⟩ := h.scalar_of_flag hmember hv hf
  rw [hnone] at htext
  cases htext

theorem StandsFor.attribute_of_flag (h : StandsFor rules label (.obj members) e)
    (hnames : ∀ key ∈ rules.flagNames, IsName key) {text : String}
    (hmember : members.lookup key = some value) (hv : rules.isValue label key = false)
    (hf : rules.isFlag label key = true) (htext : value.scalarText? = some text) :
    e.attribute? key = some text := by
  obtain ⟨_, _, flags, -⟩ := h.parts
  have hlookup : (flagMembers rules label members).lookup key = some value := by
    rw [← hmember]
    exact lookup_filter (p := fun key => !rules.isValue label key && rules.isFlag label key)
      (by simp [hv, hf])
  refine attribute_of_flags flags (fun flag hflag => hnames _ ?_) hlookup htext
  have hkind := (List.mem_filter.mp hflag).2
  rw [Bool.and_eq_true] at hkind
  exact ConversionRules.mem_flagNames_of_isFlag hkind.2

end Members

/-! ## What a schema describes -/

/-- **The schema describes the value and the element it is converted to,** as a part of the root
member `body` and of the element `root`. -/
inductive Describes (converter : Converter) (body : Json) (root : Element) :
    Schema → Label → Json → Element → Prop
  /-- The root member and the root. -/
  | root {schema : Schema} {name : String} (named : converter.rules.root = .str name)
      (property : HasProperty converter.schema.targets converter.schema.root name schema) :
      Describes converter body root schema name body root
  /-- A member that is no array, and the element for it. -/
  | member {schema inner : Schema} {label : Label} {key : String} {members : List (String × Json)}
      {value : Json} {e child : Element}
      (outer : Describes converter body root schema label (.obj members) e)
      (property : HasProperty converter.schema.targets schema key inner)
      (given : members.lookup key = some value) (single : ∀ items, value ≠ .arr items)
      (element : ((.text key, value), child) ∈
        (branches converter.rules label members).zip e.elements) :
      Describes converter body root inner key value child
  /-- An item of a member that is an array, and the element for it. -/
  | item {schema array inner : Schema} {label : Label} {key : String} {members : List (String × Json)}
      {items : List Json} {value : Json} {e child : Element}
      (outer : Describes converter body root schema label (.obj members) e)
      (property : HasProperty converter.schema.targets schema key array)
      (described : HasItems converter.schema.targets array inner)
      (given : members.lookup key = some (.arr items)) (mem : value ∈ items)
      (element : ((itemLabel converter.rules key, value), child) ∈
        (branches converter.rules label members).zip e.elements) :
      Describes converter body root inner (itemLabel converter.rules key) value child

section Describes

variable {converter : Converter} {body : Json} {root : Element} {schema : Schema} {label : Label}
  {value : Json} {e : Element}

/-- **What is described conforms, and its element stands for it,** if so it is at the root. -/
theorem Describes.conforms_standsFor
    (hbody : ∀ name schema, converter.rules.root = .str name →
      HasProperty converter.schema.targets converter.schema.root name schema →
      Conforms converter.schema.targets schema body)
    (hroot : ∀ name, converter.rules.root = .str name →
      StandsFor converter.rules name body root)
    (h : Describes converter body root schema label value e) :
    Conforms converter.schema.targets schema value ∧ StandsFor converter.rules label value e := by
  induction h with
  | root named property => exact ⟨hbody _ _ named property, hroot _ named⟩
  | member outer property given single element ih =>
      exact ⟨ih.1.property property given, ih.2.of_mem_zip element⟩
  | item outer property described given mem element ih =>
      exact ⟨(ih.1.property property given).item described mem, ih.2.of_mem_zip element⟩

end Describes

/-! ## The skeleton -/

/-- **The element carries the text of a member:** as an attribute, as its own text, or as that of
an element of the member's name, in paragraphs where prose is expected. -/
structure CarriesText (rules : ConversionRules) (label : Label) (e : Element)
    (key content : String) : Prop where
  flag : rules.isFlag label key = true → e.attribute? key = some content
  /-- The value member is the text of the element. -/
  value : rules.isValue label key = true → e.children.head? = some (.text content)
  /-- Any other member is an element. -/
  child : rules.isFlag label key = false → rules.isValue label key = false →
    ∃ child ∈ e.elements, child.tag.name = elementName key ∧
      child.children = if rules.isProse key then (Text.paragraphs content).map paragraphNode
        else [.text content]

/-- **What the schema demands of an object is in the element:** it is there, and so is an element
for every part of the object that the schema describes. -/
structure HasSkeleton (converter : Converter) (body : Json) (root : Element) (schema : Schema)
    (label : Label) (members : List (String × Json)) (e : Element) : Prop where
  /-- A text that must be there is carried as it is. -/
  text : ∀ key inner, Requires converter.schema.targets schema key →
    HasProperty converter.schema.targets schema key inner →
    IsTyped converter.schema.targets inner .string →
    ∃ content, members.lookup key = some (.str content) ∧
      CarriesText converter.rules label e key content
  /-- An object that must be there is an element of its name, which is described in turn. -/
  object : ∀ key inner, Requires converter.schema.targets schema key →
    HasProperty converter.schema.targets schema key inner →
    IsTyped converter.schema.targets inner .object →
    ∃ value, members.lookup key = some (.obj value) ∧
      converter.rules.isFlag label key = false ∧ converter.rules.isValue label key = false ∧
      ∃ child ∈ e.elements, child.tag.name = elementName key ∧
        Describes converter body root inner key (.obj value) child
  /-- An array that must be there and must not be empty has an element of the name of its items. -/
  array : ∀ key inner count, Requires converter.schema.targets schema key →
    HasProperty converter.schema.targets schema key inner →
    IsTyped converter.schema.targets inner .array →
    HasAtLeast converter.schema.targets inner count → 0 < count →
    ∃ child ∈ e.elements, child.tag.name = elementName (itemLabel converter.rules key)
  /-- A member that becomes an element is described with it. -/
  member : ∀ key inner value, HasProperty converter.schema.targets schema key inner →
    members.lookup key = some value → (∀ items, value ≠ .arr items) →
    converter.rules.isFlag label key = false → converter.rules.isValue label key = false →
    ∃ child ∈ e.elements, Describes converter body root inner key value child
  /-- Each item of an array is described with its element. -/
  item : ∀ key array inner items, HasProperty converter.schema.targets schema key array →
    HasItems converter.schema.targets array inner → members.lookup key = some (.arr items) →
    ∀ value ∈ items, ∃ child ∈ e.elements,
      Describes converter body root inner (itemLabel converter.rules key) value child

section Skeleton

variable {converter : Converter} {body : Json} {root : Element} {schema inner : Schema}
  {label : Label} {key : String} {members : List (String × Json)} {value : Json} {e : Element}

/-- A described member that becomes an element has one, and it is described. -/
theorem Describes.exists_member (h : Describes converter body root schema label (.obj members) e)
    (hstands : StandsFor converter.rules label (.obj members) e)
    (property : HasProperty converter.schema.targets schema key inner)
    (given : members.lookup key = some value) (single : ∀ items, value ≠ .arr items)
    (hf : converter.rules.isFlag label key = false)
    (hv : converter.rules.isValue label key = false) :
    ∃ child ∈ e.elements, Describes converter body root inner key value child := by
  have hbranch : (.text key, value) ∈ branches converter.rules label members := by
    apply mem_branches given hv hf
    rw [branchesOf_of_not_arr single]
    exact List.mem_singleton_self _
  obtain ⟨child, hchild, helement⟩ := hstands.exists_element hbranch
  exact ⟨child, hchild, .member h property given single helement⟩

/-- Each item has an element. -/
theorem StandsFor.exists_item (h : StandsFor converter.rules label (.obj members) e)
    {items : List Json} (given : members.lookup key = some (.arr items)) (hmem : value ∈ items) :
    ∃ child ∈ e.elements, ((itemLabel converter.rules key, value), child) ∈
      (branches converter.rules label members).zip e.elements := by
  obtain ⟨hf, hv⟩ := h.not_flag given rfl
  apply h.exists_element
  apply mem_branches given hv hf
  exact List.mem_map_of_mem hmem

/-- The element of a text. -/
theorem StandsFor.children_of_text {rules : ConversionRules} {content : String}
    (h : StandsFor rules key (.str content) e) :
    e.children = if rules.isProse key then (Text.paragraphs content).map paragraphNode
      else [.text content] := by
  obtain ⟨-, h⟩ := h
  generalize e.children = children at h ⊢
  generalize e.tag.attributes = attributes at h
  cases h with
  | prose isProse scalar =>
      cases scalar
      rw [if_pos isProse]
  | text isPlain scalar =>
      cases scalar
      rw [if_neg (by rw [isPlain]; exact Bool.false_ne_true)]

/-- **An element that stands for an object carries its texts,** if no flag is a value member. -/
theorem StandsFor.carriesText (h : StandsFor converter.rules label (.obj members) e)
    (hnames : ∀ key ∈ converter.rules.flagNames, IsName key)
    (happart : ∀ label key, converter.rules.isValue label key = true →
      converter.rules.isFlag label key = false)
    {content : String} (given : members.lookup key = some (.str content)) :
    CarriesText converter.rules label e key content where
  flag hf := by
    have hv : converter.rules.isValue label key = false := by
      rw [Bool.eq_false_iff]
      intro hv
      rw [happart label key hv] at hf
      cases hf
    exact h.attribute_of_flag hnames given hv hf rfl
  value hv := by
    obtain ⟨text, htext, hhead⟩ := h.text_of_value given hv
    cases htext
    exact hhead
  child hf hv := by
    have hbranch : (.text key, Json.str content) ∈ branches converter.rules label members :=
      mem_branches given hv hf List.mem_cons_self
    obtain ⟨child, hchild, helement⟩ := h.exists_element hbranch
    have hstands := h.of_mem_zip helement
    exact ⟨child, hchild, hstands.named, hstands.children_of_text⟩

/-- **Whatever object a schema describes, its element has the skeleton.** -/
theorem Describes.hasSkeleton
    (hnames : ∀ key ∈ converter.rules.flagNames, IsName key)
    (happart : ∀ label key, converter.rules.isValue label key = true →
      converter.rules.isFlag label key = false)
    (hall : ∀ {schema : Schema} {label : Label} {value : Json} {e : Element},
      Describes converter body root schema label value e →
      Conforms converter.schema.targets schema value ∧ StandsFor converter.rules label value e)
    (h : Describes converter body root schema label (.obj members) e) :
    HasSkeleton converter body root schema label members e := by
  obtain ⟨hconforms, hstands⟩ := hall h
  constructor
  case text =>
    intro key inner hrequires hproperty htyped
    obtain ⟨value, given⟩ := hconforms.required hrequires
    obtain ⟨content, rfl⟩ := (hconforms.property hproperty given).string htyped
    exact ⟨content, given, hstands.carriesText hnames happart given⟩
  case object =>
    intro key inner hrequires hproperty htyped
    obtain ⟨value, given⟩ := hconforms.required hrequires
    obtain ⟨value, rfl⟩ := (hconforms.property hproperty given).object htyped
    obtain ⟨hf, hv⟩ := hstands.not_flag given rfl
    obtain ⟨child, hchild, hdescribes⟩ :=
      h.exists_member hstands hproperty given (fun _ => Json.noConfusion) hf hv
    have hnamed := (hall hdescribes).2.named
    exact ⟨value, given, hf, hv, child, hchild, hnamed, hdescribes⟩
  case array =>
    intro key inner count hrequires hproperty htyped hcount hpos
    obtain ⟨value, given⟩ := hconforms.required hrequires
    have hinner := hconforms.property hproperty given
    obtain ⟨items, rfl⟩ := hinner.array htyped
    have hlength : 0 < items.length := Nat.lt_of_lt_of_le hpos (hinner.length hcount)
    obtain ⟨child, hchild, helement⟩ :=
      hstands.exists_item given (List.getElem_mem hlength)
    exact ⟨child, hchild, (hstands.of_mem_zip helement).named⟩
  case member =>
    intro key inner value hproperty given single hf hv
    exact h.exists_member hstands hproperty given single hf hv
  case item =>
    intro key array inner items hproperty hitems given value hmem
    obtain ⟨child, hchild, helement⟩ := hstands.exists_item given hmem
    exact ⟨child, hchild, .item h hproperty hitems given hmem helement⟩

end Skeleton

end Conversion

/-! ## The bundled converters -/

/-- In the bundled tables no member that becomes text is a flag. -/
theorem ConversionRules.isFlag_of_isValue (type : DocumentType) {label : Label} {key : String}
    (h : (ofType type).isValue label key = true) : (ofType type).isFlag label key = false := by
  obtain ⟨entries, hentries⟩ : ∃ entries, (ofType type).values = .obj entries := by
    cases type <;> exact ⟨_, rfl⟩
  have hall : ∀ entry ∈ entries, ∀ key ∈ entry.2.text?, (ofType type).isFlag entry.1 key = false := by
    cases type <;> cases hentries <;> decide +kernel
  rw [isValue, beq_iff_eq, hentries] at h
  obtain ⟨entry, hentry, htext⟩ := Option.bind_eq_some_iff.mp h
  cases label with
  | text name => exact hall (name, entry) (mem_of_lookup hentry) key htext
  | value _ => cases hentry

namespace Converter

open Conversion
open Schema (HasProperty Conforms)

variable {type : DocumentType} {document : Json} {result : Xml.Document}

/-- What is described in a document that a bundled converter makes conforms, and its element stands
for it. -/
theorem exists_describes_of_convert (h : (ofType type).convert type document = .ok result)
    (hd : document.isDistinct = true) :
    ∃ body, document.member? type.rootName = some (.obj body) ∧
      Describes (ofType type) (.obj body) result.root (Schema.body type) type.rootName (.obj body)
        result.root ∧
      ∀ schema label value e,
        Describes (ofType type) (.obj body) result.root schema label value e →
        Conforms (ofType type).schema.targets schema value ∧
          StandsFor (ofType type).rules label value e := by
  have hrules : (ofType type).rules.root = .str type.rootName := by cases type <;> rfl
  obtain ⟨root, body, parts, hroot, hbody, hconform, -, hparts, rfl⟩ := convert_eq_ok_iff.mp h
  obtain rfl : type.rootName = root := Json.str.inj (hrules.symm.trans hroot)
  have hviolations := (conform_eq_ok_iff.mp hconform).1
  obtain ⟨body, rfl⟩ := object_of_conforms hbody hviolations
  have hdistinct := Json.isDistinct_of_member? hbody hd
  -- all flags of the bundled tables are names, so they are apart
  have hflags : FlagsApart (ofType type).rules type.rootName (.obj body) :=
    flagsApart_of_names (by cases type <;> decide +kernel) hdistinct
  have hrepresents := (represents_of_partsOf _ _ (.obj body) parts hparts hdistinct).eq_iff.mpr hflags
  have hproperty : HasProperty (ofType type).schema.targets (ofType type).schema.root
      type.rootName (Schema.body type) :=
    ⟨_, List.mem_of_mem_tail (List.mem_of_mem_tail List.mem_cons_self), List.mem_cons_self⟩
  refine ⟨body, hbody, .root hrules hproperty, fun _ _ _ _ hdescribes =>
    hdescribes.conforms_standsFor ?_ ?_⟩
  · intro name schema hnamed hinner
    obtain rfl := Json.str.inj (hrules.symm.trans hnamed)
    rw [SchemaDocument.violations_eq_nil_iff] at hviolations
    cases document with
    | obj members => exact Conforms.property ⟨_, hviolations⟩ hinner hbody
    | _ => cases hbody
  · intro name hnamed
    obtain rfl := Json.str.inj (hrules.symm.trans hnamed)
    exact ⟨rfl, hrepresents⟩

/-- **A document that a bundled converter makes has the skeleton that the schema demands,** at the
root and at every object that the schema describes below it. -/
theorem convert_skeleton (type : DocumentType) (document : Json) (result : Xml.Document)
    (h : (ofType type).convert type document = .ok result) (hd : document.isDistinct = true) :
    ∃ body, document.member? type.rootName = some (.obj body) ∧
      result.root.tag.name = elementName type.rootName ∧
      Describes (ofType type) (.obj body) result.root (Schema.body type) type.rootName (.obj body)
        result.root ∧
      ∀ schema label members e,
        Describes (ofType type) (.obj body) result.root schema label (.obj members) e →
        HasSkeleton (ofType type) (.obj body) result.root schema label members e := by
  obtain ⟨body, hbody, hdescribes, hall⟩ := exists_describes_of_convert h hd
  refine ⟨body, hbody, (hall _ _ _ _ hdescribes).2.named, hdescribes, fun _ _ _ _ hinner => ?_⟩
  exact hinner.hasSkeleton (by cases type <;> decide +kernel)
    (fun _ _ hv => ConversionRules.isFlag_of_isValue type hv) (fun h => hall _ _ _ _ h)

/-- An assessment plan with what the schema demands and no more. -/
def smallPlan : Json :=
  .obj [("assessment-plan",
    .obj [("uuid", .str "11111111-1111-4111-8111-111111111111"),
      ("metadata", .obj [("title", .str "T"), ("last-modified", .str ""), ("version", .str ""),
        ("oscal-version", .str "")]),
      ("import-ssp", .obj [("href", .str "#")]),
      ("reviewed-controls", .obj [("control-selections", .arr [.obj []])])])]

/-- The small plan has its identifier as an attribute of the root, and an element for what it says
about itself. -/
theorem convert_smallPlan : smallPlan.isDistinct = true ∧
    ∃ body result, (ofType .sap).convert .sap smallPlan = .ok result ∧
      HasSkeleton (ofType .sap) (.obj body) result.root (Schema.body .sap) "assessment-plan" body
        result.root ∧
      result.root.attribute? "uuid" = some "11111111-1111-4111-8111-111111111111" ∧
      ∃ child ∈ result.root.elements, child.tag.name = elementName "metadata" := by
  have hd : smallPlan.isDistinct = true := by decide
  have hok : ((ofType .sap).convert .sap smallPlan).isOk = true := by decide +kernel
  refine ⟨hd, ?_⟩
  cases h : (ofType .sap).convert .sap smallPlan with
  | error fault =>
      rw [h] at hok
      cases hok
  | ok result =>
      obtain ⟨body, hbody, -, hdescribes, hall⟩ := convert_skeleton .sap smallPlan result h hd
      have hskeleton := hall _ _ _ _ hdescribes
      refine ⟨body, result, rfl, hskeleton, ?_, ?_⟩
      · obtain ⟨content, hcontent, hcarries⟩ := hskeleton.text "uuid" Schema.uuidRef
          ⟨_, List.mem_cons_of_mem _ List.mem_cons_self, List.mem_cons_self⟩
          ⟨_, List.mem_cons_of_mem _ (List.mem_cons_of_mem _ List.mem_cons_self),
            List.mem_cons_self⟩ List.mem_cons_self
        cases hbody
        cases hcontent
        exact hcarries.flag (by decide)
      · obtain ⟨_, -, -, -, child, hchild, hnamed, -⟩ := hskeleton.object "metadata"
          Schema.metadataRef
          ⟨_, List.mem_cons_of_mem _ List.mem_cons_self, List.mem_cons_of_mem _ List.mem_cons_self⟩
          ⟨_, List.mem_cons_of_mem _ (List.mem_cons_of_mem _ List.mem_cons_self),
            List.mem_cons_of_mem _ List.mem_cons_self⟩ List.mem_cons_self
        exact ⟨child, hchild, hnamed⟩

end Converter

end OscalValidation
