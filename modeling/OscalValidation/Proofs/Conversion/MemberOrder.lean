import OscalValidation.Proofs.Conversion.Documents
import OscalValidation.Proofs.Schema.MemberOrder

set_option autoImplicit false

/-! # Conversion in another order

Main statement: of two documents that differ only in the order of members, a converter makes
documents or refuses both, and what it makes differs only in the order of attributes and of
siblings that come from different members (`Converter.convert_reordered`). The values of attributes
are the same as well if no two flags of an object give one name. The fault need not be the same,
since the conversion ends at the first one it meets.
-/

namespace OscalValidation

namespace Conversion

open Json (Reordered MembersAlike)
open Xml (Node Tag Attribute Element)

/-! ## Elements in another order -/

section Elements

variable (rules : ConversionRules) (Same : List Attribute → List Attribute → Prop)

mutual

/-- **Two elements stand for one value, its members in different orders:** they have the same name
and text, attributes that count as the same and, from each member, elements that are alike. -/
inductive Alike : Label → Json → Element → Element → Prop
  /-- Elements that come from one member stay together; those from different members have any
  order. -/
  | object {label : Label} {members : List (String × Json)} {tag : Tag}
      {attributes : List Attribute} {text : Option String}
      {blocks ordered blocks' : List (List Node)}
      (flags : Same tag.attributes attributes)
      (others : AlikeBlocks (childMembers rules label members) blocks ordered)
      (perm : ordered.Perm blocks') :
      Alike label (.obj members) ⟨tag, text.toList.map .text ++ blocks.flatten⟩
        ⟨{ tag with attributes := attributes }, text.toList.map .text ++ blocks'.flatten⟩
  /-- Anything but an object has a single order. -/
  | same {label : Label} {value : Json} {e : Element} (h : ∀ members, value ≠ .obj members) :
      Alike label value e e

/-- The nodes are elements that are alike, one by one and under the labels of the values. -/
inductive AlikeAll : List (Label × Json) → List Node → List Node → Prop
  | nil : AlikeAll [] [] []
  | cons {label : Label} {value : Json} {e e' : Element} {rest : List (Label × Json)}
      {nodes nodes' : List Node} (first : Alike label value e e')
      (others : AlikeAll rest nodes nodes') :
      AlikeAll ((label, value) :: rest) (e.node :: nodes) (e'.node :: nodes')

/-- From each member come elements that are alike, in the order of its items. -/
inductive AlikeBlocks :
    List (String × Json) → List (List Node) → List (List Node) → Prop
  | nil : AlikeBlocks [] [] []
  | cons {m : String × Json} {rest : List (String × Json)} {block block' : List Node}
      {blocks blocks' : List (List Node)}
      (first : AlikeAll (branchesOf rules m) block block')
      (others : AlikeBlocks rest blocks blocks') :
      AlikeBlocks (m :: rest) (block :: blocks) (block' :: blocks')

end

end Elements

variable {rules : ConversionRules} {Same : List Attribute → List Attribute → Prop}
  {label : Label} {place : Place}

theorem Alike.attributes {members : List (String × Json)} {e e' : Element}
    (h : Alike rules Same label (.obj members) e e') :
    Same e.tag.attributes e'.tag.attributes := by
  generalize hvalue : Json.obj members = value at h
  cases h with
  | object flags => exact flags
  | same hnot => exact absurd hvalue.symm (hnot members)

/-! ## Attributes in another order -/

/-- The attributes have the same names, in any order. -/
def SameNames (attributes attributes' : List Attribute) : Prop :=
  (attributes.map (·.name)).Perm (attributes'.map (·.name))

/-- **In whatever order the flags of an object are set, what is left of them counts as the same.**
So it is in the element of a value and in all elements below it. -/
def Keeps (rules : ConversionRules) (Same : List Attribute → List Attribute → Prop)
    (root : Label) (body : Json) : Prop :=
  ∀ ⦃label : Label⦄ ⦃members : List (String × Json)⦄,
    HasElement rules root body label (.obj members) →
    ∀ ⦃written written' attributes attributes' : List Attribute⦄,
      List.Forall₂ IsFlagOf (flagMembers rules label members) written → written.Perm written' →
      Leaves written attributes → Leaves written' attributes' → Same attributes attributes'

theorem Keeps.inside {root : Label} {body value : Json} (h : Keeps rules Same root body)
    (he : HasElement rules root body label value) : Keeps rules Same label value :=
  fun _ _ h' => h (he.trans h')

/-- The names of the attributes are the same in any case. -/
theorem keeps_sameNames (rules : ConversionRules) (root : Label) (body : Json) :
    Keeps rules SameNames root body := by
  intro label members _ written written' attributes attributes' _ perm left left'
  rw [SameNames, left.names, left'.names,
    List.perm_ext_iff_of_nodup (nodup_eraseDups _) (nodup_eraseDups _)]
  intro name
  rw [List.mem_eraseDups, List.mem_eraseDups]
  exact (perm.map (·.name)).mem_iff

/-- **Where flags are apart the attributes are the same,** values included. -/
theorem FlagsApart.keeps {root : Label} {body : Json} (h : FlagsApart rules root body) :
    Keeps rules List.Perm root body := by
  intro label members he written written' attributes attributes' flags perm left left'
  have hnodup : (written.map (·.name)).Nodup := (nodup_names_iff flags).mpr (h he)
  have hnodup' : (written'.map (·.name)).Nodup := (perm.map (·.name)).nodup_iff.mp hnodup
  rwa [← left.eq_iff.mpr hnodup, ← left'.eq_iff.mpr hnodup']

/-! ## Parts in another order -/

/-- The elements that the parts bring, member by member. -/
def blocksOf (parts : List Part) : List (List Node) :=
  parts.filterMap fun
    | .children nodes => some nodes
    | _ => none

theorem childrenOf_eq (parts : List Part) : childrenOf parts = (blocksOf parts).flatten := by
  induction parts with
  | nil => rfl
  | cons part rest ih =>
      cases part with
      | children nodes => simpa [childrenOf, blocksOf] using ih
      | _ => simpa [childrenOf, blocksOf] using ih

/-- **A member brings the same attribute, the same text or elements that are alike.** -/
inductive PartAlike (rules : ConversionRules) (Same : List Attribute → List Attribute → Prop)
    (label : Label) (m : String × Json) : Part → Part → Prop
  | text {content : String} (hv : rules.isValue label m.1 = true) :
      PartAlike rules Same label m (.text content) (.text content)
  | flag {a : Attribute} (hv : ¬ rules.isValue label m.1 = true)
      (hf : rules.isFlag label m.1 = true) : PartAlike rules Same label m (.flag a) (.flag a)
  | children {nodes nodes' : List Node} (hv : ¬ rules.isValue label m.1 = true)
      (hf : ¬ rules.isFlag label m.1 = true)
      (alike : AlikeAll rules Same (branchesOf rules m) nodes nodes') :
      PartAlike rules Same label m (.children nodes) (.children nodes')

/-- The parts have the same attributes and texts, and from each member elements that are alike. -/
structure PartsAlike (rules : ConversionRules) (Same : List Attribute → List Attribute → Prop)
    (label : Label) (members : List (String × Json)) (parts parts' : List Part) : Prop where
  flags : flagsOf parts = flagsOf parts'
  texts : textsOf parts = textsOf parts'
  blocks : AlikeBlocks rules Same (childMembers rules label members) (blocksOf parts)
    (blocksOf parts')

theorem PartsAlike.cons {m : String × Json} {members : List (String × Json)} {part part' : Part}
    {parts parts' : List Part} (first : PartAlike rules Same label m part part')
    (h : PartsAlike rules Same label members parts parts') :
    PartsAlike rules Same label (m :: members) (part :: parts) (part' :: parts') := by
  cases first with
  | text hv =>
      constructor
      · simpa [flagsOf] using h.flags
      · simpa [textsOf] using h.texts
      · simpa [childMembers, blocksOf, hv] using h.blocks
  | flag hv hf =>
      constructor
      · simpa [flagsOf] using h.flags
      · simpa [textsOf] using h.texts
      · simpa [childMembers, blocksOf, hv, hf] using h.blocks
  | children hv hf alike =>
      constructor
      · simpa [flagsOf] using h.flags
      · simpa [textsOf] using h.texts
      · simpa [childMembers, blocksOf, hv, hf] using AlikeBlocks.cons alike h.blocks

theorem textOf_eq_map (parts : List Part) :
    textOf parts = (textsOf parts).getLast?.toList.map .text := by
  rw [textOf_eq, List.getLast?_map, Option.toList_map]

/-- **What parts make of an object does not depend on their order,** but for that of attributes and
of elements from different members. -/
theorem PartsAlike.alike {members : List (String × Json)} {parts ordered parts' : List Part}
    (h : PartsAlike rules Same label members parts ordered) (perm : ordered.Perm parts')
    (represent : PartsRepresent rules label members parts) (names : (members.map (·.1)).Nodup)
    (keeps : Keeps rules Same label (.obj members)) (declarations : List Xml.Declaration) :
    Alike rules Same label (.obj members) (assemble label declarations parts)
      (assemble label declarations parts') := by
  have hperm : (flagsOf parts).Perm (flagsOf parts') := by
    rw [h.flags]
    exact perm.filterMap _
  have hflags : Same (attributesOf parts) (attributesOf parts') :=
    keeps .root represent.flags hperm (leaves_foldl _) (leaves_foldl _)
  -- one text at most has no other order
  have htext : textsOf parts = textsOf parts' := by
    have htexts : (textsOf parts).Perm (textsOf parts') := by
      rw [h.texts]
      exact perm.filterMap _
    match textsOf parts, represent.length_textsOf_le_one names, htexts with
    | [], _, htexts => exact htexts.nil_eq
    | [text], _, htexts => exact htexts.singleton_eq
  have hblocks : (blocksOf ordered).Perm (blocksOf parts') := perm.filterMap _
  rw [assemble, assemble, textOf_eq_map, textOf_eq_map, ← htext, childrenOf_eq, childrenOf_eq]
  exact .object hflags h.blocks hblocks

/-! ## Values in another order -/

/-- **What is made of a value is made of the other too,** and the elements are alike. -/
structure ConvertsAlike (rules : ConversionRules) (Same : List Attribute → List Attribute → Prop)
    (value value' : Json) : Prop where
  element {label : Label} {place : Place} {parts : List Part} (keeps : Keeps rules Same label value)
    (h : partsOf rules label place value = .ok parts) (declarations : List Xml.Declaration) :
    ∃ parts', partsOf rules label place value' = .ok parts' ∧
      Alike rules Same label value (assemble label declarations parts)
        (assemble label declarations parts')
  /-- As the elements of an array. -/
  items {items items' : List Json} (eq : value = .arr items) (eq' : value' = .arr items')
    {label : Label} {place : Place} {position : Nat} {nodes : List Node}
    (keeps : ∀ item ∈ items, Keeps rules Same label item)
    (h : itemNodes rules label place position items = .ok nodes) :
    ∃ nodes', itemNodes rules label place position items' = .ok nodes' ∧
      AlikeAll rules Same (items.map fun item => (label, item)) nodes nodes'

theorem exists_itemNodes {items items' : List Json}
    (h : List.Forall₂ (ConvertsAlike rules Same) items items') {position : Nat} {nodes : List Node}
    (keeps : ∀ item ∈ items, Keeps rules Same label item)
    (hnodes : itemNodes rules label place position items = .ok nodes) :
    ∃ nodes', itemNodes rules label place position items' = .ok nodes' ∧
      AlikeAll rules Same (items.map fun item => (label, item)) nodes nodes' := by
  induction h generalizing position nodes with
  | nil =>
      rw [itemNodes] at hnodes
      cases hnodes
      exact ⟨[], by rw [itemNodes], .nil⟩
  | cons first _ ih =>
      obtain ⟨hname, inner, more, hinner, hmore, rfl⟩ := itemNodes_cons_eq_ok_iff.mp hnodes
      obtain ⟨inner', hinner', halike⟩ := first.element (keeps _ List.mem_cons_self) hinner []
      obtain ⟨more', hmore', hrest⟩ :=
        ih (fun item hitem => keeps item (List.mem_cons_of_mem _ hitem)) hmore
      exact ⟨_, itemNodes_cons_eq_ok_iff.mpr ⟨hname, inner', more', hinner', hmore', rfl⟩,
        .cons halike hrest⟩

/-- A scalar, and with it its text, has no other order. -/
theorem scalarText?_eq {value value' : Json} (h : Reordered value value') :
    value.scalarText? = value'.scalarText? := by
  cases h <;> rfl

/-- **What a member brings, the member in another order brings too.** -/
theorem exists_part {m m' : String × Json}
    (h : MembersAlike (fun v v' => Reordered v v' ∧ ConvertsAlike rules Same v v') m m')
    {part : Part}
    (keeps : ¬ rules.isValue label m.1 = true → ¬ rules.isFlag label m.1 = true →
      ∀ b ∈ branchesOf rules m, Keeps rules Same b.1 b.2)
    (hpart : memberPart rules label place m = .ok part) :
    ∃ part', memberPart rules label place m' = .ok part' ∧
      PartAlike rules Same label m part part' := by
  obtain ⟨key, value⟩ := m
  obtain ⟨key', value'⟩ := m'
  obtain ⟨rfl, hreordered, hconverts⟩ := h
  dsimp only at hreordered hconverts
  by_cases hv : rules.isValue label key = true
  · obtain ⟨text, htext, htextPart⟩ := (memberPart_value_iff hv).mp hpart
    rw [scalarText?_eq hreordered] at htext
    refine ⟨part, (memberPart_value_iff hv).mpr ⟨text, htext, htextPart⟩, ?_⟩
    rw [eq_text_of_textPart htextPart]
    exact .text hv
  by_cases hf : rules.isFlag label key = true
  · obtain ⟨text, htext, hflag⟩ := (memberPart_flag_iff hv hf).mp hpart
    rw [scalarText?_eq hreordered] at htext
    refine ⟨part, (memberPart_flag_iff hv hf).mpr ⟨text, htext, hflag⟩, ?_⟩
    obtain ⟨name, -, rfl⟩ := attribute_of_attributePart hflag
    exact .flag hv hf
  -- anything but an array becomes one element under the member's own name
  have helement (ha : ∀ items, value ≠ .arr items) (ha' : ∀ items, value' ≠ .arr items) :
      ∃ part', memberPart rules label place (key, value') = .ok part' ∧
        PartAlike rules Same label (key, value) part part' := by
    have hbranches : branchesOf rules (key, value) = [(.text key, value)] :=
      branchesOf_of_not_arr ha
    have hkeeps := keeps hv hf (.text key, value) (by rw [hbranches]; exact List.mem_singleton_self _)
    obtain ⟨hname, inner, hinner, rfl⟩ := (memberPart_element_iff hv hf ha).mp hpart
    obtain ⟨inner', hinner', halike⟩ := hconverts.element hkeeps hinner []
    refine ⟨_, (memberPart_element_iff hv hf ha').mpr ⟨hname, inner', hinner', rfl⟩,
      .children hv hf ?_⟩
    rw [hbranches]
    exact .cons halike .nil
  cases hreordered with
  | leaf hleaf =>
      have ha (items : List Json) : value ≠ .arr items := by
        rintro rfl
        exact hleaf
      exact helement ha ha
  | arr =>
      obtain ⟨htable, nodes, hnodes, rfl⟩ := (memberPart_items_iff hv hf).mp hpart
      have hkeeps := fun item hitem => keeps hv hf (_, item) (List.mem_map_of_mem hitem)
      obtain ⟨nodes', hnodes', halike⟩ := hconverts.items rfl rfl hkeeps hnodes
      exact ⟨_, (memberPart_items_iff hv hf).mpr ⟨htable, nodes', hnodes', rfl⟩,
        .children hv hf halike⟩
  | obj => exact helement (fun _ => Json.noConfusion) fun _ => Json.noConfusion

theorem exists_parts {members ordered : List (String × Json)}
    (h : List.Forall₂ (MembersAlike fun v v' => Reordered v v' ∧ ConvertsAlike rules Same v v')
      members ordered) {parts : List Part}
    (keeps : ∀ b ∈ branches rules label members, Keeps rules Same b.1 b.2)
    (hparts : List.Forall₂ (fun m part => memberPart rules label place m = .ok part)
      members parts) :
    ∃ parts', List.Forall₂ (fun m part => memberPart rules label place m = .ok part)
      ordered parts' ∧ PartsAlike rules Same label members parts parts' := by
  induction h generalizing parts with
  | nil =>
      cases hparts
      exact ⟨[], .nil, rfl, rfl, .nil⟩
  | @cons m _ rest _ first _ ih =>
      cases hparts with
      | cons hpart hmore =>
          have hfirst (hv : ¬ rules.isValue label m.1 = true)
              (hf : ¬ rules.isFlag label m.1 = true) (b : Label × Json)
              (hb : b ∈ branchesOf rules m) : Keeps rules Same b.1 b.2 := by
            refine keeps b (List.mem_flatMap.mpr ⟨m, ?_, hb⟩)
            exact List.mem_filter.mpr ⟨List.mem_cons_self, by simp [hv, hf]⟩
          have hothers (b : Label × Json) (hb : b ∈ branches rules label rest) :
              Keeps rules Same b.1 b.2 := by
            obtain ⟨m', hm', hb⟩ := List.mem_flatMap.mp hb
            refine keeps b (List.mem_flatMap.mpr ⟨m', ?_, hb⟩)
            exact ((List.sublist_cons_self m rest).filter _).subset hm'
          obtain ⟨part', hpart', halike⟩ := exists_part first hfirst hpart
          obtain ⟨more', hmore', hrest⟩ := ih hothers hmore
          exact ⟨_, .cons hpart' hmore', .cons halike hrest⟩

/-- **Every value is converted alike in another order.** -/
theorem convertsAlike_of_reordered (rules : ConversionRules)
    (Same : List Attribute → List Attribute → Prop) {value value' : Json}
    (h : Reordered value value') (hd : value.isDistinct = true) :
    ConvertsAlike rules Same value value' := by
  refine Reordered.induction (P := ConvertsAlike rules Same) ⟨?_, ?_, ?_⟩ h hd
  · intro value hleaf
    constructor
    · intro label place parts keeps hparts declarations
      refine ⟨parts, hparts, .same fun members heq => ?_⟩
      rw [heq] at hleaf
      exact hleaf
    · intro items items' heq
      rw [heq] at hleaf
      exact hleaf.elim
  · intro items items' _ h
    constructor
    · intro label place parts keeps hparts
      rw [partsOf] at hparts
      cases hparts
    · intro _ _ heq heq' label place position nodes keeps hnodes
      cases heq
      cases heq'
      exact exists_itemNodes (h.imp fun _ _ h => h.2) keeps hnodes
  · intro members ordered members' distinct h perm
    constructor
    · intro label place parts keeps hparts declarations
      obtain ⟨htable, hparts⟩ := partsOf_obj_eq_ok_iff.mp hparts
      obtain ⟨names, hvalues⟩ := Json.isDistinct_obj_iff.mp distinct
      have hrepresent := partsRepresent_of_memberParts label place members parts hparts hvalues
      rw [memberParts_eq_ok_iff] at hparts
      obtain ⟨moved, hmoved, halike⟩ :=
        exists_parts h (fun b hb => keeps.inside (.branch .root hb)) hparts
      -- the parts follow the members into their other order
      obtain ⟨parts', hparts', hperm⟩ := List.perm_comp_forall₂ perm.symm hmoved
      refine ⟨parts', ?_, halike.alike hperm.symm hrepresent names keeps declarations⟩
      exact partsOf_obj_eq_ok_iff.mpr ⟨htable, memberParts_eq_ok_iff.mpr hparts'⟩
    · intro _ _ heq
      cases heq

end Conversion

/-! ## Documents in another order -/

namespace Converter

open Conversion
open Json (Reordered)

variable {converter : Converter} {type : DocumentType}

/-- What a converter makes of a document it makes of the document in another order too. -/
theorem exists_convert_of_reordered {document document' : Json}
    (h : Reordered document document') (hd : document.isDistinct = true)
    (further : converter.schema.further document = .ok [] ↔
      converter.schema.further document' = .ok []) {result : Xml.Document}
    (hresult : converter.convert type document = .ok result) :
    ∃ (result' : Xml.Document) (root : String) (body : Json),
      converter.convert type document' = .ok result' ∧
      converter.rules.root = .str root ∧ document.member? root = some body ∧
      result'.before = result.before ∧ result'.after = result.after ∧
      ∀ Same, Keeps converter.rules Same root body →
        Alike converter.rules Same root body result.root result'.root := by
  obtain ⟨root, body, parts, hroot, hbody, hconforms, hname, hparts, rfl⟩ :=
    convert_eq_ok_iff.mp hresult
  have hmember := h.member? hd root
  rw [hbody] at hmember
  obtain ⟨body', hbody', hreordered⟩ : ∃ body',
      document'.member? root = some body' ∧ Reordered body body' := by
    generalize document'.member? root = found at hmember ⊢
    cases hmember with
    | some hbodies => exact ⟨_, rfl, hbodies⟩
  have hdistinct := Json.isDistinct_of_member? hbody hd
  have hconforms' : converter.conform document' = .ok () := by
    rw [conform_eq_ok_iff] at hconforms ⊢
    exact ⟨(converter.schema.conforms_iff h hd).mp hconforms.1, further.mp hconforms.2⟩
  -- the names of attributes are kept in any case, so the other order is accepted
  obtain ⟨parts', hparts', -⟩ :=
    (convertsAlike_of_reordered converter.rules SameNames hreordered hdistinct).element
      (keeps_sameNames _ _ _) hparts declarations
  refine ⟨_, root, body,
    convert_eq_ok_iff.mpr ⟨root, body', parts', hroot, hbody', hconforms', hname, hparts', rfl⟩,
    hroot, hbody, rfl, rfl, fun Same keeps => ?_⟩
  obtain ⟨made, hmade, halike⟩ :=
    (convertsAlike_of_reordered converter.rules Same hreordered hdistinct).element keeps hparts
      declarations
  rw [hparts', Except.ok.injEq] at hmade
  rwa [hmade]

/-- **The order of members does not matter to a converter,** but for the order of attributes and
of siblings that come from different members, and for the values of attributes that two flags of an
object give. What the schema demands beyond the known keywords must not depend on the order
either. -/
theorem convert_reordered (converter : Converter) (type : DocumentType)
    {document document' : Json} (h : Reordered document document')
    (hd : document.isDistinct = true)
    (further : converter.schema.further document = .ok [] ↔
      converter.schema.further document' = .ok []) :
    ((∃ result, converter.convert type document = .ok result) ↔
      ∃ result', converter.convert type document' = .ok result') ∧
    ∀ result result', converter.convert type document = .ok result →
      converter.convert type document' = .ok result' →
      result'.before = result.before ∧ result'.after = result.after ∧
        ∃ (root : String) (body : Json), converter.rules.root = .str root ∧
          document.member? root = some body ∧
          Alike converter.rules SameNames root body result.root result'.root ∧
          (FlagsApart converter.rules root body →
            Alike converter.rules List.Perm root body result.root result'.root) := by
  refine ⟨⟨?_, ?_⟩, ?_⟩
  · rintro ⟨result, hresult⟩
    obtain ⟨result', -, -, hresult', -⟩ := exists_convert_of_reordered h hd further hresult
    exact ⟨result', hresult'⟩
  · rintro ⟨result', hresult'⟩
    obtain ⟨result, -, -, hresult, -⟩ :=
      exists_convert_of_reordered (h.symm hd) (h.isDistinct hd) further.symm hresult'
    exact ⟨result, hresult⟩
  · intro result result' hresult hresult'
    obtain ⟨made, root, body, hmade, hroot, hbody, hbefore, hafter, halike⟩ :=
      exists_convert_of_reordered h hd further hresult
    rw [hresult', Except.ok.injEq] at hmade
    subst hmade
    exact ⟨hbefore, hafter, root, body, hroot, hbody, halike _ (keeps_sameNames _ _ _),
      fun apart => halike _ apart.keeps⟩

/-- The document with a member of each kind, the members of two objects in reverse. -/
def specimenReversed : Json :=
  .obj [("plan", .obj [("remarks", .str "one\n\ntwo"), ("notes", .arr []),
    ("parts", .arr [.obj [("prop", .obj [("value", .int 3)]), ("ns", .str "n")], .str "b"]),
    ("id", .str "a"), ("title", .str "T")])]

theorem reordered_specimenReversed : Reordered specimenDocument specimenReversed := by
  have hpart : Reordered (.obj [("ns", .str "n"), ("prop", .obj [("value", .int 3)])])
      (.obj [("prop", .obj [("value", .int 3)]), ("ns", .str "n")]) := by
    have hprop : Reordered (.obj [("value", .int 3)]) (.obj [("value", .int 3)]) :=
      .obj (.cons (.leaf trivial) .nil) (.refl _)
    exact .obj (.cons (.leaf trivial) (.cons hprop .nil)) (List.reverse_perm _).symm
  have hparts : Reordered
      (.arr [.obj [("ns", .str "n"), ("prop", .obj [("value", .int 3)])], .str "b"])
      (.arr [.obj [("prop", .obj [("value", .int 3)]), ("ns", .str "n")], .str "b"]) :=
    .arr (.cons hpart (.cons (.leaf trivial) .nil))
  exact .obj (.cons (.obj (.cons (.leaf trivial) (.cons (.leaf trivial) (.cons hparts
    (.cons (.arr .nil) (.cons (.leaf trivial) .nil))))) (List.reverse_perm _).symm) .nil) (.refl _)

/-- The documents with a member of each kind are both accepted, and the trees are alike. -/
theorem convert_specimenReversed : Reordered specimenDocument specimenReversed ∧
    specimenDocument.isDistinct = true ∧
    ∃ result result' body, specimen.convert .ssp specimenDocument = .ok result ∧
      specimen.convert .ssp specimenReversed = .ok result' ∧
      specimenDocument.member? "plan" = some body ∧
      Alike specimen.rules List.Perm "plan" body result.root result'.root := by
  have hd : specimenDocument.isDistinct = true := by decide
  obtain ⟨haccepted, halike⟩ :=
    convert_reordered specimen .ssp reordered_specimenReversed hd (by rfl)
  have hok : (specimen.convert .ssp specimenDocument).isOk = true := by decide +kernel
  refine ⟨reordered_specimenReversed, hd, ?_⟩
  cases hresult : specimen.convert .ssp specimenDocument with
  | error fault =>
      rw [hresult] at hok
      cases hok
  | ok result =>
      obtain ⟨result', hresult'⟩ := haccepted.mp ⟨result, hresult⟩
      obtain ⟨-, -, root, body, hroot, hbody, -, h⟩ := halike result result' hresult hresult'
      cases hroot
      have hapart : FlagsApart specimen.rules "plan" body :=
        flagsApart_of_names (by decide +kernel) (Json.isDistinct_of_member? hbody hd)
      exact ⟨result, result', body, rfl, hresult', hbody, h hapart⟩

/-- The document with both flags, in reverse. -/
def clashingReversed : Json := .obj [("r", .obj [(bracedFlag, .str "2"), ("b", .str "1")])]

/-- **Of two flags that give one name the order tells whose value is left.** -/
theorem convert_clashingReversed : Reordered clashingDocument clashingReversed ∧
    ∃ body result result', clashing.convert .ssp clashingDocument = .ok result ∧
      clashing.convert .ssp clashingReversed = .ok result' ∧
      clashingDocument.member? "r" = some body ∧
      result.root.tag.attributes = [⟨⟨none, none, "b"⟩, "2", false⟩] ∧
      result'.root.tag.attributes = [⟨⟨none, none, "b"⟩, "1", false⟩] ∧
      ¬ Alike clashing.rules List.Perm "r" body result.root result'.root := by
  have hreordered : Reordered clashingDocument clashingReversed :=
    .obj (.cons (.obj (.cons (.leaf trivial) (.cons (.leaf trivial) .nil)) (.swap _ _ _)) .nil)
      (.refl _)
  have hok : (clashing.convert .ssp clashingDocument).toOption.map (·.root.tag.attributes) =
      some [⟨⟨none, none, "b"⟩, "2", false⟩] := by decide +kernel
  have hok' : (clashing.convert .ssp clashingReversed).toOption.map (·.root.tag.attributes) =
      some [⟨⟨none, none, "b"⟩, "1", false⟩] := by decide +kernel
  refine ⟨hreordered, ?_⟩
  cases h : clashing.convert .ssp clashingDocument with
  | error fault =>
      rw [h] at hok
      cases hok
  | ok result =>
      cases h' : clashing.convert .ssp clashingReversed with
      | error fault =>
          rw [h'] at hok'
          cases hok'
      | ok result' =>
          rw [h] at hok
          rw [h'] at hok'
          have hfirst : result.root.tag.attributes = [⟨⟨none, none, "b"⟩, "2", false⟩] :=
            Option.some.inj hok
          have hsecond : result'.root.tag.attributes = [⟨⟨none, none, "b"⟩, "1", false⟩] :=
            Option.some.inj hok'
          refine ⟨_, result, result', rfl, rfl, rfl, hfirst, hsecond, fun halike => ?_⟩
          have hperm := halike.attributes
          rw [hfirst, hsecond, List.singleton_perm, List.singleton_inj] at hperm
          exact absurd hperm (by decide)

end Converter

end OscalValidation
