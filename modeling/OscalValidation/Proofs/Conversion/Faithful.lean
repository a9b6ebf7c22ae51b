import OscalValidation.Proofs.Attempts
import OscalValidation.Proofs.Conversion.Representation
import OscalValidation.Proofs.Json.Distinct

set_option autoImplicit false

/-! # Conversion is faithful

What a conversion makes of a value represents the value: no member is lost, repeated, invented
or moved (`convert_represents`). From this the number of elements follows: one for the root, one
for each member or item that becomes an element, and one for each paragraph.
-/

namespace OscalValidation

namespace Conversion

open Xml (Node Attribute checkText)

variable {rules : ConversionRules} {label : Label} {place : Place}

/-! ## Parts of scalars -/

theorem textAt_eq_ok_iff {value : Json} {text : String} :
    textAt place value = .ok text ↔ value.scalarText? = some text := by
  unfold textAt
  cases ht : value.scalarText? with
  | some text' => simp
  | none => cases value <;> simp

theorem eq_text_of_textPart {content : String} {part : Part}
    (h : textPart place content = .ok part) : part = .text content := by
  unfold textPart at h
  split at h
  · cases h
    rfl
  · cases h

theorem attribute_of_attributePart {key text : String} {part : Part}
    (h : attributePart place key text = .ok part) :
    ∃ name, Spells key name ∧ part = .flag ⟨name, text, false⟩ := by
  unfold attributePart at h
  split at h
  · cases h
  · cases h
  · next name _ hname _ =>
    cases h
    exact ⟨name, attributeName_eq_ok_iff.mp hname, rfl⟩

theorem eq_paragraphNode_of_paragraphAt {content : String} {node : Node}
    (h : paragraphAt place content = .ok node) : node = paragraphNode content := by
  obtain ⟨part, hpart, h⟩ := bind_eq_ok_iff.mp h
  rw [eq_text_of_textPart hpart, pure_eq_ok_iff] at h
  exact h.symm

theorem represents_of_scalarParts {value : Json} {parts : List Part}
    (h : scalarParts rules label place value = .ok parts) :
    Represents rules Leaves label value (attributesOf parts) (textOf parts ++ childrenOf parts) := by
  obtain ⟨text, htext, h⟩ := bind_eq_ok_iff.mp h
  rw [textAt_eq_ok_iff] at htext
  cases hprose : rules.isProse label with
  | true =>
      rw [hprose, if_pos rfl] at h
      obtain ⟨nodes, hnodes, h⟩ := bind_eq_ok_iff.mp h
      rw [pure_eq_ok_iff] at h
      subst h
      have hparagraphs : nodes = (Text.paragraphs text).map paragraphNode := by
        rw [mapM_eq_ok_iff] at hnodes
        refine List.ext_getElem? fun i => ?_
        have hi := congrArg (·[i]?) hnodes
        simp only [List.getElem?_map] at hi ⊢
        cases hp : (Text.paragraphs text)[i]? <;> cases hn : nodes[i]? <;>
          simp only [hp, hn, Option.map_none, Option.map_some, Option.some.injEq,
            reduceCtorEq] at hi ⊢
        exact eq_paragraphNode_of_paragraphAt hi
      have hrepresents : Represents rules Leaves label value []
          ((Text.paragraphs text).map paragraphNode) := .prose hprose htext
      rw [← hparagraphs] at hrepresents
      simpa [attributesOf, flagsOf, textOf, childrenOf] using hrepresents
  | false =>
      -- elsewhere the whole scalar is one text
      rw [hprose, if_neg Bool.false_ne_true] at h
      obtain ⟨part, hpart, h⟩ := bind_eq_ok_iff.mp h
      rw [pure_eq_ok_iff] at h
      subst h
      rw [eq_text_of_textPart hpart]
      exact Represents.text hprose htext

/-! ## Parts of members -/

def textsOf (parts : List Part) : List String :=
  parts.filterMap fun
    | .text content => some content
    | _ => none

theorem textOf_eq (parts : List Part) :
    textOf parts = ((textsOf parts).map Node.text).getLast?.toList := by
  unfold textOf textsOf
  rw [List.map_filterMap]
  congr 2
  refine List.filterMap_congr fun part _ => ?_
  cases part <;> rfl

/-- The parts are those of the members, kind by kind. -/
structure PartsRepresent (rules : ConversionRules) (label : Label)
    (members : List (String × Json)) (parts : List Part) : Prop where
  /-- The attributes are those of the flags. -/
  flags : List.Forall₂ IsFlagOf (flagMembers rules label members) (flagsOf parts)
  /-- The texts are those of the value members. -/
  values : (valueMembers rules label members).map (·.2.scalarText?) = (textsOf parts).map some
  /-- The elements are those of all other members. -/
  others : RepresentAll rules Leaves (branches rules label members) (childrenOf parts)

theorem RepresentAll.append {xs ys : List (Label × Json)} {nodes others : List Node}
    (h : RepresentAll rules Leaves xs nodes) (h' : RepresentAll rules Leaves ys others) :
    RepresentAll rules Leaves (xs ++ ys) (nodes ++ others) := by
  induction xs generalizing nodes with
  | nil =>
      cases h
      exact h'
  | cons x rest ih =>
      cases h with
      | cons first more => exact .cons first (ih more)

theorem PartsRepresent.nil : PartsRepresent rules label [] [] :=
  ⟨.nil, rfl, .nil⟩

section Cons

variable {key : String} {value : Json} {rest : List (String × Json)} {parts : List Part}

/-- A value member brings a text. -/
theorem PartsRepresent.cons_value (h : PartsRepresent rules label rest parts)
    (hv : rules.isValue label key = true) {text : String} (ht : value.scalarText? = some text) :
    PartsRepresent rules label ((key, value) :: rest) (.text text :: parts) where
  flags := by simpa [flagMembers, flagsOf, hv] using h.flags
  values := by simpa [valueMembers, textsOf, hv, ht] using h.values
  others := by simpa [branches, childMembers, childrenOf, hv] using h.others

/-- A flag brings an attribute. -/
theorem PartsRepresent.cons_flag (h : PartsRepresent rules label rest parts)
    (hv : ¬ rules.isValue label key = true) (hf : rules.isFlag label key = true) {a : Attribute}
    (ha : IsFlagOf (key, value) a) :
    PartsRepresent rules label ((key, value) :: rest) (.flag a :: parts) where
  flags := by
    have hflags : flagMembers rules label ((key, value) :: rest) =
        (key, value) :: flagMembers rules label rest := by
      simp [flagMembers, hv, hf]
    rw [hflags]
    exact .cons ha h.flags
  values := by simpa [valueMembers, textsOf, hv] using h.values
  others := by simpa [branches, childMembers, childrenOf, hv, hf] using h.others

/-- Any other member brings elements. -/
theorem PartsRepresent.cons_child (h : PartsRepresent rules label rest parts)
    (hv : ¬ rules.isValue label key = true) (hf : ¬ rules.isFlag label key = true)
    {nodes : List Node} (hn : RepresentAll rules Leaves (branchesOf rules (key, value)) nodes) :
    PartsRepresent rules label ((key, value) :: rest) (.children nodes :: parts) where
  flags := by simpa [flagMembers, flagsOf, hv, hf] using h.flags
  values := by simpa [valueMembers, textsOf, hv] using h.values
  others := by
    have := hn.append h.others
    simpa [branches, childMembers, childrenOf, hv, hf] using this

end Cons

/-- No two members of an object become its text. -/
theorem length_valueMembers_le_one (rules : ConversionRules) (label : Label)
    {members : List (String × Json)} (h : (members.map (·.1)).Nodup) :
    (valueMembers rules label members).length ≤ 1 := by
  match hm : valueMembers rules label members with
  | [] => exact Nat.zero_le 1
  | [m] => exact Nat.le_refl 1
  | m :: m' :: rest =>
      -- both members have the one label that the table gives for the element
      have hkey : ∀ x ∈ valueMembers rules label members,
          (ConversionRules.entryFor? rules.values label).bind Json.text? = some x.1 := by
        intro x hx
        exact beq_iff_eq.mp (List.mem_filter.mp hx).2
      have hsub : (valueMembers rules label members).Sublist members := List.filter_sublist
      have hnodup := h.sublist (hsub.map (·.1))
      have h1 := hkey m (by rw [hm]; simp)
      have h2 := hkey m' (by rw [hm]; simp)
      rw [h1, Option.some.injEq] at h2
      rw [hm] at hnodup
      simp [h2] at hnodup

/-- So an object brings at most one text. -/
theorem PartsRepresent.length_textsOf_le_one {members : List (String × Json)} {parts : List Part}
    (h : PartsRepresent rules label members parts) (hm : (members.map (·.1)).Nodup) :
    (textsOf parts).length ≤ 1 := by
  have hlength := congrArg List.length h.values
  rw [List.length_map, List.length_map] at hlength
  rw [← hlength]
  exact length_valueMembers_le_one rules label hm

/-- The parts of the members of an object represent the object. -/
theorem PartsRepresent.represents {members : List (String × Json)} {parts : List Part}
    (h : PartsRepresent rules label members parts) (hm : (members.map (·.1)).Nodup) :
    Represents rules Leaves label (.obj members) (attributesOf parts)
      (textOf parts ++ childrenOf parts) := by
  have hlength := h.length_textsOf_le_one hm
  have htext : textOf parts = (textsOf parts).head?.toList.map .text := by
    rw [textOf_eq]
    match textsOf parts, hlength with
    | [], _ => rfl
    | [text], _ => rfl
  have hvalues : (textsOf parts).map some = (textsOf parts).head?.toList.map some := by
    match textsOf parts, hlength with
    | [], _ => rfl
    | [text], _ => rfl
  -- both rewritings hold only because there is at most one value member
  rw [htext]
  exact .object h.flags (leaves_foldl _) (h.values.trans hvalues) h.others

/-! ## Members one by one -/

/-- The part that one member makes of the element `label`. -/
def memberPart (rules : ConversionRules) (label : Label) (place : Place) (m : String × Json) :
    Except ConversionFault Part :=
  let place' := place.below (.member m.1)
  if rules.isValue label m.1 then textAt place' m.2 >>= textPart place'
  else if rules.isFlag label m.1 then textAt place' m.2 >>= attributePart place' m.1
  else match m.2 with
    | .arr items => do
        tableAt rules.groups
        let nodes ← itemNodes rules (itemLabel rules m.1) place' 0 items
        return .children nodes
    | value => do
        nameAt place' m.1
        let parts ← partsOf rules m.1 place' value
        return .children [(assemble m.1 [] parts).node]

/-- Each member is converted on its own, ahead of the members after it. -/
theorem memberParts_cons (m : String × Json) (rest : List (String × Json)) :
    memberParts rules label place (m :: rest) =
      memberPart rules label place m >>= fun part =>
        memberParts rules label place rest >>= fun more => pure (part :: more) := by
  obtain ⟨key, value⟩ := m
  conv_lhs => unfold memberParts
  unfold memberPart
  dsimp only
  by_cases hv : rules.isValue label key = true
  · rw [if_pos hv, if_pos hv, bind_assoc]
  by_cases hf : rules.isFlag label key = true
  · rw [if_neg hv, if_pos hf, if_neg hv, if_pos hf, bind_assoc]
  rw [if_neg hv, if_neg hf, if_neg hv, if_neg hf]
  cases value <;> simp only [bind_assoc]

theorem memberParts_cons_eq_ok_iff {m : String × Json} {rest : List (String × Json)}
    {parts : List Part} :
    memberParts rules label place (m :: rest) = .ok parts ↔
      ∃ part more, memberPart rules label place m = .ok part ∧
        memberParts rules label place rest = .ok more ∧ parts = part :: more := by
  simp only [memberParts_cons, bind_eq_ok_iff, pure_eq_ok_iff, exists_and_left,
    eq_comm (a := parts)]

theorem memberParts_nil_eq_ok_iff {parts : List Part} :
    memberParts rules label place [] = .ok parts ↔ parts = [] := by
  rw [memberParts, Except.ok.injEq, eq_comm]

/-- **Members are converted exactly if each of them makes a part,** in whatever order. -/
theorem memberParts_eq_ok_iff {members : List (String × Json)} {parts : List Part} :
    memberParts rules label place members = .ok parts ↔
      List.Forall₂ (fun m part => memberPart rules label place m = .ok part) members parts := by
  induction members generalizing parts with
  | nil => rw [memberParts_nil_eq_ok_iff, List.forall₂_nil_left_iff]
  | cons m rest ih =>
      rw [memberParts_cons_eq_ok_iff, List.forall₂_cons_left_iff]
      simp only [ih]

section MemberPart

variable {key : String} {value : Json} {part : Part}

theorem memberPart_value_iff (hv : rules.isValue label key = true) :
    memberPart rules label place (key, value) = .ok part ↔ ∃ text,
      value.scalarText? = some text ∧ textPart (place.below (.member key)) text = .ok part := by
  simp [memberPart, hv, bind_eq_ok_iff, textAt_eq_ok_iff]

theorem memberPart_flag_iff (hv : ¬ rules.isValue label key = true)
    (hf : rules.isFlag label key = true) :
    memberPart rules label place (key, value) = .ok part ↔ ∃ text,
      value.scalarText? = some text ∧
        attributePart (place.below (.member key)) key text = .ok part := by
  simp [memberPart, hv, hf, bind_eq_ok_iff, textAt_eq_ok_iff]

theorem memberPart_items_iff {items : List Json} (hv : ¬ rules.isValue label key = true)
    (hf : ¬ rules.isFlag label key = true) :
    memberPart rules label place (key, .arr items) = .ok part ↔
      tableAt rules.groups = .ok () ∧
        ∃ nodes, itemNodes rules (itemLabel rules key) (place.below (.member key)) 0 items =
          .ok nodes ∧ part = .children nodes := by
  simp only [memberPart, hv, hf, Bool.false_eq_true, if_false, bind_eq_ok_iff, pure_eq_ok_iff,
    Unique.exists_iff, eq_comm (a := part)]

theorem memberPart_element_iff (hv : ¬ rules.isValue label key = true)
    (hf : ¬ rules.isFlag label key = true) (ha : ∀ items, value ≠ .arr items) :
    memberPart rules label place (key, value) = .ok part ↔
      nameAt (place.below (.member key)) key = .ok () ∧
        ∃ inner, partsOf rules key (place.below (.member key)) value = .ok inner ∧
          part = .children [(assemble key [] inner).node] := by
  cases value with
  | arr items => exact absurd rfl (ha items)
  | _ =>
      simp only [memberPart, hv, hf, Bool.false_eq_true, if_false, bind_eq_ok_iff,
        pure_eq_ok_iff, Unique.exists_iff, eq_comm (a := part)]

end MemberPart

theorem itemNodes_cons_eq_ok_iff {item : Json} {rest : List Json} {position : Nat}
    {nodes : List Node} :
    itemNodes rules label place position (item :: rest) = .ok nodes ↔
      nameAt (place.below (.item position)) label = .ok () ∧
        ∃ inner more, partsOf rules label (place.below (.item position)) item = .ok inner ∧
          itemNodes rules label place (position + 1) rest = .ok more ∧
          nodes = (assemble label [] inner).node :: more := by
  rw [itemNodes]
  simp only [bind_eq_ok_iff, pure_eq_ok_iff, eq_comm (a := nodes), Unique.exists_iff,
    exists_and_left]

section Inversion

variable {key : String} {value : Json} {rest : List (String × Json)} {parts : List Part}

theorem memberParts_cons_value (hv : rules.isValue label key = true)
    (h : memberParts rules label place ((key, value) :: rest) = .ok parts) :
    ∃ text more, value.scalarText? = some text ∧ memberParts rules label place rest = .ok more ∧
      parts = .text text :: more := by
  obtain ⟨part, more, hpart, hmore, rfl⟩ := memberParts_cons_eq_ok_iff.mp h
  obtain ⟨text, htext, htextPart⟩ := (memberPart_value_iff hv).mp hpart
  exact ⟨text, more, htext, hmore, by rw [eq_text_of_textPart htextPart]⟩

theorem memberParts_cons_flag (hv : ¬ rules.isValue label key = true)
    (hf : rules.isFlag label key = true)
    (h : memberParts rules label place ((key, value) :: rest) = .ok parts) :
    ∃ a more, IsFlagOf (key, value) a ∧ memberParts rules label place rest = .ok more ∧
      parts = .flag a :: more := by
  obtain ⟨part, more, hpart, hmore, rfl⟩ := memberParts_cons_eq_ok_iff.mp h
  obtain ⟨text, htext, hflag⟩ := (memberPart_flag_iff hv hf).mp hpart
  obtain ⟨name, hname, rfl⟩ := attribute_of_attributePart hflag
  exact ⟨_, more, ⟨hname, htext, rfl⟩, hmore, rfl⟩

theorem memberParts_cons_items {items : List Json} (hv : ¬ rules.isValue label key = true)
    (hf : ¬ rules.isFlag label key = true)
    (h : memberParts rules label place ((key, .arr items) :: rest) = .ok parts) :
    ∃ nodes more, itemNodes rules (itemLabel rules key) (place.below (.member key)) 0 items =
        .ok nodes ∧ memberParts rules label place rest = .ok more ∧
      parts = .children nodes :: more := by
  obtain ⟨part, more, hpart, hmore, rfl⟩ := memberParts_cons_eq_ok_iff.mp h
  obtain ⟨-, nodes, hnodes, rfl⟩ := (memberPart_items_iff hv hf).mp hpart
  exact ⟨nodes, more, hnodes, hmore, rfl⟩

theorem memberParts_cons_element (hv : ¬ rules.isValue label key = true)
    (hf : ¬ rules.isFlag label key = true) (ha : ∀ items, value ≠ .arr items)
    (h : memberParts rules label place ((key, value) :: rest) = .ok parts) :
    ∃ inner more, partsOf rules key (place.below (.member key)) value = .ok inner ∧
      memberParts rules label place rest = .ok more ∧
      parts = .children [(assemble key [] inner).node] :: more := by
  obtain ⟨part, more, hpart, hmore, rfl⟩ := memberParts_cons_eq_ok_iff.mp h
  obtain ⟨-, inner, hinner, rfl⟩ := (memberPart_element_iff hv hf ha).mp hpart
  exact ⟨inner, more, hinner, hmore, rfl⟩

end Inversion

/-! ## Parts of values -/

theorem branchesOf_of_not_arr {key : String} {value : Json} (h : ∀ items, value ≠ .arr items) :
    branchesOf rules (key, value) = [(.text key, value)] := by
  cases value with
  | arr items => exact absurd rfl (h items)
  | _ => rfl

theorem partsOf_obj_eq_ok_iff {members : List (String × Json)} {parts : List Part} :
    partsOf rules label place (.obj members) = .ok parts ↔
      tableAt rules.values = .ok () ∧ memberParts rules label place members = .ok parts := by
  simp only [partsOf, bind_eq_ok_iff, Unique.exists_iff]

mutual

/-- **The parts of a value represent the value.** -/
theorem represents_of_partsOf (label : Label) (place : Place) :
    (value : Json) → (parts : List Part) → partsOf rules label place value = .ok parts →
      value.isDistinct = true →
      Represents rules Leaves label value (attributesOf parts) (textOf parts ++ childrenOf parts)
  | .obj members, parts, h, hd => by
      obtain ⟨-, h⟩ := partsOf_obj_eq_ok_iff.mp h
      obtain ⟨hnodup, hd⟩ := Json.isDistinct_obj_iff.mp hd
      exact (partsRepresent_of_memberParts label place members parts h hd).represents hnodup
  | .arr _, _, h, _ => by
      rw [partsOf] at h
      cases h
  | .null, _, h, _ | .bool _, _, h, _ | .int _, _, h, _ | .real _, _, h, _ | .str _, _, h, _ =>
      represents_of_scalarParts h

theorem partsRepresent_of_memberParts (label : Label) (place : Place) :
    (members : List (String × Json)) → (parts : List Part) →
      memberParts rules label place members = .ok parts → Json.haveDistinct members = true →
      PartsRepresent rules label members parts
  | [], parts, h, _ => by
      rw [memberParts] at h
      cases h
      exact .nil
  | (key, value) :: rest, parts, h, hd => by
      obtain ⟨hvalue, hrest⟩ := Json.haveDistinct_cons_iff.mp hd
      by_cases hv : rules.isValue label key = true
      · obtain ⟨text, more, htext, hmore, rfl⟩ := memberParts_cons_value hv h
        exact (partsRepresent_of_memberParts label place rest more hmore hrest).cons_value hv htext
      by_cases hf : rules.isFlag label key = true
      · obtain ⟨text, more, htext, hmore, rfl⟩ := memberParts_cons_flag hv hf h
        exact (partsRepresent_of_memberParts label place rest more hmore hrest).cons_flag hv hf htext
      cases value with
      | arr items =>
          obtain ⟨nodes, more, hnodes, hmore, rfl⟩ := memberParts_cons_items hv hf h
          have hmembers := partsRepresent_of_memberParts label place rest more hmore hrest
          exact hmembers.cons_child hv hf
            (representAll_of_itemNodes _ _ 0 items nodes hnodes hvalue)
      | _ =>
          obtain ⟨inner, more, hinner, hmore, rfl⟩ :=
            memberParts_cons_element hv hf (fun _ => Json.noConfusion) h
          have hmembers := partsRepresent_of_memberParts label place rest more hmore hrest
          refine hmembers.cons_child hv hf ?_
          -- anything but an array becomes one element under the member's own label
          rw [branchesOf_of_not_arr fun _ => Json.noConfusion]
          exact .cons (represents_of_partsOf key _ _ inner hinner hvalue) .nil

theorem representAll_of_itemNodes (label : Label) (place : Place) (position : Nat) :
    (items : List Json) → (nodes : List Node) →
      itemNodes rules label place position items = .ok nodes → Json.areDistinct items = true →
      RepresentAll rules Leaves (items.map fun item => (label, item)) nodes
  | [], nodes, h, _ => by
      rw [itemNodes] at h
      cases h
      exact .nil
  | item :: rest, nodes, h, hd => by
      obtain ⟨hitem, hrest⟩ := Json.areDistinct_cons_iff.mp hd
      obtain ⟨-, inner, more, hinner, hmore, rfl⟩ := itemNodes_cons_eq_ok_iff.mp h
      exact .cons (represents_of_partsOf label _ item inner hinner hitem)
        (representAll_of_itemNodes label place (position + 1) rest more hmore hrest)

end

end Conversion

end OscalValidation
