import OscalValidation.Proofs.Summaries.Agreement
import OscalValidation.Proofs.Summaries.Scenarios
import OscalValidation.Proofs.Text.Spacing
import OscalValidation.Proofs.Xml.Texts

set_option autoImplicit false

/-! # The entries of a catalog in document order

A catalog is made by three walks in each other: through the patterns of a source, the rules of a
pattern and the asserts and reports of a rule. Where no pattern is inside a pattern and no rule
inside a rule, this is one walk through the source in document order (`checks_eq_listed`). So the
catalog lists the identifiers in the order in which they occur first, each with what its first
assert or report says, and every assert or report makes an entry or a warning
(`ofSchema_isCatalogOf`).
-/

namespace OscalValidation

open Scenario (Leads placesOfNode placesOfNodes scope)
open Xml (Element Node)

namespace Schematron

/-! ## Messages -/

/-- **What nodes in a row show in a message.** Text shows as it is, the value of an expression and
the name of a node as the expression in braces, and any other element as the text in it. Comments,
instructions and references that are not replaced show as nothing. -/
inductive Renders : List Node → List Char → Prop
  | nil : Renders [] []
  | text {content : String} {rest : List Node} {after : List Char} (later : Renders rest after) :
      Renders (.text content :: rest) (content.toList ++ after)
  | value {tag : Xml.Tag} {children rest : List Node} {after : List Char}
      (named : tag.name.denotes uri "value-of" = true) (later : Renders rest after) :
      Renders (.element tag children :: rest)
        ('\x7b' :: ((tag.attribute? "select").getD "").toList ++ '\x7d' :: after)
  | nameAt {tag : Xml.Tag} {path : String} {children rest : List Node} {after : List Char}
      (named : tag.name.denotes uri "name" = true) (asked : tag.attribute? "path" = some path)
      (given : path ≠ "") (later : Renders rest after) :
      Renders (.element tag children :: rest) ('\x7b' :: path.toList ++ '\x7d' :: after)
  | nameHere {tag : Xml.Tag} {children rest : List Node} {after : List Char}
      (named : tag.name.denotes uri "name" = true)
      (absent : tag.attribute? "path" = none ∨ tag.attribute? "path" = some "")
      (later : Renders rest after) :
      Renders (.element tag children :: rest)
        ('\x7b' :: "name()".toList ++ '\x7d' :: after)
  | element {tag : Xml.Tag} {children rest : List Node} {inside after : List Char}
      (noValue : tag.name.denotes uri "value-of" = false)
      (noName : tag.name.denotes uri "name" = false)
      (inner : Xml.CollectsText children inside) (later : Renders rest after) :
      Renders (.element tag children :: rest) (inside ++ after)
  | silent {node : Node} {rest : List Node} {after : List Char}
      (noElement : ∀ tag children, node ≠ .element tag children)
      (noText : ∀ content, node ≠ .text content) (later : Renders rest after) :
      Renders (node :: rest) after

/-- **The message of an element:** what its content shows, with uniform space. -/
def IsMessage (e : Element) (message : String) : Prop :=
  ∃ shown, Renders e.children shown ∧ Text.IsUniform shown message.toList

/-- The part of a node stands in front of those of the nodes after it. -/
theorem Renders.part {node : Node} {rest : List Node} {after : List Char}
    (later : Renders rest after) : Renders (node :: rest) ((messagePart node).toList ++ after) := by
  cases node with
  | text content => exact .text later
  | comment _ _ => exact .silent nofun nofun later
  | instruction _ _ _ => exact .silent nofun nofun later
  | entity _ => exact .silent nofun nofun later
  | element tag children =>
      rw [messagePart]
      split
      · next hvalue =>
        simpa [Element.attribute?, String.toList_append] using Renders.value hvalue later
      · next hvalue =>
        split
        · next hname =>
          split
          · next hpath => exact .nameHere hname (.inr hpath) later
          · next hpath => exact .nameHere hname (.inl hpath) later
          · next path hgiven hpath =>
            have hne : path ≠ "" := fun heq => hgiven heq
            simpa [String.toList_append] using Renders.nameAt hname hpath hne later
        · next hname =>
          rw [Element.textContent, String.toList_ofList]
          exact .element (Bool.eq_false_iff.mpr hvalue) (Bool.eq_false_iff.mpr hname)
            (Xml.collectsText_textOfNodes children) later

theorem renders_messageParts (nodes : List Node) :
    Renders nodes (String.join (nodes.map messagePart)).toList := by
  induction nodes with
  | nil => exact .nil
  | cons node rest ih =>
      rw [List.map_cons, String.join_cons, String.toList_append]
      exact ih.part

theorem isMessage_message (e : Element) : IsMessage e (message e) :=
  ⟨_, renders_messageParts e.children, Text.isUniform_normalizeSpace _⟩

/-! ## Places in a source -/

/-- The places of a source: of its root element and of everything in it. -/
def placesIn (schema : Element) : List Scenario.Place := placesOfNode [] schema.node

/-- **No element of a name is inside another one.** -/
def Unnested (localName : String) (places : List Scenario.Place) : Prop :=
  ∀ place ∈ places, place.element.denotes uri localName = true →
    ∀ outer ∈ place.around, outer.denotes uri localName = false

instance (localName : String) (places : List Scenario.Place) :
    Decidable (Unnested localName places) :=
  inferInstanceAs (Decidable (∀ place ∈ places, place.element.denotes uri localName = true →
    ∀ outer ∈ place.around, outer.denotes uri localName = false))

theorem Unnested.mono {localName : String} {places places' : List Scenario.Place}
    (h : Unnested localName places) (hsub : places' ⊆ places) : Unnested localName places' :=
  fun place hplace => h place (hsub hplace)

/-- **What a place lists:** an assert or report directly in a rule, with the pattern around them
and this rule. Where no pattern is inside a pattern, there is only one around them. -/
def listed? (place : Scenario.Place) : Option (Element × Element × Scoped) :=
  if isCheck place.element then do
    let rule ← place.around.getLast?.filter (·.denotes uri "rule")
    let pattern ← place.around.find? (·.denotes uri "pattern")
    return (pattern, rule, ⟨place.element, scope [] place.around⟩)
  else none

/-- **The asserts and reports of a source in document order:** those which are directly in rules
that are inside patterns. -/
def listed (schema : Element) : List (Element × Element × Scoped) :=
  (placesIn schema).filterMap listed?

theorem listed?_eq_some_iff {place : Scenario.Place} {pattern rule : Element} {check : Scoped} :
    listed? place = some (pattern, rule, check) ↔
      isCheck place.element = true ∧ (place.around.getLast? = some rule ∧
        rule.denotes uri "rule" = true) ∧
        place.around.find? (·.denotes uri "pattern") = some pattern ∧
        check = ⟨place.element, scope [] place.around⟩ := by
  unfold listed?
  split
  · next h =>
    simp only [h, true_and, Option.bind_eq_bind, Option.bind_eq_some_iff,
      Option.filter_eq_some_iff, Option.pure_def, Option.some.injEq, Prod.mk.injEq]
    constructor
    · rintro ⟨rule', hrule, pattern', hpattern, rfl, rfl, rfl⟩
      exact ⟨hrule, hpattern, rfl⟩
    · rintro ⟨hrule, hpattern, rfl⟩
      exact ⟨rule, hrule, pattern, hpattern, rfl, rfl, rfl⟩
  · next h => simp [h]

/-- **What is listed** are the asserts and reports that a path through a pattern and then through
a rule leads to, the rule last. -/
theorem mem_listed_iff {schema : Element} {pattern rule : Element} {check : Scoped} :
    (pattern, rule, check) ∈ listed schema ↔
      ∃ around, Leads [schema.node] around check.element ∧ isCheck check.element = true ∧
        (around.getLast? = some rule ∧ rule.denotes uri "rule" = true) ∧
        around.find? (·.denotes uri "pattern") = some pattern ∧
        check.outer = scope [] around := by
  rw [listed, List.mem_filterMap]
  constructor
  · rintro ⟨place, hplace, hlisted⟩
    obtain ⟨hcheck, hrule, hpattern, rfl⟩ := listed?_eq_some_iff.mp hlisted
    obtain ⟨path, haround, hleads⟩ := Scenario.leads_of_mem_placesOfNode [] schema.node hplace
    rw [List.nil_append] at haround
    exact ⟨place.around, haround ▸ hleads, hcheck, hrule, hpattern, rfl⟩
  · rintro ⟨around, hleads, hcheck, hrule, hpattern, houter⟩
    have hplace := Scenario.mem_placesOfNodes_of_leads hleads []
    rw [placesOfNodes, placesOfNodes, List.append_nil, List.nil_append] at hplace
    refine ⟨⟨around, check.element⟩, hplace,
      listed?_eq_some_iff.mpr ⟨hcheck, hrule, hpattern, ?_⟩⟩
    rw [← houter]

/-! ## One walk for walks in each other -/

section Regrouping

variable {α : Type} {f : Scenario.Place → Option α} {localName : String}

/-- Only inside an element of the name, below `around`, does `f` find something. -/
def FoundInside (localName : String) (f : Scenario.Place → Option α) (around : List Element) :
    Prop :=
  ∀ path e, (f ⟨around ++ path, e⟩).isSome = true →
    ∃ outer ∈ path, outer.denotes uri localName = true

theorem FoundInside.eq_none {around : List Element} (h : FoundInside localName f around)
    (e : Element) : f ⟨around, e⟩ = none := by
  rw [← Option.not_isSome_iff_eq_none]
  intro hsome
  obtain ⟨outer, houter, -⟩ := h [] e (by rwa [List.append_nil])
  cases houter

theorem FoundInside.inside {around : List Element} (h : FoundInside localName f around)
    {e : Element} (he : ¬ e.denotes uri localName = true) :
    FoundInside localName f (around ++ [e]) := by
  intro path inner hsome
  rw [List.append_assoc] at hsome
  obtain ⟨outer, houter, hnamed⟩ := h _ inner hsome
  rcases List.mem_cons.mp houter with rfl | houter
  · exact absurd hnamed he
  · exact ⟨outer, houter, hnamed⟩

/-- The elements around a place begin with those around its node. -/
theorem mem_around_of_mem_placesOfNodes {around : List Element} {nodes : List Node}
    {place : Scenario.Place} (h : place ∈ placesOfNodes around nodes) {outer : Element}
    (houter : outer ∈ around) :
    outer ∈ place.around := by
  obtain ⟨path, haround, -⟩ := Scenario.leads_of_mem_placesOfNodes around nodes h
  rw [haround]
  exact List.mem_append_left path houter

mutual

/-- What is found in a node is found element of the name by element of the name. -/
theorem filterMap_placesOfNode (around : List Element) (hfound : FoundInside localName f around) :
    (node : Node) → Unnested localName (placesOfNode around node) →
      (placesOfNode around node).filterMap f =
        ((placesOfNode around node).filter (·.element.denotes uri localName)).flatMap fun place =>
          (placesOfNodes (place.around ++ [place.element]) place.element.children).filterMap f
  | .element tag children, hflat => by
      rw [placesOfNode] at hflat ⊢
      rw [List.filterMap_cons_none (hfound.eq_none _)]
      by_cases hnamed : (⟨tag, children⟩ : Element).denotes uri localName = true
      · -- the element has the name, so nothing inside has it
        have hinner : (placesOfNodes (around ++ [⟨tag, children⟩]) children).filter
            (·.element.denotes uri localName) = [] := by
          rw [List.filter_eq_nil_iff]
          intro place hplace hinner
          have houter := hflat place (List.mem_cons_of_mem _ hplace) hinner _
            (mem_around_of_mem_placesOfNodes hplace (List.mem_append_right _ List.mem_cons_self))
          rw [hnamed] at houter
          cases houter
        rw [List.filter_cons, if_pos hnamed, hinner, List.flatMap_singleton]
      · rw [List.filter_cons, if_neg hnamed]
        exact filterMap_placesOfNodes _ (hfound.inside hnamed) children
          (hflat.mono (List.subset_cons_self _ _))
  | .text _, _ | .comment _ _, _ | .instruction _ _ _, _ | .entity _, _ => rfl

theorem filterMap_placesOfNodes (around : List Element) (hfound : FoundInside localName f around) :
    (nodes : List Node) → Unnested localName (placesOfNodes around nodes) →
      (placesOfNodes around nodes).filterMap f =
        ((placesOfNodes around nodes).filter (·.element.denotes uri localName)).flatMap
          fun place =>
            (placesOfNodes (place.around ++ [place.element]) place.element.children).filterMap f
  | [], _ => rfl
  | node :: rest, hflat => by
      rw [placesOfNodes] at hflat ⊢
      rw [List.filterMap_append, List.filter_append, List.flatMap_append,
        filterMap_placesOfNode around hfound node (hflat.mono (List.subset_append_left _ _)),
        filterMap_placesOfNodes around hfound rest (hflat.mono (List.subset_append_right _ _))]

end

end Regrouping

/-! ## The walks of a catalog -/

def scopedAt (place : Scenario.Place) : Scoped := ⟨place.element, scope [] place.around⟩

mutual

/-- The elements of a name in their scope are those at places. -/
theorem allInNode_eq (localName : String) (around : List Element) : (node : Node) →
    Scoped.allInNode localName (scope [] around) node =
      ((placesOfNode around node).filter (·.element.denotes uri localName)).map scopedAt
  | .element tag children => by
      have ih := allInNodes_eq localName (around ++ [⟨tag, children⟩]) children
      rw [Scenario.scope_append] at ih
      rw [Scoped.allInNode, placesOfNode, List.filter_cons, ih, apply_ite (List.map scopedAt),
        List.map_cons]
      rfl
  | .text _ | .comment _ _ | .instruction _ _ _ | .entity _ => rfl

theorem allInNodes_eq (localName : String) (around : List Element) : (nodes : List Node) →
    Scoped.allInNodes localName (scope [] around) nodes =
      ((placesOfNodes around nodes).filter (·.element.denotes uri localName)).map scopedAt
  | [] => rfl
  | node :: rest => by
      rw [Scoped.allInNodes, placesOfNodes, List.filter_append, List.map_append,
        allInNode_eq localName around node, allInNodes_eq localName around rest]

end

/-- A pattern is no rule. -/
theorem not_rule_of_pattern {e : Element} (h : e.denotes uri "pattern" = true) :
    ¬ e.denotes uri "rule" = true := by
  unfold Element.denotes Xml.Name.denotes at h ⊢
  rw [Bool.and_eq_true, beq_iff_eq, beq_iff_eq] at h
  simp [h.2]

/-- Nothing is listed where the element directly around is no rule. -/
theorem listed?_append_eq_none {around : List Element} {outer e : Element}
    (h : ¬ outer.denotes uri "rule" = true) : listed? ⟨around ++ [outer], e⟩ = none := by
  rw [Option.eq_none_iff_forall_ne_some]
  rintro ⟨pattern, rule, check⟩ hsome
  obtain ⟨-, ⟨hrule, hnamed⟩, -⟩ := listed?_eq_some_iff.mp hsome
  obtain rfl : outer = rule := Option.some.inj ((List.getLast?_concat ..).symm.trans hrule)
  exact h hnamed

mutual

/-- Where no element is a rule, nothing is listed. -/
theorem filterMap_listed?_node {around : List Element} {outer : Element}
    (houter : ¬ outer.denotes uri "rule" = true) : (node : Node) →
      (∀ place ∈ placesOfNode (around ++ [outer]) node,
        ¬ place.element.denotes uri "rule" = true) →
      (placesOfNode (around ++ [outer]) node).filterMap listed? = []
  | .element tag children, hnone => by
      rw [placesOfNode] at hnone ⊢
      rw [List.filterMap_cons_none (listed?_append_eq_none houter)]
      exact filterMap_listed?_nodes (hnone _ List.mem_cons_self) children fun place hplace =>
        hnone place (List.mem_cons_of_mem _ hplace)
  | .text _, _ | .comment _ _, _ | .instruction _ _ _, _ | .entity _, _ => rfl

theorem filterMap_listed?_nodes {around : List Element} {outer : Element}
    (houter : ¬ outer.denotes uri "rule" = true) : (nodes : List Node) →
      (∀ place ∈ placesOfNodes (around ++ [outer]) nodes,
        ¬ place.element.denotes uri "rule" = true) →
      (placesOfNodes (around ++ [outer]) nodes).filterMap listed? = []
  | [], _ => rfl
  | node :: rest, hnone => by
      rw [placesOfNodes] at hnone ⊢
      rw [List.filterMap_append,
        filterMap_listed?_node houter node fun place hplace =>
          hnone place (List.mem_append_left _ hplace),
        filterMap_listed?_nodes houter rest fun place hplace =>
          hnone place (List.mem_append_right _ hplace)]
      rfl

end

/-- **What is listed in a rule** are the asserts and reports directly in it. -/
theorem filterMap_listed?_rule {around : List Element} {pattern rule : Element}
    (hpattern : (around ++ [rule]).find? (·.denotes uri "pattern") = some pattern)
    (hrule : rule.denotes uri "rule" = true) : (nodes : List Node) →
      (∀ place ∈ placesOfNodes (around ++ [rule]) nodes,
        ¬ place.element.denotes uri "rule" = true) →
      (placesOfNodes (around ++ [rule]) nodes).filterMap listed? =
        ((nodes.filterMap Node.element?).filter isCheck).map fun check =>
          (pattern, rule, ⟨check, scope [] (around ++ [rule])⟩)
  | [], _ => rfl
  | node :: rest, hnone => by
      rw [placesOfNodes] at hnone ⊢
      rw [List.filterMap_append, filterMap_listed?_rule hpattern hrule rest fun place hplace =>
        hnone place (List.mem_append_right _ hplace)]
      cases node with
      | element tag children =>
          rw [placesOfNode] at hnone ⊢
          -- what is further inside has no rule directly around it
          have hinner : (placesOfNodes (around ++ [rule] ++ [⟨tag, children⟩])
              children).filterMap listed? = [] :=
            filterMap_listed?_nodes (hnone _ List.mem_cons_self) children fun place hplace =>
              hnone place (List.mem_append_left _ (List.mem_cons_of_mem _ hplace))
          have helement : (Node.element tag children).element? = some ⟨tag, children⟩ := rfl
          rw [List.filterMap_cons_some helement, List.filter_cons]
          by_cases hcheck : isCheck ⟨tag, children⟩ = true
          · have hsome : listed? ⟨around ++ [rule], ⟨tag, children⟩⟩ =
                some (pattern, rule, ⟨⟨tag, children⟩, scope [] (around ++ [rule])⟩) :=
              listed?_eq_some_iff.mpr
                ⟨hcheck, ⟨List.getLast?_concat .., hrule⟩, hpattern, rfl⟩
            rw [List.filterMap_cons_some hsome, hinner, if_pos hcheck, List.map_cons]
            rfl
          · have hnot : listed? ⟨around ++ [rule], ⟨tag, children⟩⟩ = none := if_neg hcheck
            rw [List.filterMap_cons_none hnot, hinner, if_neg hcheck]
            rfl
      | _ => rfl

/-! ## What is inside a place -/

/-- A path to an element can be continued to what is inside it. -/
theorem leads_append {nodes : List Node} {path inner : List Element} {e e' : Element}
    (h : Leads nodes path e) (hinner : Leads e.children inner e') :
    Leads nodes (path ++ e :: inner) e' := by
  induction h with
  | here mem => exact .inside mem hinner
  | inside mem _ ih => exact .inside mem (ih hinner)

/-- What is inside a place is inside what the place is in. -/
theorem placesInside_subset {around : List Element} {nodes : List Node} {place : Scenario.Place}
    (h : place ∈ placesOfNodes around nodes) :
    placesOfNodes (place.around ++ [place.element]) place.element.children ⊆
      placesOfNodes around nodes := by
  intro inner hinner
  obtain ⟨path, haround, hleads⟩ := Scenario.leads_of_mem_placesOfNodes around nodes h
  obtain ⟨path', haround', hleads'⟩ := Scenario.leads_of_mem_placesOfNodes _ _ hinner
  have hmem := Scenario.mem_placesOfNodes_of_leads (leads_append hleads hleads') around
  have heq : around ++ (path ++ place.element :: path') = inner.around := by
    rw [haround', haround, List.append_assoc, List.append_assoc]
    rfl
  rw [heq] at hmem
  exact hmem

theorem placesIn_eq (schema : Element) : placesIn schema = placesOfNodes [] [schema.node] := by
  rw [placesOfNodes, placesOfNodes, List.append_nil]
  rfl

/-- Inside an element of the name there is no further one. -/
theorem Unnested.not_inside {localName : String} {places : List Scenario.Place}
    (h : Unnested localName places) {place : Scenario.Place}
    (hnamed : place.element.denotes uri localName = true)
    (hsub : placesOfNodes (place.around ++ [place.element]) place.element.children ⊆ places) :
    ∀ inner ∈ placesOfNodes (place.around ++ [place.element]) place.element.children,
      ¬ inner.element.denotes uri localName = true := by
  intro inner hinner hnamed'
  have houter := h inner (hsub hinner) hnamed' place.element
    (mem_around_of_mem_placesOfNodes hinner (List.mem_append_right _ List.mem_cons_self))
  rw [hnamed] at houter
  cases houter

/-! ## The catalog goes through what is listed -/

/-- Nothing is listed outside of patterns. -/
theorem foundInside_pattern : FoundInside "pattern" listed? [] := by
  intro path e hsome
  obtain ⟨⟨pattern, rule, check⟩, hlisted⟩ := Option.isSome_iff_exists.mp hsome
  obtain ⟨-, -, hpattern, -⟩ := listed?_eq_some_iff.mp hlisted
  exact ⟨pattern, List.mem_of_find?_eq_some hpattern,
    (List.find?_eq_some_iff_append.mp hpattern).1⟩

/-- Nothing is listed outside of rules. -/
theorem foundInside_rule {around : List Element} {outer : Element}
    (houter : ¬ outer.denotes uri "rule" = true) :
    FoundInside "rule" listed? (around ++ [outer]) := by
  intro path e hsome
  obtain ⟨⟨pattern, rule, check⟩, hlisted⟩ := Option.isSome_iff_exists.mp hsome
  obtain ⟨-, ⟨hrule, hnamed⟩, -⟩ := listed?_eq_some_iff.mp hlisted
  rcases List.eq_nil_or_concat path with rfl | ⟨init, last, rfl⟩
  · rw [List.append_nil, listed?_append_eq_none houter] at hsome
    cases hsome
  · dsimp only at hrule
    rw [List.concat_eq_append, ← List.append_assoc, List.getLast?_concat] at hrule
    exact ⟨rule, by simp [Option.some.inj hrule], hnamed⟩

/-- The scopes of the elements directly in an element at a place. -/
theorem elements_scopedAt (place : Scenario.Place) :
    (scopedAt place).elements =
      place.element.elements.map (⟨·, scope [] (place.around ++ [place.element])⟩) := by
  rw [Scoped.elements, Scoped.inner, Scenario.scope_append]
  rfl

end Schematron

namespace Catalog

open Schematron

/-- What is listed in a pattern, as the catalog goes through its rules. -/
theorem filterMap_listed?_pattern {schema : Element}
    (hpatterns : Unnested "pattern" (placesIn schema))
    (hrules : Unnested "rule" (placesIn schema)) {place : Scenario.Place}
    (hplace : place ∈ placesIn schema)
    (hpattern : place.element.denotes Schematron.uri "pattern" = true) :
    (placesOfNodes (place.around ++ [place.element]) place.element.children).filterMap listed? =
      ((scopedAt place).all "rule").flatMap fun rule =>
        (rule.elements.filter fun e => isCheck e.element).map fun check =>
          (place.element, rule.element, check) := by
  have hnot := not_rule_of_pattern hpattern
  have hsub : placesOfNodes (place.around ++ [place.element]) place.element.children ⊆
      placesIn schema := by
    rw [placesIn_eq] at hplace ⊢
    exact placesInside_subset hplace
  have hall : (scopedAt place).all "rule" =
      ((placesOfNodes (place.around ++ [place.element]) place.element.children).filter
        (·.element.denotes Schematron.uri "rule")).map scopedAt := by
    rw [Scoped.all, scopedAt, allInNode_eq, Element.node, placesOfNode, List.filter_cons,
      if_neg hnot]
  rw [filterMap_placesOfNodes _ (foundInside_rule hnot) _ (hrules.mono hsub), hall,
    List.flatMap_map]
  refine List.flatMap_congr fun rule hrule => ?_
  obtain ⟨hmem, hnamed⟩ := List.mem_filter.mp hrule
  -- the pattern of the rule is this one, since there is none around it
  have hfind : (rule.around ++ [rule.element]).find? (·.denotes Schematron.uri "pattern") =
      some place.element := by
    obtain ⟨path, haround, -⟩ := Scenario.leads_of_mem_placesOfNodes _ _ hmem
    have hnone : place.around.find? (·.denotes Schematron.uri "pattern") = none :=
      List.find?_eq_none.mpr fun outer houter =>
        Bool.eq_false_iff.mp (hpatterns place hplace hpattern outer houter)
    rw [haround, List.append_assoc, List.append_assoc, List.find?_append, hnone, Option.none_or,
      List.singleton_append, List.find?_cons, hpattern]
  rw [filterMap_listed?_rule hfind hnamed rule.element.children
      (hrules.not_inside hnamed (List.Subset.trans (placesInside_subset hmem) hsub)),
    elements_scopedAt, List.filter_map, List.map_map]
  rfl

/-- **The catalog goes through the asserts and reports in document order** where no pattern is
inside a pattern and no rule inside a rule. -/
theorem checks_eq_listed {schema : Element} (hpatterns : Unnested "pattern" (placesIn schema))
    (hrules : Unnested "rule" (placesIn schema)) : checks schema = listed schema := by
  have hall : (⟨schema, []⟩ : Scoped).all "pattern" =
      ((placesIn schema).filter (·.element.denotes Schematron.uri "pattern")).map scopedAt :=
    allInNode_eq "pattern" [] schema.node
  rw [checks, hall, List.flatMap_map, listed, placesIn,
    filterMap_placesOfNode [] foundInside_pattern schema.node hpatterns]
  refine List.flatMap_congr fun place hplace => ?_
  obtain ⟨hmem, hnamed⟩ := List.mem_filter.mp hplace
  exact (filterMap_listed?_pattern hpatterns hrules hmem hnamed).symm

/-! ## Identifiers and warnings -/

/-- The identifier of what is listed, unless it is empty. -/
def listedId? (check : Element × Element × Scoped) : Option String := idOf? check.2.2.element

theorem mem_listedIds_iff {schema : Element} {id : String} :
    id ∈ (listed schema).filterMap listedId? ↔
      ∃ around e, Leads [schema.node] around e ∧ isCheck e = true ∧
        (∃ rule, around.getLast? = some rule ∧ rule.denotes Schematron.uri "rule" = true) ∧
        (∃ pattern ∈ around, pattern.denotes Schematron.uri "pattern" = true) ∧
        idOf? e = some id := by
  rw [List.mem_filterMap]
  constructor
  · rintro ⟨⟨pattern, rule, check⟩, hmem, hid⟩
    obtain ⟨around, hleads, hcheck, hrule, hpattern, -⟩ := mem_listed_iff.mp hmem
    have hnamed : pattern.denotes Schematron.uri "pattern" = true := by
      simpa using List.find?_some hpattern
    exact ⟨around, check.element, hleads, hcheck, ⟨rule, hrule⟩,
      ⟨pattern, List.mem_of_find?_eq_some hpattern, hnamed⟩, hid⟩
  · rintro ⟨around, e, hleads, hcheck, ⟨rule, hrule⟩, ⟨pattern, hmem, hnamed⟩, hid⟩
    obtain ⟨first, hfirst⟩ : ∃ first, around.find? (·.denotes Schematron.uri "pattern") =
        some first := Option.isSome_iff_exists.mp (List.find?_isSome.mpr ⟨pattern, hmem, hnamed⟩)
    exact ⟨(first, rule, ⟨e, scope [] around⟩),
      mem_listed_iff.mpr ⟨around, hleads, hcheck, hrule, hfirst, rfl⟩, hid⟩

/-- **The identifiers are in the order in which they occur first,** after those that are there
already. -/
theorem keys_foldl_add (diagnostics : List (String × String)) (catalog : Catalog)
    (checks : List (Element × Element × Scoped)) :
    (checks.foldl (add diagnostics) catalog).entries.map (·.1) =
      catalog.entries.map (·.1) ++ ((checks.filterMap listedId?).filter
        (· ∉ catalog.entries.map (·.1))).eraseDups := by
  induction checks generalizing catalog with
  | nil => simp
  | cons check rest ih =>
      rw [List.foldl_cons, ih]
      cases hid : listedId? check with
      | none => rw [add_of_idOf?_eq_none hid, List.filterMap_cons_none hid]
      | some id =>
          rw [add_of_idOf?_eq_some hid, List.filterMap_cons_some hid, List.filter_cons]
          by_cases hin : id ∈ catalog.entries.map (·.1)
          · rw [if_pos hin, if_neg (by simpa using hin)]
          · -- the identifier is the next one, and it is left out further on
            have hlater : ∀ other : String,
                (decide (other ∉ catalog.entries.map (·.1) ++ [id])) =
                  ((!other == id) && decide (other ∉ catalog.entries.map (·.1))) := by
              intro other
              by_cases heq : other = id
              · simp [heq]
              · simp [heq, beq_eq_false_iff_ne.mpr heq]
            rw [if_neg hin, if_pos (by simpa using hin), List.eraseDups_cons, List.filter_filter,
              List.map_append, List.map_singleton, List.append_assoc, List.singleton_append]
            simp only [hlater]

/-- Every assert or report makes an entry or a warning. -/
theorem length_add (diagnostics : List (String × String)) (catalog : Catalog)
    (check : Element × Element × Scoped) :
    (add diagnostics catalog check).warnings.length +
        (add diagnostics catalog check).entries.length =
      catalog.warnings.length + catalog.entries.length + 1 := by
  obtain ⟨pattern, rule, e⟩ := check
  rw [add]
  split
  · simp only [List.length_append, List.length_singleton]
    omega
  · simp only [List.length_append, List.length_singleton]
    omega
  · split <;> simp only [List.length_append, List.length_singleton] <;> omega

theorem length_foldl_add (diagnostics : List (String × String)) (catalog : Catalog)
    (checks : List (Element × Element × Scoped)) :
    (checks.foldl (add diagnostics) catalog).warnings.length +
        (checks.foldl (add diagnostics) catalog).entries.length =
      catalog.warnings.length + catalog.entries.length + checks.length := by
  induction checks generalizing catalog with
  | nil => rfl
  | cons check rest ih =>
      rw [List.foldl_cons, ih, length_add, List.length_cons]
      omega

/-! ## Diagnostics -/

/-- **The diagnostic that a reference means:** the last one in the source with the identifier. -/
def diagnostic? (schema : Element) (id : String) : Option Element :=
  (schema.all Schematron.uri "diagnostic").reverse.find? (idOf? · == some id)

theorem lookup_foldl_diagnostics (id : String) (diagnostics : List Element)
    (done : List (String × String)) :
    (diagnostics.foldl (fun done e =>
      match e.attribute? "id" with
      | some "" | none => done
      | some id => setPair done id (message e)) done).lookup id =
      ((diagnostics.reverse.find? (idOf? · == some id)).map message).or (done.lookup id) := by
  induction diagnostics generalizing done with
  | nil => rfl
  | cons e rest ih =>
      rw [List.foldl_cons, ih, List.reverse_cons, List.find?_append, Option.map_or, Option.or_assoc]
      congr 1
      split
      · next hid =>
        have hnone : idOf? e = none := idOf?_eq_none_iff.mpr (.inr hid)
        simp [hnone]
      · next hid =>
        have hnone : idOf? e = none := idOf?_eq_none_iff.mpr (.inl hid)
        simp [hnone]
      · next id' hne hid =>
        have hsome : idOf? e = some id' :=
          idOf?_eq_some_iff.mpr ⟨hid, fun heq => hne (heq ▸ rfl)⟩
        rw [setPair, lookup_set]
        by_cases heq : id = id'
        · simp [hsome, heq]
        · simp [hsome, heq, Ne.symm heq]

/-- The text found for a reference is that of the last diagnostic with the identifier. -/
theorem lookup_diagnosticTexts (schema : Element) (id : String) :
    (diagnosticTexts schema).lookup id = (diagnostic? schema id).map message := by
  have h := lookup_foldl_diagnostics id (schema.all Schematron.uri "diagnostic") []
  rw [List.lookup_nil, Option.or_none] at h
  exact h

/-! ## The catalog of a source -/

/-- **The entry tells of an assert or report,** with its pattern and rule. -/
structure Describes (schema pattern rule : Element) (check : Scoped) (entry : CatalogEntry) :
    Prop where
  /-- It is of the kind of the assert or report. -/
  kind : entry.kind = check.element.tag.name.localName
  message : IsMessage check.element entry.message
  role : entry.role = check.element.attribute? "role"
  test : entry.test = check.element.attribute? "test"
  context : entry.context = rule.attribute? "context"
  /-- It has the identifier of its pattern. -/
  pattern : entry.pattern = pattern.attribute? "id"
  /-- It has the texts of those diagnostics it refers to that exist, one each and in the order in
  which it refers to them. -/
  diagnostics : List.Forall₂ IsMessage
    ((Text.wordsOf ((check.element.attribute? "diagnostics").getD "")).filterMap
      (diagnostic? schema)) entry.diagnostics

theorem describes_entryOf (schema pattern rule : Element) (check : Scoped) :
    Describes schema pattern rule check
      (entryOf (diagnosticTexts schema) pattern rule check) where
  kind := rfl
  message := isMessage_message check.element
  role := rfl
  test := rfl
  context := rfl
  pattern := rfl
  diagnostics := by
    rw [entryOf]
    simp only [lookup_diagnosticTexts]
    rw [← List.map_filterMap, List.forall₂_map_right_iff]
    exact List.forall₂_same.mpr fun e _ => isMessage_message e

/-- **The catalog is that of a source.** -/
structure IsCatalogOf (schema : Element) (catalog : Catalog) : Prop where
  /-- It lists the identifiers of the asserts and reports, each once and in the order in which
  they occur first. -/
  keys : catalog.entries.map (·.1) = ((listed schema).filterMap listedId?).eraseDups
  /-- They are the identifiers of those to which a path leads that ends in a rule and comes through
  a pattern. -/
  occurs (id : String) : id ∈ catalog.entries.map (·.1) ↔
    ∃ around e, Leads [schema.node] around e ∧ isCheck e = true ∧
      (∃ rule, around.getLast? = some rule ∧ rule.denotes Schematron.uri "rule" = true) ∧
      (∃ pattern ∈ around, pattern.denotes Schematron.uri "pattern" = true) ∧ idOf? e = some id
  /-- Every entry tells of the first assert or report with its identifier. -/
  first {id : String} {entry : CatalogEntry} (h : (id, entry) ∈ catalog.entries) :
    ∃ pattern rule check,
      (listed schema).find? (listedId? · == some id) = some (pattern, rule, check) ∧
        Describes schema pattern rule check entry
  /-- All other asserts and reports have a warning each. -/
  warnings : catalog.warnings.length + catalog.entries.length = (listed schema).length

/-- **The catalog of a source** tells of its asserts and reports in document order where no
pattern is inside a pattern and no rule inside a rule. -/
theorem ofSchema_isCatalogOf {schema : Element} (hpatterns : Unnested "pattern" (placesIn schema))
    (hrules : Unnested "rule" (placesIn schema)) : IsCatalogOf schema (ofSchema schema) := by
  have hchecks := checks_eq_listed hpatterns hrules
  have hkeys : (ofSchema schema).entries.map (·.1) =
      ((listed schema).filterMap listedId?).eraseDups := by
    rw [ofSchema, hchecks, keys_foldl_add]
    simp
  constructor
  · exact hkeys
  · intro id
    rw [hkeys, List.mem_eraseDups]
    exact mem_listedIds_iff
  · intro id entry hentry
    obtain ⟨⟨pattern, rule, check⟩, hfirst, rfl⟩ := mem_entries_iff.mp hentry
    rw [hchecks] at hfirst
    exact ⟨pattern, rule, check, hfirst, describes_entryOf schema pattern rule check⟩
  · rw [← hchecks, ofSchema, length_foldl_add]
    simp

/-- The catalog of rules with missing, empty and repeated identifiers is that of the source. -/
theorem isCatalogOf_specimen :
    (Unnested "pattern" (placesIn specimen) ∧ Unnested "rule" (placesIn specimen)) ∧
      IsCatalogOf specimen (ofSchema specimen) :=
  ⟨by decide +kernel, ofSchema_isCatalogOf (by decide +kernel) (by decide +kernel)⟩

example : (ofSchema specimen).entries.map (·.1) = ["b", "a", "c"] ∧
    (ofSchema specimen).warnings.length = 4 := by decide +kernel

end Catalog

end OscalValidation
