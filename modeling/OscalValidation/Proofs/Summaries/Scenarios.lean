import Mathlib.Data.List.Forall2
import OscalValidation.Proofs.Attempts
import OscalValidation.Summaries.Scenario

set_option autoImplicit false

/-! # What the summary of a test suite lists

The summaries of a test suite are those of its active expectations, one each and in document order
(`summaries?_eq`): of the elements that expect something inside active scenarios and nothing else.
Each of them tells the labels of the scenarios around it and the context of the nearest one that
has a context (`summaries?_iff`); there are no summaries at all exactly if one of these contexts
cannot be shown.
-/

namespace OscalValidation.Scenario

open Xml (Declaration Element Node)

/-! ## Places in a suite -/

/-- **An element inside a suite** with the elements around it, the outermost first. -/
structure Place where
  /-- The elements around it, up to the suite. -/
  around : List Element
  element : Element

mutual

/-- The places of the elements in a node, in document order. -/
def placesOfNode (around : List Element) : Node → List Place
  | .element tag children =>
      ⟨around, ⟨tag, children⟩⟩ :: placesOfNodes (around ++ [⟨tag, children⟩]) children
  | _ => []

/-- The places of the elements in nodes in a row. -/
def placesOfNodes (around : List Element) : List Node → List Place
  | [] => []
  | node :: rest => placesOfNode around node ++ placesOfNodes around rest

end

def places (suite : Element) : List Place := placesOfNodes [] suite.children

def isActive (scenario : Element) : Bool := scenario.denotes uri "scenario" && !isPending scenario

/-- **The expectation is active:** there are scenarios around it, all of them active, and nothing
else. -/
def Place.isActive (place : Place) : Bool :=
  isExpectation place.element.tag && !place.around.isEmpty && place.around.all Scenario.isActive

def expectationsIn (suite : Element) : List Place := (places suite).filter Place.isActive

/-- The path leads from nodes to an element. -/
inductive Leads : List Node → List Element → Element → Prop
  | here {nodes : List Node} {e : Element} (mem : e.node ∈ nodes) : Leads nodes [] e
  | inside {nodes : List Node} {outer e : Element} {path : List Element} (mem : outer.node ∈ nodes)
      (inner : Leads outer.children path e) : Leads nodes (outer :: path) e

theorem Leads.mono {nodes nodes' : List Node} {path : List Element} {e : Element}
    (h : Leads nodes path e) (hsub : nodes ⊆ nodes') : Leads nodes' path e := by
  cases h with
  | here mem => exact .here (hsub mem)
  | inside mem inner => exact .inside (hsub mem) inner

mutual

theorem leads_of_mem_placesOfNode (around : List Element) :
    (node : Node) → {place : Place} → place ∈ placesOfNode around node →
      ∃ path, place.around = around ++ path ∧ Leads [node] path place.element
  | .element tag children, place, h => by
      rw [placesOfNode, List.mem_cons] at h
      rcases h with rfl | h
      · exact ⟨[], (List.append_nil around).symm, .here List.mem_cons_self⟩
      · obtain ⟨path, haround, hleads⟩ := leads_of_mem_placesOfNodes _ children h
        refine ⟨⟨tag, children⟩ :: path, ?_, .inside List.mem_cons_self hleads⟩
        rw [haround, List.append_assoc]
        rfl
  | .text _, _, h | .comment _ _, _, h | .instruction _ _ _, _, h | .entity _, _, h => by
      rw [placesOfNode] at h
      · cases h
      · simp

theorem leads_of_mem_placesOfNodes (around : List Element) :
    (nodes : List Node) → {place : Place} → place ∈ placesOfNodes around nodes →
      ∃ path, place.around = around ++ path ∧ Leads nodes path place.element
  | [], _, h => by cases h
  | node :: rest, place, h => by
      rw [placesOfNodes, List.mem_append] at h
      rcases h with h | h
      · obtain ⟨path, haround, hleads⟩ := leads_of_mem_placesOfNode around node h
        exact ⟨path, haround, hleads.mono (by simp)⟩
      · obtain ⟨path, haround, hleads⟩ := leads_of_mem_placesOfNodes around rest h
        exact ⟨path, haround, hleads.mono (List.subset_cons_self node rest)⟩

end

/-- Each of the nodes has its places among those of all of them. -/
theorem placesOfNode_subset {around : List Element} {node : Node} {nodes : List Node}
    (h : node ∈ nodes) : placesOfNode around node ⊆ placesOfNodes around nodes := by
  induction nodes with
  | nil => cases h
  | cons first rest ih =>
      intro place hplace
      rw [placesOfNodes, List.mem_append]
      rcases List.mem_cons.mp h with rfl | h
      · exact Or.inl hplace
      · exact Or.inr (ih h hplace)

theorem mem_placesOfNodes_of_leads {nodes : List Node} {path : List Element} {e : Element}
    (h : Leads nodes path e) (around : List Element) :
    ⟨around ++ path, e⟩ ∈ placesOfNodes around nodes := by
  induction h generalizing around with
  | here mem =>
      apply placesOfNode_subset mem
      rw [List.append_nil, Element.node, placesOfNode]
      exact List.mem_cons_self
  | @inside nodes outer e path mem inner ih =>
      apply placesOfNode_subset mem
      rw [Element.node, placesOfNode]
      apply List.mem_cons_of_mem
      have hpath : around ++ outer :: path = around ++ [outer] ++ path := by
        rw [List.append_assoc]
        rfl
      rw [hpath]
      exact ih (around ++ [outer])

/-- **The places in a suite are the elements that paths lead to,** with the elements of the path
around them. -/
theorem mem_places_iff {suite : Element} {place : Place} :
    place ∈ places suite ↔ Leads suite.children place.around place.element := by
  constructor
  · intro h
    obtain ⟨path, haround, hleads⟩ := leads_of_mem_placesOfNodes [] suite.children h
    rw [List.nil_append] at haround
    rw [haround]
    exact hleads
  · intro h
    exact mem_placesOfNodes_of_leads h []

mutual

theorem element_placesOfNode (around : List Element) : (node : Node) →
    (placesOfNode around node).map (·.element) = node.select fun _ => true
  | .element tag children => by
      rw [placesOfNode, List.map_cons, element_placesOfNodes _ children, Node.select, if_pos rfl]
  | .text _ | .comment _ _ | .instruction _ _ _ | .entity _ => rfl

theorem element_placesOfNodes (around : List Element) : (nodes : List Node) →
    (placesOfNodes around nodes).map (·.element) = Xml.selectInNodes (fun _ => true) nodes
  | [] => rfl
  | node :: rest => by
      rw [placesOfNodes, List.map_append, element_placesOfNode around node,
        element_placesOfNodes around rest, Xml.selectInNodes]

end

/-- The places come in the order of their elements in the document, each once. -/
theorem element_places (suite : Element) :
    (places suite).map (·.element) = Xml.selectInNodes (fun _ => true) suite.children :=
  element_placesOfNodes [] suite.children

/-! ## Contexts -/

/-- The declarations in scope inside elements that lie in each other. -/
def scope (outer : List Declaration) (around : List Element) : List Declaration :=
  around.foldl (fun outer e => Xml.addDeclarations e.tag.declarations outer) outer

theorem scope_append (outer : List Declaration) (around : List Element) (e : Element) :
    scope outer (around ++ [e]) = Xml.addDeclarations e.tag.declarations (scope outer around) := by
  rw [scope, List.foldl_append]
  rfl

/-- **The context of the nearest scenario that has one.** -/
def nearestContext? (outer : List Declaration) : List Element → Option Context
  | [] => none
  | scenario :: inner =>
      let scope := Xml.addDeclarations scenario.tag.declarations outer
      (nearestContext? scope inner).or ((scenario.child? uri "context").map (⟨·, scope⟩))

/-- A further scenario is nearer than those around it. -/
theorem nearestContext?_append (outer : List Declaration) (around : List Element)
    (scenario : Element) :
    nearestContext? outer (around ++ [scenario]) =
      match scenario.child? uri "context" with
      | some e => some ⟨e, scope outer (around ++ [scenario])⟩
      | none => nearestContext? outer around := by
  induction around generalizing outer with
  | nil => cases h : scenario.child? uri "context" <;> simp [nearestContext?, scope, h]
  | cons e inner ih =>
      rw [List.cons_append, nearestContext?, ih, nearestContext?]
      cases scenario.child? uri "context" <;> rfl

theorem nearestContext?_eq_none_iff {outer : List Declaration} {around : List Element} :
    nearestContext? outer around = none ↔
      ∀ scenario ∈ around, scenario.child? uri "context" = none := by
  induction around generalizing outer with
  | nil => simp [nearestContext?]
  | cons scenario inner ih =>
      rw [nearestContext?, Option.or_eq_none_iff, ih, Option.map_eq_none_iff,
        List.forall_mem_cons, and_comm]

/-- **The context belongs to the nearest scenario that has one,** and is seen from there. -/
def IsNearest (outer : List Declaration) (around : List Element) (context : Context) : Prop :=
  ∃ before scenario after, around = before ++ scenario :: after ∧
    scenario.child? uri "context" = some context.element ∧
    context.outer = scope outer (before ++ [scenario]) ∧
    ∀ inner ∈ after, inner.child? uri "context" = none

theorem nearestContext?_eq_some_iff {outer : List Declaration} {around : List Element}
    {context : Context} :
    nearestContext? outer around = some context ↔ IsNearest outer around context := by
  induction around generalizing outer with
  | nil => simp [nearestContext?, IsNearest]
  | cons first inner ih =>
      rw [nearestContext?]
      constructor
      · intro h
        rcases Option.or_eq_some_iff.mp h with h | ⟨hnone, h⟩
        · obtain ⟨before, scenario, after, rfl, hchild, houter, hafter⟩ := ih.mp h
          exact ⟨first :: before, scenario, after, rfl, hchild, houter, hafter⟩
        · obtain ⟨e, he, rfl⟩ := Option.map_eq_some_iff.mp h
          exact ⟨[], first, inner, rfl, he, rfl, nearestContext?_eq_none_iff.mp hnone⟩
      · rintro ⟨before, scenario, after, hsplit, hchild, houter, hafter⟩
        apply Option.or_eq_some_iff.mpr
        cases before with
        | nil =>
            obtain ⟨rfl, rfl⟩ := List.cons_eq_cons.mp hsplit
            refine Or.inr ⟨nearestContext?_eq_none_iff.mpr hafter, ?_⟩
            rw [hchild, Option.map_some]
            obtain ⟨e, declarations⟩ := context
            obtain rfl : declarations = _ := houter
            rfl
        | cons _ before =>
            obtain ⟨rfl, rfl⟩ := List.cons_eq_cons.mp hsplit
            exact Or.inl (ih.mpr ⟨before, scenario, after, rfl, hchild, houter, hafter⟩)

/-! ## Summaries -/

/-- The summary of an active expectation; `none` if its context cannot be shown. -/
def Place.summary? (outer : List Declaration) (place : Place) : Option ScenarioSummary :=
  Scenario.summary? place.element.tag (place.around.map labelOf)
    (nearestContext? outer place.around)

/-- Inside anything but an active scenario no expectation is active. -/
theorem filter_placesOfNodes {around : List Element} (h : around.all isActive = false)
    (nodes : List Node) : (placesOfNodes around nodes).filter Place.isActive = [] := by
  rw [List.filter_eq_nil_iff]
  intro place hplace
  obtain ⟨path, haround, -⟩ := leads_of_mem_placesOfNodes around nodes hplace
  rw [Place.isActive, haround, List.all_append, h]
  simp

/-- No scenario expects anything itself. -/
theorem isExpectation_of_scenario {tag : Xml.Tag} (h : tag.name.denotes uri "scenario" = true) :
    isExpectation tag = false := by
  rw [Xml.Name.denotes, Bool.and_eq_true, beq_iff_eq, beq_iff_eq] at h
  simp [isExpectation, expectations, Xml.Name.denotes, h.2]

mutual

/-- The summaries in a node inside active scenarios are those of its active expectations. -/
theorem summariesOfNode_eq (outer : List Declaration) (around : List Element)
    (hactive : around.all isActive = true) : (node : Node) →
      summariesOfNode (!around.isEmpty) (around.map labelOf) (nearestContext? outer around)
        (scope outer around) node =
      ((placesOfNode around node).filter Place.isActive).mapM (Place.summary? outer)
  | .element tag children => by
      generalize he : (⟨tag, children⟩ : Element) = e
      have hall : (around ++ [e]).all isActive = isActive e := by
        rw [List.all_append, hactive, Bool.true_and, List.all_cons, List.all_nil, Bool.and_true]
      have hactive' : isActive e = (tag.name.denotes uri "scenario" && !isPending e) := by
        rw [← he]
        rfl
      rw [summariesOfNode, placesOfNode, he]
      by_cases hscenario : tag.name.denotes uri "scenario" = true
      · -- the scenario expects nothing itself
        have hnot : Place.isActive ⟨around, e⟩ = false := by
          rw [Place.isActive, ← he, isExpectation_of_scenario hscenario]
          rfl
        rw [if_pos hscenario, List.filter_cons_of_neg (by simp [hnot])]
        rw [hscenario, Bool.true_and] at hactive'
        dsimp only
        by_cases hpending : isPending e = true
        · rw [hpending] at hactive'
          rw [if_pos hpending, filter_placesOfNodes (hall.trans hactive')]
          rfl
        · rw [Bool.eq_false_iff.mpr hpending] at hactive'
          have ih := summariesOfNodes_eq outer (around ++ [e]) (hall.trans hactive') children
          rw [if_neg hpending, ← ih, nearestContext?_append, scope_append, List.map_append, ← he]
          have hinside : (!(around ++ [(⟨tag, children⟩ : Element)]).isEmpty) = true := by simp
          rw [hinside]
          rfl
      · -- what is inside something else counts nowhere
        rw [Bool.eq_false_iff.mpr hscenario, Bool.false_and] at hactive'
        rw [if_neg hscenario, List.filter_cons, filter_placesOfNodes (hall.trans hactive')]
        have hcounts : Place.isActive ⟨around, e⟩ = (!around.isEmpty && isExpectation tag) := by
          rw [Place.isActive, hactive, Bool.and_true, Bool.and_comm, ← he]
        rw [hcounts]
        split
        · rw [List.mapM_cons, List.mapM_nil, Place.summary?, ← he]
          cases summary? tag (around.map labelOf) (nearestContext? outer around) <;> rfl
        · rfl
  | .text _ | .comment _ _ | .instruction _ _ _ | .entity _ => rfl

theorem summariesOfNodes_eq (outer : List Declaration) (around : List Element)
    (hactive : around.all isActive = true) : (nodes : List Node) →
      summariesOfNodes (!around.isEmpty) (around.map labelOf) (nearestContext? outer around)
        (scope outer around) nodes =
      ((placesOfNodes around nodes).filter Place.isActive).mapM (Place.summary? outer)
  | [] => rfl
  | node :: rest => by
      rw [summariesOfNodes, placesOfNodes, List.filter_append, List.mapM_append,
        summariesOfNode_eq outer around hactive node, summariesOfNodes_eq outer around hactive rest]

end

/-- **The summaries of a suite are those of its active expectations,** in document order. -/
theorem summaries?_eq (suite : Element) :
    summaries? suite = (expectationsIn suite).mapM (Place.summary? suite.tag.declarations) :=
  summariesOfNodes_eq suite.tag.declarations [] rfl suite.children

/-! ## What a summary tells -/

/-- **What a summary shows of the context:** where it is kept, or what it contains, or nothing. -/
inductive ShowsContext (outer : List Declaration) (around : List Element) :
    Option String → Option String → Prop
  | none (missing : ∀ scenario ∈ around, scenario.child? uri "context" = none) :
      ShowsContext outer around none none
  /-- The nearest context is kept elsewhere. -/
  | kept {context : Context} {href : String} (nearest : IsNearest outer around context)
      (elsewhere : context.element.attribute? "href" = some href) :
      ShowsContext outer around (some href) none
  /-- The nearest context is in the scenario. -/
  | shown {context : Context} {text : Option String} (nearest : IsNearest outer around context)
      (here : context.element.attribute? "href" = none)
      (content : context.element.content? context.outer = some text) :
      ShowsContext outer around none text

/-- The nearest context is in the scenario and cannot be shown. -/
def HidesContext (outer : List Declaration) (around : List Element) : Prop :=
  ∃ context, IsNearest outer around context ∧ context.element.attribute? "href" = none ∧
    context.element.content? context.outer = none

/-- **The summary of an expectation** with the scenarios around it. -/
structure Summarizes (outer : List Declaration) (place : Place) (summary : ScenarioSummary) :
    Prop where
  /-- The labels of the scenarios that have one, the outermost first. -/
  label : summary.label =
    labelSeparator.intercalate ((place.around.map labelOf).filter (· != ""))
  /-- The identifier is the expectation's own. -/
  assertionId : summary.assertionId = place.element.attribute? "id"
  /-- The label of the expectation is its own. -/
  assertionLabel : summary.assertionLabel = place.element.attribute? "label"
  expect : place.element.tag.name.localName = "expect-" ++ summary.expect
  /-- The context is that of the nearest scenario that has one. -/
  context : ShowsContext outer place.around summary.contextHref summary.context

/-- The name of an expectation says what is expected. -/
theorem localName_of_isExpectation {tag : Xml.Tag} (h : isExpectation tag = true) :
    tag.name.localName =
      "expect-" ++ String.ofList (tag.name.localName.toList.drop "expect-".length) := by
  have hmem : tag.name.localName ∈ expectations := by
    obtain ⟨name, hname, hdenotes⟩ := List.any_eq_true.mp h
    rw [Xml.Name.denotes, Bool.and_eq_true, beq_iff_eq, beq_iff_eq] at hdenotes
    rw [hdenotes.2]
    exact hname
  have hall : ∀ name ∈ expectations,
      name = "expect-" ++ String.ofList (name.toList.drop "expect-".length) := by decide
  exact hall _ hmem

/-- What there is to show of the nearest context: where it is kept, and what it contains. -/
def shownContext? (outer : List Declaration) (around : List Element) :
    Option (Option String × Option String) :=
  match nearestContext? outer around with
  | none => some (none, none)
  | some context =>
      match context.element.attribute? "href" with
      | some href => some (some href, none)
      | none => (context.element.content? context.outer).map (none, ·)

theorem shownContext?_eq_some_iff {outer : List Declaration} {around : List Element}
    {href text : Option String} :
    shownContext? outer around = some (href, text) ↔ ShowsContext outer around href text := by
  unfold shownContext?
  constructor
  · intro h
    split at h
    · next hnone =>
      cases h
      exact .none (nearestContext?_eq_none_iff.mp hnone)
    · next context hnearest =>
      rw [nearestContext?_eq_some_iff] at hnearest
      split at h
      · next elsewhere =>
        cases h
        exact .kept hnearest elsewhere
      · next here =>
        obtain ⟨shown, content, heq⟩ := Option.map_eq_some_iff.mp h
        cases heq
        exact .shown hnearest here content
  · rintro (missing | ⟨nearest, elsewhere⟩ | ⟨nearest, here, content⟩)
    · rw [nearestContext?_eq_none_iff.mpr missing]
    · rw [nearestContext?_eq_some_iff.mpr nearest]
      simp only [elsewhere]
    · rw [nearestContext?_eq_some_iff.mpr nearest]
      simp only [here, content, Option.map_some]

theorem shownContext?_eq_none_iff {outer : List Declaration} {around : List Element} :
    shownContext? outer around = none ↔ HidesContext outer around := by
  unfold shownContext?
  constructor
  · intro h
    split at h
    · cases h
    · next context hnearest =>
      split at h
      · cases h
      · next hhref =>
        exact ⟨context, nearestContext?_eq_some_iff.mp hnearest, hhref,
          Option.map_eq_none_iff.mp h⟩
  · rintro ⟨context, hnearest, hhref, hcontent⟩
    rw [nearestContext?_eq_some_iff.mpr hnearest]
    simp only [hhref, hcontent, Option.map_none]

/-- What an expectation is summed up to, depending on the context around it. -/
theorem summary?_eq (outer : List Declaration) (place : Place) :
    place.summary? outer = (shownContext? outer place.around).map fun shown =>
      { label := labelSeparator.intercalate ((place.around.map labelOf).filter (· != "")),
        assertionId := place.element.attribute? "id",
        assertionLabel := place.element.attribute? "label",
        expect := String.ofList (place.element.tag.name.localName.toList.drop "expect-".length),
        context := shown.2, contextHref := shown.1 } := by
  unfold Place.summary? Scenario.summary? shownContext?
  generalize nearestContext? outer place.around = nearest
  cases nearest with
  | none => rfl
  | some context =>
      dsimp only [Option.bind_some]
      generalize context.element.attribute? "href" = href
      cases href with
      | some href => rfl
      | none =>
          dsimp only
          cases context.element.content? context.outer <;> rfl

theorem summary?_eq_some_iff {outer : List Declaration} {place : Place}
    (h : isExpectation place.element.tag = true) {summary : ScenarioSummary} :
    place.summary? outer = some summary ↔ Summarizes outer place summary := by
  rw [summary?_eq, Option.map_eq_some_iff]
  have hname := localName_of_isExpectation h
  constructor
  · rintro ⟨⟨href, text⟩, hshown, rfl⟩
    exact ⟨rfl, rfl, rfl, hname, shownContext?_eq_some_iff.mp hshown⟩
  · rintro ⟨hlabel, hid, hlabel', hexpect, hcontext⟩
    refine ⟨(summary.contextHref, summary.context), shownContext?_eq_some_iff.mpr hcontext, ?_⟩
    have hsame : summary.expect =
        String.ofList (place.element.tag.name.localName.toList.drop "expect-".length) := by
      rw [hexpect, String.toList_append]
      exact (String.ofList_toList).symm
    rw [← hlabel, ← hid, ← hlabel', ← hsame]

/-- **A test suite is summed up expectation by expectation,** in the order of the document. -/
theorem summaries?_iff (suite : Element) :
    (∀ place, place ∈ expectationsIn suite ↔
      Leads suite.children place.around place.element ∧ isExpectation place.element.tag = true ∧
        place.around ≠ [] ∧ ∀ scenario ∈ place.around, isActive scenario = true) ∧
    ((expectationsIn suite).map (·.element)).Sublist
      (Xml.selectInNodes (fun _ => true) suite.children) ∧
    (∀ summaries, summaries? suite = some summaries ↔
      List.Forall₂ (Summarizes suite.tag.declarations) (expectationsIn suite) summaries) ∧
    (summaries? suite = none ↔
      ∃ place ∈ expectationsIn suite, HidesContext suite.tag.declarations place.around) := by
  have hmem : ∀ place, place ∈ expectationsIn suite ↔
      Leads suite.children place.around place.element ∧ isExpectation place.element.tag = true ∧
        place.around ≠ [] ∧ ∀ scenario ∈ place.around, isActive scenario = true := by
    intro place
    rw [expectationsIn, List.mem_filter, mem_places_iff, Place.isActive, Bool.and_eq_true,
      Bool.and_eq_true, List.all_eq_true, and_assoc, Bool.not_eq_true', List.isEmpty_eq_false_iff]
  refine ⟨hmem, ?_, fun summaries => ?_, ?_⟩
  · rw [← element_places]
    exact List.filter_sublist.map _
  · rw [summaries?_eq, mapM_eq_some_iff]
    exact forall₂_congr_of_mem fun place hplace summary =>
      summary?_eq_some_iff ((hmem place).mp hplace).2.1
  · rw [summaries?_eq, mapM_eq_none_iff]
    refine exists_congr fun place => and_congr_right fun _ => ?_
    rw [summary?_eq, Option.map_eq_none_iff, shownContext?_eq_none_iff]

/-! ## A context that cannot be shown -/

/-- An element without attributes in the namespace of suites. -/
def suiteElement (name : String) (attributes : List Xml.Attribute) (children : List Node) : Element :=
  ⟨⟨⟨some "x", some uri, name⟩, [], attributes, none⟩, children⟩

/-- A suite with one scenario, whose context refers to an entity, and one expectation. -/
def entitySuite : Element :=
  suiteElement "description" [] [(suiteElement "scenario" [] [
    (suiteElement "context" [] [.element ⟨⟨none, none, "a"⟩, [], [], none⟩ [.entity "e"]]).node,
    (suiteElement "expect-assert" [] []).node]).node]

/-- **The expectation of the suite is active, but there are no summaries.** -/
theorem summaries?_entitySuite :
    (expectationsIn entitySuite).length = 1 ∧ summaries? entitySuite = none := by
  decide

end OscalValidation.Scenario
