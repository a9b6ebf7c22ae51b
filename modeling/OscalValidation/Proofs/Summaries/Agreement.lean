import Mathlib.Data.List.Basic
import OscalValidation.Proofs.Summaries.Catalog
import OscalValidation.Summaries.View

set_option autoImplicit false

/-! # Catalog and view agree

The catalog of a source goes through the asserts and reports directly in the rules of a pattern,
and the view through all that are anywhere in it. If they are nowhere else than in rules, the two
list the same identifiers (`ofSchema_agree`). The identifiers of a group are in the order in which
they occur first (`pairwise_idxOf_eraseDups`).
-/

namespace OscalValidation

open Schematron (Scoped)

/-! ## Elements in document order -/

namespace Xml

mutual

/-- Selecting elements leaves out others. -/
theorem Node.select_eq_filter (keep : Tag → Bool) : (node : Node) →
    node.select keep = (node.select fun _ => true).filter fun e => keep e.tag
  | .element tag children => by
      rw [Node.select, Node.select, selectInNodes_eq_filter keep children, if_pos rfl,
        List.filter_cons]
  | .text _ => rfl
  | .comment _ _ => rfl
  | .instruction _ _ _ => rfl
  | .entity _ => rfl

theorem selectInNodes_eq_filter (keep : Tag → Bool) : (nodes : List Node) →
    selectInNodes keep nodes = (selectInNodes (fun _ => true) nodes).filter fun e => keep e.tag
  | [] => rfl
  | node :: rest => by
      rw [selectInNodes, selectInNodes, List.filter_append, node.select_eq_filter keep,
        selectInNodes_eq_filter keep rest]

end

/-- **The element and all elements in it,** in document order. -/
def Element.inside (e : Element) : List Element := e.node.select fun _ => true

theorem Element.all_eq_filter (e : Element) (uri localName : String) :
    e.all uri localName = e.inside.filter (·.denotes uri localName) :=
  Node.select_eq_filter _ e.node

theorem Element.inside_eq_cons (e : Element) :
    e.inside = e :: selectInNodes (fun _ => true) e.children := by
  rw [inside, node, Node.select]
  rfl

theorem mem_selectInNodes_iff {keep : Tag → Bool} {nodes : List Node} {e : Element} :
    e ∈ selectInNodes keep nodes ↔ ∃ node ∈ nodes, e ∈ node.select keep := by
  induction nodes with
  | nil => simp [selectInNodes]
  | cons node rest ih => simp [selectInNodes, ih]

/-- An element in nodes is in one of the elements among them. -/
theorem mem_selectInNodes_children_iff {nodes : List Node} {e : Element} :
    e ∈ selectInNodes (fun _ => true) nodes ↔
      ∃ child ∈ nodes.filterMap Node.element?, e ∈ child.inside := by
  rw [mem_selectInNodes_iff]
  constructor
  · rintro ⟨node, hnode, he⟩
    cases node with
    | element tag children =>
        exact ⟨⟨tag, children⟩, List.mem_filterMap.mpr ⟨_, hnode, rfl⟩, he⟩
    | _ => simp [Node.select] at he
  · rintro ⟨child, hchild, he⟩
    obtain ⟨node, hnode, heq⟩ := List.mem_filterMap.mp hchild
    cases node with
    | element tag children =>
        cases heq
        exact ⟨_, hnode, he⟩
    | _ => cases heq

/-- **What is in an element** is the element itself or in one directly inside. -/
theorem Element.mem_inside_iff {e inner : Element} :
    inner ∈ e.inside ↔ inner = e ∨ ∃ child ∈ e.elements, inner ∈ child.inside := by
  rw [inside_eq_cons, List.mem_cons, mem_selectInNodes_children_iff]
  rfl

theorem Element.self_mem_inside (e : Element) : e ∈ e.inside := mem_inside_iff.mpr (.inl rfl)

theorem Element.sizeOf_lt_of_mem_elements {e child : Element} (h : child ∈ e.elements) :
    sizeOf child < sizeOf e := by
  obtain ⟨node, hnode, heq⟩ := List.mem_filterMap.mp h
  have hlt := List.sizeOf_lt_of_mem hnode
  cases node with
  | element tag children =>
      cases heq
      obtain ⟨etag, echildren⟩ := e
      simp only [Node.element.sizeOf_spec, Element.mk.sizeOf_spec] at hlt ⊢
      omega
  | _ => cases heq

/-- What is directly inside an element is in everything that the element is in. -/
theorem Element.mem_inside_of_mem_elements {root e child : Element} (he : e ∈ root.inside)
    (hchild : child ∈ e.elements) : child ∈ root.inside := by
  rcases mem_inside_iff.mp he with rfl | ⟨first, hfirst, he'⟩
  · exact mem_inside_iff.mpr (.inr ⟨child, hchild, child.self_mem_inside⟩)
  · exact mem_inside_iff.mpr (.inr ⟨first, hfirst, mem_inside_of_mem_elements he' hchild⟩)
termination_by sizeOf root
decreasing_by exact sizeOf_lt_of_mem_elements hfirst

/-- Every element in another one is directly inside of one of them. -/
theorem Element.exists_parent {root e : Element} (he : e ∈ root.inside) :
    e = root ∨ ∃ parent ∈ root.inside, e ∈ parent.elements := by
  rcases mem_inside_iff.mp he with rfl | ⟨first, hfirst, he'⟩
  · exact .inl rfl
  · rcases exists_parent he' with rfl | ⟨parent, hparent, hmem⟩
    · exact .inr ⟨root, root.self_mem_inside, hfirst⟩
    · exact .inr ⟨parent, mem_inside_iff.mpr (.inr ⟨first, hfirst, hparent⟩), hmem⟩
termination_by sizeOf root
decreasing_by exact sizeOf_lt_of_mem_elements hfirst

end Xml

/-! ## Elements in their scope -/

namespace Schematron.Scoped

mutual

theorem map_element_allInNode (localName : String) (outer : List Xml.Declaration) :
    (node : Xml.Node) → (allInNode localName outer node).map (·.element) =
      node.select fun tag => tag.name.denotes uri localName
  | .element tag children => by
      rw [allInNode, Xml.Node.select, ← map_element_allInNodes localName
        (Xml.addDeclarations tag.declarations outer) children]
      split <;> rfl
  | .text _ => rfl
  | .comment _ _ => rfl
  | .instruction _ _ _ => rfl
  | .entity _ => rfl

theorem map_element_allInNodes (localName : String) (outer : List Xml.Declaration) :
    (nodes : List Xml.Node) → (allInNodes localName outer nodes).map (·.element) =
      Xml.selectInNodes (fun tag => tag.name.denotes uri localName) nodes
  | [] => rfl
  | node :: rest => by
      rw [allInNodes, Xml.selectInNodes, List.map_append, map_element_allInNode,
        map_element_allInNodes]

end

/-- The scopes of elements do not matter for which ones have a name. -/
theorem map_element_all (e : Scoped) (localName : String) :
    (e.all localName).map (·.element) = e.element.all uri localName :=
  map_element_allInNode localName e.outer e.element.node

theorem map_element_elements (e : Scoped) :
    e.elements.map (·.element) = e.element.elements := by
  rw [elements, List.map_map]
  exact List.map_id _

end Schematron.Scoped

/-! ## Order of first occurrence -/

section FirstOccurrences

variable {α : Type} [DecidableEq α]

/-- Leaving out others does not change which of two entries occurs first. -/
theorem idxOf_lt_of_idxOf_filter_lt {p : α → Bool} {xs : List α} {a b : α} (ha : p a = true)
    (hb : p b = true) (h : (xs.filter p).idxOf a < (xs.filter p).idxOf b) :
    xs.idxOf a < xs.idxOf b := by
  induction xs with
  | nil => simp at h
  | cons x rest ih =>
      by_cases hxb : x = b
      · -- nothing comes before the first entry
        subst hxb
        rw [List.filter_cons_of_pos hb, List.idxOf_cons_self] at h
        omega
      rw [List.idxOf_cons_ne rest hxb]
      by_cases hxa : x = a
      · subst hxa
        rw [List.idxOf_cons_self]
        omega
      rw [List.idxOf_cons_ne rest hxa]
      by_cases hx : p x = true
      · rw [List.filter_cons_of_pos hx, List.idxOf_cons_ne _ hxa, List.idxOf_cons_ne _ hxb] at h
        exact Nat.succ_lt_succ (ih (Nat.lt_of_succ_lt_succ h))
      · rw [List.filter_cons_of_neg hx] at h
        exact Nat.succ_lt_succ (ih h)

/-- **Entries without repetition are in the order in which they occur first.** -/
theorem pairwise_idxOf_eraseDups (xs : List α) :
    xs.eraseDups.Pairwise fun a b => xs.idxOf a < xs.idxOf b := by
  match xs with
  | [] => simp
  | x :: rest =>
      rw [List.eraseDups_cons, List.pairwise_cons]
      have hne {b : α} (hb : b ∈ (rest.filter fun b => !b == x).eraseDups) : x ≠ b := by
        rintro rfl
        simpa using (List.mem_filter.mp (List.mem_eraseDups.mp hb)).2
      refine ⟨fun b hb => ?_, ?_⟩
      · rw [List.idxOf_cons_self, List.idxOf_cons_ne rest (hne hb)]
        omega
      · refine (pairwise_idxOf_eraseDups _).imp_of_mem fun {a b} ha hb hlt => ?_
        have hlater := idxOf_lt_of_idxOf_filter_lt (p := fun b => !b == x)
          (List.mem_filter.mp (List.mem_eraseDups.mp ha)).2
          (List.mem_filter.mp (List.mem_eraseDups.mp hb)).2 hlt
        rw [List.idxOf_cons_ne rest (hne ha), List.idxOf_cons_ne rest (hne hb)]
        exact Nat.succ_lt_succ hlater
termination_by xs.length
decreasing_by exact Nat.lt_succ_of_le (List.length_filter_le _ _)

end FirstOccurrences

/-! ## Identifiers in patterns -/

namespace Schematron

/-- **All asserts and reports in patterns are directly in rules.** -/
def ChecksInRules (schema : Xml.Element) : Prop :=
  ∀ pattern ∈ schema.all uri "pattern", ∀ e ∈ pattern.inside, ∀ check ∈ e.elements,
    isCheck check = true → e.denotes uri "rule" = true

instance (schema : Xml.Element) : Decidable (ChecksInRules schema) :=
  inferInstanceAs (Decidable (∀ pattern ∈ schema.all uri "pattern", ∀ e ∈ pattern.inside,
    ∀ check ∈ e.elements, isCheck check = true → e.denotes uri "rule" = true))

/-- The identifiers of the asserts and reports anywhere in a pattern, in document order and as
often as they occur. -/
def occurrences (pattern : Xml.Element) : List String :=
  (pattern.inside.filter isCheck).filterMap idOf?

theorem mem_occurrences_iff {pattern : Xml.Element} {id : String} :
    id ∈ occurrences pattern ↔
      ∃ check ∈ pattern.inside, isCheck check = true ∧ idOf? check = some id := by
  simp [occurrences, List.mem_filterMap, List.mem_filter, and_assoc]

/-- A pattern is no assert or report. -/
theorem isCheck_of_pattern {e : Xml.Element} (h : e.denotes uri "pattern" = true) :
    isCheck e = false := by
  unfold Xml.Element.denotes Xml.Name.denotes at h
  rw [Bool.and_eq_true, beq_iff_eq, beq_iff_eq] at h
  unfold isCheck Xml.Element.denotes Xml.Name.denotes
  rw [h.2]
  simp

end Schematron

namespace AssertionView

theorem idsOf_eq (pattern : Xml.Element) :
    idsOf pattern = (Schematron.occurrences pattern).eraseDups := by
  rw [idsOf, Xml.Node.select_eq_filter]
  rfl

/-- A pattern in which an identifier occurs has a group that lists it. -/
theorem exists_groupOf? {pattern : Xml.Element} {id : String}
    (h : id ∈ Schematron.occurrences pattern) (number : Nat) :
    ∃ group, groupOf? pattern number = some group ∧ id ∈ group.assertionIds := by
  have hid : id ∈ idsOf pattern := by rwa [idsOf_eq, List.mem_eraseDups]
  unfold groupOf?
  cases hids : idsOf pattern with
  | nil =>
      rw [hids] at hid
      cases hid
  | cons first rest => exact ⟨_, rfl, hids ▸ hid⟩

theorem assertionIds_of_groupOf? {pattern : Xml.Element} {number : Nat} {group : ViewGroup}
    (h : groupOf? pattern number = some group) :
    group.assertionIds = (Schematron.occurrences pattern).eraseDups := by
  unfold groupOf? at h
  rw [idsOf_eq] at h
  split at h
  · cases h
  · cases h
    rfl

/-- The groups of a view are those of the patterns of the source. -/
theorem mem_groups_iff {schema : Xml.Element} {title : String} {group : ViewGroup} :
    group ∈ (ofSchema schema title).groups ↔
      ∃ position pattern, (schema.all Schematron.uri "pattern")[position]? = some pattern ∧
        groupOf? pattern (position + 1) = some group := by
  rw [ofSchema, List.mem_filterMap]
  constructor
  · rintro ⟨⟨pattern, position⟩, hmem, hgroup⟩
    exact ⟨position, pattern, List.mem_zipIdx_iff_getElem?.mp hmem, hgroup⟩
  · rintro ⟨position, pattern, hpattern, hgroup⟩
    exact ⟨(pattern, position), List.mem_zipIdx_iff_getElem?.mpr hpattern, hgroup⟩

end AssertionView

/-! ## Where entries are taken from -/

namespace Catalog

/-- The asserts and reports of a source as the catalog goes through them, each with its pattern
and rule and with the position of the pattern among all patterns. -/
def placedChecks (schema : Xml.Element) : List (Nat × Xml.Element × Xml.Element × Scoped) :=
  ((⟨schema, []⟩ : Scoped).all "pattern").zipIdx.flatMap fun (pattern, position) =>
    (pattern.all "rule").flatMap fun rule =>
      (rule.elements.filter fun e => Schematron.isCheck e.element).map fun check =>
        (position, pattern.element, rule.element, check)

theorem map_snd_placedChecks (schema : Xml.Element) :
    (placedChecks schema).map (·.2) = checks schema := by
  have hpatterns : ((⟨schema, []⟩ : Scoped).all "pattern").zipIdx.map (·.1) =
      (⟨schema, []⟩ : Scoped).all "pattern" := List.zipIdx_map_fst ..
  rw [checks, ← hpatterns, List.flatMap_map, placedChecks, List.map_flatMap]
  refine List.flatMap_congr fun entry _ => ?_
  obtain ⟨pattern, position⟩ := entry
  rw [List.map_flatMap]
  refine List.flatMap_congr fun rule _ => ?_
  rw [List.map_map]
  rfl

/-- **The catalog goes through the asserts and reports directly in the rules of patterns.** -/
theorem mem_placedChecks_iff {schema : Xml.Element} {position : Nat}
    {pattern rule : Xml.Element} {e : Xml.Element} :
    (∃ check : Scoped, (position, pattern, rule, check) ∈ placedChecks schema ∧
        check.element = e) ↔
      (schema.all Schematron.uri "pattern")[position]? = some pattern ∧
        rule ∈ pattern.all Schematron.uri "rule" ∧ e ∈ rule.elements ∧
          Schematron.isCheck e = true := by
  rw [← Scoped.map_element_all ⟨schema, []⟩ "pattern", List.getElem?_map]
  constructor
  · rintro ⟨check, hmem, rfl⟩
    obtain ⟨⟨pattern', position'⟩, hpattern, hmem⟩ := List.mem_flatMap.mp hmem
    obtain ⟨rule', hrule, hmem⟩ := List.mem_flatMap.mp hmem
    obtain ⟨check', hcheck, heq⟩ := List.mem_map.mp hmem
    obtain ⟨hcheck, his⟩ := List.mem_filter.mp hcheck
    cases heq
    refine ⟨?_, ?_, ?_, his⟩
    · rw [List.mem_zipIdx_iff_getElem?.mp hpattern]
      rfl
    · rw [← Scoped.map_element_all]
      exact List.mem_map_of_mem hrule
    · rw [← Scoped.map_element_elements]
      exact List.mem_map_of_mem hcheck
  · rintro ⟨hpattern, hrule, he, his⟩
    obtain ⟨pattern', hpattern', rfl⟩ := Option.map_eq_some_iff.mp hpattern
    rw [← Scoped.map_element_all] at hrule
    obtain ⟨rule', hrule', rfl⟩ := List.mem_map.mp hrule
    rw [← Scoped.map_element_elements] at he
    obtain ⟨check, hcheck, rfl⟩ := List.mem_map.mp he
    refine ⟨check, List.mem_flatMap.mpr ⟨(pattern', position),
      List.mem_zipIdx_iff_getElem?.mpr hpattern', List.mem_flatMap.mpr ⟨rule', hrule', ?_⟩⟩, rfl⟩
    exact List.mem_map.mpr ⟨check, List.mem_filter.mpr ⟨hcheck, his⟩, rfl⟩

/-- **An entry for an identifier is taken from an assert or report:** it is the first one with
the identifier, and the entry says what it is. -/
structure TakenFrom (schema : Xml.Element) (id : String) (entry : CatalogEntry) (position : Nat)
    (pattern rule : Xml.Element) (check : Scoped) : Prop where
  /-- No earlier assert or report has the identifier. -/
  first : (placedChecks schema).find?
    (fun c => Schematron.idOf? c.2.2.2.element == some id) = some (position, pattern, rule, check)
  /-- The entry is that of the assert or report. -/
  entry_eq : entry = entryOf (diagnosticTexts schema) pattern rule check

/-- Every entry is taken from an assert or report. -/
theorem exists_takenFrom {schema : Xml.Element} {id : String} {entry : CatalogEntry}
    (h : (id, entry) ∈ (ofSchema schema).entries) :
    ∃ position pattern rule check, TakenFrom schema id entry position pattern rule check := by
  obtain ⟨check, hfind, hentry⟩ := mem_entries_iff.mp h
  rw [← map_snd_placedChecks, List.find?_map] at hfind
  obtain ⟨⟨position, pattern, rule, check'⟩, hfirst, rfl⟩ := Option.map_eq_some_iff.mp hfind
  exact ⟨position, pattern, rule, check', hfirst, hentry⟩

/-- The identifier of an entry occurs in the pattern that the entry is taken from. -/
theorem TakenFrom.mem_occurrences {schema : Xml.Element} {id : String} {entry : CatalogEntry}
    {position : Nat} {pattern rule : Xml.Element} {check : Scoped}
    (h : TakenFrom schema id entry position pattern rule check) :
    (schema.all Schematron.uri "pattern")[position]? = some pattern ∧
      id ∈ Schematron.occurrences pattern := by
  have hid : Schematron.idOf? check.element = some id := by
    simpa using List.find?_some h.first
  obtain ⟨hpattern, hrule, hcheck, his⟩ :=
    mem_placedChecks_iff.mp ⟨check, List.mem_of_find?_eq_some h.first, rfl⟩
  rw [Xml.Element.all_eq_filter] at hrule
  have hinside := Xml.Element.mem_inside_of_mem_elements (List.mem_filter.mp hrule).1 hcheck
  exact ⟨hpattern, Schematron.mem_occurrences_iff.mpr ⟨_, hinside, his, hid⟩⟩

/-- Where asserts and reports are in rules only, an identifier that occurs in a pattern has an
entry. -/
theorem mem_keys_of_mem_occurrences {schema : Xml.Element} (h : Schematron.ChecksInRules schema)
    {position : Nat} {pattern : Xml.Element} {id : String}
    (hpattern : (schema.all Schematron.uri "pattern")[position]? = some pattern)
    (hid : id ∈ Schematron.occurrences pattern) :
    id ∈ (ofSchema schema).entries.map (·.1) := by
  have hmem := List.mem_of_getElem? hpattern
  have hnamed : pattern.denotes Schematron.uri "pattern" = true := by
    rw [Xml.Element.all_eq_filter] at hmem
    exact (List.mem_filter.mp hmem).2
  obtain ⟨e, he, his, hide⟩ := Schematron.mem_occurrences_iff.mp hid
  rcases Xml.Element.exists_parent he with rfl | ⟨rule, hrule, hchild⟩
  · rw [Schematron.isCheck_of_pattern hnamed] at his
    cases his
  · have hruleNamed := h pattern hmem rule hrule e hchild his
    have hall : rule ∈ pattern.all Schematron.uri "rule" := by
      rw [Xml.Element.all_eq_filter]
      exact List.mem_filter.mpr ⟨hrule, hruleNamed⟩
    obtain ⟨check, hcheck, rfl⟩ := mem_placedChecks_iff.mpr ⟨hpattern, hall, hchild, his⟩
    refine mem_keys_iff.mpr ⟨(pattern, rule, check), ?_, hide⟩
    rw [← map_snd_placedChecks]
    exact List.mem_map_of_mem hcheck

end Catalog

/-! ## Agreement -/

/-- **The catalog and the view of a source agree.** -/
structure Agree (schema : Xml.Element) (catalog : Catalog) (view : AssertionView) : Prop where
  keys (id : String) :
    id ∈ catalog.entries.map (·.1) ↔ ∃ group ∈ view.groups, id ∈ group.assertionIds
  /-- Every entry is taken from an assert or report, and the group of the very pattern that this
  is in lists its identifier. -/
  grouped {id : String} {entry : CatalogEntry} (h : (id, entry) ∈ catalog.entries) :
    ∃ position pattern rule check,
      Catalog.TakenFrom schema id entry position pattern rule check ∧
        (schema.all Schematron.uri "pattern")[position]? = some pattern ∧
        ∃ group ∈ view.groups, AssertionView.groupOf? pattern (position + 1) = some group ∧
          id ∈ group.assertionIds
  /-- Every group is that of a pattern and lists the identifiers in it, each one once and in the
  order in which they occur first. -/
  ordered {group : ViewGroup} (h : group ∈ view.groups) :
    ∃ position pattern, (schema.all Schematron.uri "pattern")[position]? = some pattern ∧
      AssertionView.groupOf? pattern (position + 1) = some group ∧
      (∀ id, id ∈ group.assertionIds ↔ id ∈ Schematron.occurrences pattern) ∧
      group.assertionIds.Nodup ∧
      group.assertionIds.Pairwise fun a b =>
        (Schematron.occurrences pattern).idxOf a < (Schematron.occurrences pattern).idxOf b

/-- **The catalog and the view of a source agree** if all asserts and reports in its patterns are
directly in rules, whatever their identifiers. -/
theorem ofSchema_agree {schema : Xml.Element} (h : Schematron.ChecksInRules schema)
    (title : String) :
    Agree schema (Catalog.ofSchema schema) (AssertionView.ofSchema schema title) := by
  have hgrouped {id : String} {entry : CatalogEntry}
      (hentry : (id, entry) ∈ (Catalog.ofSchema schema).entries) :
      ∃ position pattern rule check,
        Catalog.TakenFrom schema id entry position pattern rule check ∧
          (schema.all Schematron.uri "pattern")[position]? = some pattern ∧
          ∃ group ∈ (AssertionView.ofSchema schema title).groups,
            AssertionView.groupOf? pattern (position + 1) = some group ∧
            id ∈ group.assertionIds := by
    obtain ⟨position, pattern, rule, check, htaken⟩ := Catalog.exists_takenFrom hentry
    obtain ⟨hpattern, hid⟩ := htaken.mem_occurrences
    obtain ⟨group, hgroup, hlisted⟩ := AssertionView.exists_groupOf? hid (position + 1)
    exact ⟨position, pattern, rule, check, htaken, hpattern, group,
      AssertionView.mem_groups_iff.mpr ⟨position, pattern, hpattern, hgroup⟩, hgroup, hlisted⟩
  refine ⟨fun id => ⟨fun hid => ?_, ?_⟩, hgrouped, fun {group} hgroup => ?_⟩
  · obtain ⟨⟨_, entry⟩, hentry, rfl⟩ := List.mem_map.mp hid
    obtain ⟨_, _, _, _, -, -, group, hgroup, -, hlisted⟩ := hgrouped hentry
    exact ⟨group, hgroup, hlisted⟩
  · rintro ⟨group, hgroup, hlisted⟩
    obtain ⟨position, pattern, hpattern, hof⟩ := AssertionView.mem_groups_iff.mp hgroup
    rw [AssertionView.assertionIds_of_groupOf? hof, List.mem_eraseDups] at hlisted
    exact Catalog.mem_keys_of_mem_occurrences h hpattern hlisted
  · obtain ⟨position, pattern, hpattern, hof⟩ := AssertionView.mem_groups_iff.mp hgroup
    have hids := AssertionView.assertionIds_of_groupOf? hof
    have hpairwise := pairwise_idxOf_eraseDups (Schematron.occurrences pattern)
    refine ⟨position, pattern, hpattern, hof, fun id => ?_, ?_, ?_⟩
    · rw [hids, List.mem_eraseDups]
    · rw [hids]
      exact hpairwise.imp fun {a b} hlt heq => absurd hlt (by rw [heq]; exact Nat.lt_irrefl _)
    · rw [hids]
      exact hpairwise

/-- An element of rules, with one attribute. -/
def Schematron.specimenNode (name key value : String) (children : List Xml.Node) : Xml.Node :=
  .element ⟨⟨none, some uri, name⟩, [], [⟨⟨none, none, key⟩, value, false⟩], none⟩ children

/-- Rules in which identifiers are missing, empty and repeated, in one pattern and across two. -/
def Schematron.specimen : Xml.Element :=
  ⟨⟨⟨none, some uri, "schema"⟩, [], [], none⟩,
    [specimenNode "pattern" "id" "first" [specimenNode "rule" "context" "/"
        [specimenNode "assert" "id" "b" [], specimenNode "report" "test" "." [],
          specimenNode "assert" "id" "a" [], specimenNode "assert" "id" "b" []]],
      specimenNode "pattern" "id" "" [specimenNode "rule" "context" "*"
        [specimenNode "assert" "id" "" [], specimenNode "report" "id" "a" [],
          specimenNode "report" "id" "c" []]]]⟩

/-- The catalog and the view of such rules agree. -/
theorem ofSchema_agree_specimen :
    Schematron.ChecksInRules Schematron.specimen ∧
      Agree Schematron.specimen (Catalog.ofSchema Schematron.specimen)
        (AssertionView.ofSchema Schematron.specimen "Rules") :=
  ⟨by decide +kernel, ofSchema_agree (by decide +kernel) "Rules"⟩

end OscalValidation
