import Mathlib.Data.List.Forall2
import OscalValidation.Proofs.Text.Spacing
import OscalValidation.Proofs.Xml.Texts
import OscalValidation.Rules.Svrl

set_option autoImplicit false

/-! # What is read from a report

Every element has a position in the report, the numbers of the children that lead to it, and
positions are compared as the elements stand in the document (`Xml.Node.pairwise_spots`). So the
outcomes of a report are those of its failed asserts and successful reports, one each and in
document order across both kinds, and each tells what its element says (`exists_reads_outcomes`).
-/

namespace OscalValidation

namespace Xml

/-! ## Positions -/

/-- **The position of an element in a node:** the numbers of the children that lead to it. -/
inductive Node.Holds : Node → List Nat → Element → Prop
  | here {tag : Tag} {children : List Node} : Holds (.element tag children) [] ⟨tag, children⟩
  | inside {tag : Tag} {children : List Node} {e : Element} {index : Nat} {child : Node}
      {path : List Nat} (mem : children[index]? = some child) (inner : Holds child path e) :
      Holds (.element tag children) (index :: path) e

mutual

/-- The selected elements in a node with their positions, in document order. -/
def Node.spots (keep : Tag → Bool) : Node → List (List Nat × Element)
  | .element tag children =>
      let inside := spotsFrom keep 0 children
      if keep tag then ([], ⟨tag, children⟩) :: inside else inside
  | _ => []

/-- The selected elements in nodes in a row, of which the first has the number `index`. -/
def spotsFrom (keep : Tag → Bool) (index : Nat) : List Node → List (List Nat × Element)
  | [] => []
  | node :: rest =>
      (node.spots keep).map (fun spot => (index :: spot.1, spot.2)) ++
        spotsFrom keep (index + 1) rest

end

mutual

/-- They are the elements that are selected. -/
theorem Node.map_spots (keep : Tag → Bool) : (node : Node) →
    (node.spots keep).map (·.2) = node.select keep
  | .element tag children => by
      rw [Node.spots, Node.select, ← map_spotsFrom keep 0 children]
      split <;> rfl
  | .text _ | .comment _ _ | .instruction _ _ _ | .entity _ => rfl

theorem map_spotsFrom (keep : Tag → Bool) (index : Nat) : (nodes : List Node) →
    (spotsFrom keep index nodes).map (·.2) = selectInNodes keep nodes
  | [] => rfl
  | node :: rest => by
      rw [spotsFrom, selectInNodes, List.map_append, List.map_map, ← node.map_spots keep,
        map_spotsFrom keep (index + 1) rest]
      rfl

end

/-- In nodes in a row every position begins with the number of one of them. -/
theorem exists_of_mem_spotsFrom {keep : Tag → Bool} {index : Nat} {nodes : List Node}
    {spot : List Nat × Element} (h : spot ∈ spotsFrom keep index nodes) :
    ∃ number path, spot.1 = number :: path ∧ index ≤ number := by
  induction nodes generalizing index with
  | nil => cases h
  | cons node rest ih =>
      rw [spotsFrom, List.mem_append] at h
      rcases h with h | h
      · obtain ⟨inner, -, rfl⟩ := List.mem_map.mp h
        exact ⟨index, inner.1, rfl, Nat.le_refl _⟩
      · obtain ⟨number, path, heq, hle⟩ := ih h
        exact ⟨number, path, heq, by omega⟩

mutual

/-- **Document order:** each position comes before all later ones. -/
theorem Node.pairwise_spots (keep : Tag → Bool) : (node : Node) →
    (node.spots keep).Pairwise fun a b => a.1 < b.1
  | .element tag children => by
      have hinside := pairwise_spotsFrom keep 0 children
      rw [Node.spots]
      split
      · refine List.pairwise_cons.mpr ⟨fun spot hspot => ?_, hinside⟩
        obtain ⟨number, path, heq, -⟩ := exists_of_mem_spotsFrom hspot
        rw [heq]
        exact List.nil_lt_cons number path
      · exact hinside
  | .text _ | .comment _ _ | .instruction _ _ _ | .entity _ => List.Pairwise.nil

theorem pairwise_spotsFrom (keep : Tag → Bool) (index : Nat) : (nodes : List Node) →
    (spotsFrom keep index nodes).Pairwise fun a b => a.1 < b.1
  | [] => List.Pairwise.nil
  | node :: rest => by
      rw [spotsFrom, List.pairwise_append, List.pairwise_map]
      refine ⟨?_, pairwise_spotsFrom keep (index + 1) rest, ?_⟩
      · refine (node.pairwise_spots keep).imp fun hlt => ?_
        exact List.cons_lt_cons_iff.mpr (.inr ⟨rfl, hlt⟩)
      · intro first hfirst later hlater
        obtain ⟨inner, -, rfl⟩ := List.mem_map.mp hfirst
        obtain ⟨number, path, heq, hle⟩ := exists_of_mem_spotsFrom hlater
        rw [heq]
        exact List.cons_lt_cons_iff.mpr (.inl (by omega))

end

theorem Node.holds_element_iff {tag : Tag} {children : List Node} {path : List Nat} {e : Element} :
    (Node.element tag children).Holds path e ↔
      (path = [] ∧ e = ⟨tag, children⟩) ∨
        ∃ index child inner, path = index :: inner ∧ children[index]? = some child ∧
          child.Holds inner e := by
  constructor
  · intro h
    cases h with
    | here => exact .inl ⟨rfl, rfl⟩
    | inside mem inner => exact .inr ⟨_, _, _, rfl, mem, inner⟩
  · rintro (⟨rfl, rfl⟩ | ⟨index, child, inner, rfl, mem, hinner⟩)
    · exact .here
    · exact .inside mem hinner

mutual

/-- **The positions of the selected elements** are all positions of such elements. -/
theorem Node.mem_spots_iff (keep : Tag → Bool) : (node : Node) → {spot : List Nat × Element} →
    (spot ∈ node.spots keep ↔ node.Holds spot.1 spot.2 ∧ keep spot.2.tag = true)
  | .element tag children, (path, e) => by
      have hinside : (path, e) ∈ spotsFrom keep 0 children ↔
          (∃ index child inner, path = index :: inner ∧ children[index]? = some child ∧
            child.Holds inner e) ∧ keep e.tag = true := by
        rw [mem_spotsFrom_iff keep 0 children]
        simp only [Nat.zero_add]
      rw [Node.spots, Node.holds_element_iff, or_and_right, ← hinside]
      split
      · next hkeep =>
        rw [List.mem_cons, Prod.mk.injEq]
        refine or_congr_left ⟨fun h => ⟨h, ?_⟩, And.left⟩
        rw [h.2]
        exact hkeep
      · next hkeep =>
        refine (or_iff_right ?_).symm
        rintro ⟨⟨-, rfl⟩, h⟩
        exact hkeep h
  | .text _, _ | .comment _ _, _ | .instruction _ _ _, _ | .entity _, _ => by
      rw [Node.spots]
      · exact ⟨nofun, nofun⟩
      · simp

theorem mem_spotsFrom_iff (keep : Tag → Bool) (index : Nat) : (nodes : List Node) →
    {spot : List Nat × Element} → (spot ∈ spotsFrom keep index nodes ↔
      (∃ number child inner, spot.1 = (index + number) :: inner ∧ nodes[number]? = some child ∧
        child.Holds inner spot.2) ∧ keep spot.2.tag = true)
  | [], _ => by simp [spotsFrom]
  | node :: rest, (path, e) => by
      rw [spotsFrom, List.mem_append, mem_spotsFrom_iff keep (index + 1) rest, List.mem_map]
      constructor
      · rintro (⟨⟨inner, e'⟩, hmem, heq⟩ | ⟨⟨number, child, inner, hpath, hchild, hinner⟩, hkeep⟩)
        · cases heq
          obtain ⟨hinner, hkeep⟩ := (node.mem_spots_iff keep).mp hmem
          exact ⟨⟨0, node, inner, rfl, rfl, hinner⟩, hkeep⟩
        · refine ⟨⟨number + 1, child, inner, ?_, hchild, hinner⟩, hkeep⟩
          rw [hpath, Nat.add_right_comm, Nat.add_assoc]
      · rintro ⟨⟨number, child, inner, hpath, hchild, hinner⟩, hkeep⟩
        cases number with
        | zero =>
            cases hchild
            refine .inl ⟨(inner, e), (node.mem_spots_iff keep).mpr ⟨hinner, hkeep⟩, ?_⟩
            rw [show path = index :: inner from hpath]
        | succ number =>
            refine .inr ⟨⟨number, child, inner, ?_, hchild, hinner⟩, hkeep⟩
            rw [hpath, Nat.add_right_comm, Nat.add_assoc]

end

end Xml

namespace Svrl

open Xml (Element)

/-! ## Outcomes -/

/-- The element is a failed assert or a successful report. -/
def IsReported (e : Element) : Prop :=
  e.denotes uri "failed-assert" = true ∨ e.denotes uri "successful-report" = true

/-- **The message of an element:** what its first text holds, with uniform space; nothing if it
has none. -/
inductive IsMessageOf (e : Element) : String → Prop
  /-- It has a text, and none before this one. -/
  | text {before after : List Element} {text : Element} {collected : List Char} {message : String}
      (elements : e.elements = before ++ text :: after)
      (others : ∀ other ∈ before, other.denotes uri "text" = false)
      (named : text.denotes uri "text" = true)
      (collects : Xml.CollectsText text.children collected)
      (uniform : Text.IsUniform collected message.toList) : IsMessageOf e message
  | none (others : ∀ other ∈ e.elements, other.denotes uri "text" = false) : IsMessageOf e ""

/-- **An outcome tells what an element says.** -/
structure Tells (e : Element) (outcome : Outcome) : Prop where
  /-- It is of the kind of the element. -/
  kind : (e.denotes uri "failed-assert" = true ∧ outcome.kind = .assert) ∨
    (e.denotes uri "successful-report" = true ∧ outcome.kind = .report)
  id : outcome.id = e.attribute? "id"
  role : outcome.role = e.attribute? "role"
  location : outcome.location = e.attribute? "location"
  test : outcome.test = e.attribute? "test"
  message : IsMessageOf e outcome.message

theorem isMessageOf_messageOf (e : Element) : IsMessageOf e (messageOf e) := by
  unfold messageOf
  cases htext : e.child? uri "text" with
  | none =>
      refine .none fun other hother => ?_
      simpa using List.find?_eq_none.mp htext other hother
  | some text =>
      obtain ⟨hnamed, before, after, heq, hothers⟩ := List.find?_eq_some_iff_append.mp htext
      have huniform := Text.isUniform_normalizeSpace text.textContent
      rw [Element.textContent, String.toList_ofList] at huniform
      refine .text heq (fun other hother => ?_) hnamed
        (Xml.collectsText_textOfNodes text.children) huniform
      simpa using hothers other hother

theorem kindOf?_eq_some_iff {tag : Xml.Tag} {kind : OutcomeKind} :
    kindOf? tag = some kind ↔
      (tag.name.denotes uri "failed-assert" = true ∧ kind = .assert) ∨
        (tag.name.denotes uri "successful-report" = true ∧ kind = .report) := by
  have hboth : tag.name.denotes uri "failed-assert" = true →
      ¬ tag.name.denotes uri "successful-report" = true := by
    unfold Xml.Name.denotes
    simp only [Bool.and_eq_true, beq_iff_eq]
    rintro ⟨-, hfailed⟩ ⟨-, hsuccessful⟩
    rw [hfailed] at hsuccessful
    exact absurd hsuccessful (by decide)
  unfold kindOf?
  split
  · next hfailed => simp [hfailed, hboth hfailed, eq_comm]
  · split
    · next hfailed hsuccessful => simp [hfailed, hsuccessful, eq_comm]
    · next hfailed hsuccessful => simp [hfailed, hsuccessful]

theorem isSome_kindOf?_iff {e : Element} : (kindOf? e.tag).isSome = true ↔ IsReported e := by
  rw [Option.isSome_iff_exists]
  simp only [kindOf?_eq_some_iff, exists_or, exists_and_left, exists_eq, and_true]
  rfl

theorem tells_outcomeOf {e : Element} {kind : OutcomeKind} (h : kindOf? e.tag = some kind) :
    Tells e (outcomeOf kind e) where
  kind := kindOf?_eq_some_iff.mp h
  id := rfl
  role := rfl
  location := rfl
  test := rfl
  message := isMessageOf_messageOf e

/-- **What is read from a report** are outcomes of the elements at positions. -/
structure Reads (report : Element) (positions : List (List Nat)) (outcomes : List Outcome) :
    Prop where
  /-- The positions are in document order, so none comes twice. -/
  ordered : positions.Pairwise (· < ·)
  /-- They are the positions of all failed asserts and successful reports. -/
  complete (position : List Nat) :
    position ∈ positions ↔ ∃ e, report.node.Holds position e ∧ IsReported e
  /-- There is one outcome for each position, and it tells what the element says. -/
  each : List.Forall₂ (fun position outcome =>
    ∃ e, report.node.Holds position e ∧ Tells e outcome) positions outcomes

/-- The elements at positions are read as outcomes one by one. -/
theorem forall₂_filterMap {report : Element} {spots : List (List Nat × Element)}
    (h : ∀ spot ∈ spots, report.node.Holds spot.1 spot.2 ∧ (kindOf? spot.2.tag).isSome = true) :
    List.Forall₂ (fun position outcome => ∃ e, report.node.Holds position e ∧ Tells e outcome)
      (spots.map (·.1))
      ((spots.map (·.2)).filterMap fun e => (kindOf? e.tag).map fun kind => outcomeOf kind e) := by
  induction spots with
  | nil => exact .nil
  | cons spot rest ih =>
      obtain ⟨⟨hholds, hspot⟩, hrest⟩ := List.forall_mem_cons.mp h
      obtain ⟨kind, hkind⟩ := Option.isSome_iff_exists.mp hspot
      rw [List.map_cons, List.map_cons, List.filterMap_cons_some (by rw [hkind]; rfl)]
      exact .cons ⟨spot.2, hholds, tells_outcomeOf hkind⟩ (ih hrest)

/-- **The outcomes of a report** are those of its failed asserts and successful reports, wherever
they stand. -/
theorem exists_reads_outcomes (report : Element) :
    ∃ positions, Reads report positions (outcomes report) := by
  have hspots {spot : List Nat × Element} :=
    @Xml.Node.mem_spots_iff (fun tag => (kindOf? tag).isSome) report.node spot
  refine ⟨(report.node.spots fun tag => (kindOf? tag).isSome).map (·.1), ?_, ?_, ?_⟩
  · rw [List.pairwise_map]
    exact report.node.pairwise_spots _
  · intro position
    rw [List.mem_map]
    constructor
    · rintro ⟨⟨path, e⟩, hmem, rfl⟩
      obtain ⟨hholds, hkeep⟩ := hspots.mp hmem
      exact ⟨e, hholds, isSome_kindOf?_iff.mp hkeep⟩
    · rintro ⟨e, hholds, hreported⟩
      exact ⟨(position, e), hspots.mpr ⟨hholds, isSome_kindOf?_iff.mpr hreported⟩, rfl⟩
  · rw [outcomes, ← Xml.Node.map_spots]
    exact forall₂_filterMap fun spot hspot => hspots.mp hspot

end Svrl

end OscalValidation
