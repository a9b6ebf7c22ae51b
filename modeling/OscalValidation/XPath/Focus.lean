import OscalValidation.XPath.Syntax
import OscalValidation.Xml.Tree

set_option autoImplicit false

/-! # Nodes in their document

A node by itself does not know what surrounds it. A focus is a node together with the way to
it from the document, so that a step can lead in every direction and two nodes of one
document can be compared by their places.
-/

namespace OscalValidation.XPath

/-- **A node and the way to it.** -/
inductive Focus
  | document (content : Xml.Document)
  /-- The node at an index among the children of another. -/
  | childAt (parent : Focus) (index : Nat) (node : Xml.Node)
  /-- The attribute at an index of an element. -/
  | attributeAt (parent : Focus) (index : Nat) (content : Xml.Attribute)
deriving Inhabited

namespace Focus

/-! ## Places -/

/-- The place of a node: at each level whether it is an attribute or a child, and its index.
A node comes before what is inside it, and attributes come before children. -/
def place : Focus → List (Nat × Nat)
  | document _ => []
  | childAt parent index _ => parent.place ++ [(1, index)]
  | attributeAt parent index _ => parent.place ++ [(0, index)]

/-- A place comes first in document order, or is the other. -/
def placeLe : List (Nat × Nat) → List (Nat × Nat) → Bool
  | [], _ => true
  | _ :: _, [] => false
  | (kind, index) :: rest, (kind', index') :: rest' =>
      if kind ≠ kind' then kind < kind'
      else if index ≠ index' then index < index'
      else placeLe rest rest'

/-- Entries in a row without those whose place is that of the entry before. -/
def dropRepeated : List (List (Nat × Nat) × Focus) → List Focus
  | [] => []
  | [entry] => [entry.2]
  | entry :: next :: rest =>
      if entry.1 == next.1 then dropRepeated (next :: rest)
      else entry.2 :: dropRepeated (next :: rest)

/-- The nodes of one document in its order, each once. -/
def inOrder (nodes : List Focus) : List Focus :=
  dropRepeated ((nodes.map fun node => (node.place, node)).mergeSort fun a b => placeLe a.1 b.1)

/-! ## Surroundings -/

/-- The node that a node lies in. -/
def parent? : Focus → Option Focus
  | document _ => none
  | childAt parent _ _ | attributeAt parent _ _ => some parent

/-- What is directly inside a node. -/
def contents : Focus → List Xml.Node
  | document content => content.before ++ content.root.node :: content.after
  | childAt _ _ (.element _ children) => children
  | childAt _ _ _ | attributeAt .. => []

def children (node : Focus) : List Focus :=
  node.contents.zipIdx.map fun (inner, index) => childAt node index inner

def attributes (node : Focus) : List Focus :=
  match node with
  | childAt _ _ (.element tag _) =>
      tag.attributes.zipIdx.map fun (inner, index) => attributeAt node index inner
  | _ => []

mutual

/-- All nodes inside the node that a focus holds. -/
def insideNode (self : Focus) : Xml.Node → List Focus
  | .element _ children => insideNodes self 0 children
  | _ => []

/-- Nodes in a row from an index on, and all nodes inside them. -/
def insideNodes (parent : Focus) (index : Nat) : List Xml.Node → List Focus
  | [] => []
  | node :: rest =>
      let here := childAt parent index node
      here :: insideNode here node ++ insideNodes parent (index + 1) rest

end

/-- All nodes inside a node, in document order. -/
def descendants (node : Focus) : List Focus := insideNodes node 0 node.contents

/-- The nodes that a node lies in, the nearest first. -/
def ancestors : Focus → List Focus
  | document _ => []
  | childAt parent _ _ | attributeAt parent _ _ => parent :: parent.ancestors

/-- The later children of the same node. -/
def followingSiblings : Focus → List Focus
  | childAt parent index _ => parent.children.drop (index + 1)
  | document _ | attributeAt .. => []

/-- The earlier children of the same node, the nearest first. -/
def precedingSiblings : Focus → List Focus
  | childAt parent index _ => (parent.children.take index).reverse
  | document _ | attributeAt .. => []

/-- A node and all nodes inside it. -/
def andBelow (node : Focus) : List Focus := node :: node.descendants

/-- All nodes after a node that are not inside it. -/
def following (node : Focus) : List Focus :=
  (node :: node.ancestors).flatMap fun n => n.followingSiblings.flatMap andBelow

/-- All nodes before a node that it does not lie in, the nearest first. -/
def preceding (node : Focus) : List Focus :=
  (node :: node.ancestors).flatMap fun n =>
    n.precedingSiblings.flatMap fun sibling => sibling.andBelow.reverse

/-- The nodes in a direction, in the order of the way there. -/
def along (node : Focus) : Axis → List Focus
  | .child => node.children
  | .descendant => node.descendants
  | .descendantOrSelf => node.andBelow
  | .parent => node.parent?.toList
  | .ancestor => node.ancestors
  | .ancestorOrSelf => node :: node.ancestors
  | .following => node.following
  | .followingSibling => node.followingSiblings
  | .preceding => node.preceding
  | .precedingSibling => node.precedingSiblings
  | .attributes => node.attributes
  | .namespaces => []
  | .self => [node]

/-! ## Content -/

def text : Focus → String
  | document content => content.root.textContent
  | childAt _ _ (.comment content _) => content
  | childAt _ _ (.instruction _ content _) => content
  | childAt _ _ node => String.ofList node.textContent
  | attributeAt _ _ content => content.value

/-- The name of an element or an attribute, or the target of an instruction. -/
def name? : Focus → Option Xml.Name
  | childAt _ _ (.element tag _) => some tag.name
  | childAt _ _ (.instruction target _ _) => some ⟨none, none, target⟩
  | attributeAt _ _ content => some content.name
  | _ => none

/-- A node is an element, or an attribute in the direction of attributes. -/
def isPrincipal : Axis → Focus → Bool
  | .attributes, attributeAt .. => true
  | .attributes, _ => false
  | _, childAt _ _ (.element ..) => true
  | _, _ => false

end Focus

end OscalValidation.XPath
