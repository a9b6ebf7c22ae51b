set_option autoImplicit false

/-! # Structural documents

A document in the structural representation is a tree of elements with text, comments,
instructions and references to entities between them. An element knows the line of the text
it was read from; an element that was built has none. Text that follows text is one node.
-/

namespace OscalValidation.Xml

/-! ## Names -/

/-- **A name:** a local name in a namespace, with the prefix it is written with. -/
structure Name where
  nsPrefix : Option String
  /-- The namespace, if there is one. -/
  uri : Option String
  localName : String
deriving DecidableEq, Inhabited

/-- The name denotes `localName` in the namespace `uri`. -/
def Name.denotes (name : Name) (uri localName : String) : Bool :=
  name.uri == some uri && name.localName == localName

/-- The name with its namespace in braces in front. -/
def Name.expanded (name : Name) : String :=
  match name.uri with
  | some uri => "\x7b" ++ uri ++ "\x7d" ++ name.localName
  | none => name.localName

def Name.written (name : Name) : String :=
  match name.nsPrefix with
  | some p => p ++ ":" ++ name.localName
  | none => name.localName

/-! ## Elements -/

/-- An attribute. -/
structure Attribute where
  /-- Its name; without a prefix it has no namespace. -/
  name : Name
  /-- Its value, with all references replaced. -/
  value : String
  /-- The value was written with a reference to a declared entity. -/
  usesEntity : Bool := false
deriving DecidableEq, Inhabited

/-- The declaration of a namespace for a prefix, or for names without one. -/
structure Declaration where
  nsPrefix : Option String
  /-- The namespace; an empty one takes away the namespace of names without a prefix. -/
  uri : String
deriving DecidableEq, Inhabited

/-- What an element's tag says. -/
structure Tag where
  name : Name
  /-- The namespaces that are declared here. -/
  declarations : List Declaration
  attributes : List Attribute
  /-- The line on which the tag ends. -/
  line : Option Nat
deriving DecidableEq, Inhabited

/-- **A node of a document.** -/
inductive Node
  | element (tag : Tag) (children : List Node)
  | text (content : String)
  /-- A comment, with the line on which it ends. -/
  | comment (content : String) (line : Option Nat)
  /-- An instruction to a program that reads the document, with the line on which it ends. -/
  | instruction (target content : String) (line : Option Nat)
  /-- A reference to an entity that is not replaced. -/
  | entity (name : String)
deriving Inhabited

/-- An element: its tag and what it contains. -/
structure Element where
  tag : Tag
  children : List Node
deriving Inhabited

/-- **A document:** its root element and the comments and instructions around it. -/
structure Document where
  /-- What stands before the root element. -/
  before : List Node
  root : Element
  /-- What stands after the root element. -/
  after : List Node
deriving Inhabited

def Element.node (e : Element) : Node := .element e.tag e.children

def Node.element? : Node → Option Element
  | .element tag children => some ⟨tag, children⟩
  | _ => none

namespace Tag

/-- The value of the attribute with a local name and no namespace. -/
def attribute? (tag : Tag) (name : String) : Option String :=
  (tag.attributes.find? fun a => a.name.uri.isNone && a.name.localName == name).map (·.value)

end Tag

/-! ## Text -/

mutual

/-- The text of a node and of everything in it: comments and instructions have none, and a
reference to an entity stands as it is written. -/
def Node.textContent : Node → List Char
  | .element _ children => textOfNodes children
  | .text content => content.toList
  | .comment _ _ => []
  | .instruction _ _ _ => []
  | .entity name => '&' :: name.toList ++ [';']

/-- The texts of nodes in a row. -/
def textOfNodes : List Node → List Char
  | [] => []
  | node :: rest => node.textContent ++ textOfNodes rest

end

/-- The text that nodes begin with, before anything else comes. -/
def leadingText : List Node → String
  | .text content :: rest => content ++ leadingText rest
  | _ => ""

namespace Element

/-- The name of the element is `localName` in the namespace `uri`. -/
def denotes (e : Element) (uri localName : String) : Bool := e.tag.name.denotes uri localName

/-- The value of an attribute without a namespace. -/
def attribute? (e : Element) (name : String) : Option String := e.tag.attribute? name

def textContent (e : Element) : String := String.ofList (textOfNodes e.children)

def elements (e : Element) : List Element := e.children.filterMap Node.element?

/-- The first element of a name directly inside. -/
def child? (e : Element) (uri localName : String) : Option Element :=
  e.elements.find? (·.denotes uri localName)

end Element

mutual

/-- The elements in a node that `keep` selects, the node itself included, in document order. -/
def Node.select (keep : Tag → Bool) : Node → List Element
  | .element tag children =>
      let inside := selectInNodes keep children
      if keep tag then ⟨tag, children⟩ :: inside else inside
  | _ => []

/-- The selected elements in nodes in a row. -/
def selectInNodes (keep : Tag → Bool) : List Node → List Element
  | [] => []
  | node :: rest => node.select keep ++ selectInNodes keep rest

end

/-- The element and those inside it that have a name, in document order. -/
def Element.all (e : Element) (uri localName : String) : List Element :=
  e.node.select fun tag => tag.name.denotes uri localName

/-- Nodes in a row with text in front; text that follows text joins it. -/
def consText (content : List Char) (nodes : List Node) : List Node :=
  if content.isEmpty then nodes
  else match nodes with
    | .text next :: rest => .text (String.ofList content ++ next) :: rest
    | nodes => .text (String.ofList content) :: nodes

end OscalValidation.Xml
