import OscalValidation.Rules.Schematron.Grammar
import OscalValidation.Text.Blank
import OscalValidation.Xml.Fragment

set_option autoImplicit false

/-! # Schematron sources

The rules are written as patterns of rules, and a rule has asserts and reports. Here stands
what the summaries have in common: finding the parts of a source together with the namespaces
in scope, and the text of a message, in which expressions show as placeholders.
-/

namespace OscalValidation.Schematron

/-- **An element in its scope:** the declarations around it, the innermost first. -/
structure Scoped where
  element : Xml.Element
  /-- The declarations in scope around it, each prefix once. -/
  outer : List Xml.Declaration

namespace Scoped

/-- The declarations in scope inside the element. -/
def inner (e : Scoped) : List Xml.Declaration :=
  Xml.addDeclarations e.element.tag.declarations e.outer

def elements (e : Scoped) : List Scoped := e.element.elements.map fun child => ⟨child, e.inner⟩

mutual

/-- The elements of a name in a node, the node itself included, in document order. -/
def allInNode (localName : String) (outer : List Xml.Declaration) : Xml.Node → List Scoped
  | .element tag children =>
      let inside := allInNodes localName (Xml.addDeclarations tag.declarations outer) children
      if tag.name.denotes uri localName then ⟨⟨tag, children⟩, outer⟩ :: inside else inside
  | _ => []

/-- The elements of a name in nodes in a row. -/
def allInNodes (localName : String) (outer : List Xml.Declaration) : List Xml.Node → List Scoped
  | [] => []
  | node :: rest => allInNode localName outer node ++ allInNodes localName outer rest

end

/-- The element and those inside it that have a name, in document order. -/
def all (e : Scoped) (localName : String) : List Scoped :=
  allInNode localName e.outer e.element.node

end Scoped

/-! ## Texts -/

/-- The text of a node in a message. The value of an expression and the name of a node show as
the expression in braces; anything that is no text and no element shows as nothing. -/
def messagePart : Xml.Node → String
  | .text content => content
  | .element tag children =>
      let e : Xml.Element := ⟨tag, children⟩
      if e.denotes uri "value-of" then "\x7b" ++ (e.attribute? "select").getD "" ++ "\x7d"
      else if e.denotes uri "name" then
        match e.attribute? "path" with
        | some "" | none => "\x7bname()\x7d"
        | some path => "\x7b" ++ path ++ "\x7d"
      else e.textContent
  | _ => ""

/-- **The message that an element holds.** -/
def message (e : Xml.Element) : String :=
  Text.normalizeSpace (String.join (e.children.map messagePart))

/-- The text of an element's title; empty without one. -/
def titleOf (e : Xml.Element) : String :=
  match e.child? uri "title" with
  | some title => Text.normalizeSpace title.textContent
  | none => ""

/-- The title of a source, or the one it has by default. -/
def schemaTitle (schema : Xml.Element) (default : String) : String :=
  let title := titleOf schema
  if title.isEmpty then default else title

def isCheck (e : Xml.Element) : Bool := e.denotes uri "assert" || e.denotes uri "report"

end OscalValidation.Schematron
