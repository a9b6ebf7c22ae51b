import OscalValidation.Rules.Stylesheet.Reader

set_option autoImplicit false

/-! # Running stylesheets

Instructions run at a node with the values of variables, and produce nodes and attributes. A
run breaks off, and has no result, where a query has no value, an attribute comes too late or
the stylesheet itself says so.
-/

namespace OscalValidation.Stylesheet

open XPath (Focus Context Value Variables Prefixes)

/-- What an instruction produces. -/
inductive Product
  /-- An attribute of the element around. -/
  | attributeNode (name : Xml.Name) (value : String)
  | node (content : Xml.Node)
deriving Inhabited

/-- Text as products; empty text is none. -/
def textProducts (s : String) : List Product := if s.isEmpty then [] else [.node (.text s)]

def textOf (products : List Product) : String :=
  String.join (products.map fun
    | .node content => String.ofList content.textContent
    | .attributeNode .. => "")

/-- The nodes among products without attributes. -/
def nodes? (products : List Product) : Option (List Xml.Node) :=
  products.mapM fun
    | .node content => some content
    | .attributeNode .. => none

/-- A variable's value from products: they count as one node with their text. -/
def fragment? (products : List Product) : Option Value := do
  let _ ← nodes? products
  return .nodes [.childAt (.document default) 0 (.text (textOf products))]

/-- Attributes with one more; an attribute of the same name is replaced. -/
def addAttribute (attributes : List Xml.Attribute) (name : Xml.Name) (value : String) :
    List Xml.Attribute :=
  let isSame (a : Xml.Attribute) : Bool :=
    a.name.uri == name.uri && a.name.localName == name.localName
  if attributes.any isSame then
    attributes.map fun a => if isSame a then { a with value := value } else a
  else attributes ++ [⟨name, value, false⟩]

/-- An element with the attributes and nodes that its body produced; attributes come first. -/
def assemble? (name : Xml.Name) (attributes : List Xml.Attribute) :
    List Product → Option Xml.Node
  | .attributeNode key value :: rest =>
      assemble? name (addAttribute attributes key value) rest
  | products => do
      return .element ⟨name, [], attributes, none⟩ (← nodes? products)

/-- The name of an attribute that a text spells. -/
def attributeName? (prefixes : Prefixes) (s : String) : Option Xml.Name :=
  if s = "xmlns" then none
  else match s.splitOn ":" with
    | [name] => if Xml.isLocalName name.toList then some ⟨none, none, name⟩ else none
    | [p, name] =>
        if Xml.isLocalName name.toList then
          (prefixes.lookup p).map fun uri => ⟨some p, some uri, name⟩
        else none
    | _ => none

mutual

/-- **A run of an instruction:** the variables for what follows, and what is produced. -/
def Instruction.run? (bindings : Variables) (ctx : Context) :
    Instruction → Option (Variables × List Product)
  | .text content => some (bindings, textProducts content)
  | .element name attributes body => do
      let given ← attributes.mapM fun (name, value) =>
        (value.text? bindings ctx).map fun value => (⟨name, value, false⟩ : Xml.Attribute)
      let products ← runAll? bindings ctx body
      return (bindings, [.node (← assemble? name given products)])
  | .attributeNode name prefixes body => do
      let name ← attributeName? prefixes (← name.text? bindings ctx)
      let products ← runAll? bindings ctx body
      return (bindings, [.attributeNode name (textOf products)])
  | .valueOf query => do
      return (bindings, textProducts (← query.value? bindings ctx).toText)
  | .forEach query body => do
      let items ← (← query.value? bindings ctx).nodes?
      let size := items.length
      let products ← items.zipIdx.mapM fun (node, index) =>
        runAll? bindings ⟨node, index + 1, size⟩ body
      return (bindings, products.flatten)
  | .branch test body otherwise => do
      let v ← test.value? bindings ctx
      let products ←
        if v.holds then runAll? bindings ctx body else runAll? bindings ctx otherwise
      return (bindings, products)
  | .define name (some query) _ => do
      return ((name, ← query.value? bindings ctx) :: bindings, [])
  | .define name none [] => some ((name, .text "") :: bindings, [])
  | .define name none body => do
      return ((name, ← fragment? (← runAll? bindings ctx body)) :: bindings, [])
  | .message stops body => do
      let _ ← runAll? bindings ctx body
      if stops.getD "no" = "no" then some (bindings, []) else none

/-- A run of instructions one after another. -/
def runAll? (bindings : Variables) (ctx : Context) : List Instruction → Option (List Product)
  | [] => some []
  | instruction :: rest => do
      let (bindings, products) ← instruction.run? bindings ctx
      return products ++ (← runAll? bindings ctx rest)

end

/-- The variables of a stylesheet, each in the scope of those before it; `given` are the values
from outside. -/
def globals? (given : Variables) (ctx : Context) :
    Variables → List Global → Option Variables
  | done, [] => some done
  | done, g :: rest => do
      if g.isParameter && given.any (·.1 == g.name) then globals? given ctx done rest
      else do
        let (done, _) ← (Instruction.define g.name g.query g.body).run? done ctx
        globals? given ctx done rest

end Stylesheet

/-- **What a stylesheet makes of a document,** with the texts of parameters from outside. -/
def Stylesheet.run? (stylesheet : Stylesheet) (parameters : List (String × String))
    (document : Xml.Document) : Option (List Xml.Node) := do
  let ctx : XPath.Context := ⟨.document document, 1, 1⟩
  let given := parameters.map fun (name, value) => (name, XPath.Value.text value)
  let bindings ← Stylesheet.globals? given ctx given stylesheet.globals
  Stylesheet.nodes? (← Stylesheet.runAll? bindings ctx stylesheet.body)

end OscalValidation
