import OscalValidation.Rules.Stylesheet

set_option autoImplicit false

/-! # Reading stylesheets

A stylesheet is written as a structural document. Elements of its own namespace are
instructions; any other element inside a template is produced as it stands, with the queries in
its attributes replaced by their values. There is no stylesheet where an instruction lacks what
it needs, a query cannot be read, or an instruction is none of those that are known here. So no
template is ever applied or called, and what is run is the template for the document.
-/

namespace OscalValidation.Stylesheet

open XPath (Query ValueTemplate Prefixes)

def uri : String := "http://www.w3.org/1999/XSL/Transform"

/-- The text consists of blanks only. -/
def isBlank (s : String) : Bool := s.toList.all Xml.isSpace

/-- The name of a variable or an attribute, which may have a prefix. -/
def isName (s : String) : Bool :=
  match s.splitOn ":" with
  | [name] => Xml.isLocalName name.toList
  | [p, name] => Xml.isLocalName p.toList && Xml.isLocalName name.toList
  | _ => false

/-- The query in an attribute that an element must have. -/
def query? (prefixes : Prefixes) (tag : Xml.Tag) (key : String) : Option Query := do
  Query.read? prefixes (← tag.attribute? key)

/-- The query in an attribute that an element may have. -/
def optionalQuery? (prefixes : Prefixes) (tag : Xml.Tag) (key : String) :
    Option (Option Query) :=
  match tag.attribute? key with
  | none => some none
  | some s => (Query.read? prefixes s).map some

def variableName? (tag : Xml.Tag) : Option String := do
  let name ← tag.attribute? "name"
  if isName name then some name else none

/-- The attributes of an element that is produced. -/
def attributes? (prefixes : Prefixes) (tag : Xml.Tag) :
    Option (List (Xml.Name × ValueTemplate)) :=
  (tag.attributes.filter fun a => a.name.uri != some uri).mapM fun a =>
    (ValueTemplate.read? prefixes a.value).map fun value => (a.name, value)

mutual

/-- The instructions that a node of a template stands for. -/
def nodeInstructions? (outer : Prefixes) : Xml.Node → Option (List Instruction)
  | .text content => some (if isBlank content then [] else [.text content])
  | .comment .. | .instruction .. | .entity _ => some []
  | .element tag children => do
      let prefixes := outer.inside tag
      if tag.name.uri != some uri then do
        let attributes ← attributes? prefixes tag
        return [.element tag.name attributes (← instructions? prefixes children)]
      else match tag.name.localName with
        | "text" => return [.text (Xml.leadingText children)]
        | "value-of" => return [.valueOf (← query? prefixes tag "select")]
        | "for-each" => do
            let query ← query? prefixes tag "select"
            return [.forEach query (← instructions? prefixes children)]
        | "if" => do
            let test ← query? prefixes tag "test"
            return [.branch test (← instructions? prefixes children) []]
        | "choose" => branches? prefixes children
        | "attribute" => do
            let name ← ValueTemplate.read? prefixes (← tag.attribute? "name")
            return [.attributeNode name prefixes (← instructions? prefixes children)]
        | "param" | "variable" => do
            let name ← variableName? tag
            let query ← optionalQuery? prefixes tag "select"
            return [.define name query (← instructions? prefixes children)]
        | "message" =>
            return [.message (tag.attribute? "terminate") (← instructions? prefixes children)]
        | _ => none

/-- The instructions that nodes in a row stand for. -/
def instructions? (outer : Prefixes) : List Xml.Node → Option (List Instruction)
  | [] => some []
  | node :: rest => do
      return (← nodeInstructions? outer node) ++ (← instructions? outer rest)

/-- The choice between the cases that nodes in a row stand for. -/
def branches? (outer : Prefixes) : List Xml.Node → Option (List Instruction)
  | [] => some []
  | .element tag children :: rest => do
      let prefixes := outer.inside tag
      let others ← branches? outer rest
      if tag.name.denotes uri "when" then do
        let test ← query? prefixes tag "test"
        return [.branch test (← instructions? prefixes children) others]
      else if tag.name.denotes uri "otherwise" then instructions? prefixes children
      else none
  | .text content :: rest => if isBlank content then branches? outer rest else none
  | _ :: rest => branches? outer rest

end

/-! ## The parts of a stylesheet -/

/-- The instructions of the language that may stand in a stylesheet without any effect here. -/
def idleParts : List String :=
  ["strip-space", "preserve-space", "output", "key", "decimal-format", "attribute-set",
    "namespace-alias"]

/-- The part that a node directly inside a stylesheet stands for: it adds a variable, replaces
what is run at the document, or does nothing. -/
def addPart? (outer : Prefixes) (done : Stylesheet) : Xml.Node → Option Stylesheet
  | .text content => if isBlank content then some done else none
  | .comment .. | .instruction .. | .entity _ => some done
  | .element tag children =>
      let prefixes := outer.inside tag
      if tag.name.uri.isNone then none
      else if tag.name.uri != some uri then some done
      else match tag.name.localName with
        | "template" => do
            let body ← instructions? prefixes children
            match tag.attribute? "match" with
            | none => return done
            | some pattern => do
                let pattern ← Query.readPattern? prefixes pattern
                match pattern.expr, tag.attribute? "mode" with
                | .root, none => return { done with body := body }
                | _, some _ => return done
                -- without a template for the document this one would be applied nevertheless
                | _, none => none
        | "param" | "variable" => do
            let name ← variableName? tag
            if done.globals.any (·.name == name) then none
            else
              let query ← optionalQuery? prefixes tag "select"
              let body ← instructions? prefixes children
              return { done with
                globals := done.globals ++
                  [⟨name, tag.name.localName == "param", query, body⟩] }
        | name => if idleParts.contains name then some done else none

/-- The element is the root of a stylesheet. -/
def isRoot (tag : Xml.Tag) : Bool :=
  tag.name.denotes uri "stylesheet" || tag.name.denotes uri "transform"

/-- **The stylesheet that an element is.** An element of another namespace that names the
version of the language is what is to be produced. -/
def read? (root : Xml.Element) : Option Stylesheet :=
  if isRoot root.tag then
    root.children.foldlM (addPart? (XPath.Prefixes.inside [] root.tag)) ⟨[], []⟩
  else if root.tag.attributes.any (·.name.denotes uri "version") then
    (nodeInstructions? [] root.node).map fun body => ⟨[], body⟩
  else none

end OscalValidation.Stylesheet
