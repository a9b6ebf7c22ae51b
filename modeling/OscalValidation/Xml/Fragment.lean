import OscalValidation.Text.Blank
import OscalValidation.Xml.Char
import OscalValidation.Xml.Printer

set_option autoImplicit false

/-! # Fragments

A part of a document can be shown on its own: the namespaces it uses are declared on it even
where they were declared around it, those it does not use are left out, and blank text that
only indents the markup gives way to an indentation of its own.
-/

namespace OscalValidation.Xml

/-! ## Indentation -/

/-- Text that may stand in markup only to indent it. -/
def isIndentation (content : String) : Bool :=
  content.toList.all fun c => c == ' ' || c == '\t' || c == '\n'

/-- Whether blank text is kept inside an element: its own wish, or that of the element around. -/
def Tag.keepsBlank (around : Bool) (tag : Tag) : Bool :=
  match tag.attributes.find? fun a =>
      a.name.nsPrefix == some "xml" && a.name.localName == "space" with
  | some ⟨_, "preserve", _⟩ => true
  | some ⟨_, "default", _⟩ => false
  | _ => around

/-- The children are kept as they are: blank text is kept, or is all there is, or the children
begin with text. -/
def keepsChildren (keepBlank : Bool) : List Node → Bool
  | [] | [_] => true
  | .text content :: _ => keepBlank || !isIndentation content
  | _ => keepBlank

/-- The node is blank text that only indents. -/
def Node.isIndentation : Node → Bool
  | .text content => Xml.isIndentation content
  | _ => false

mutual

/-- The node without the text that only indents. -/
def Node.withoutIndentation (keepBlank : Bool) : Node → Node
  | .element tag children =>
      let keepBlank := tag.keepsBlank keepBlank
      .element tag (nodesWithoutIndentation keepBlank (keepsChildren keepBlank children) children)
  | node => node

/-- The nodes without the text that only indents; with `keep` none of them is left out. -/
def nodesWithoutIndentation (keepBlank keep : Bool) : List Node → List Node
  | [] => []
  | node :: rest =>
      if !keep && node.isIndentation then nodesWithoutIndentation keepBlank keep rest
      else node.withoutIndentation keepBlank :: nodesWithoutIndentation keepBlank keep rest

end

/-! ## Namespaces -/

/-- The tag uses what a prefix, or its absence, stands for. -/
def Tag.usesPrefix (p : Option String) (tag : Tag) : Bool :=
  (tag.name.nsPrefix == p && (p.isSome || tag.name.uri.isSome)) ||
    tag.attributes.any fun a => p.isSome && a.name.nsPrefix == p

def Tag.declares (p : Option String) (tag : Tag) : Bool :=
  tag.declarations.any (·.nsPrefix == p)

mutual

/-- The node uses a prefix that is declared around it. -/
def Node.usesOuter (p : Option String) : Node → Bool
  | .element tag children => !tag.declares p && (tag.usesPrefix p || nodesUseOuter p children)
  | _ => false

/-- One of the nodes uses a prefix that is declared around them. -/
def nodesUseOuter (p : Option String) : List Node → Bool
  | [] => false
  | node :: rest => node.usesOuter p || nodesUseOuter p rest

end

mutual

/-- The node without declarations that nothing in their scope uses. -/
def Node.withoutUnused : Node → Node
  | .element tag children =>
      let used := tag.declarations.filter fun d =>
        tag.usesPrefix d.nsPrefix || nodesUseOuter d.nsPrefix children
      .element { tag with declarations := used } (nodesWithoutUnused children)
  | node => node

/-- The nodes without declarations that nothing in their scope uses. -/
def nodesWithoutUnused : List Node → List Node
  | [] => []
  | node :: rest => node.withoutUnused :: nodesWithoutUnused rest

end

/-- Declarations followed by those of `outer` for other prefixes. -/
def addDeclarations (declarations outer : List Declaration) : List Declaration :=
  outer.foldl (fun done d =>
    if done.any (·.nsPrefix == d.nsPrefix) then done else done ++ [d]) declarations

/-! ## Writing in ASCII

A fragment is written in ASCII and read again. Any other character is written as a reference to
it: that is read back in text and in values, stays as it is in comments and instructions, and
cannot stand in a name. -/

def isAscii (s : String) : Bool := s.toList.all fun c => c.toNat < 128

/-- The text in ASCII, with references to all other characters. -/
def withReferences (s : String) : String :=
  String.ofList (s.toList.flatMap fun c =>
    if c.toNat < 128 then [c] else "&#".toList ++ (toString c.toNat).toList ++ [';'])

/-- The names that a tag is written with are in ASCII. -/
def Tag.hasAsciiNames (tag : Tag) : Bool :=
  isAscii tag.name.written && (tag.declarations.all fun d => isAscii (d.nsPrefix.getD "")) &&
    tag.attributes.all fun a => isAscii a.name.written

mutual

/-- The node as it is read back; `none` if it cannot be read. A reference to an entity means
nothing outside of its document. -/
def Node.readBack? : Node → Option Node
  | .element tag children =>
      if tag.hasAsciiNames && !tag.attributes.any (·.usesEntity) then
        (nodesReadBack? children).map (.element tag)
      else none
  | .text content => some (.text content)
  | .comment content line => some (.comment (withReferences content) line)
  | .instruction target content line =>
      if isAscii target then some (.instruction target (withReferences content) line) else none
  | .entity _ => none

/-- Nodes in a row as they are read back. -/
def nodesReadBack? : List Node → Option (List Node)
  | [] => some []
  | node :: rest => do return (← node.readBack?) :: (← nodesReadBack? rest)

end

/-! ## Showing a fragment -/

/-- The element on its own, with the declarations `outer` in scope around it, the innermost
first. There is nothing to show if it cannot be read back. -/
def Element.fragment? (outer : List Declaration) (e : Element) : Option String :=
  let tag := { e.tag with declarations := addDeclarations e.tag.declarations outer }
  (Node.element tag e.children).readBack?.map fun node =>
    Text.trimEnd (String.ofList ((node.withoutIndentation false).withoutUnused.writeIndented 0))

/-- The texts to show of the children of an element: trimmed text that is not blank, and its
elements as fragments. Text goes up to the next node of another kind. -/
def fragmentParts? (outer : List Declaration) : List Node → Option (List String)
  | [] => some []
  | node :: rest => do
      let after ← fragmentParts? outer rest
      match node with
      | .element tag children =>
          let fragment ← Element.fragment? outer ⟨tag, children⟩
          return fragment :: after
      | .text content =>
          let text := Text.trim content
          return if text.isEmpty then after else text :: after
      | _ => return after

/-- **What an element contains, for showing:** nothing at all, or its parts a line each. The
declarations `outer` are in scope around the element. It is `none` if a part cannot be shown. -/
def Element.content? (outer : List Declaration) (e : Element) : Option (Option String) :=
  match fragmentParts? (addDeclarations e.tag.declarations outer) e.children with
  | none => none
  | some [] => some none
  | some parts => some (some ("\n".intercalate parts))

end OscalValidation.Xml
