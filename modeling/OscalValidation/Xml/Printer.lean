import OscalValidation.Xml.Tree

set_option autoImplicit false

/-! # Writing structural documents

A node is written as markup in one of two layouts: as it is, or with a child a line where an
element contains no text. In a tag the declarations of namespaces come before the attributes.
-/

namespace OscalValidation.Xml

/-! ## Characters -/

/-- How a character is written in text. -/
def escapeInText : Char → List Char
  | '&' => "&amp;".toList
  | '<' => "&lt;".toList
  | '>' => "&gt;".toList
  | '\r' => "&#13;".toList
  | c => [c]

/-- How a character is written in the value of an attribute. -/
def escapeInValue : Char → List Char
  | '"' => "&quot;".toList
  | '\t' => "&#9;".toList
  | '\n' => "&#10;".toList
  | c => escapeInText c

/-! ## Tags -/

/-- A name and a value, with a blank in front. -/
def writeSetting (name value : String) : List Char :=
  ' ' :: name.toList ++ "=\"".toList ++ value.toList.flatMap escapeInValue ++ ['"']

def Declaration.write (d : Declaration) : List Char :=
  match d.nsPrefix with
  | some p => writeSetting ("xmlns:" ++ p) d.uri
  | none => writeSetting "xmlns" d.uri

/-- A start tag without its closing bracket. -/
def Tag.writeStart (tag : Tag) : List Char :=
  '<' :: tag.name.written.toList ++ tag.declarations.flatMap Declaration.write ++
    tag.attributes.flatMap fun a => writeSetting a.name.written a.value

def Tag.writeEnd (tag : Tag) : List Char := "</".toList ++ tag.name.written.toList ++ ['>']

/-! ## Nodes -/

/-- A node that is not an element. -/
def Node.writeLeaf : Node → List Char
  | .text content => content.toList.flatMap escapeInText
  | .comment content _ => "<!--".toList ++ content.toList ++ "-->".toList
  | .instruction target content _ =>
      "<?".toList ++ target.toList ++ (if content.isEmpty then [] else ' ' :: content.toList) ++
        "?>".toList
  | .entity name => '&' :: name.toList ++ [';']
  | .element _ _ => []

mutual

def Node.write : Node → List Char
  | .element tag [] => tag.writeStart ++ "/>".toList
  | .element tag (child :: children) =>
      tag.writeStart ++ '>' :: writeNodes (child :: children) ++ tag.writeEnd
  | node => node.writeLeaf

def writeNodes : List Node → List Char
  | [] => []
  | node :: rest => node.write ++ writeNodes rest

end

/-- **The element as markup.** -/
def Element.markup (e : Element) : String := String.ofList e.node.write

/-! ## Indented -/

/-- A line feed and the indentation of a depth, which grows no further from depth 30 on. -/
def newLine (depth : Nat) : List Char := '\n' :: List.replicate (2 * min depth 30) ' '

/-- The node is part of the text around it. -/
def Node.isInline : Node → Bool
  | .text _ | .entity _ => true
  | _ => false

mutual

/-- The node with a child a line, as long as no text is among the children. -/
def Node.writeIndented (depth : Nat) : Node → List Char
  | .element tag [] => tag.writeStart ++ "/>".toList
  | .element tag (child :: children) =>
      if (child :: children).any Node.isInline then
        tag.writeStart ++ '>' :: writeNodes (child :: children) ++ tag.writeEnd
      else
        tag.writeStart ++ '>' :: writeNodesIndented (depth + 1) (child :: children) ++
          newLine depth ++ tag.writeEnd
  | node => node.writeLeaf

/-- Nodes in a row, each on a line of its own. -/
def writeNodesIndented (depth : Nat) : List Node → List Char
  | [] => []
  | node :: rest => newLine depth ++ node.writeIndented depth ++ writeNodesIndented depth rest

end

end OscalValidation.Xml
