import OscalValidation.Xml.Tree

set_option autoImplicit false

/-! # Text in mixed content

What an element says is spread over its content: text between its elements, before and after
comments and instructions, and the text inside its elements. `CollectsText` says which characters
nodes in a row hold without computing them.
-/

namespace OscalValidation.Xml

/-- **The text that nodes in a row hold,** in document order. What stands after an element comes
after all that is in it, and nothing is lost where a comment or an instruction interrupts the
text. A reference that is not replaced stays as it is written. -/
inductive CollectsText : List Node → List Char → Prop
  | nil : CollectsText [] []
  | text {content : String} {rest : List Node} {after : List Char}
      (later : CollectsText rest after) :
      CollectsText (.text content :: rest) (content.toList ++ after)
  | element {tag : Tag} {children rest : List Node} {inside after : List Char}
      (inner : CollectsText children inside) (later : CollectsText rest after) :
      CollectsText (.element tag children :: rest) (inside ++ after)
  | comment {content : String} {line : Option Nat} {rest : List Node} {after : List Char}
      (later : CollectsText rest after) : CollectsText (.comment content line :: rest) after
  | instruction {target content : String} {line : Option Nat} {rest : List Node}
      {after : List Char} (later : CollectsText rest after) :
      CollectsText (.instruction target content line :: rest) after
  | entity {name : String} {rest : List Node} {after : List Char}
      (later : CollectsText rest after) :
      CollectsText (.entity name :: rest) ('&' :: name.toList ++ ';' :: after)

/-- The text that is computed is the one that the nodes hold. -/
theorem collectsText_textOfNodes : (nodes : List Node) → CollectsText nodes (textOfNodes nodes)
  | [] => .nil
  | .text content :: rest => .text (collectsText_textOfNodes rest)
  | .element _ children :: rest =>
      .element (collectsText_textOfNodes children) (collectsText_textOfNodes rest)
  | .comment _ _ :: rest => .comment (collectsText_textOfNodes rest)
  | .instruction _ _ _ :: rest => .instruction (collectsText_textOfNodes rest)
  | .entity name :: rest => by
      have heq : textOfNodes (.entity name :: rest) =
          '&' :: name.toList ++ ';' :: textOfNodes rest := by
        simp [textOfNodes, Node.textContent]
      rw [heq]
      exact .entity (collectsText_textOfNodes rest)

end OscalValidation.Xml
