import OscalValidation.Text.WordCharacter
import OscalValidation.XPath.Eval
import OscalValidation.Xml.Writable

set_option autoImplicit false

/-! # Lines of locations

An outcome names the node it is about by a path, which may give the namespace of a step in
braces. Where the path leads to a node, the node has a line in the text that the document was
read from. A path that leads nowhere, or is none, has no line; that is no fault of the
outcome.
-/

namespace OscalValidation

open XPath (Focus Expr Value)

namespace Location

/-! ## Steps with a namespace in braces -/

/-- A character of the name in such a step. -/
def isStepNameChar (c : Char) : Bool := Text.isWordCharacter c || c == '.' || c == '-'

/-- The namespace and the name of a step that the characters begin with, and what follows. -/
def bracedStep? : List Char → Option (List Char × List Char × List Char)
  | 'Q' :: '\x7b' :: cs =>
      match cs.dropWhile (· != '\x7d') with
      | _ :: after =>
          let name := after.takeWhile isStepNameChar
          if name.isEmpty then none
          else some (cs.takeWhile (· != '\x7d'), name, after.dropWhile isStepNameChar)
      | [] => none
  | _ => none

/-- Characters with steps of that form written as conditions; the bound is their number. -/
def expandWithin : Nat → List Char → List Char
  | 0, cs => cs
  | _ + 1, [] => []
  | bound + 1, c :: rest =>
      match bracedStep? (c :: rest) with
      | some (uri, name, after) =>
          "*[namespace-uri()='".toList ++ uri ++ "' and local-name()='".toList ++ name ++
            "']".toList ++ expandWithin bound after
      | none => c :: expandWithin bound rest

/-- The path with every step of that form written as a condition on names. -/
def expand (location : String) : String :=
  String.ofList (expandWithin location.toList.length location.toList)

/-! ## Lines -/

/-- The line of an element, a comment or an instruction, if the node is one. -/
def ownLine? : Focus → Option (Option Nat)
  | .childAt _ _ (.element tag _) => some tag.line
  | .childAt _ _ (.comment _ line) => some line
  | .childAt _ _ (.instruction _ _ line) => some line
  | _ => none

/-- The line of a node. An attribute has that of its element; a text that follows something
has the line of what it follows, else that of the element around it. -/
def lineOf (node : Focus) : Option Nat :=
  match ownLine? node with
  | some line => line
  | none =>
      match (node.precedingSiblings ++ node.parent?.toList).findSome? ownLine? with
      | some line => line
      | none => none

/-- A node other than the document. -/
def isInner : Focus → Bool
  | .document _ => false
  | _ => true

/-- The nodes that a path selects, seen from the root element. -/
def select (document : Xml.Document) (path : String) : List Focus :=
  match Expr.read? path with
  | none => []
  | some e =>
      match e.eval? {} ⟨.childAt (.document document) document.before.length document.root.node,
        1, 1⟩ with
      | some (.nodes items) => items.filter isInner
      | _ => []

/-- **The line of a location:** that of the first node its path selects. A path must consist
of characters that markup can hold. -/
def line (document : Xml.Document) (location : Option String) :
    Except Xml.MarkupFault (Option Nat) :=
  match location with
  | none | some "" => .ok none
  | some path => do
      let path := expand path
      Xml.checkText path
      return (select document path).head?.bind lineOf

end Location

end OscalValidation
