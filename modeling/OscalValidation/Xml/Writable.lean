import OscalValidation.Text.Quoted
import OscalValidation.Xml.Char
import OscalValidation.Xml.Tree

set_option autoImplicit false

/-! # What markup can hold

Texts and names come into a structural document only if markup can hold them. Whether all
characters of a text may stand in markup is asked first, for names too. The name of an attribute
may be given with its namespace in braces ahead of it.
-/

namespace OscalValidation.Xml

/-- Why a text cannot be used in a structural document. -/
inductive MarkupFault
  /-- It holds characters that no document may hold. -/
  | characters
  /-- It is empty where a name is needed. -/
  | emptyName
  | elementName (name : String)
  | attributeName (name : String)
  /-- It opens with a brace that is not closed. -/
  | openBrace
deriving DecidableEq

/-- The wording of a fault in a text. -/
def MarkupFault.message : MarkupFault → String
  | .characters =>
      "All strings must be XML compatible: Unicode or ASCII, no NULL bytes or control characters"
  | .emptyName => "Empty tag name"
  | .elementName name => s!"Invalid tag name {Text.quoted name}"
  | .attributeName name => s!"Invalid attribute name {Text.quoted name}"
  | .openBrace => "Invalid tag name"

/-- A text that markup can hold. -/
def checkText (s : String) : Except MarkupFault Unit :=
  if s.toList.all isChar then .ok () else .error .characters

/-- A text that can be the name of an element. -/
def checkElementName (name : String) : Except MarkupFault Unit := do
  checkText name
  if name.isEmpty then throw .emptyName
  else if isLocalName name.toList then return ()
  else throw (.elementName name)

/-- The namespace in braces ahead of a name, empty if there is none, and the name. -/
def splitBraces : List Char → Except MarkupFault (List Char × List Char)
  | [] => .error .emptyName
  | c :: rest =>
      if c = '\x7b' then
        match rest.dropWhile (· != '\x7d') with
        | [] => .error .openBrace
        | [_] => .error .emptyName
        | _ :: name => .ok (rest.takeWhile (· != '\x7d'), name)
      else .ok ([], c :: rest)

/-- **The name of an attribute that a text gives.** Empty braces stand for no namespace, and the
prefix of any other is left open. -/
def attributeName (text : String) : Except MarkupFault Name := do
  checkText text
  let (uri, name) ← splitBraces text.toList
  if isLocalName name then
    return ⟨none, if uri.isEmpty then none else some (.ofList uri), .ofList name⟩
  else throw (.attributeName (.ofList name))

end OscalValidation.Xml
