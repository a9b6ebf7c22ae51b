import OscalValidation.Document.Type
import OscalValidation.Text.Encoding
import OscalValidation.Xml.Tree

set_option autoImplicit false

/-! # Representations

A document comes in one of two representations. Which one it is shows at its first
significant character, and its type shows at its root: names of files say nothing about
either.
-/

namespace OscalValidation

/-- **The representations of a document.** -/
inductive Representation
  | xml
  | json
deriving DecidableEq

def Representation.name : Representation → String
  | .xml => "xml"
  | .json => "json"

namespace Representation

/-- How many characters, or bytes, of a content are looked at. -/
def headLength : Nat := 1024

/-- Characters that may stand before the first significant one. -/
def isPadding (c : Char) : Bool :=
  c == '\uFEFF' || c == ' ' || c == '\t' || c == '\r' || c == '\n'

/-- The representation that the head of a content shows. -/
def ofHead? (head : List Char) : Option Representation :=
  match head.dropWhile isPadding with
  | '<' :: _ => some xml
  | '{' :: _ | '[' :: _ => some json
  | _ => none

def ofText? (s : String) : Option Representation := ofHead? (s.toList.take headLength)

/-- The representation of bytes; what is no text among them is passed over. -/
def ofBytes? (bytes : Text.Bytes) : Option Representation :=
  ofHead? (Text.decodeLenient (bytes.take headLength)).toList

end Representation

namespace DocumentType

/-- The type of an object document: that of its first member that is the root of one. -/
def ofJson? : Json → Option DocumentType
  | .obj members => members.findSome? fun member => ofRootName? member.1
  | _ => none

/-- The type of a structural document by the name of its root; the namespace does not count. -/
def ofElement? (root : Xml.Element) : Option DocumentType := ofRootName? root.tag.name.localName

end DocumentType

end OscalValidation
