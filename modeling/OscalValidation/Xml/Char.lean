import OscalValidation.Text.Ranges

set_option autoImplicit false

/-! # Characters and names of markup

Not every character may stand in markup, and fewer may stand in a name. The classes here are
those of the fifth edition of the XML recommendation, without the colon, which separates a
prefix from a local name and belongs to neither.
-/

namespace OscalValidation.Xml

open Text (inRanges)

/-- The character may stand in a document. -/
def isChar (c : Char) : Bool :=
  c == '\t' || c == '\n' || c == '\r' ||
    (32 ≤ c.toNat && c.toNat != 0xFFFE && c.toNat != 0xFFFF)

/-- Blanks between the parts of markup. -/
def isSpace (c : Char) : Bool :=
  c == ' ' || c == '\t' || c == '\n' || c == '\r'

/-- The characters that a name may begin with, as ranges. -/
def nameStartRanges : List (Nat × Nat) :=
  [(65, 90), (95, 95), (97, 122), (0xC0, 0xD6), (0xD8, 0xF6), (0xF8, 0x2FF), (0x370, 0x37D),
   (0x37F, 0x1FFF), (0x200C, 0x200D), (0x2070, 0x218F), (0x2C00, 0x2FEF), (0x3001, 0xD7FF),
   (0xF900, 0xFDCF), (0xFDF0, 0xFFFD), (0x10000, 0xEFFFF)]

/-- The characters that a name may hold after its first, besides those it may begin with. -/
def nameInnerRanges : List (Nat × Nat) :=
  [(45, 46), (48, 57), (0xB7, 0xB7), (0x300, 0x36F), (0x203F, 0x2040)]

/-- A name may begin with the character. -/
def isNameStart (c : Char) : Bool := inRanges nameStartRanges c

/-- A name may hold the character after its first. -/
def isNameChar (c : Char) : Bool := isNameStart c || inRanges nameInnerRanges c

/-- The characters are a name without a colon. -/
def isLocalName : List Char → Bool
  | [] => false
  | c :: rest => isNameStart c && rest.all isNameChar

end OscalValidation.Xml
