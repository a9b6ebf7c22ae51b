import OscalValidation.Document.Type
import OscalValidation.Schema.Check
import OscalValidation.Xml.Writable

set_option autoImplicit false

/-! # Why a document cannot be converted

Each fault has a heading and the diagnostics that say where the document is at fault.
-/

namespace OscalValidation

open Xml (MarkupFault)

/-- A heading with diagnostics after it. -/
def withDiagnostics (heading : String) (diagnostics : List String) : String :=
  if diagnostics.isEmpty then heading else heading ++ ": " ++ "; ".intercalate diagnostics

/-- **Why a document cannot be converted.** -/
inductive ConversionFault
  /-- It has no root member of the right name. -/
  | notOfType (type : DocumentType) (root : String)
  | nonconforming (schemaName : String) (violations : List Violation)
  /-- A value that must be a text is none: nothing, an array or an object. -/
  | notText (value : Json) (place : Place)
  /-- An array stands where its items could not be named. -/
  | unnamedItems (place : Place)
  /-- A member that must become an element has a name that no element can have. -/
  | elementName (name : String) (fault : MarkupFault) (place : Place)
  /-- An attribute or a text cannot be written. -/
  | unwritable (fault : MarkupFault) (place : Place)
  /-- The root member has a name that no element can have; the fault is that of the table. -/
  | rootName (fault : MarkupFault)
  /-- The table names an array or an object where it must name the root member. -/
  | unhashable (root : Json)
  /-- An entry of the table in which names are looked up is no object. -/
  | noTable (entry : Json)
  /-- An integer has too many digits to be written. -/
  | integerTooLong
  /-- The schema asks for something that raises an exception of this name. -/
  | raised (name : String)

namespace ConversionFault

/-- The name of a value's kind, for values that are no text. -/
def kindOf : Json → String
  | .null => "NoneType"
  | .arr _ => "list"
  | .obj _ => "dict"
  | .bool _ => "bool"
  | .int _ => "int"
  | .real _ => "float"
  | .str _ => "str"

def heading : ConversionFault → String
  | notOfType type _ => s!"Not a {type.title} document"
  | nonconforming schemaName _ => s!"Document does not conform to {schemaName}"
  | notText _ _ => "Value cannot be represented as text"
  | unnamedItems _ => "Unexpected array"
  | elementName name _ _ => s!"Property '{name}' cannot be an XML element name"
  | unwritable _ _ => "Value cannot be represented in XML"
  | rootName fault => fault.message
  | unhashable root => s!"unhashable type: '{kindOf root}'"
  | noTable entry => s!"'{kindOf entry}' object has no attribute 'get'"
  | integerTooLong =>
      s!"Exceeds the limit ({Json.maxIntegerDigits} digits) for integer string conversion; " ++
        "use sys.set_int_max_str_digits() to increase the limit"
  | raised name => name

def diagnostics : ConversionFault → List String
  | notOfType _ root => [s!"missing root property '{root}'"]
  | nonconforming _ violations => violations.map Violation.message
  | notText value place =>
      [s!"expected a string, number or boolean at {place.text}, got {kindOf value}"]
  | unnamedItems place => [s!"array at {place.text} has no element name to group under"]
  | elementName _ fault place => [s!"{fault.message} at {place.text}"]
  | unwritable fault place => [s!"{fault.message} at {place.text}"]
  | rootName _ | unhashable _ | noTable _ | integerTooLong | raised _ => []

def message (fault : ConversionFault) : String :=
  withDiagnostics fault.heading fault.diagnostics

/-- The fault is told as one of the document; the others are let through. -/
def isReported : ConversionFault → Bool
  | rootName _ | unhashable _ | noTable _ | integerTooLong | raised _ => false
  | _ => true

end ConversionFault

end OscalValidation
