import OscalValidation.Json.Printer
import OscalValidation.Schema.Basic

set_option autoImplicit false

/-! # Conversion rules

Which member of an object becomes an attribute, which becomes the text of its element, what
the items of an array are called and which elements hold prose is said by a table. Each
document type has one, together with the schema that its documents must conform to before
they are converted. A table is kept as it was read: an entry of another kind than expected is
noticed where a conversion looks into it, if it is noticed at all.
-/

namespace OscalValidation

/-- **What an element is called:** a text, or another entry of a table, whose written form is the
name. -/
inductive Label
  | text (name : String)
  | value (entry : Json)

instance : Coe String Label := ⟨.text⟩

namespace Label

/-- The label that an entry of a table is. -/
def ofJson : Json → Label
  | .str name => .text name
  | entry => .value entry

/-- The label as an entry of a table. -/
def json : Label → Json
  | text name => .str name
  | value entry => entry

def written : Label → String
  | text name => name
  | value entry => entry.plain

/-- The entry that a table has under a label; only a text has one. -/
def lookup {α : Type} (entries : List (String × α)) : Label → Option α
  | text name => entries.lookup name
  | value _ => none

end Label

/-- **The table that drives a conversion.** -/
structure ConversionRules where
  /-- The name of the root member, which becomes the root element. -/
  root : Json
  /-- Members that become attributes wherever they occur. -/
  flags : List String
  /-- For elements of a name, further members that become attributes. -/
  elementFlags : List (String × List String)
  /-- For arrays of a name, the label of the elements that their items become; one that does not
  count as given is none. -/
  groups : Json
  /-- For elements of a name, the member that becomes their text. -/
  values : Json
  /-- Elements whose text is prose, divided into paragraphs. -/
  prose : List Json

namespace ConversionRules

/-- The member becomes an attribute of the element. -/
def isFlag (rules : ConversionRules) (element : Label) (name : String) : Bool :=
  rules.flags.contains name || ((element.lookup rules.elementFlags).getD []).contains name

/-- The entry of a table under a label. -/
def entryFor? (table : Json) (label : Label) : Option Json :=
  match table with
  | .obj entries => label.lookup entries
  | _ => none

/-- The member becomes the text of the element. -/
def isValue (rules : ConversionRules) (element : Label) (name : String) : Bool :=
  ((entryFor? rules.values element).bind Json.text?) == some name

/-- The text of the element is prose. -/
def isProse (rules : ConversionRules) (element : Label) : Bool :=
  rules.prose.any (·.same true element.json)

end ConversionRules

/-- **A converter:** the table and the schema of a document type. -/
structure Converter where
  rules : ConversionRules
  /-- The name of the schema's file. -/
  schemaName : String
  schema : SchemaDocument

end OscalValidation
