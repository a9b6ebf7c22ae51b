import OscalValidation.Conversion.Fault
import OscalValidation.Conversion.Rules
import OscalValidation.Text.Paragraph
import OscalValidation.Text.Singular
import OscalValidation.Xml.Tree

set_option autoImplicit false

/-! # Conversion

An object document is converted member by member. A member becomes an attribute, the text of
its element, one child element, or, if it is an array, a child element for each item; the
table of the converter says which. The parts of an element keep the order of the members they
come from, except that an attribute that is set once more stays where it is and changes its value.
The conversion ends at the first place that cannot be represented.
-/

namespace OscalValidation

open Xml (Node Tag Name Attribute MarkupFault checkText checkElementName)

/-! ## Scalars -/

/-- The text of a scalar; nothing, an array or an object has none, and neither has an integer
with too many digits. -/
def Json.scalarText? : Json → Option String
  | .bool value => some (if value then "true" else "false")
  | .int value => if Json.isLong value then none else some (toString value)
  | .real value => some (Binary64.plainLayout.text value)
  | .str value => some value
  | _ => none

namespace Conversion

/-- The text of a value, which must be a scalar. -/
def textAt (place : Place) (value : Json) : Except ConversionFault String :=
  match value.scalarText?, value with
  | some text, _ => .ok text
  | none, .int _ => .error .integerTooLong
  | none, value => .error (.notText value place)

/-! ## Names -/

/-- The name of an element of a document. -/
def elementName (label : Label) : Name := ⟨none, some oscalNamespace, label.written⟩

/-! ## Parts of an element -/

/-- **What a member contributes to its element.** -/
inductive Part
  | flag (value : Attribute)
  | text (content : String)
  | children (nodes : List Node)

/-- The attributes among the parts, each time one is set. -/
def flagsOf (parts : List Part) : List Attribute :=
  parts.filterMap fun
    | .flag a => some a
    | _ => none

/-- The attributes after one is set: in the place of the one of its name, else at the end. -/
def setAttribute (a : Attribute) : List Attribute → List Attribute
  | [] => [a]
  | old :: rest => if old.name = a.name then a :: rest else old :: setAttribute a rest

/-- The attributes that are left after all were set. -/
def attributesOf (parts : List Part) : List Attribute :=
  (flagsOf parts).foldl (fun done a => setAttribute a done) []

/-- The text among the parts: that of the last part that is one, ahead of all children. -/
def textOf (parts : List Part) : List Node :=
  ((parts.filterMap fun
    | .text content => some (Node.text content)
    | _ => none).getLast?).toList

/-- The child elements among the parts. -/
def childrenOf (parts : List Part) : List Node :=
  parts.flatMap fun
    | .children nodes => nodes
    | _ => []

/-- The element made of its parts. -/
def assemble (label : Label) (declarations : List Xml.Declaration) (parts : List Part) :
    Xml.Element :=
  ⟨⟨elementName label, declarations, attributesOf parts, none⟩, textOf parts ++ childrenOf parts⟩

def textPart (place : Place) (content : String) : Except ConversionFault Part :=
  match checkText content with
  | .ok _ => .ok (.text content)
  | .error fault => .error (.unwritable fault place)

def attributePart (place : Place) (name value : String) : Except ConversionFault Part :=
  match Xml.attributeName name, checkText value with
  | .error fault, _ | .ok _, .error fault => .error (.unwritable fault place)
  | .ok name, .ok _ => .ok (.flag ⟨name, value, false⟩)

/-- What becomes an element must have a name for it. -/
def nameAt (place : Place) (label : Label) : Except ConversionFault Unit :=
  match checkElementName label.written with
  | .ok _ => .ok ()
  | .error fault => .error (.elementName label.written fault place)

/-- An element that holds one paragraph. -/
def paragraphAt (place : Place) (content : String) : Except ConversionFault Node := do
  let part ← textPart place content
  return (assemble "p" [] [part]).node

/-- The parts that a scalar makes of an element: its paragraphs if the element holds prose,
else its text. -/
def scalarParts (rules : ConversionRules) (label : Label) (place : Place) (value : Json) :
    Except ConversionFault (List Part) := do
  let text ← textAt place value
  if rules.isProse label then
    let nodes ← (Text.paragraphs text).mapM (paragraphAt place)
    return [.children nodes]
  else
    let part ← textPart place text
    return [part]

/-- An entry of the table in which names are looked up. -/
def tableAt (entry : Json) : Except ConversionFault Unit :=
  match entry with
  | .obj _ => .ok ()
  | entry => .error (.noTable entry)

/-- The label of the elements that the items of an array become. -/
def itemLabel (rules : ConversionRules) (name : String) : Label :=
  match (rules.groups.member? name).filter Json.isGiven with
  | some group => .ofJson group
  | none => Text.singular name

/-! ## Values -/

mutual

/-- The parts that a value makes of the element that `label` calls for. -/
def partsOf (rules : ConversionRules) (label : Label) (place : Place) :
    Json → Except ConversionFault (List Part)
  | .obj members => do
      tableAt rules.values
      memberParts rules label place members
  | .arr _ => .error (.unnamedItems place)
  | scalar => scalarParts rules label place scalar

/-- The parts that members make of the element, in their order. -/
def memberParts (rules : ConversionRules) (label : Label) (place : Place) :
    List (String × Json) → Except ConversionFault (List Part)
  | [] => .ok []
  | (key, value) :: rest => do
      let place' := place.below (.member key)
      let part ←
        if rules.isValue label key then
          textPart place' (← textAt place' value)
        else if rules.isFlag label key then
          attributePart place' key (← textAt place' value)
        else match value with
          | .arr items => do
              tableAt rules.groups
              let nodes ← itemNodes rules (itemLabel rules key) place' 0 items
              pure (Part.children nodes)
          | value => do
              nameAt place' key
              let parts ← partsOf rules key place' value
              pure (Part.children [(assemble key [] parts).node])
      let parts ← memberParts rules label place rest
      return part :: parts

/-- The elements that items become; the first of them has the given position. -/
def itemNodes (rules : ConversionRules) (label : Label) (place : Place) (position : Nat) :
    List Json → Except ConversionFault (List Node)
  | [] => .ok []
  | item :: rest => do
      let place' := place.below (.item position)
      nameAt place' label
      let parts ← partsOf rules label place' item
      let nodes ← itemNodes rules label place (position + 1) rest
      return (assemble label [] parts).node :: nodes

end

end Conversion

/-! ## Documents -/

/-- The namespace that a converted document declares. -/
def Converter.declarations : List Xml.Declaration := [⟨none, oscalNamespace⟩]

namespace Converter

/-- The value of the root member, with its name. In an object a name that is an array or an object
cannot be looked for. -/
def rootMember (converter : Converter) (type : DocumentType) (document : Json) :
    Except ConversionFault (String × Json) :=
  match converter.rules.root, document with
  | .str name, document =>
      match document.member? name with
      | some body => .ok (name, body)
      | none => .error (.notOfType type name)
  | root@(.arr _), .obj _ | root@(.obj _), .obj _ => .error (.unhashable root)
  | root, _ => .error (.notOfType type root.plain)

/-- The document conforms to the schema. -/
def conform (converter : Converter) (document : Json) : Except ConversionFault Unit :=
  match converter.schema.findings document with
  | .error name => .error (.raised name)
  | .ok [] => .ok ()
  | .ok violations =>
      if violations.any (·.offence.holdsLong) then .error .integerTooLong
      else .error (.nonconforming converter.schemaName violations)

/-- The root element must have a name. -/
def nameRoot (name : String) : Except ConversionFault Unit :=
  match checkElementName name with
  | .ok _ => .ok ()
  | .error fault => .error (.rootName fault)

/-- **The structural document of an object document** of a type. It must have the root member
and conform to the schema. -/
def convert (converter : Converter) (type : DocumentType) (document : Json) :
    Except ConversionFault Xml.Document := do
  let (name, body) ← converter.rootMember type document
  converter.conform document
  nameRoot name
  let parts ← Conversion.partsOf converter.rules name (Place.root.below (.member name)) body
  return ⟨[], Conversion.assemble name declarations parts, []⟩

end Converter

end OscalValidation
