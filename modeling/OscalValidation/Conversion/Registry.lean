import OscalValidation.Conversion.Artifact
import OscalValidation.Conversion.Bundled

set_option autoImplicit false

/-! # The registry of converters

A registry has a converter for every document type, so that looking one up by type cannot
fail. Looking up by tag fails only for a tag that names no type.
-/

namespace OscalValidation

/-- **A registry:** a converter for each document type. -/
structure Registry where
  converter : DocumentType → Converter

namespace Registry

/-- The registry of the converters that come with the program. -/
def bundled : Registry := ⟨Converter.ofType⟩

def missingTypes (converters : List (DocumentType × Converter)) : List DocumentType :=
  DocumentType.all.filter fun type => (converters.lookup type).isNone

/-- The registry of a list of converters, if every type has one; else the types that have
none. -/
def ofList (converters : List (DocumentType × Converter)) : Except (List DocumentType) Registry :=
  match missingTypes converters with
  | [] => .ok ⟨fun type => (converters.lookup type).getD (Converter.ofType type)⟩
  | missing => .error missing

/-- The wording for types without a converter. -/
def missingMessage (missing : List DocumentType) : String :=
  "No converter registered for document types: " ++
    ", ".intercalate (missing.map DocumentType.tag)

/-- The registry of the converters in a directory. -/
def load (library : SchemaLibrary) (tree : FileTree) (directory : Path) :
    Except ArtifactFault Registry := do
  let ssp ← Converter.load library tree directory .ssp
  let sap ← Converter.load library tree directory .sap
  let sar ← Converter.load library tree directory .sar
  let poam ← Converter.load library tree directory .poam
  return ⟨fun
    | .ssp => ssp
    | .sap => sap
    | .sar => sar
    | .poam => poam⟩

/-- The converter that a tag names. -/
def converterFor (registry : Registry) (tag : Json) : Except UnknownTag Converter := do
  return registry.converter (← DocumentType.parse tag)

def contains (tag : Json) : Bool :=
  match DocumentType.parse tag with
  | .ok _ => true
  | .error _ => false

end Registry

end OscalValidation
