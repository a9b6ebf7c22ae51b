import OscalValidation.Conversion.Convert
import OscalValidation.Conversion.Registry
import OscalValidation.Document.Representation
import OscalValidation.Json.Bytes
import OscalValidation.Rules.Engine
import OscalValidation.Validation.Result
import OscalValidation.Xml.Reader

set_option autoImplicit false

/-! # Preparing a document

Before rules can judge a document it is read, its type is found out, and it is brought into the
structural representation. Where that fails the document is malformed. Tags that name no type
or ruleset are faults of the caller and come first.
-/

namespace OscalValidation

/-- **A document as a caller hands it over.** -/
inductive DocumentInput
  | text (content : String)
  | bytes (content : Text.Bytes)
  /-- A value that was read already. -/
  | object (value : Json)
  | tree (document : Xml.Document)

/-- What was read. -/
inductive ParsedDocument
  | object (value : Json)
  | tree (document : Xml.Document)

/-- **Why a document is malformed.** -/
inductive DocumentFault
  /-- The text is no structural document. -/
  | notStructural
  | notObject (reason : String)
  | unrecognized
  /-- The document is of another type than the one declared. -/
  | otherType (declared shown : DocumentType)
  | untyped
  /-- The root of the structural document is another one. -/
  | otherRoot (type : DocumentType) (root : String)
  | unconvertible (fault : ConversionFault)

/-- The diagnostics of a malformed document. A fault without any tells its heading. -/
def DocumentFault.diagnostics : DocumentFault → List String
  | notStructural => [Xml.syntaxFault]
  | notObject reason => [reason]
  | unrecognized => ["content is neither XML nor JSON"]
  | otherType declared shown =>
      [s!"declared type '{declared.tag}' but document root is '{shown.rootName}'"]
  | untyped => ["document root is not an SSP, SAP, SAR or POA&M"]
  | otherRoot type root =>
      ["expected root \x7b" ++ oscalNamespace ++ "\x7d" ++ type.rootName ++ ", got " ++ root]
  | unconvertible fault =>
      if fault.diagnostics.isEmpty then [fault.heading] else fault.diagnostics

/-- **Why a validation ends without a result.** -/
inductive ValidationFault
  /-- A tag names no type or no ruleset. -/
  | tag (fault : UnknownTag)
  /-- A value goes beyond what can be read: an integer has too many digits, or the nesting is too
  deep. -/
  | excess (error : Json.ReadError)
  /-- A conversion ends with a fault that is none of the document's. -/
  | conversion (fault : ConversionFault)
  /-- The location of an outcome holds characters that markup cannot hold. -/
  | location (fault : Xml.MarkupFault)
  /-- The rules could not judge the document. -/
  | engine (fault : EngineFault)
  /-- The load of the rules was given up. -/
  | cancelled
  | file (fault : FileFault)

/-- What stands in the way of judging a document. -/
inductive Obstacle
  | malformed (fault : DocumentFault)
  /-- The validation ends without a result. -/
  | stop (fault : ValidationFault)

/-! ## Reading -/

/-- The value that an attempt at reading one gave. -/
def parsedObject : Except Json.BytesError Json → Except Obstacle ParsedDocument
  | .ok value => .ok (.object value)
  | .error (.read e) =>
      .error (if e.isExcess then .stop (.excess e) else .malformed (.notObject e.message))
  | .error (.decode e) => .error (.malformed (.notObject e.message))

/-- The structural document that bytes hold. -/
def parsedTree (bytes : Text.Bytes) : Except Obstacle ParsedDocument :=
  match Xml.readBytes? bytes with
  | some document => .ok (.tree document)
  | none => .error (.malformed .notStructural)

/-- The text without byte order marks at its start. -/
def withoutMarks (s : String) : String := String.ofList (s.toList.dropWhile (· == '\uFEFF'))

/-- A text, in a given representation or the one it shows. -/
def parseText (s : String) (representation : Option Representation) :
    Except Obstacle ParsedDocument :=
  match representation <|> Representation.ofText? s with
  | some .xml => parsedTree (Text.encode s)
  | some .json => parsedObject ((Json.read (withoutMarks s)).mapError .read)
  | none => .error (.malformed .unrecognized)

/-- Bytes, in a given representation or the one they show. -/
def parseBytes (bytes : Text.Bytes) (representation : Option Representation) :
    Except Obstacle ParsedDocument :=
  match representation <|> Representation.ofBytes? bytes with
  | some .xml => parsedTree bytes
  | some .json => parsedObject (Json.readBytes bytes)
  | none => .error (.malformed .unrecognized)

/-- **What a document holds.** A value that is a text is read as one. -/
def DocumentInput.parse (input : DocumentInput) (representation : Option Representation) :
    Except Obstacle ParsedDocument :=
  match input with
  | .text s | .object (.str s) => parseText s representation
  | .bytes content => parseBytes content representation
  | .object value => .ok (.object value)
  | .tree document => .ok (.tree document)

/-! ## Types -/

/-- The type that a document shows at its root. -/
def ParsedDocument.shownType? : ParsedDocument → Option DocumentType
  | object value => DocumentType.ofJson? value
  | tree document => DocumentType.ofElement? document.root

/-- **The type of a document:** the declared one, which what the document shows must not
contradict, or the one it shows. -/
def ParsedDocument.resolveType (document : ParsedDocument) (declared : Option DocumentType) :
    Except DocumentFault DocumentType :=
  match declared, document.shownType? with
  | some declared, some shown =>
      if declared = shown then .ok declared else .error (.otherType declared shown)
  | some type, none | none, some type => .ok type
  | none, none => .error .untyped

/-! ## Structure -/

/-- **The structural document of a type** that a document is or converts to. -/
def ParsedDocument.toStructural (document : ParsedDocument) (registry : Registry)
    (type : DocumentType) : Except Obstacle Xml.Document :=
  match document with
  | tree document =>
      if document.root.denotes oscalNamespace type.rootName then .ok document
      else .error (.malformed (.otherRoot type document.root.tag.name.expanded))
  | object value =>
      match (registry.converter type).convert type value with
      | .ok document => .ok document
      | .error fault =>
          if fault.isReported then .error (.malformed (.unconvertible fault))
          else .error (.stop (.conversion fault))

/-! ## Preparation -/

/-- A document ready to be judged, or the result for one that cannot be. -/
inductive Preparation
  | malformed (result : ValidationResult)
  /-- The document can be judged by the rules of a key. -/
  | ready (key : RuleKey) (document : Xml.Document)

/-- A document of a declared type. The result for a malformed one tells the type as far as it
was known where the fault came up. -/
def prepareDocument (registry : Registry) (input : DocumentInput)
    (declared : Option DocumentType) (ruleset : Ruleset)
    (representation : Option Representation) : Except ValidationFault Preparation :=
  let malformed (type : Option DocumentType) (fault : DocumentFault) : Preparation :=
    .malformed (.ofDiagnostics type ruleset fault.diagnostics)
  match input.parse representation with
  | .error (.stop fault) => .error fault
  | .error (.malformed fault) => .ok (malformed declared fault)
  | .ok parsed =>
      match parsed.resolveType declared with
      | .error fault => .ok (malformed declared fault)
      | .ok type =>
          match parsed.toStructural registry type with
          | .error (.stop fault) => .error fault
          | .error (.malformed fault) => .ok (malformed (some type) fault)
          | .ok document => .ok (.ready ⟨type, ruleset⟩ document)

/-- A tag that may be missing. -/
def parseTag? {α : Type} (parse : Json → Except UnknownTag α) :
    Json → Except UnknownTag (Option α)
  | .null => .ok none
  | tag => (parse tag).map some

/-- What a caller asks for besides the document. -/
structure ValidationRequest where
  /-- The tag of the type, nothing if none is declared. -/
  type : Json := .null
  /-- The tag of the ruleset, nothing for the usual one. -/
  ruleset : Json := .null
  /-- The representation, if it is given. -/
  representation : Option Representation := none

/-- **Preparing a document** as a caller asks for it. The tag of the ruleset is looked at
first. -/
def prepare (registry : Registry) (usual : Ruleset) (input : DocumentInput)
    (request : ValidationRequest) : Except ValidationFault Preparation := do
  let ruleset ← (parseTag? Ruleset.parse request.ruleset).mapError .tag
  let declared ← (parseTag? DocumentType.parse request.type).mapError .tag
  prepareDocument registry input declared (ruleset.getD usual) request.representation

end OscalValidation
