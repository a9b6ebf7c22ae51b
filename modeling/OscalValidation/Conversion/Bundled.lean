import OscalValidation.Conversion.Rules
import OscalValidation.Document.Type

set_option autoImplicit false

/-! # The converters of the document types

The tables that all types share, and for each type what it adds to them. The schemas ask for
the members without which a document could not be represented at all.
-/

namespace OscalValidation

namespace ConversionRules

/-! ## Shared tables -/

/-- Members that become attributes in documents of every type. -/
def sharedFlags : List String :=
  ["uuid", "ns", "class", "type", "href", "rel", "media-type", "control-id", "statement-id",
   "role-id", "component-uuid", "param-id", "scheme", "identifier-type", "algorithm",
   "subject-uuid", "task-uuid", "activity-uuid", "observation-uuid", "risk-uuid", "finding-uuid",
   "actor-uuid", "objective-id", "target-id", "system", "state", "filename"]

/-- Further members that become attributes of one element, in documents of every type. -/
def sharedElementFlags : List (String × List String) :=
  [("prop", ["name", "value", "group"]), ("link", ["resource-fragment"]),
   ("part", ["id", "name"]), ("role", ["id"]), ("param", ["id"]), ("control", ["id"]),
   ("group", ["id"]), ("facet", ["name", "value"]), ("logged-by", ["party-uuid"]),
   ("status", ["reason"]), ("on-date", ["date"]), ("within-date-range", ["start", "end"]),
   ("at-frequency", ["period", "unit"])]

/-- The names of items in documents of every type. -/
def sharedGroups : List (String × String) :=
  [("props", "prop"), ("links", "link"), ("rlinks", "rlink"), ("hashes", "hash"),
   ("roles", "role"), ("parties", "party"), ("external-ids", "external-id"),
   ("locations", "location"), ("revisions", "revision"), ("resources", "resource"),
   ("document-ids", "document-id"), ("responsible-parties", "responsible-party"),
   ("responsible-roles", "responsible-role"), ("party-uuids", "party-uuid"),
   ("location-uuids", "location-uuid"), ("member-of-organizations", "member-of-organization"),
   ("addr-lines", "addr-line"), ("email-addresses", "email-address"),
   ("telephone-numbers", "telephone-number"), ("set-parameters", "set-parameter"),
   ("values", "value"), ("control-selections", "control-selection"),
   ("include-controls", "include-control"), ("exclude-controls", "exclude-control"),
   ("statement-ids", "statement-id"), ("subjects", "subject"),
   ("relevant-evidence", "relevant-evidence"), ("related-observations", "related-observation"),
   ("associated-risks", "associated-risk"), ("origins", "origin"), ("actors", "actor"),
   ("methods", "method"), ("types", "type"), ("parts", "part"), ("facets", "facet")]

/-- The members that become text in documents of every type. -/
def sharedValues : List (String × String) :=
  [("document-id", "identifier"), ("external-id", "id"), ("hash", "value"),
   ("telephone-number", "number"), ("base64", "value")]

/-- The elements that hold prose in documents of every type. -/
def sharedProse : List String :=
  ["description", "remarks", "purpose", "statement", "guidance", "prose"]

/-- The shared tables with what one type adds. -/
def extend (type : DocumentType) (elementFlags : List (String × List String))
    (groups values : List (String × String)) : ConversionRules where
  root := .str type.rootName
  flags := sharedFlags
  elementFlags := sharedElementFlags ++ elementFlags
  groups := .ofNames (sharedGroups ++ groups)
  values := .ofNames (sharedValues ++ values)
  prose := sharedProse.map .str

/-! ## The tables of the types -/

/-- The table of system security plans. -/
def ssp : ConversionRules := extend .ssp
  [("inherited", ["provided-uuid"]), ("responsibility", ["provided-uuid"]),
   ("satisfied", ["responsibility-uuid"])]
  [("system-ids", "system-id"), ("information-types", "information-type"),
   ("categorizations", "categorization"), ("information-type-ids", "information-type-id"),
   ("users", "user"), ("authorized-privileges", "authorized-privilege"),
   ("functions-performed", "function-performed"), ("role-ids", "role-id"),
   ("components", "component"), ("inventory-items", "inventory-item"),
   ("implemented-components", "implemented-component"),
   ("leveraged-authorizations", "leveraged-authorization"),
   ("implemented-requirements", "implemented-requirement"), ("by-components", "by-component"),
   ("statements", "statement"), ("diagrams", "diagram"), ("interconnections", "interconnection"),
   ("provided", "provided"), ("responsibilities", "responsibility")]
  [("system-id", "id")]

/-- The table of security assessment plans. -/
def sap : ConversionRules := extend .sap
  []
  [("assessment-subjects", "assessment-subject"), ("include-subjects", "include-subject"),
   ("exclude-subjects", "exclude-subject"), ("include-objectives", "include-objective"),
   ("control-objective-selections", "control-objective-selection"), ("tasks", "task"),
   ("activities", "activity"), ("steps", "step"), ("assessment-platforms", "assessment-platform"),
   ("uses-components", "uses-component"), ("components", "component"),
   ("inventory-items", "inventory-item"), ("users", "user"),
   ("associated-activities", "associated-activity")]
  []

/-- The table of security assessment reports. -/
def sar : ConversionRules := extend .sar
  [("response", ["lifecycle"]), ("mitigating-factor", ["implementation-uuid"]),
   ("related-response", ["response-uuid"])]
  [("results", "result"), ("observations", "observation"), ("risks", "risk"),
   ("findings", "finding"), ("attestations", "attestation"), ("assessment-log", "assessment-log"),
   ("entries", "entry"), ("threat-ids", "threat-id"), ("characterizations", "characterization"),
   ("mitigating-factors", "mitigating-factor"), ("remediations", "response"),
   ("related-responses", "related-response"), ("related-risks", "related-risk"),
   ("components", "component"), ("inventory-items", "inventory-item"), ("users", "user"),
   ("activities", "activity"), ("steps", "step")]
  [("threat-id", "id")]

/-- The table of plans of action and milestones. -/
def poam : ConversionRules := extend .poam
  [("response", ["lifecycle"]), ("mitigating-factor", ["implementation-uuid"]),
   ("related-response", ["response-uuid"])]
  [("poam-items", "poam-item"), ("observations", "observation"), ("risks", "risk"),
   ("findings", "finding"), ("related-findings", "related-finding"),
   ("related-risks", "related-risk"), ("threat-ids", "threat-id"),
   ("characterizations", "characterization"), ("mitigating-factors", "mitigating-factor"),
   ("remediations", "response"), ("related-responses", "related-response"), ("tasks", "task"),
   ("components", "component"), ("inventory-items", "inventory-item")]
  [("system-id", "id"), ("threat-id", "id")]

/-- The table of a document type. -/
def ofType : DocumentType → ConversionRules
  | .ssp => ssp
  | .sap => sap
  | .sar => sar
  | .poam => poam

end ConversionRules

/-! ## Schemas -/

namespace Schema

open Text (Pattern CharSet)

def ofType (type : ValueType) : Schema := .all [.type [type]]

def text : Schema := ofType .string

/-- An object with members that must be there, and schemas for members that may. -/
def object (required : List String) (properties : List (String × Schema)) : Schema :=
  .all [.type [.object], .required required, .properties properties]

/-- An object with members that must be there. -/
def objectWith (required : List String) : Schema := .all [.type [.object], .required required]

def arrayOf (item : Schema) : Schema := .all [.type [.array], .items item]

/-- An array of items, of which there is at least one. -/
def someOf (item : Schema) : Schema := .all [.type [.array], .minItems 1, .items item]

/-- An array with at least one item. -/
def nonEmptyArray : Schema := .all [.type [.array], .minItems 1]

/-- The written form of the pattern of identifiers. -/
def uuidSource : String :=
  "^[0-9A-Fa-f]\x7b8\x7d-[0-9A-Fa-f]\x7b4\x7d-[45][0-9A-Fa-f]\x7b3\x7d-" ++
    "[89ABab][0-9A-Fa-f]\x7b3\x7d-[0-9A-Fa-f]\x7b12\x7d$"

/-- The pattern of identifiers: five groups of hexadecimal digits, with the digits that tell
their version and variant. -/
def uuidPattern : Pattern := (Pattern.read? uuidSource).getD .never

def uuid : Schema := .all [.type [.string], .pattern uuidSource uuidPattern]

/-- A property with its name and value. -/
def property : Schema :=
  object ["name", "value"] [("name", text), ("value", text), ("ns", text), ("class", text)]

/-- What is said about the document itself. -/
def metadata : Schema :=
  object ["title", "last-modified", "version", "oscal-version"]
    [("title", text), ("published", text), ("last-modified", text), ("version", text),
     ("oscal-version", text), ("props", arrayOf (.reference "#/definitions/property")),
     ("roles", arrayOf (objectWith ["id", "title"])),
     ("parties", arrayOf (object ["uuid", "type"]
       [("uuid", .reference "#/definitions/uuid"),
        ("type", .all [.enum [.str "person", .str "organization"]])]))]

/-- A reference to a document outside. -/
def importLink : Schema := object ["href"] [("href", text)]

/-- What references in the schemas lead to, besides the schema as a whole. -/
def sharedTargets : List (String × Schema) :=
  [("#/definitions/uuid", uuid), ("#/definitions/property", property),
   ("#/definitions/metadata", metadata), ("#/definitions/import", importLink)]

def uuidRef : Schema := .reference "#/definitions/uuid"

def metadataRef : Schema := .reference "#/definitions/metadata"

/-- A reference to a document outside, by reference. -/
def importRef : Schema := .reference "#/definitions/import"

/-- What is below the root of a system security plan. -/
def sspBody : Schema :=
  object
    ["uuid", "metadata", "import-profile", "system-characteristics", "system-implementation",
     "control-implementation"]
    [("uuid", uuidRef), ("metadata", metadataRef), ("import-profile", importRef),
     ("system-characteristics", object
       ["system-ids", "system-name", "description", "system-information", "status",
        "authorization-boundary"]
       [("system-ids", someOf (objectWith ["id"])), ("system-name", text), ("description", text),
        ("system-information", object ["information-types"]
          [("information-types", nonEmptyArray)]),
        ("status", object ["state"] [("state", text)]),
        ("authorization-boundary", objectWith ["description"])]),
     ("system-implementation", object ["users", "components"]
       [("users", nonEmptyArray),
        ("components", someOf (objectWith ["uuid", "type", "title", "description", "status"]))]),
     ("control-implementation", object ["description", "implemented-requirements"]
       [("implemented-requirements", someOf (object ["uuid", "control-id"]
         [("uuid", uuidRef)]))])]

/-- What is below the root of a security assessment plan. -/
def sapBody : Schema :=
  object ["uuid", "metadata", "import-ssp", "reviewed-controls"]
    [("uuid", uuidRef), ("metadata", metadataRef), ("import-ssp", importRef),
     ("reviewed-controls", object ["control-selections"]
       [("control-selections", nonEmptyArray)]),
     ("tasks", arrayOf (objectWith ["uuid", "type", "title"]))]

/-- What is below the root of a security assessment report. -/
def sarBody : Schema :=
  object ["uuid", "metadata", "import-ap", "results"]
    [("uuid", uuidRef), ("metadata", metadataRef), ("import-ap", importRef),
     ("results", someOf (object ["uuid", "title", "description", "start", "reviewed-controls"]
       [("uuid", uuidRef)]))]

/-- What is below the root of a plan of action and milestones. -/
def poamBody : Schema :=
  object ["uuid", "metadata", "poam-items"]
    [("uuid", uuidRef), ("metadata", metadataRef), ("import-ssp", importRef),
     ("system-id", objectWith ["id"]),
     ("poam-items", arrayOf (object ["title", "description"] [("uuid", uuidRef)]))]

/-- What is below the root of a document of a type. -/
def body : DocumentType → Schema
  | .ssp => sspBody
  | .sap => sapBody
  | .sar => sarBody
  | .poam => poamBody

/-- The schema of whole documents of a type. -/
def document (type : DocumentType) : Schema :=
  object [type.rootName] [(type.rootName, body type)]

end Schema

/-- **The converter of a document type.** -/
def Converter.ofType (type : DocumentType) : Converter where
  rules := .ofType type
  schemaName := s!"oscal_{type.model}_schema.json"
  schema :=
    { root := Schema.document type
      targets := ("#", Schema.document type) :: Schema.sharedTargets }

end OscalValidation
