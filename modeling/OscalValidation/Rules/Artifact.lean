import OscalValidation.Files.Source
import OscalValidation.Rules.Engine
import OscalValidation.Rules.Schematron.Judge
import OscalValidation.Rules.Stylesheet.Run
import OscalValidation.Rules.Svrl
import OscalValidation.Xml.Reader

set_option autoImplicit false

/-! # Rule artifacts

A rule artifact is a schema of rules, or a stylesheet that makes a validation report out of a
document. Artifacts lie under a base, and their names follow a pattern with places for the
ruleset and the document type; a name with the ending `.sch` is that of a schema.
-/

namespace OscalValidation

open Text (Bytes)

/-- **A rule artifact.** -/
inductive RuleArtifact
  | stylesheet (content : Stylesheet)
  | schema (content : Schematron.Schema)

namespace RuleArtifact

/-- What stands for the reason why a document is no rules, or why rules broke off. -/
def fault : String := "<xslt-error>"

def isSchemaName (name : String) : Bool := ".sch".toList.isSuffixOf name.toList

/-- The schema that an element is. Without a namespace it cannot be one of another kind. -/
def ofSchemaElement (location : String) (root : Xml.Element) : Except EngineFault RuleArtifact :=
  match root.tag.name.uri, Schematron.Schema.read? root with
  | none, _ => .error (.undeclaredPrefix none)
  | some _, some content => .ok (.schema content)
  | some _, none => .error (.invalid location fault)

/-- **The artifact that a file holds,** by the file's name. -/
def ofBytes (name location : String) (content : Bytes) : Except EngineFault RuleArtifact :=
  match Xml.readBytes? content with
  | none => .error (.invalid location Xml.syntaxFault)
  | some document =>
      if isSchemaName name then ofSchemaElement location document.root
      else match Stylesheet.read? document.root with
        | some content => .ok (.stylesheet content)
        | none => .error (.invalid location fault)

/-- The name of the artifact for a key. -/
def nameFor (pattern : String) (key : RuleKey) : Except Text.TemplateFault String :=
  Text.fillTemplate pattern [("ruleset", key.ruleset.key), ("document_type", key.type.tag)]

/-- **The artifact for a key** under a base. -/
def load (source : ArtifactSource) (pattern : String) (storage : Storage) (key : RuleKey) :
    Except EngineFault RuleArtifact := do
  let name ← (nameFor pattern key).mapError .naming
  let location := source.resolve name
  let content ← (source.fetch storage name).mapError fun e => .unreadable location e.message
  ofBytes name location content

/-- The outcomes that a report shows, from the nodes that it consists of. -/
def reportOutcomes (report : List Xml.Node) : List Outcome :=
  match report.findSome? Xml.Node.element? with
  | some root => Svrl.outcomes root
  | none => []

/-- **The outcomes of an artifact** for a document. -/
def evaluate (artifact : RuleArtifact) (document : Xml.Document) (parameters : Parameters) :
    Except EngineFault (List Outcome) := do
  for (_, value) in parameters do
    (Xml.checkText value).mapError .parameter
  let outcomes? := match artifact with
    | .stylesheet content => (content.run? parameters document).map reportOutcomes
    | .schema content => content.outcomes? parameters document
  match outcomes? with
  | some outcomes => return outcomes
  | none => throw (.brokenOff fault)

end RuleArtifact

/-- **The engine of rule artifacts** under a base; its state is what can be reached. -/
def artifactEngine (source : ArtifactSource) (pattern : String) :
    RuleEngine Storage RuleArtifact where
  load key storage :=
    match RuleArtifact.load source pattern storage key with
    | .ok artifact => (some (.loaded artifact), storage)
    | .error e => (some (.failed e), storage)
  evaluate artifact document parameters storage :=
    (artifact.evaluate document parameters, storage)

end OscalValidation
