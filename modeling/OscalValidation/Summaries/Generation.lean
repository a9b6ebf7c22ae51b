import OscalValidation.Document.Type
import OscalValidation.Files.Source
import OscalValidation.Summaries.Catalog
import OscalValidation.Summaries.Scenario
import OscalValidation.Summaries.View
import OscalValidation.Summaries.Writer
import OscalValidation.Xml.Reader

set_option autoImplicit false

/-! # Generating summaries

A summary is computed from the source of a document type: a catalog and an assertion view from
its rules, scenario summaries from its tests. Files are written only after all sources of a
command were read; a source that cannot be used is named by where it is.
-/

namespace OscalValidation

/-- Why a source cannot be summarized. -/
inductive SourceFault
  | unreadable (fault : FetchFault)
  | malformed
  /-- Its root is another element than wanted. -/
  | otherRoot (name wanted : String)
deriving DecidableEq

/-- The wording of a fault of a source. -/
def SourceFault.message : SourceFault → String
  | .unreadable fault => fault.message
  | .malformed => s!"not well-formed XML: {Xml.syntaxFault}"
  | .otherRoot name wanted => s!"root element is {name}, not {wanted}"

/-- Why no summaries were generated. -/
inductive SummaryFault
  /-- The source at a location cannot be summarized. -/
  | source (location : String) (fault : SourceFault)
  /-- A part of a source cannot be shown on its own. -/
  | fragment
  /-- The files could not be written. -/
  | write (fault : WriteFault)
deriving DecidableEq

/-- The wording of a fault of a source, with its location. -/
def SourceFault.report (location : String) (fault : SourceFault) : String :=
  s!"Could not generate summary from {location}: {fault.message}"

/-! ## Sources -/

/-- The root element of a source, which must have the name `wanted` in a namespace. -/
def readSource (source : ArtifactSource) (storage : Storage) (name : String)
    (uri localName wanted : String) : Except SummaryFault Xml.Element :=
  let location := source.resolve name
  match source.fetch storage name with
  | .error e => .error (.source location (.unreadable e))
  | .ok content =>
      match Xml.readBytes? content with
      | none => .error (.source location .malformed)
      | some document =>
          if document.root.denotes uri localName then .ok document.root
          else .error (.source location (.otherRoot document.root.tag.name.expanded wanted))

def readRules (source : ArtifactSource) (storage : Storage) (type : DocumentType) :
    Except SummaryFault Xml.Element :=
  readSource source storage s!"{type.tag}.sch" Schematron.uri "schema" "sch:schema"

def Catalog.generate (source : ArtifactSource) (storage : Storage) (type : DocumentType) :
    Except SummaryFault Catalog := do
  return .ofSchema (← readRules source storage type)

def AssertionView.generate (source : ArtifactSource) (storage : Storage) (type : DocumentType) :
    Except SummaryFault AssertionView := do
  return .ofSchema (← readRules source storage type) type.title

/-- The scenario summaries of a document type. -/
def ScenarioSummary.generate (source : ArtifactSource) (storage : Storage)
    (type : DocumentType) : Except SummaryFault (List ScenarioSummary) := do
  let suite ← readSource source storage s!"{type.tag}.xspec" Scenario.uri "description"
    "x:description"
  match Scenario.summaries? suite with
  | some summaries => return summaries
  | none => throw .fragment

/-! ## Files -/

def Catalog.fileName (type : DocumentType) : String := s!"{type.tag}.json"

def AssertionView.fileName (type : DocumentType) : String := s!"assertion-views-{type.tag}.json"

/-- The name of the file with the scenario summaries of a document type. -/
def ScenarioSummary.fileName (type : DocumentType) : String := s!"xspec-summary-{type.tag}.json"

def firstFault? {κ ε α : Type} (compute : κ → Except ε α) (keys : List κ) : Option ε :=
  keys.findSome? fun key => match compute key with
    | .error e => some e
    | .ok _ => none

/-- **The results for keys in their order,** if all of them can be computed; otherwise the fault
that is met first when they are computed in the order `arrival`. -/
def gather {κ ε α : Type} (compute : κ → Except ε α) (arrival keys : List κ) :
    Except ε (List α) :=
  match firstFault? compute arrival with
  | some e => .error e
  | none => keys.mapM compute

/-- The types to summarize: those that are given, else all. -/
def chosenTypes (types : List DocumentType) : List DocumentType :=
  if types.isEmpty then DocumentType.all else types

/-- Writes the summaries of types, one file each: the places of the files, and the tree. The
sources are read in the order `arrival`. -/
def generateFiles {α : Type} (compute : DocumentType → Except SummaryFault α)
    (fileName : DocumentType → String) (toJson : α → Json) (directory : Path)
    (arrival types : List DocumentType) (files : FileTree) :
    Except SummaryFault (List Path) × FileTree :=
  match gather compute arrival types with
  | .error e => (.error e, files)
  | .ok summaries =>
      let outputs := (types.zip summaries).map fun (type, summary) =>
        (fileName type, toJson summary)
      let (written, files) := SummaryWriter.writeAll directory outputs files
      (written.mapError .write, files)

/-- **Writes the catalogs of types,** all of them or none if one cannot be computed. -/
def Catalog.generateAll (source : ArtifactSource) (directory : Path) (storage : Storage)
    (arrival types : List DocumentType) : Except SummaryFault (List Path) × FileTree :=
  generateFiles (Catalog.generate source storage) Catalog.fileName Catalog.toJson directory
    (chosenTypes arrival) (chosenTypes types) storage.files

/-- **Writes the assertion views of types,** all of them or none if one cannot be computed. -/
def AssertionView.generateAll (source : ArtifactSource) (directory : Path) (storage : Storage)
    (arrival types : List DocumentType) : Except SummaryFault (List Path) × FileTree :=
  generateFiles (AssertionView.generate source storage) AssertionView.fileName
    AssertionView.toJson directory (chosenTypes arrival) (chosenTypes types) storage.files

/-- **Writes the scenario summaries of a type.** -/
def ScenarioSummary.generateFile (source : ArtifactSource) (directory : Path)
    (storage : Storage) (type : DocumentType) : Except SummaryFault (List Path) × FileTree :=
  generateFiles (ScenarioSummary.generate source storage) ScenarioSummary.fileName
    (fun summaries => .arr (summaries.map ScenarioSummary.toJson)) directory [type]
    [type] storage.files

end OscalValidation
