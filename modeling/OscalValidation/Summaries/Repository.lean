import OscalValidation.Json.Bytes
import OscalValidation.Summaries.Generation

set_option autoImplicit false

/-! # Reading summaries back

A repository is a base under which the files lie that the summary commands wrote. It reads one
kind of them for all document types at once.
-/

namespace OscalValidation

/-- Why a summary cannot be read back. -/
inductive RepositoryFault
  | unreadable (fault : FetchFault)
  /-- Its file holds no object document. -/
  | malformed (fault : Json.BytesError)
deriving DecidableEq

/-- **A repository of summaries.** -/
structure SummaryRepository where
  source : ArtifactSource

namespace SummaryRepository

/-- The content of a summary file. -/
def fetch (repository : SummaryRepository) (storage : Storage) (name : String) :
    Except RepositoryFault Json := do
  let content ← (repository.source.fetch storage name).mapError .unreadable
  (Json.readBytes content).mapError .malformed

/-- The summaries of all types, by the names of their files, read in the order `arrival`. -/
def fetchAll (repository : SummaryRepository) (storage : Storage)
    (fileName : DocumentType → String) (arrival : List DocumentType) :
    Except RepositoryFault (List (DocumentType × Json)) := do
  let values ← gather (fun type => repository.fetch storage (fileName type)) arrival
    DocumentType.all
  return DocumentType.all.zip values

/-- **The assertion views.** -/
def views (repository : SummaryRepository) (storage : Storage)
    (arrival : List DocumentType) : Except RepositoryFault (List (DocumentType × Json)) :=
  repository.fetchAll storage AssertionView.fileName arrival

/-- **The catalogs of rules.** -/
def catalogs (repository : SummaryRepository) (storage : Storage)
    (arrival : List DocumentType) : Except RepositoryFault (List (DocumentType × Json)) :=
  repository.fetchAll storage Catalog.fileName arrival

/-- **The scenario summaries.** -/
def scenarios (repository : SummaryRepository) (storage : Storage)
    (arrival : List DocumentType) : Except RepositoryFault (List (DocumentType × Json)) :=
  repository.fetchAll storage ScenarioSummary.fileName arrival

end SummaryRepository

end OscalValidation
