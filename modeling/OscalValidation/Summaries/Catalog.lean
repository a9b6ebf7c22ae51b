import OscalValidation.Json.Basic
import OscalValidation.Summaries.Schematron

set_option autoImplicit false

/-! # The catalog of rules

The catalog of a document type lists its asserts and reports by identifier, in document order.
One without an identifier has no entry, and of several with the same identifier the first has;
both are worth a warning.
-/

namespace OscalValidation

open Schematron (Scoped)

/-- **An entry of the catalog.** -/
structure CatalogEntry where
  /-- Whether it is an assert or a report. -/
  kind : String
  message : String
  role : Option String
  /-- The nodes that its rule is about. -/
  context : Option String
  test : Option String
  pattern : Option String
  /-- The texts of the diagnostics it refers to. -/
  diagnostics : List String
  properties : List (String × String)

/-- What is wrong with an assert or report that has no entry. -/
inductive CatalogWarning
  | withoutId (context : Option String)
  /-- Its identifier is that of an entry. -/
  | duplicate (id : String)
deriving DecidableEq

def CatalogWarning.message : CatalogWarning → String
  | .withoutId context => "Skipping assertion without id in rule " ++ context.getD "None"
  | .duplicate id => s!"Duplicate assertion id {id}; keeping first"

/-- **A catalog:** entries by identifier, and the warnings met on the way. -/
structure Catalog where
  entries : List (String × CatalogEntry)
  warnings : List CatalogWarning

namespace Catalog

/-- Attributes that have a place of their own in an entry. -/
def coreAttributes : List String := ["id", "test", "role", "diagnostics"]

/-- The name of an attribute in an entry: in a namespace it is written with the first prefix in
scope that stands for the namespace, or with the namespace itself if none does. -/
def propertyName (inScope : List Xml.Declaration) (name : Xml.Name) : String :=
  match name.uri with
  | none => name.localName
  | some uri =>
      match inScope.findSome? fun d => if d.uri == uri then d.nsPrefix else none with
      | some p => p ++ ":" ++ name.localName
      | none => name.expanded

/-- Pairs with the value of a name replaced where it occurs, else added at the end. -/
def setPair {α : Type} (pairs : List (String × α)) (name : String) (value : α) :
    List (String × α) :=
  if pairs.any (·.1 == name) then
    pairs.map fun pair => if pair.1 == name then (name, value) else pair
  else pairs ++ [(name, value)]

/-- The attributes of an assert or report that have no place of their own. -/
def propertiesOf (check : Scoped) : List (String × String) :=
  (check.element.tag.attributes.filter fun a =>
    !(a.name.uri.isNone && coreAttributes.contains a.name.localName)).foldl
      (fun done a => setPair done (propertyName check.inner a.name) a.value) []

/-- The texts of the diagnostics of a source by identifier; of several the last counts. -/
def diagnosticTexts (schema : Xml.Element) : List (String × String) :=
  (schema.all Schematron.uri "diagnostic").foldl (fun done e =>
    match e.attribute? "id" with
    | some "" | none => done
    | some id => setPair done id (Schematron.message e)) []

/-- The entry of an assert or report. -/
def entryOf (diagnostics : List (String × String)) (pattern rule : Xml.Element) (check : Scoped) :
    CatalogEntry where
  kind := check.element.tag.name.localName
  message := Schematron.message check.element
  role := check.element.attribute? "role"
  context := rule.attribute? "context"
  test := check.element.attribute? "test"
  pattern := pattern.attribute? "id"
  diagnostics := (Text.wordsOf ((check.element.attribute? "diagnostics").getD "")).filterMap
    fun ref => List.lookup ref diagnostics
  properties := propertiesOf check

/-- The asserts and reports of a source in document order, each with its pattern and rule. -/
def checks (schema : Xml.Element) : List (Xml.Element × Xml.Element × Scoped) :=
  ((⟨schema, []⟩ : Scoped).all "pattern").flatMap fun pattern =>
    (pattern.all "rule").flatMap fun rule =>
      (rule.elements.filter fun e => Schematron.isCheck e.element).map fun check =>
        (pattern.element, rule.element, check)

/-- The catalog after one more assert or report. -/
def add (diagnostics : List (String × String)) (catalog : Catalog)
    (check : Xml.Element × Xml.Element × Scoped) : Catalog :=
  let (pattern, rule, e) := check
  match e.element.attribute? "id" with
  | some "" | none =>
      ⟨catalog.entries, catalog.warnings ++ [.withoutId (rule.attribute? "context")]⟩
  | some id =>
      if catalog.entries.any (·.1 == id) then
        ⟨catalog.entries, catalog.warnings ++ [.duplicate id]⟩
      else ⟨catalog.entries ++ [(id, entryOf diagnostics pattern rule e)], catalog.warnings⟩

/-- **The catalog of a source.** -/
def ofSchema (schema : Xml.Element) : Catalog :=
  (checks schema).foldl (add (diagnosticTexts schema)) ⟨[], []⟩

end Catalog

/-! ## As object documents -/

def CatalogEntry.toJson (entry : CatalogEntry) : Json :=
  .obj [("kind", .str entry.kind), ("message", .str entry.message),
    ("role", .ofText? entry.role), ("context", .ofText? entry.context),
    ("test", .ofText? entry.test), ("pattern", .ofText? entry.pattern),
    ("diagnostics", .ofTexts entry.diagnostics),
    ("properties", .obj (entry.properties.map fun (name, value) => (name, .str value)))]

def Catalog.toJson (catalog : Catalog) : Json :=
  .obj (catalog.entries.map fun (id, entry) => (id, entry.toJson))

end OscalValidation
