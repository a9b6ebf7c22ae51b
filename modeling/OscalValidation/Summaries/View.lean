import OscalValidation.Summaries.Catalog

set_option autoImplicit false

/-! # Assertion views

A view groups the identified asserts and reports of a source by pattern. A group lists each
identifier once, and a pattern without any has no group.
-/

namespace OscalValidation

/-- A group of a view. -/
structure ViewGroup where
  title : String
  /-- The identifiers of its asserts and reports. -/
  assertionIds : List String
deriving DecidableEq

/-- **An assertion view.** -/
structure AssertionView where
  title : String
  groups : List ViewGroup
deriving DecidableEq

namespace AssertionView

/-- The identifiers in a pattern, each at its first occurrence. -/
def idsOf (pattern : Xml.Element) : List String :=
  let checks := pattern.node.select fun tag =>
    tag.name.denotes Schematron.uri "assert" || tag.name.denotes Schematron.uri "report"
  (checks.filterMap fun e => (e.attribute? "id").filter (· != "")).eraseDups

/-- The title of a pattern's group: its title, else its identifier, else its number. -/
def groupTitle (pattern : Xml.Element) (number : Nat) : String :=
  let title := Schematron.titleOf pattern
  if !title.isEmpty then title
  else match pattern.attribute? "id" with
    | some "" | none => s!"Pattern {number}"
    | some id => id

def groupOf? (pattern : Xml.Element) (number : Nat) : Option ViewGroup :=
  match idsOf pattern with
  | [] => none
  | ids => some ⟨groupTitle pattern number, ids⟩

/-- **The view of a source.** -/
def ofSchema (schema : Xml.Element) (defaultTitle : String) : AssertionView where
  title := Schematron.schemaTitle schema defaultTitle
  groups := (schema.all Schematron.uri "pattern").zipIdx.filterMap fun (pattern, position) =>
    groupOf? pattern (position + 1)

def toJson (view : AssertionView) : Json :=
  .obj [("title", .str view.title), ("groups", .arr (view.groups.map fun group =>
    .obj [("title", .str group.title), ("assertion-ids", .ofTexts group.assertionIds)]))]

end AssertionView

end OscalValidation
