import OscalValidation.Text.Blank
import OscalValidation.Xml.Char
import OscalValidation.Xml.Tree

set_option autoImplicit false

/-! # The grammar of Schematron sources

A source is a schema with patterns of rules, and a rule has asserts and reports. The grammar
says which attributes an element needs and may have, and which elements may stand in it, in
which order. Elements and attributes of other namespaces may stand everywhere.
-/

namespace OscalValidation.Schematron

def uri : String := "http://purl.oclc.org/dsdl/schematron"

/-- A place in the order of elements: those that may stand there, and how often. -/
structure Slot where
  names : List String
  isNeeded : Bool := false
  repeats : Bool := true

/-- **What the grammar says about an element.** -/
structure Form where
  needs : List String := []
  allows : List String := []
  holdsText : Bool := false
  /-- The elements in it, in order. -/
  slots : List Slot := []
  isOpen : Bool := false

/-- The attributes that refer to more about an element. -/
def richAttributes : List String := ["icon", "see", "fpi"]

/-- The form of asserts and of reports. -/
def checkForm : Form where
  needs := ["test"]
  allows := ["id", "flag", "diagnostics", "role", "subject"] ++ richAttributes
  holdsText := true
  slots := [⟨["name", "value-of", "emph", "dir", "span"], false, true⟩]

/-- The forms of elements by name. -/
def forms : List (String × Form) :=
  [("schema",
      { allows := ["id", "schemaVersion", "defaultPhase", "queryBinding"] ++ richAttributes,
        slots := [⟨["title"], false, false⟩, ⟨["ns"], false, true⟩, ⟨["p"], false, true⟩,
          ⟨["let"], false, true⟩, ⟨["phase"], false, true⟩, ⟨["pattern"], true, true⟩,
          ⟨["p"], false, true⟩, ⟨["diagnostics"], false, false⟩] }),
    ("ns", { needs := ["uri", "prefix"] }),
    ("pattern",
      { allows := ["id"] ++ richAttributes,
        slots := [⟨["title"], false, false⟩, ⟨["p"], false, true⟩, ⟨["let"], false, true⟩,
          ⟨["rule"], false, true⟩] }),
    ("rule",
      { needs := ["context"], allows := ["id", "flag", "role", "subject"] ++ richAttributes,
        slots := [⟨["let"], false, true⟩, ⟨["assert", "report", "p"], true, true⟩] }),
    ("assert", checkForm),
    ("report", checkForm),
    ("name", { allows := ["path"] }),
    ("value-of", { needs := ["select"] }),
    ("title", { holdsText := true, slots := [⟨["dir"], false, true⟩] }),
    ("p", { allows := ["id", "class", "icon"], holdsText := true,
            slots := [⟨["dir", "emph", "span"], false, true⟩] }),
    ("emph", { holdsText := true }),
    ("dir", { allows := ["value"], holdsText := true }),
    ("span", { needs := ["class"], holdsText := true }),
    ("let", { needs := ["name", "value"] }),
    ("phase", { needs := ["id"], isOpen := true }),
    ("diagnostics", { isOpen := true })]

/-- The names follow an order: each slot takes as many as it can. -/
def follows : List Slot → List String → Bool
  | [], names => names.isEmpty
  | slot :: rest, names =>
      let taken := names.takeWhile slot.names.contains
      let taken := if slot.repeats then taken else taken.take 1
      (!slot.isNeeded || !taken.isEmpty) && follows rest (names.drop taken.length)

/-- The attributes whose values must not be blank. -/
def nonblankAttributes : List String :=
  ["role", "flag", "schemaVersion", "queryBinding", "prefix"]

/-- The value of an attribute is one that the attribute can have. -/
def allowsValue (key value : String) : Bool :=
  if key = "id" then Xml.isLocalName (Text.trim value).toList
  else if nonblankAttributes.contains key then !(Text.trim value).isEmpty
  else true

/-- The attributes of an element follow its form. -/
def attributesFollow (form : Form) (tag : Xml.Tag) : Bool :=
  form.needs.all (fun key => (tag.attribute? key).isSome) &&
    tag.attributes.all fun a => match a.name.uri with
      | some namespaceUri => namespaceUri != uri
      | none =>
          (form.needs.contains a.name.localName || form.allows.contains a.name.localName) &&
            allowsValue a.name.localName a.value

/-- The names of the elements of the language among nodes. -/
def namesIn (nodes : List Xml.Node) : List String :=
  nodes.filterMap fun
    | .element tag _ => if tag.name.uri == some uri then some tag.name.localName else none
    | _ => none

mutual

def nodeFollows : Xml.Node → Bool
  | .element tag children =>
      if tag.name.uri != some uri then true
      else match forms.lookup tag.name.localName with
        | none => false
        | some form =>
            attributesFollow form tag &&
              (form.isOpen ||
                (follows form.slots (namesIn children) &&
                  nodesFollow form.holdsText children))
  | _ => true

/-- Nodes in a row follow the grammar; `holdsText` tells whether text may stand there. -/
def nodesFollow (holdsText : Bool) : List Xml.Node → Bool
  | [] => true
  | .text content :: rest =>
      (holdsText || content.toList.all Xml.isSpace) && nodesFollow holdsText rest
  | node :: rest => nodeFollows node && nodesFollow holdsText rest

end

/-- The identifiers of elements, in document order. -/
def identifiers (root : Xml.Element) : List String :=
  (root.node.select fun tag => tag.name.uri == some uri).filterMap fun e =>
    (e.attribute? "id").map Text.trim

def allDifferent : List String → Bool
  | [] => true
  | s :: rest => !rest.contains s && allDifferent rest

/-- **The element is a schema by the grammar,** and no identifier occurs twice. -/
def isValid (root : Xml.Element) : Bool :=
  root.denotes uri "schema" && nodeFollows root.node && allDifferent (identifiers root)

end OscalValidation.Schematron
