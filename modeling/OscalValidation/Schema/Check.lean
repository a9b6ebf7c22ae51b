import OscalValidation.Json.Place
import OscalValidation.Json.Printer
import OscalValidation.Schema.Basic

set_option autoImplicit false

/-! # Conformance to a schema

Checking a value yields every violation, each with the place of the offending value. They
are found in the order of the requirements and then ordered by place, those of one place
staying in order.
-/

namespace OscalValidation

/-- What a value fails to be. -/
inductive Offence
  | type (value : Json) (types : List ValueType)
  | missing (name : String)
  | unlisted (value : Json) (values : List Json)
  /-- A text in which the pattern is not found. -/
  | mismatch (value : Json) (source : String)
  /-- An array with fewer items than required. -/
  | short (value : Json) (required : Nat)
  | forbidden (value : Json)
  /-- Something else, told in its own words. -/
  | other (words : String)

def Offence.message : Offence → String
  | .type value types =>
      let names := ", ".intercalate (types.map fun type => Text.quoted type.name)
      s!"{value.shown} is not of type {names}"
  | .missing name => s!"{Text.quoted name} is a required property"
  | .unlisted value values => s!"{value.shown} is not one of {(Json.arr values).shown}"
  | .mismatch value source => s!"{value.shown} does not match {Text.quoted source}"
  | .short value required =>
      s!"{value.shown} " ++ if required = 1 then "should be non-empty" else "is too short"
  | .forbidden value => s!"False schema does not allow {value.shown}"
  | .other words => words

/-- The wording would hold an integer that cannot be written. What a schema lists was read, and holds
none. -/
def Offence.holdsLong : Offence → Bool
  | .type value _ | .unlisted value _ | .mismatch value _ | .short value _ | .forbidden value =>
      value.holdsLong
  | .missing _ | .other _ => false

/-- **A violation of a schema.** -/
structure Violation where
  /-- The place of the offending value. -/
  place : Place
  offence : Offence

def Violation.message (violation : Violation) : String :=
  let place := violation.place.text
  violation.offence.message ++ " at " ++ if place.isEmpty then "<root>" else place

namespace Schema

/-- The check of one part of a value: its violations of a schema, at a place. -/
abbrev PartCheck := Schema → Place → List Violation

/-- The violations of one requirement by a value. The checks of the parts of the value, its
items and its members, are given. -/
def Requirement.violations (place : Place) (value : Json) (items : List PartCheck)
    (members : List (String × PartCheck)) : Requirement → List Violation
  | .type types => if types.any (·.holds value) then [] else [⟨place, .type value types⟩]
  | .required names =>
      match value with
      | .obj given => (names.filter fun name => (given.lookup name).isNone).map
          fun name => ⟨place, .missing name⟩
      | _ => []
  | .properties schemas => schemas.flatMap fun (name, schema) =>
      match members.lookup name with
      | some check => check schema (place.below (.member name))
      | none => []
  | .items schema => (items.zipIdx).flatMap fun (check, position) =>
      check schema (place.below (.item position))
  | .minItems count =>
      match value with
      | .arr given => if given.length < count then [⟨place, .short value count⟩] else []
      | _ => []
  | .enum values =>
      if values.any (·.same false value) then [] else [⟨place, .unlisted value values⟩]
  | .pattern source pattern =>
      match value with
      | .str text => if pattern.foundIn text then [] else [⟨place, .mismatch value source⟩]
      | _ => []

/-- The violations of a schema by a value whose parts have the given checks. -/
def violationsWith (targets : List (String × Schema)) (value : Json) (items : List PartCheck)
    (members : List (String × PartCheck)) : PartCheck := fun schema place =>
  match schema.resolve targets (targets.length + 1) with
  | .always | .reference _ => []
  | .never => [⟨place, .forbidden value⟩]
  | .all requirements =>
      requirements.flatMap (Requirement.violations place value items members)

mutual

/-- The violations of a schema by a value, in the order of the requirements. -/
def violations (targets : List (String × Schema)) : Json → PartCheck
  | .arr values => violationsWith targets (.arr values) (itemChecks targets values) []
  | .obj members => violationsWith targets (.obj members) [] (memberChecks targets members)
  | scalar => violationsWith targets scalar [] []

/-- The checks of the items of an array. -/
def itemChecks (targets : List (String × Schema)) : List Json → List PartCheck
  | [] => []
  | item :: rest => violations targets item :: itemChecks targets rest

/-- The checks of the members of an object. -/
def memberChecks (targets : List (String × Schema)) :
    List (String × Json) → List (String × PartCheck)
  | [] => []
  | (name, value) :: rest => (name, violations targets value) :: memberChecks targets rest

end

end Schema

/-- The order of a dictionary on lists of texts. -/
def notAfter : List String → List String → Bool
  | [], _ => true
  | _ :: _, [] => false
  | s :: ss, t :: ts => if s == t then notAfter ss ts else s < t

/-- Violations in the order of their places. -/
def byPlace (violations : List Violation) : List Violation :=
  violations.mergeSort fun a b => notAfter a.place.texts b.place.texts

namespace SchemaDocument

/-- The violations of the requirements that are known, ordered by place. -/
def violations (document : SchemaDocument) (value : Json) : List Violation :=
  byPlace (Schema.violations document.targets value document.root .root)

/-- **All that a value violates,** ordered by place. -/
def findings (document : SchemaDocument) (value : Json) : Except String (List Violation) := do
  let further ← document.further value
  return byPlace (document.violations value ++
    further.map fun (place, words) => ⟨place, .other words⟩)

end SchemaDocument

end OscalValidation
