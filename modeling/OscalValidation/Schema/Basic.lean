import OscalValidation.Json.Basic
import OscalValidation.Json.Place
import OscalValidation.Text.Pattern.Reader

set_option autoImplicit false

/-! # Schemas

A schema lists requirements on a value. Requirements on members and items are schemas
again, and a reference stands for a schema kept elsewhere in the same document, so that a
schema may describe documents of any depth. Requirements keep the order in which they are
written, because violations are reported in that order.
-/

namespace OscalValidation

/-- The types of values that a schema speaks of. -/
inductive ValueType
  | object
  | array
  | string
  | number
  | integer
  | boolean
  /-- The value that stands for nothing. -/
  | null
deriving DecidableEq

namespace ValueType

def named : List (String × ValueType) :=
  [("object", .object), ("array", .array), ("string", .string), ("number", .number),
   ("integer", .integer), ("boolean", .boolean), ("null", .null)]

def ofName? (name : String) : Option ValueType := named.lookup name

def name : ValueType → String
  | object => "object"
  | array => "array"
  | string => "string"
  | number => "number"
  | integer => "integer"
  | boolean => "boolean"
  | null => "null"

def holds : ValueType → Json → Bool
  | object, .obj _ => true
  | array, .arr _ => true
  | string, .str _ => true
  | number, .int _ => true
  | number, .real _ => true
  | integer, .int _ => true
  | integer, .real value => value.isIntegral
  | boolean, .bool _ => true
  | null, .null => true
  | _, _ => false

end ValueType

mutual

/-- **A schema.** -/
inductive Schema
  | always
  | never
  /-- What a reference stands for; other requirements beside it do not count. -/
  | reference (target : String)
  | all (requirements : List Requirement)

/-- One requirement of a schema. It holds of every value of another type than the one it
speaks of. -/
inductive Requirement
  | type (types : List ValueType)
  | required (names : List String)
  /-- The members of the object, where they are given, conform to their schemas. -/
  | properties (schemas : List (String × Schema))
  /-- The items of the array conform. -/
  | items (schema : Schema)
  /-- The array has at least so many items. -/
  | minItems (count : Nat)
  | enum (values : List Json)
  /-- The pattern, given with its written form, is found in the text. -/
  | pattern (source : String) (pattern : Text.Pattern)

end

/-- What checking a value finds at places in it, in words, or the name of what it raises. -/
abbrev FurtherCheck := Json → Except String (List (Place × String))

/-- **A schema document:** a schema and the schemas its references stand for. -/
structure SchemaDocument where
  root : Schema
  targets : List (String × Schema)
  /-- What the document requires in other words than those that are known here. -/
  further : FurtherCheck := fun _ => .ok []

namespace Schema

/-- The schema itself, or after following references. A chain of references longer than the
budget leads nowhere and requires nothing. -/
def resolve (targets : List (String × Schema)) : Nat → Schema → Schema
  | budget + 1, reference target =>
      match targets.lookup target with
      | some schema => resolve targets budget schema
      | none => always
  | 0, reference _ => always
  | _, schema => schema

/-! ## Schemas as documents -/

mutual

/-- The schema that a document describes. Members that are no known requirement count for
nothing. -/
def ofJson : Json → Schema
  | .bool false => never
  | .obj members =>
      match members.lookup "$ref" with
      | some (.str target) => reference target
      | _ => all (requirementsOf members)
  | _ => always

/-- The requirements among the members of a schema. -/
def requirementsOf : List (String × Json) → List Requirement
  | [] => []
  | (name, value) :: rest =>
      match requirementOf name value with
      | some requirement => requirement :: requirementsOf rest
      | none => requirementsOf rest

/-- The requirement that one member makes. -/
def requirementOf (name : String) : Json → Option Requirement
  | .str text =>
      if name = "type" then (ValueType.ofName? text).map fun type => .type [type]
      else if name = "pattern" then (Text.Pattern.read? text).map (.pattern text)
      else none
  | .arr values =>
      if name = "type" then
        some (.type (values.filterMap fun value => value.text?.bind ValueType.ofName?))
      else if name = "required" then some (.required (values.filterMap Json.text?))
      else if name = "enum" then some (.enum values)
      else none
  | .int count => if name = "minItems" then some (.minItems count.toNat) else none
  | .real count =>
      if name = "minItems" then
        match count with
        | .finite _ mantissa exponent =>
            some (.minItems (mantissa * twoTo exponent.toNat / twoTo (-exponent).toNat))
        | _ => none
      else none
  | .obj members =>
      if name = "properties" then some (.properties (namedOf members))
      else if name = "items" then
        match members.lookup "$ref" with
        | some (.str target) => some (.items (reference target))
        | _ => some (.items (all (requirementsOf members)))
      else none
  | .bool allowed =>
      if name = "items" then some (.items (if allowed then always else never)) else none
  | .null => none

/-- The schemas of an object that gives each a name. -/
def namedOf : List (String × Json) → List (String × Schema)
  | [] => []
  | (name, value) :: rest => (name, ofJson value) :: namedOf rest

end

end Schema

/-- **What there is to schemas beyond the words that are known here.** -/
structure SchemaLibrary where
  /-- The name of what checking a schema itself raises, if it does. -/
  raises : Json → Option String := fun _ => none
  /-- What a schema requires of values in other words. -/
  further : Json → FurtherCheck := fun _ _ => .ok []

/-- A library that knows no further words. -/
def SchemaLibrary.plain : SchemaLibrary := {}

/-- The schema document that `json` describes; references lead to its root and to its
definitions. -/
def SchemaDocument.ofJson (library : SchemaLibrary) (json : Json) : SchemaDocument :=
  let root := Schema.ofJson json
  let definitions := match json.member? "definitions" with
    | some (.obj members) => Schema.namedOf members
    | _ => []
  { root
    targets := ("#", root) ::
      definitions.map fun (name, schema) => ("#/definitions/" ++ name, schema)
    further := library.further json }

end OscalValidation
