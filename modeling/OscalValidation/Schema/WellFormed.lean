import OscalValidation.Json.Basic
import OscalValidation.Schema.Basic

set_option autoImplicit false

/-! # Well-formed schemas

A document is a schema only if each of its members has the form that its name demands:
counts are natural numbers, patterns can be read, types are known, and the schemas inside
are schemas again. A document without that form is not used at all.
-/

namespace OscalValidation

namespace Schema

/-- The form that a member of a schema must have. -/
inductive MemberForm
  | text
  /-- The written form of a pattern. -/
  | patternText
  | truth
  | number
  | positive
  | count
  | array
  /-- An array of texts without repetition. -/
  | names
  /-- The name of a type, or an array of such names without repetition. -/
  | types
  | schema
  /-- An array of schemas with at least one item. -/
  | schemas
  /-- A schema or an array of schemas. -/
  | schemaOrSchemas
  | schemaMap
  /-- An object of schemas whose names are patterns. -/
  | patternMap
  /-- An object of schemas or arrays of names. -/
  | dependencies
deriving DecidableEq

/-- The members with a fixed form; others may hold anything. -/
def memberForms : List (String × MemberForm) :=
  [("$id", .text), ("$schema", .text), ("$ref", .text), ("$comment", .text), ("title", .text),
   ("description", .text), ("readOnly", .truth), ("examples", .array), ("multipleOf", .positive),
   ("maximum", .number), ("exclusiveMaximum", .number), ("minimum", .number),
   ("exclusiveMinimum", .number), ("maxLength", .count), ("minLength", .count),
   ("pattern", .patternText), ("additionalItems", .schema), ("items", .schemaOrSchemas),
   ("maxItems", .count), ("minItems", .count), ("uniqueItems", .truth), ("contains", .schema),
   ("maxProperties", .count), ("minProperties", .count), ("required", .names),
   ("additionalProperties", .schema), ("definitions", .schemaMap), ("properties", .schemaMap),
   ("patternProperties", .patternMap), ("dependencies", .dependencies),
   ("propertyNames", .schema), ("enum", .array), ("type", .types), ("format", .text),
   ("contentMediaType", .text), ("contentEncoding", .text), ("if", .schema), ("then", .schema),
   ("else", .schema), ("allOf", .schemas), ("anyOf", .schemas), ("oneOf", .schemas),
   ("not", .schema)]

def allDistinct : List Json → Bool
  | [] => true
  | value :: rest => !rest.any (·.same false value) && allDistinct rest

/-- All values are texts and none occurs twice. -/
def areNames (values : List Json) : Bool :=
  values.all (·.text?.isSome) && allDistinct values

def isTypeName (value : Json) : Bool := (value.text?.bind ValueType.ofName?).isSome

/-- A member without schemas inside has its form. -/
def leafOk (value : Json) : MemberForm → Bool
  | .text => ValueType.string.holds value
  | .patternText => match value with
      | .str text => (Text.Pattern.read? text).isSome
      | _ => false
  | .truth => ValueType.boolean.holds value
  | .number => ValueType.number.holds value
  | .positive => match value with
      | .int n => 0 < n
      | .real .nan | .real (.infinity false) => true
      | .real (.finite negative mantissa _) => !negative && mantissa != 0
      | _ => false
  | .count => ValueType.integer.holds value && match value with
      | .int n => 0 ≤ n
      | .real (.finite negative mantissa _) => !negative || mantissa == 0
      | _ => false
  | .array => ValueType.array.holds value
  | .names => match value with
      | .arr values => areNames values
      | _ => false
  | .types => match value with
      | .arr values => !values.isEmpty && values.all isTypeName && allDistinct values
      | value => isTypeName value
  | _ => false

mutual

/-- The value is a schema: a truth value, or an object whose members have their forms. -/
def isSchema : Json → Bool
  | .bool _ => true
  | .obj members => membersOk members
  | _ => false

/-- Every member has the form that its name demands. -/
def membersOk : List (String × Json) → Bool
  | [] => true
  | (name, value) :: rest =>
      (match memberForms.lookup name with
        | some form => memberOk form value
        | none => true) && membersOk rest

def memberOk (form : MemberForm) : Json → Bool
  | .bool flag =>
      match form with
      | .schema | .schemaOrSchemas => true
      | form => leafOk (.bool flag) form
  | .obj members =>
      match form with
      | .schema | .schemaOrSchemas => membersOk members
      | .schemaMap => allMembersSchemas false members
      | .patternMap =>
          members.all (fun member => (Text.Pattern.read? member.1).isSome) &&
            allMembersSchemas false members
      | .dependencies => allMembersSchemas true members
      | form => leafOk (.obj members) form
  | .arr values =>
      match form with
      | .schemas | .schemaOrSchemas => !values.isEmpty && allSchemas values
      | form => leafOk (.arr values) form
  | value => leafOk value form

def allSchemas : List Json → Bool
  | [] => true
  | value :: rest => isSchema value && allSchemas rest

/-- All members are schemas, or arrays of names where those are admitted. -/
def allMembersSchemas (orNames : Bool) : List (String × Json) → Bool
  | [] => true
  | (_, value) :: rest =>
      (isSchema value || (orNames && leafOk value .names)) && allMembersSchemas orNames rest

end

end Schema

/-- **The schema document that `json` describes,** if it has the form of one. -/
def SchemaDocument.ofJson? (library : SchemaLibrary) (json : Json) : Option SchemaDocument :=
  if Schema.isSchema json then some (.ofJson library json) else none

end OscalValidation
