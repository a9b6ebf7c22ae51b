import OscalValidation.Rules.Outcome
import OscalValidation.Rules.Schematron.Grammar
import OscalValidation.XPath.Query

set_option autoImplicit false

/-! # Schemas of rules

A schema consists of patterns, a pattern of rules. A rule says which nodes it is for, and what
is checked at them.
-/

namespace OscalValidation.Schematron

open XPath (Query ValueTemplate Prefixes)

/-- **A check:** an assert or a report. -/
structure Check where
  /-- It is a report, whose condition is not wanted to hold. -/
  isReport : Bool
  id : Option String
  role : Option ValueTemplate
  /-- The condition as an outcome shows it. -/
  test : ValueTemplate
  condition : Query
  message : ValueTemplate

/-- **A rule.** -/
structure Rule where
  /-- The pattern of the nodes it is for. -/
  context : Query
  checks : List Check

/-- **A schema:** the rules of each of its patterns. -/
structure Schema where
  patterns : List (List Rule)

/-! ## Reading -/

/-- The prefixes that a schema declares. -/
def prefixesOf (root : Xml.Element) : Prefixes :=
  (root.elements.filter (·.denotes uri "ns")).filterMap fun e => do
    return (← e.attribute? "prefix", ← e.attribute? "uri")

mutual

/-- The pieces of a message that a node stands for: text that is not blank, the name of a node,
the value of a query. -/
def messagePieces? (prefixes : Prefixes) : Xml.Node → Option ValueTemplate
  | .text content =>
      some (if content.toList.all Xml.isSpace then [] else [.text content])
  | .element tag children =>
      if tag.name.uri != some uri then some []
      else match tag.name.localName with
        | "name" => do
            let path := (tag.attribute? "path").getD "."
            return [.value (← Query.read? prefixes s!"name({path})")]
        | "value-of" => do
            return [.value (← Query.read? prefixes ((tag.attribute? "select").getD ""))]
        | _ => allMessagePieces? prefixes children
  | _ => some []

/-- The pieces of a message that nodes in a row stand for. -/
def allMessagePieces? (prefixes : Prefixes) : List Xml.Node → Option ValueTemplate
  | [] => some []
  | node :: rest => do
      return (← messagePieces? prefixes node) ++ (← allMessagePieces? prefixes rest)

end

def Check.read? (prefixes : Prefixes) (e : Xml.Element) : Option Check := do
  let test ← e.attribute? "test"
  return {
    isReport := e.denotes uri "report"
    id := e.attribute? "id"
    role := ← match e.attribute? "role" with
      | none => pure none
      | some role => do pure (some (← ValueTemplate.read? prefixes role))
    test := ← ValueTemplate.read? prefixes test
    condition := ← Query.read? prefixes test
    message := ← allMessagePieces? prefixes e.children }

def Rule.read? (prefixes : Prefixes) (e : Xml.Element) : Option Rule := do
  let context ← e.attribute? "context"
  let _ ← ValueTemplate.read? prefixes context
  let checks := e.elements.filter fun e => e.denotes uri "assert" || e.denotes uri "report"
  return {
    context := ← Query.readPattern? prefixes context
    checks := ← checks.mapM (Check.read? prefixes) }

/-- **The schema that an element is,** if it follows the grammar and its expressions can be
read. -/
def Schema.read? (root : Xml.Element) : Option Schema := do
  if isValid root then
    let prefixes := prefixesOf root
    let patterns ← (root.elements.filter (·.denotes uri "pattern")).mapM fun pattern =>
      (pattern.elements.filter (·.denotes uri "rule")).mapM (Rule.read? prefixes)
    return ⟨patterns⟩
  else none

end OscalValidation.Schematron
