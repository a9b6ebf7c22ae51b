import OscalValidation.Rules.Schematron.Basic

set_option autoImplicit false

/-! # Outcomes of schemas

The patterns of a schema are taken one after another, each over the whole document in its
order. At a node the first rule of the pattern that is for the node is applied and no other
one. An assert has an outcome where its condition fails, a report where it holds.
-/

namespace OscalValidation.Schematron

open XPath (Focus Context Value Variables)

/-! ## Nodes that rules are for -/

/-- Rules can be for the node: text and references to entities are passed over. -/
def isVisited : Focus → Bool
  | .childAt _ _ (.text _) | .childAt _ _ (.entity _) => false
  | _ => true

/-- The nodes directly inside a node that rules can be for, attributes first. -/
def visitedInside (node : Focus) : List Focus :=
  node.attributes ++ node.children.filter isVisited

/-- All nodes of a document that rules can be for, in order. -/
def visited (document : Xml.Document) : List Focus :=
  ((Focus.document document).andBelow.filter isVisited).flatMap fun node =>
    node :: node.attributes

/-- A node among those that are tried together with it. -/
def contextOf (node : Focus) : Context :=
  match node.parent? with
  | none => ⟨node, 1, 1⟩
  | some parent =>
      let together := visitedInside parent
      ⟨node, ((together.findIdx? (·.place == node.place)).getD 0) + 1, together.length⟩

/-! ## Where a node is -/

/-- The number of a node among its siblings that are alike, in brackets, if there are more. -/
def numberAmong (isAlike : Xml.Tag → Bool) (node : Focus) : String :=
  let alike (siblings : List Focus) : Nat := (siblings.filter fun
    | .childAt _ _ (.element tag _) => isAlike tag
    | _ => false).length
  let before := alike node.precedingSiblings
  if 0 < before ∨ 0 < alike node.followingSiblings then s!"[{before + 1}]" else ""

def condition (localName namespaceUri : String) : String :=
  s!"[local-name()='{localName}' and namespace-uri()='{namespaceUri}']"

/-- The step of a path that leads to an element. -/
def elementStep (node : Focus) (tag : Xml.Tag) : String :=
  match tag.name.uri with
  | none => "/" ++ tag.name.localName ++
      numberAmong (fun other => other.name.written == tag.name.written) node
  | some namespaceUri => "/*" ++ condition tag.name.localName namespaceUri ++
      numberAmong (fun other => other.name.localName == tag.name.localName) node

/-- The step of a path that leads to an attribute. -/
def attributeStep (name : Xml.Name) : String :=
  match name.uri with
  | none => "/@" ++ name.localName
  | some namespaceUri => "/@*" ++ condition name.localName namespaceUri

/-- The path of an element or attribute; other nodes have none. -/
def pathOf (node : Focus) : String :=
  match node with
  | .document content =>
      elementStep (.childAt node content.before.length content.root.node) content.root.tag
  | .childAt (.document _) _ (.element tag _) => elementStep node tag
  | .childAt parent _ (.element tag _) => pathOf parent ++ elementStep node tag
  | .childAt _ _ _ => ""
  | .attributeAt parent _ content => pathOf parent ++ attributeStep content.name

/-! ## Outcomes -/

/-- The outcome of a check at a node, if there is one; nothing at all if the check breaks off. -/
def Check.outcome? (bindings : Variables) (ctx : Context) (check : Check) :
    Option (Option Outcome) := do
  let v ← check.condition.value? bindings ctx
  if v.holds = check.isReport then
    let role ← match check.role with
      | none => pure none
      | some role => do pure (some (← role.text? bindings ctx))
    let test ← check.test.text? bindings ctx
    let message ← check.message.text? bindings ctx
    return some {
      kind := if check.isReport then .report else .assert
      id := check.id
      role := role
      location := some (pathOf ctx.node)
      test := some test
      message := Text.normalizeSpace message }
  else return none

/-- The outcomes of the first rule that is for a node. -/
def firstRule? (bindings : Variables) (ctx : Context) : List Rule → Option (List Outcome)
  | [] => some []
  | rule :: rest => do
      if ← rule.context.means? bindings ctx.node then
        return (← rule.checks.mapM (Check.outcome? bindings ctx)).filterMap id
      else firstRule? bindings ctx rest

/-- **The outcomes of a schema** for a document, with the texts of parameters. There are none at
all, not even an empty list, where an expression has no value. -/
def Schema.outcomes? (schema : Schema) (parameters : List (String × String))
    (document : Xml.Document) : Option (List Outcome) := do
  let bindings : Variables := parameters.map fun (name, value) => (name, .text value)
  let nodes := visited document
  let outcomes ← schema.patterns.mapM fun rules =>
    nodes.mapM fun node => firstRule? bindings (contextOf node) rules
  return (outcomes.map List.flatten).flatten

end OscalValidation.Schematron
