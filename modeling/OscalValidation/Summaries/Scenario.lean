import OscalValidation.Summaries.Catalog

set_option autoImplicit false

/-! # Scenario summaries

A test suite for rules consists of scenarios, which may lie in each other, and of what each of
them expects. Every expectation of an active scenario is an example of a rule at work: it is
summed up with the labels of the scenarios around it and the part of a document it is about.
A pending scenario is left out with everything in it.
-/

namespace OscalValidation

/-- **The summary of an expectation.** -/
structure ScenarioSummary where
  /-- The labels of the scenarios around it, the outermost first. -/
  label : String
  /-- The rule that is expected to hold or to fail. -/
  assertionId : Option String
  /-- What the expectation says of itself. -/
  assertionLabel : Option String
  expect : String
  /-- The part of a document in question, where the scenario holds it. -/
  context : Option String
  /-- The document in question, where it is kept elsewhere. -/
  contextHref : Option String
deriving DecidableEq

namespace Scenario

def uri : String := "http://www.jenitennison.com/xslt/xspec"

def labelSeparator : String := " / "

def expectations : List String :=
  ["expect-assert", "expect-not-assert", "expect-report", "expect-not-report", "expect-valid",
   "expect-rule"]

def isExpectation (tag : Xml.Tag) : Bool :=
  expectations.any fun name => tag.name.denotes uri name

/-- The label of a scenario: its attribute, else its first label element, else nothing. -/
def labelOf (scenario : Xml.Element) : String :=
  Text.normalizeSpace (match scenario.attribute? "label" with
    | some label => label
    | none => match scenario.child? uri "label" with
      | some e => e.textContent
      | none => "")

def isPending (scenario : Xml.Element) : Bool := (scenario.attribute? "pending").isSome

/-- The part of a document that a scenario is about, with the declarations around it. -/
structure Context where
  element : Xml.Element
  /-- The declarations in scope around that element. -/
  outer : List Xml.Declaration

/-- The summary of an expectation; `none` if its context cannot be shown. -/
def summary? (expectation : Xml.Tag) (labels : List String) (context : Option Context) :
    Option ScenarioSummary := do
  let href := context.bind fun c => c.element.attribute? "href"
  let shown ← match context, href with
    | some c, none => c.element.content? c.outer
    | _, _ => some none
  return {
    label := labelSeparator.intercalate (labels.filter (· != ""))
    assertionId := expectation.attribute? "id"
    assertionLabel := expectation.attribute? "label"
    expect := String.ofList (expectation.name.localName.toList.drop "expect-".length)
    context := shown
    contextHref := href }

mutual

/-- The summaries of the expectations in a node. The labels and the context are those of the
scenarios around it; outside of scenarios only another scenario counts. -/
def summariesOfNode (inside : Bool) (labels : List String) (context : Option Context)
    (outer : List Xml.Declaration) : Xml.Node → Option (List ScenarioSummary)
  | .element tag children =>
      if tag.name.denotes uri "scenario" then
        let scenario : Xml.Element := ⟨tag, children⟩
        if isPending scenario then some []
        else
          let inner := Xml.addDeclarations tag.declarations outer
          let context := match scenario.child? uri "context" with
            | some e => some ⟨e, inner⟩
            | none => context
          summariesOfNodes true (labels ++ [labelOf scenario]) context inner children
      else if inside && isExpectation tag then (summary? tag labels context).map ([·])
      else some []
  | _ => some []

/-- The summaries of the expectations in nodes in a row. -/
def summariesOfNodes (inside : Bool) (labels : List String) (context : Option Context)
    (outer : List Xml.Declaration) : List Xml.Node → Option (List ScenarioSummary)
  | [] => some []
  | node :: rest => do
      let summaries ← summariesOfNode inside labels context outer node
      return summaries ++ (← summariesOfNodes inside labels context outer rest)

end

/-- **The summaries of a test suite,** in document order; `none` if the context of one cannot
be shown. -/
def summaries? (suite : Xml.Element) : Option (List ScenarioSummary) :=
  summariesOfNodes false [] none suite.tag.declarations suite.children

end Scenario

def ScenarioSummary.toJson (summary : ScenarioSummary) : Json :=
  .obj [("label", .str summary.label), ("assertion-id", .ofText? summary.assertionId),
    ("assertion-label", .ofText? summary.assertionLabel), ("expect", .str summary.expect),
    ("context", .ofText? summary.context), ("context-href", .ofText? summary.contextHref)]

end OscalValidation
