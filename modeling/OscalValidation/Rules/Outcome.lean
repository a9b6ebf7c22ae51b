set_option autoImplicit false

/-! # Outcomes of rules

A rule engine reports what it found as a list of outcomes: asserts that failed and reports
that succeeded. An outcome says which rule it belongs to and which node of the document it is
about, as far as the rule tells.
-/

namespace OscalValidation

/-- The kinds of outcomes. An engine may have kinds of its own, which count as failures. -/
inductive OutcomeKind
  | assert
  /-- A report that succeeded; it informs and is no failure. -/
  | report
  | other (name : String)
deriving DecidableEq

def OutcomeKind.ofName (name : String) : OutcomeKind :=
  if name = "assert" then .assert else if name = "report" then .report else .other name

def OutcomeKind.name : OutcomeKind → String
  | .assert => "assert"
  | .report => "report"
  | .other name => name

/-- **An outcome, as the engine reports it.** -/
structure Outcome where
  kind : OutcomeKind
  id : Option String
  /-- The role of the rule, which says how severe a failure is. -/
  role : Option String
  /-- The path of the node in question. -/
  location : Option String
  test : Option String
  message : String
deriving DecidableEq

end OscalValidation
