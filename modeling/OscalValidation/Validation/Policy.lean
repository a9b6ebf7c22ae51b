import OscalValidation.Rules.Outcome
import OscalValidation.Text.Blank
import OscalValidation.Text.LowerCase

set_option autoImplicit false

/-! # Severity

An assertion is an outcome with the line of the node it is about. The severity policy says
which failed assertions block a document: those whose role is among the blocking ones, and,
if the policy says so, those without a role.
-/

namespace OscalValidation

/-- **An assertion:** an outcome and its line, where one is known. -/
structure Assertion where
  outcome : Outcome
  /-- The line of the node it is about. -/
  line : Option Int
deriving DecidableEq

/-- Only a report is no failure. -/
def Assertion.passed (a : Assertion) : Bool := a.outcome.kind == .report

/-- **A severity policy.** Roles are compared without regard to the case of letters. -/
structure SeverityPolicy where
  /-- The roles that block, in lower case. -/
  blockingRoles : List String := ["error", "fatal", "critical"]
  /-- A failed assertion without a role blocks. -/
  unroledBlocks : Bool := true
deriving DecidableEq

namespace SeverityPolicy

/-- The policy with the given roles, which may have blanks around them; empty ones do not
count. -/
def ofRoles (roles : List String) (unroledBlocks : Bool) : SeverityPolicy where
  blockingRoles := ((roles.filter fun role => Text.trim role != "").map fun role =>
    Text.lowerCase (Text.trim role)).eraseDups
  unroledBlocks := unroledBlocks

/-- The policy blocks failures of a role. -/
def blocksRole (policy : SeverityPolicy) (role : Option String) : Bool :=
  match role with
  | none | some "" => policy.unroledBlocks
  | some role => policy.blockingRoles.contains (Text.lowerCase role)

/-- **The assertion blocks the document.** -/
def blocks (policy : SeverityPolicy) (a : Assertion) : Bool :=
  !a.passed && policy.blocksRole a.outcome.role

end SeverityPolicy

end OscalValidation
