import OscalValidation.Console.Markup
import OscalValidation.Validation.Result

set_option autoImplicit false

/-! # Displaying a result

The result of a validation is shown as a panel with the verdict and, below it, what led to it:
the diagnostics of a malformed document, or a table with one row for each assertion.
-/

namespace OscalValidation

open Console (Item escape)

def Verdict.style : Verdict → String
  | .pass => "green"
  | .fail => "red"
  | .malformed => "yellow"

/-- The status of an assertion under a policy. -/
inductive AssertionStatus
  | report
  /-- It failed and blocks the document. -/
  | blocking
  /-- It failed and does not block. -/
  | advisory
deriving DecidableEq

def SeverityPolicy.status (policy : SeverityPolicy) (a : Assertion) : AssertionStatus :=
  if a.passed then .report else if policy.blocks a then .blocking else .advisory

def AssertionStatus.text : AssertionStatus → String
  | .report => "[green]report[/green]"
  | .blocking => "[red]FAIL[/red]"
  | .advisory => "[yellow]advisory[/yellow]"

def SeverityPolicy.row (policy : SeverityPolicy) (a : Assertion) : List String :=
  [(policy.status a).text, a.outcome.id.getD "", a.outcome.role.getD "",
    (a.line.map toString).getD "", escape a.outcome.message]

namespace ValidationResult

def panel (result : ValidationResult) (source : Option String) : Item :=
  let style := result.verdict.style
  let title := (result.type.map DocumentType.title).getD "OSCAL document"
  let origin := match source with
    | none | some "" => ""
    | some source => s!"\n[dim]{source}[/dim]"
  .panel (s!"[bold {style}]{title}: {result.verdict.heading}[/bold {style}]" ++ origin) style

/-- What is shown below the panel. -/
def details (result : ValidationResult) (policy : SeverityPolicy) : List Item :=
  match result.verdict with
  | .malformed =>
      .line "[bold yellow]Document could not be converted for rule evaluation:[/bold yellow]" ::
        result.diagnostics.map fun d => .line ("  • " ++ escape d)
  | _ =>
      if result.assertions.isEmpty then [.line "[green]No assertions fired[/green]"]
      else
        [.table s!"Assertions ({result.ruleset.key})" ["Status", "Id", "Role", "Line", "Message"]
            (result.assertions.map policy.row),
          .line s!"\n[dim]{result.failures.length} failed, {result.reportCount} reported[/dim]"]

/-- **What is printed about a result.** -/
def display (result : ValidationResult) (policy : SeverityPolicy) (source : Option String) :
    List Item :=
  .line "" :: result.panel source :: result.details policy

end ValidationResult

end OscalValidation
