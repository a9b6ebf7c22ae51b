import OscalValidation.Proofs.Console.Markup
import OscalValidation.Validation.Display

set_option autoImplicit false

/-! # Text from elsewhere in what is printed

What is printed about a result consists of words of its own and of texts from elsewhere: the path
of the document, and the identifiers, roles and messages of assertions or the diagnostics. Messages
and diagnostics are escaped, the others are printed as they are (`display_eq_print`). So everything
from elsewhere is escaped exactly if the others read the same with and without escaping
(`displayEscapes_iff`).
-/

namespace OscalValidation

open Console (Item escape IsUnmarked IsShownBy escape_eq_self_iff isShownBy_append_escape)

/-! ## What a result shows -/

/-- Where a text comes from that is not the program's own. -/
inductive Origin
  | source
  | id
  | role
  | message
  | diagnostic

/-- Texts of the origin are escaped when they are printed. -/
def Origin.isEscaped : Origin → Bool
  | .message | .diagnostic => true
  | .source | .id | .role => false

/-- What an assertion shows, where `α` is the type of texts from elsewhere. -/
structure ShownAssertion (α : Type) where
  status : AssertionStatus
  id : Option α
  role : Option α
  line : Option Int
  message : α

/-- **What a result shows,** where `α` is the type of texts from elsewhere. -/
structure Shown (α : Type) where
  verdict : Verdict
  type : Option DocumentType
  ruleset : Ruleset
  source : Option α
  diagnostics : List α
  assertions : List (ShownAssertion α)

/-- What an assertion shows under a policy. -/
def SeverityPolicy.shown (policy : SeverityPolicy) (a : Assertion) : ShownAssertion String where
  status := policy.status a
  id := a.outcome.id
  role := a.outcome.role
  line := a.line
  message := a.outcome.message

/-- What a result shows under a policy; an empty path is none. -/
def ValidationResult.shown (result : ValidationResult) (policy : SeverityPolicy)
    (source : Option String) : Shown String where
  verdict := result.verdict
  type := result.type
  ruleset := result.ruleset
  source := source.filter (· != "")
  diagnostics := result.diagnostics
  assertions := result.assertions.map policy.shown

/-! ## Printing with texts written in some way -/

section Printing

variable {α : Type}

/-- A row, with texts from elsewhere as they are written. -/
def ShownAssertion.row (write : Origin → α → String) (a : ShownAssertion α) : List String :=
  [a.status.text, (a.id.map (write .id)).getD "", (a.role.map (write .role)).getD "",
    (a.line.map toString).getD "", write .message a.message]

namespace Shown

def panel (write : Origin → α → String) (shown : Shown α) : Item :=
  let style := shown.verdict.style
  let title := (shown.type.map DocumentType.title).getD "OSCAL document"
  let origin :=
    (shown.source.map fun source => "\n[dim]" ++ write .source source ++ "[/dim]").getD ""
  .panel (s!"[bold {style}]{title}: {shown.verdict.heading}[/bold {style}]" ++ origin) style

def failed (shown : Shown α) : Nat := shown.assertions.countP fun a => a.status != .report

def details (write : Origin → α → String) (shown : Shown α) : List Item :=
  match shown.verdict with
  | .malformed =>
      .line "[bold yellow]Document could not be converted for rule evaluation:[/bold yellow]" ::
        shown.diagnostics.map fun d => .line ("  • " ++ write .diagnostic d)
  | _ =>
      if shown.assertions.isEmpty then [.line "[green]No assertions fired[/green]"]
      else
        let reported := shown.assertions.length - shown.failed
        [.table s!"Assertions ({shown.ruleset.key})" ["Status", "Id", "Role", "Line", "Message"]
            (shown.assertions.map (·.row write)),
          .line s!"\n[dim]{shown.failed} failed, {reported} reported[/dim]"]

/-- **What is printed,** with texts from elsewhere as they are written. All other words depend on
nothing but the verdict, the type, the ruleset, and the numbers, statuses and lines of
assertions. -/
def print (write : Origin → α → String) (shown : Shown α) : List Item :=
  .line "" :: shown.panel write :: shown.details write

end Shown

end Printing

/-- A text as it is printed. -/
def writtenAs (origin : Origin) (text : String) : String :=
  if origin.isEscaped then escape text else text

theorem SeverityPolicy.row_shown (policy : SeverityPolicy) (a : Assertion) :
    (policy.shown a).row writtenAs = policy.row a := by
  unfold ShownAssertion.row SeverityPolicy.row SeverityPolicy.shown
  cases a.outcome.id <;> cases a.outcome.role <;> rfl

namespace ValidationResult

variable (result : ValidationResult) (policy : SeverityPolicy) (source : Option String)

theorem failed_shown : (result.shown policy source).failed = result.failures.length := by
  have hstatus : ∀ a : Assertion, (policy.status a != .report) = !a.passed := by
    intro a
    unfold SeverityPolicy.status
    cases a.passed <;> cases policy.blocks a <;> rfl
  rw [Shown.failed, shown, List.countP_map, failures, ← List.countP_eq_length_filter]
  exact List.countP_congr fun a _ => by rw [← hstatus a]; rfl

theorem panel_shown : (result.shown policy source).panel writtenAs = result.panel source := by
  unfold Shown.panel panel shown
  cases source with
  | none => rfl
  | some path =>
      by_cases hpath : path = ""
      · rw [hpath]
        rfl
      · rw [Option.filter_some, if_pos (by simpa using hpath)]
        dsimp only
        split
        · next h => cases h
        · next h => exact absurd (Option.some.inj h) hpath
        · next h => cases h; rfl

theorem details_shown :
    (result.shown policy source).details writtenAs = result.details policy := by
  have hrows : (result.assertions.map policy.shown).map (·.row writtenAs) =
      result.assertions.map policy.row := by
    rw [List.map_map]
    exact List.map_congr_left fun a _ => policy.row_shown a
  unfold Shown.details details
  rw [failed_shown]
  unfold shown
  rw [hrows, List.length_map, List.isEmpty_map]
  cases result.verdict <;> rfl

/-- **What is printed about a result:** messages and diagnostics are escaped, the path, identifiers
and roles are not. -/
theorem display_eq_print :
    result.display policy source = (result.shown policy source).print writtenAs := by
  rw [display, Shown.print, panel_shown, details_shown]

end ValidationResult

/-! ## Ways of writing -/

section Writing

variable {α : Type} {write write' : Origin → α → String}

theorem getD_map_eq_iff {f g : α → String} {text : Option α} :
    (text.map f).getD "" = (text.map g).getD "" ↔ ∀ s ∈ text, f s = g s := by
  cases text <;> simp

/-- Two rows of an assertion are the same if its texts are written in the same way. -/
theorem ShownAssertion.row_eq_iff {a : ShownAssertion α} :
    a.row write = a.row write' ↔ (∀ id ∈ a.id, write .id id = write' .id id) ∧
      (∀ role ∈ a.role, write .role role = write' .role role) ∧
        write .message a.message = write' .message a.message := by
  unfold row
  simp only [List.cons.injEq, getD_map_eq_iff, true_and, and_true]

theorem Shown.panel_eq_iff {shown : Shown α} :
    shown.panel write = shown.panel write' ↔
      ∀ path ∈ shown.source, write .source path = write' .source path := by
  unfold panel
  dsimp only
  rw [Item.panel.injEq, and_iff_left rfl, String.append_right_inj, getD_map_eq_iff]
  simp only [String.append_left_inj, String.append_right_inj]

theorem Shown.details_eq_iff {shown : Shown α} :
    shown.details write = shown.details write' ↔
      if shown.verdict = .malformed then
        ∀ d ∈ shown.diagnostics, write .diagnostic d = write' .diagnostic d
      else ∀ a ∈ shown.assertions, a.row write = a.row write' := by
  unfold details
  split
  · next hmalformed =>
    rw [if_pos hmalformed, List.cons.injEq, and_iff_right rfl, List.map_inj_left]
    simp only [Item.line.injEq, String.append_right_inj]
  · next hother =>
    rw [if_neg hother]
    split
    · next hempty =>
      rw [List.isEmpty_iff.mp hempty]
      simp
    · rw [List.cons.injEq, and_iff_left rfl, Item.table.injEq, and_iff_right rfl,
        and_iff_right rfl, List.map_inj_left]

/-- **The same is printed exactly if the texts that are printed are written in the same way.** -/
theorem Shown.print_eq_iff {shown : Shown α} :
    shown.print write = shown.print write' ↔
      (∀ path ∈ shown.source, write .source path = write' .source path) ∧
        if shown.verdict = .malformed then
          ∀ d ∈ shown.diagnostics, write .diagnostic d = write' .diagnostic d
        else ∀ a ∈ shown.assertions, a.row write = a.row write' := by
  rw [print, print, List.cons.injEq, and_iff_right rfl, List.cons.injEq, panel_eq_iff,
    details_eq_iff]

end Writing

/-! ## When everything is escaped -/

theorem writtenAs_eq_escape_iff {origin : Origin} {text : String} :
    writtenAs origin text = escape text ↔ origin.isEscaped = true ∨ IsUnmarked text := by
  unfold writtenAs
  split
  · next h => simp [h]
  · next h => rw [eq_comm, escape_eq_self_iff, or_iff_right h]

/-- **What is printed holds every text from elsewhere in its escaped form.** -/
def ValidationResult.DisplayEscapes (result : ValidationResult) (policy : SeverityPolicy)
    (source : Option String) : Prop :=
  result.display policy source = (result.shown policy source).print fun _ => escape

/-- Messages are shown as they are. -/
theorem SeverityPolicy.isShownBy_row (policy : SeverityPolicy) (a : Assertion) :
    ∃ cell, (policy.row a).getLast? = some cell ∧ IsShownBy "" a.outcome.message cell := by
  refine ⟨_, rfl, ?_⟩
  have hshown : IsShownBy "" a.outcome.message ("" ++ escape a.outcome.message) :=
    isShownBy_append_escape (fun c hc => absurd hc List.not_mem_nil) a.outcome.message
  rwa [String.empty_append] at hshown

/-- Diagnostics are shown as they are. -/
theorem ValidationResult.isShownBy_display (result : ValidationResult) (policy : SeverityPolicy)
    (source : Option String) (hmalformed : result.verdict = .malformed) {d : String}
    (hd : d ∈ result.diagnostics) : ∃ content,
      .line content ∈ result.display policy source ∧ IsShownBy "  • " d content := by
  have hown : "  • ".toList.all (fun c => decide (c ≠ '\\' ∧ c ≠ '[')) = true := by decide
  refine ⟨"  • " ++ escape d, ?_, isShownBy_append_escape
    (fun c hc => of_decide_eq_true (List.all_eq_true.mp hown c hc)) d⟩
  rw [display, details, hmalformed]
  exact List.mem_cons_of_mem _ (List.mem_cons_of_mem _ (List.mem_cons_of_mem _
    (List.mem_map_of_mem hd)))

/-- Everything from elsewhere is escaped exactly if the path, and the identifiers and roles where
assertions are shown, read the same with and without escaping. Messages and diagnostics always are,
so that they are shown as they are. -/
theorem ValidationResult.displayEscapes_iff (result : ValidationResult) (policy : SeverityPolicy)
    (source : Option String) :
    (result.DisplayEscapes policy source ↔
      (∀ path ∈ source, IsUnmarked path) ∧
        (result.verdict ≠ .malformed → ∀ a ∈ result.assertions,
          (∀ id ∈ a.outcome.id, IsUnmarked id) ∧ ∀ role ∈ a.outcome.role, IsUnmarked role)) ∧
      (∀ a ∈ result.assertions, ∃ cell, (policy.row a).getLast? = some cell ∧
        IsShownBy "" a.outcome.message cell) ∧
      (result.verdict = .malformed → ∀ d ∈ result.diagnostics, ∃ content,
        .line content ∈ result.display policy source ∧ IsShownBy "  • " d content) := by
  refine ⟨?_, fun a _ => policy.isShownBy_row a,
    fun hmalformed d hd => result.isShownBy_display policy source hmalformed hd⟩
  have hsource : (∀ path ∈ source.filter (· != ""), IsUnmarked path) ↔
      ∀ path ∈ source, IsUnmarked path := by
    refine ⟨fun h path hpath => ?_, fun h path hpath =>
      h path (Option.mem_filter_iff.mp hpath).1⟩
    by_cases hempty : path = ""
    · rw [hempty, ← escape_eq_self_iff]
      decide
    · exact h path (Option.mem_filter_iff.mpr ⟨hpath, by simpa using hempty⟩)
  have hrows : (∀ a ∈ (result.shown policy source).assertions,
        a.row writtenAs = a.row fun _ => escape) ↔
      ∀ a ∈ result.assertions,
        (∀ id ∈ a.outcome.id, IsUnmarked id) ∧ ∀ role ∈ a.outcome.role, IsUnmarked role := by
    rw [shown, List.forall_mem_map]
    refine forall₂_congr fun a _ => ?_
    simp [ShownAssertion.row_eq_iff, writtenAs_eq_escape_iff, Origin.isEscaped,
      SeverityPolicy.shown]
  rw [DisplayEscapes, display_eq_print, Shown.print_eq_iff, hrows]
  simp only [writtenAs_eq_escape_iff, Origin.isEscaped, Bool.false_eq_true, false_or, true_or,
    implies_true]
  refine and_congr hsource ?_
  by_cases hmalformed : result.verdict = .malformed
  · simp [shown, hmalformed]
  · simp [shown, hmalformed]

/-- A result with one assertion, whose identifier and role are in brackets. -/
def ValidationResult.bracketed : ValidationResult :=
  .ofAssertions (some .ssp) .rev5 {}
    [⟨⟨.assert, some "[i]", some "[red]error[/red]", none, none, "Message"⟩, none⟩]

/-- Its path, identifier and role are printed as they are. -/
theorem ValidationResult.not_displayEscapes_bracketed :
    ¬ ValidationResult.bracketed.DisplayEscapes {} (some "[path]/x.json") := by
  unfold DisplayEscapes
  decide +kernel

end OscalValidation
