import Mathlib.Data.List.Forall2
import OscalValidation.Proofs.CommandLine.Statuses
import OscalValidation.Proofs.Validation.Preparing

set_option autoImplicit false

/-! # The reports on a result agree

The result of a validation is told three times: by the table that is printed, by the exit status
and by the summary in the report. The rows of the table and the assertions are one to one, and the
verdict and all numbers can be read off the rows (`sameStory_display`). So the reports agree unless
the console refuses what is to be shown, or a report is asked for that cannot be written
(`ValidateCall.run_toldAlike_iff`).
-/

namespace OscalValidation

open Console (Item escape)

/-! ## Tables and rows -/

/-- The rows of an item, if it is a table. -/
def Console.Item.rows? : Item → Option (List (List String))
  | .table _ _ rows => some rows
  | _ => none

/-- The tables that are printed, as their rows. -/
def Console.tables (printed : List Item) : List (List (List String)) :=
  printed.filterMap Item.rows?

/-- The row shows a status in its first cell. -/
def showsStatus (status : AssertionStatus) (row : List String) : Bool :=
  row.head? == some status.text

/-- The number of rows that show a failure, one that blocks or an advisory one. -/
def failedRows (rows : List (List String)) : Nat :=
  rows.countP (showsStatus .blocking) + rows.countP (showsStatus .advisory)

/-- The number of rows that show a report. -/
def reportedRows (rows : List (List String)) : Nat := rows.countP (showsStatus .report)

/-- **The row of an assertion** under a policy. -/
structure IsRow (policy : SeverityPolicy) (a : Assertion) (row : List String) : Prop where
  /-- It shows a report exactly if the assertion is one. -/
  report : showsStatus .report row = true ↔ a.outcome.kind = .report
  /-- It shows a failure that blocks exactly if the assertion is one. -/
  blocking : showsStatus .blocking row = true ↔
    a.outcome.kind ≠ .report ∧ policy.blocksRole a.outcome.role = true
  /-- It shows an advisory failure exactly if the assertion is a failure that does not block. -/
  advisory : showsStatus .advisory row = true ↔
    a.outcome.kind ≠ .report ∧ policy.blocksRole a.outcome.role = false
  /-- The other cells tell of the assertion. -/
  cells : row.tail = [a.outcome.id.getD "", a.outcome.role.getD "",
    (a.line.map toString).getD "", escape a.outcome.message]

theorem AssertionStatus.text_inj {s t : AssertionStatus} (h : s.text = t.text) : s = t := by
  cases s <;> cases t <;> first | rfl | exact absurd h (by decide)

/-- The row of an assertion shows its status and no other. -/
theorem showsStatus_row (policy : SeverityPolicy) (status : AssertionStatus) (a : Assertion) :
    showsStatus status (policy.row a) = true ↔ policy.status a = status := by
  rw [showsStatus, SeverityPolicy.row, List.head?_cons, beq_iff_eq, Option.some.injEq]
  exact ⟨AssertionStatus.text_inj, congrArg _⟩

theorem status_cases (policy : SeverityPolicy) (a : Assertion) :
    (policy.status a = .report ∧ a.passed = true ∧ policy.blocks a = false) ∨
      (policy.status a = .blocking ∧ a.passed = false ∧ policy.blocks a = true) ∨
      (policy.status a = .advisory ∧ a.passed = false ∧ policy.blocks a = false) := by
  unfold SeverityPolicy.status SeverityPolicy.blocks
  cases a.passed <;> cases policy.blocksRole a.outcome.role <;> simp

theorem isRow_row (policy : SeverityPolicy) (a : Assertion) : IsRow policy a (policy.row a) := by
  have hpassed : a.passed = true ↔ a.outcome.kind = .report := beq_iff_eq
  have hblocks : policy.blocks a = (!a.passed && policy.blocksRole a.outcome.role) := rfl
  refine ⟨?_, ?_, ?_, rfl⟩ <;>
    rw [showsStatus_row] <;>
    rcases status_cases policy a with ⟨h, hp, hb⟩ | ⟨h, hp, hb⟩ | ⟨h, hp, hb⟩ <;>
    rw [hblocks, hp] at hb <;> simp_all

/-! ## Numbers -/

/-- The failures are the rows that show one, and the reports are the others. -/
theorem countP_rows (policy : SeverityPolicy) (assertions : List Assertion) :
    failedRows (assertions.map policy.row) = (assertions.filter fun a => !a.passed).length ∧
      failedRows (assertions.map policy.row) + reportedRows (assertions.map policy.row) =
        assertions.length := by
  have hshows : ∀ (status : AssertionStatus) (a : Assertion),
      showsStatus status (policy.row a) = decide (policy.status a = status) := fun status a => by
    rw [Bool.eq_iff_iff, showsStatus_row, decide_eq_true_iff]
  unfold failedRows reportedRows
  induction assertions with
  | nil => exact ⟨rfl, rfl⟩
  | cons a rest ih =>
      rw [List.map_cons, List.countP_cons, List.countP_cons, List.countP_cons, hshows, hshows,
        hshows, List.filter_cons, List.length_cons]
      rcases status_cases policy a with ⟨h, hp, -⟩ | ⟨h, hp, -⟩ | ⟨h, hp, -⟩ <;>
        simp only [h, hp, Bool.not_true, Bool.not_false, if_true, if_false, Bool.false_eq_true,
          List.length_cons, reduceCtorEq, decide_true, decide_false] <;> omega

/-! ## One story -/

/-- **What is printed and the summary tell the same story of a result,** by rows that have a status
each. -/
structure SameStory (policy : SeverityPolicy) (result : ValidationResult) (printed : List Item)
    (rows : List (List String)) : Prop where
  /-- The rows are those of the assertions, one each and in their order. -/
  each : List.Forall₂ (IsRow policy) result.assertions rows
  /-- They are printed as one table, and no table is printed where there are none. -/
  table : Console.tables printed = if rows = [] then [] else [rows]
  /-- The document fails exactly if a row shows a failure that blocks. -/
  fails : result.verdict = .fail ↔ ∃ row ∈ rows, showsStatus .blocking row = true
  /-- Otherwise it passes, as it does where there are no rows. -/
  passes : result.verdict = .pass ↔ ∀ row ∈ rows, showsStatus .blocking row = false
  /-- The line below the table tells the numbers of rows. -/
  footer : rows ≠ [] → printed.getLast? = some
    (.line s!"\n[dim]{failedRows rows} failed, {reportedRows rows} reported[/dim]")
  /-- So does the summary of the result. -/
  summary : result.toJson.member? "summary" = some (.obj [("total", .ofNat rows.length),
    ("failed", .ofNat (failedRows rows)), ("passed", .ofNat (reportedRows rows))])
  /-- Every row shows a failure or a report. -/
  total : failedRows rows + reportedRows rows = rows.length

/-- What is shown of a result that is made of assertions. -/
theorem display_ofAssertions (type : Option DocumentType) (ruleset : Ruleset)
    (policy : SeverityPolicy) (assertions : List Assertion) (source : Option String) :
    let result := ValidationResult.ofAssertions type ruleset policy assertions
    result.display policy source = .line "" :: result.panel source ::
      if assertions.isEmpty then [.line "[green]No assertions fired[/green]"]
      else [.table s!"Assertions ({result.ruleset.key})"
          ["Status", "Id", "Role", "Line", "Message"] (assertions.map policy.row),
        .line s!"\n[dim]{result.failures.length} failed, {result.reportCount} reported[/dim]"] := by
  intro result
  have hverdict : result.verdict = if assertions.any policy.blocks then .fail else .pass := rfl
  rw [ValidationResult.display, ValidationResult.details, hverdict]
  cases assertions.any policy.blocks <;> rfl

/-- **The printed result and its summary agree,** whatever the assertions and the policy are. -/
theorem sameStory_display (type : Option DocumentType) (ruleset : Ruleset)
    (policy : SeverityPolicy) (assertions : List Assertion) (source : Option String) :
    let result := ValidationResult.ofAssertions type ruleset policy assertions
    SameStory policy result (result.display policy source) (assertions.map policy.row) := by
  intro result
  obtain ⟨hfailed, htotal⟩ := countP_rows policy assertions
  have hreported : reportedRows (assertions.map policy.row) = result.reportCount := by
    have hcount : result.reportCount =
        assertions.length - (assertions.filter fun a => !a.passed).length := rfl
    omega
  -- the status of a row and the verdict come from the same test of the policy
  have hblocking : (∃ row ∈ assertions.map policy.row, showsStatus .blocking row = true) ↔
      assertions.any policy.blocks = true := by
    simp only [List.any_eq_true, List.mem_map, exists_exists_and_eq_and]
    refine exists_congr fun a => and_congr_right fun _ => ?_
    rw [showsStatus_row]
    rcases status_cases policy a with ⟨h, -, hb⟩ | ⟨h, -, hb⟩ | ⟨h, -, hb⟩ <;> simp [h, hb]
  have hverdict : result.verdict = if assertions.any policy.blocks then .fail else .pass := rfl
  have hdisplay := display_ofAssertions type ruleset policy assertions source
  constructor
  · exact List.forall₂_map_right_iff.mpr (List.forall₂_same.mpr fun a _ => isRow_row policy a)
  · rw [hdisplay]
    cases assertions <;> rfl
  · rw [hblocking, hverdict]
    cases assertions.any policy.blocks <;> simp
  · have hnone : (∀ row ∈ assertions.map policy.row, showsStatus .blocking row = false) ↔
        assertions.any policy.blocks = false := by
      rw [← Bool.not_eq_true, ← hblocking]
      simp
    rw [hnone, hverdict]
    cases assertions.any policy.blocks <;> simp
  · intro hrows
    rw [hfailed, hreported, hdisplay]
    cases assertions with
    | nil => exact absurd rfl hrows
    | cons a rest => rfl
  · rw [hfailed, hreported, List.length_map]
    rfl
  · rw [htotal, List.length_map]

/-! ## Results of judging -/

section Judging

variable {σ α : Type}

/-- A result that is not malformed is made of assertions under the policy of the service. -/
theorem ValidationService.ofAssertions_of_validate {service : ValidationService σ α}
    {input : DocumentInput} {request : ValidationRequest} {state : ValidationState σ α}
    {result : ValidationResult} (h : (service.validate input request state).1 = .ok result)
    (hjudged : result.verdict ≠ .malformed) :
    ∃ type ruleset assertions, result = .ofAssertions type ruleset service.policy assertions := by
  rcases service.prepare_cases input request with
    ⟨fault, hp⟩ | ⟨type, ruleset, fault, -, hp⟩ | ⟨key, document, -, hp⟩ <;>
    rw [validate, hp] at h
  · cases h
  · cases h
    exact absurd rfl hjudged
  · dsimp only at h
    rw [judge] at h
    obtain ⟨outcomes, -, h⟩ := bind_eq_ok_iff.mp h
    obtain ⟨assertions, -, h⟩ := bind_eq_ok_iff.mp h
    exact ⟨_, _, assertions, (pure_eq_ok_iff.mp h).symm⟩

theorem ValidationService.ofAssertions_of_validateFile {service : ValidationService σ α}
    {files : FileTree} {path : Path} {request : ValidationRequest} {state : ValidationState σ α}
    {result : ValidationResult} (h : (service.validateFile files path request state).1 = .ok result)
    (hjudged : result.verdict ≠ .malformed) :
    ∃ type ruleset assertions, result = .ofAssertions type ruleset service.policy assertions := by
  rw [validateFile] at h
  split at h
  · cases h
  · exact ofAssertions_of_validate h hjudged

end Judging

/-! ## What is printed -/

namespace CommandLine

variable {σ α : Type}

/-- Everything is printed, or what comes before the first item that is refused. -/
theorem Host.print_cases (host : Host σ α) (items : List Item) :
    host.print items = (items, none) ∨
      ∃ before item after name, items = before ++ item :: after ∧
        host.refusal item = some name ∧ host.print items = (before, some name) := by
  induction items with
  | nil => exact Or.inl rfl
  | cons first rest ih =>
      cases hfirst : host.refusal first with
      | some name => exact Or.inr ⟨[], first, rest, name, rfl, hfirst, by rw [print, hfirst]⟩
      | none =>
          rcases ih with h | ⟨before, item, after, name, rfl, hitem, h⟩
          · exact Or.inl (by simp [print, hfirst, h])
          · exact Or.inr ⟨first :: before, item, after, name, rfl, hitem, by simp [print, hfirst, h]⟩

end CommandLine

/-- **A story that is cut short is not the same:** there are assertions, but not all of what tells
of them is printed. -/
theorem not_sameStory_of_prefix {type : Option DocumentType} {ruleset : Ruleset}
    {policy : SeverityPolicy} {assertions : List Assertion} {source : Option String}
    {before after : List Item} {item : Item} (given : assertions ≠ [])
    (cut : (ValidationResult.ofAssertions type ruleset policy assertions).display policy source =
      before ++ item :: after) (rows : List (List String)) :
    ¬ SameStory policy (.ofAssertions type ruleset policy assertions) before rows := by
  intro story
  have hrows : rows ≠ [] := by
    rintro rfl
    exact given (List.forall₂_nil_right_iff.mp story.each)
  have htable := story.table
  have hfooter := story.footer hrows
  rw [if_neg hrows] at htable
  rw [display_ofAssertions, if_neg (by simpa using given)] at cut
  -- the table and the line below it come last, so one of them is missing
  match before, cut with
  | [], _ => cases htable
  | [_], cut =>
      cases cut
      cases htable
  | [_, _], cut =>
      cases cut
      cases htable
  | [_, _, _], cut =>
      cases cut
      cases hfooter
  | _ :: _ :: _ :: _ :: more, cut => simp at cut

/-! ## Runs -/

namespace CommandLine.ValidateCall

variable {σ α : Type} {host : Host σ α} {call : ValidateCall} {session : Session}
  {result : ValidationResult}

/-- **The reports on a result tell the same:** what is printed goes with the summary, and the exit
status with the verdict. -/
structure ToldAlike (policy : SeverityPolicy) (result : ValidationResult) (ran : Run) : Prop where
  story : ∃ rows, SameStory policy result ran.printed rows
  passes : ran.status = 0 ↔ result.verdict = .pass
  fails : ran.status = 1 ↔ result.verdict = .fail

/-- What a program prints that is not quiet. -/
theorem Judges.printed_eq (judged : call.Judges host session result)
    (loud : call.invocation.quiet = false) :
    ((call.run host).printed, call.refused host session result) =
      host.print (result.display session.policy (some call.path.text)) := by
  rw [judged.run_eq, refused, showResult, loud]
  dsimp only
  generalize host.print (result.display session.policy (some call.path.text)) = shown
  obtain ⟨printed, raised⟩ := shown
  generalize writeAsked host call.storage.files call.report
    (result.report (some call.path.text) call.time) = wrote
  cases raised with
  | some name => rfl
  | none => cases wrote <;> rfl

/-- The status where a document is judged. -/
theorem Judges.status_eq (judged : call.Judges host session result) :
    (call.run host).status = match call.refused host session result, call.written host result with
      | none, .ok _ => verdictStatus result.verdict
      | _, _ => escapeStatus := by
  have hends := congrArg Prod.fst (call.showResult_ends host session result)
  rw [judged.run_eq]
  refine hends.trans ?_
  cases call.refused host session result with
  | some name => rfl
  | none => cases call.written host result <;> rfl

/-- A result that is not malformed is made of assertions under the policy of the session. -/
theorem Judges.exists_ofAssertions (judged : call.Judges host session result)
    (wellFormed : result.verdict ≠ .malformed) :
    ∃ type ruleset assertions,
      result = .ofAssertions type ruleset session.policy assertions := by
  have hjudged := judged.judged
  unfold judgement Host.judgement at hjudged
  dsimp only at hjudged
  split at hjudged
  · exact ValidationService.ofAssertions_of_validate hjudged wellFormed
  · exact ValidationService.ofAssertions_of_validateFile hjudged wellFormed

/-- **The table, the exit status and the summary of a judged document tell the same,** whatever the
outcomes of the engine and the blocking roles are, but for two cases: the console refuses an item of
what is to be shown, so that nothing from it on is shown and nothing is written, or the document
passes and a report is asked for that cannot be written. Both have the status of a document that
fails. -/
theorem run_toldAlike_iff (host : Host σ α) (loud : call.invocation.quiet = false)
    (judged : call.Judges host session result) (wellFormed : result.verdict ≠ .malformed) :
    let ran := call.run host
    let shown := result.display session.policy (some call.path.text)
    (∃ rows, SameStory session.policy result shown rows) ∧
    (result.assertions = [] → result.verdict = .pass) ∧
    (result.report (some call.path.text) call.time).member? "summary" =
      result.toJson.member? "summary" ∧
    (call.refused host session result = none → ran.printed = shown) ∧
    (∀ name, call.refused host session result = some name → ran.status = 1 ∧
      ∃ item after, shown = ran.printed ++ item :: after ∧ host.refusal item = some name) ∧
    (ToldAlike session.policy result ran ↔ call.refused host session result = none ∧
      (result.verdict = .fail ∨ ∃ files, call.written host result = .ok files)) := by
  intro ran shown
  obtain ⟨type, ruleset, assertions, rfl⟩ := judged.exists_ofAssertions wellFormed
  have hstory := sameStory_display type ruleset session.policy assertions (some call.path.text)
  have hempty : assertions = [] →
      (ValidationResult.ofAssertions type ruleset session.policy assertions).verdict = .pass := by
    rintro rfl
    rfl
  have hprinted := judged.printed_eq loud
  have hstatus := judged.status_eq
  refine ⟨⟨_, hstory⟩, hempty, rfl, ?_⟩
  rcases host.print_cases shown with hall | ⟨before, item, after, name, hcut, hitem, hbefore⟩
  · obtain ⟨hran, hrefused⟩ := Prod.mk.inj (hprinted.trans hall)
    rw [hrefused] at hstatus ⊢
    have hprintedStory : ∃ rows, SameStory session.policy
        (.ofAssertions type ruleset session.policy assertions) ran.printed rows := by
      rw [hran]
      exact ⟨_, hstory⟩
    refine ⟨fun _ => hran, nofun, ?_⟩
    cases hw : call.written host (.ofAssertions type ruleset session.policy assertions) with
    | ok files =>
        rw [hw] at hstatus
        refine ⟨fun _ => ⟨rfl, Or.inr ⟨files, rfl⟩⟩, fun _ => ⟨hprintedStory, ?_, ?_⟩⟩
        · rw [hstatus]
          exact verdictStatus_eq_iff (w := .pass)
        · rw [hstatus]
          exact verdictStatus_eq_iff (w := .fail)
    | error e =>
        -- the status is that of a document that fails, be it so or not
        rw [hw] at hstatus
        have hone : ran.status = 1 := hstatus
        refine ⟨fun alike => ⟨rfl, Or.inl (alike.fails.mp hone)⟩, ?_⟩
        rintro ⟨-, hfail | ⟨files, hfiles⟩⟩
        · exact ⟨hprintedStory, by simp [hone, hfail], by simp [hone, hfail]⟩
        · cases hfiles
  · obtain ⟨hran, hrefused⟩ := Prod.mk.inj (hprinted.trans hbefore)
    rw [hrefused] at hstatus ⊢
    have hone : ran.status = 1 := hstatus
    refine ⟨nofun, ?_, ?_⟩
    · rintro _ ⟨⟩
      exact ⟨hone, item, after, hran.symm ▸ hcut, hitem⟩
    · refine ⟨fun alike => absurd alike.fails.symm ?_, fun h => nomatch h.1⟩
      -- a document without assertions passes, and of others the story is cut short
      obtain ⟨rows, story⟩ := alike.story
      intro hfails
      by_cases hnone : assertions = []
      · have hpass := hempty hnone
        rw [hfails.mpr hone] at hpass
        cases hpass
      · rw [hran] at story
        exact not_sameStory_of_prefix hnone hcut rows story

/-! ## A status that does not follow the verdict -/

/-- An engine that gives the same outcomes for every document. -/
def fixedEngine (outcomes : List Outcome) : RuleEngine Unit Unit where
  load _ state := (some (.loaded ()), state)
  evaluate _ _ _ state := (.ok outcomes, state)

/-- The surroundings with such an engine. -/
def fixedHost (outcomes : List Outcome) : Host Unit Unit where
  engine _ := fixedEngine outcomes
  start _ := ()

/-- A report, a failure that blocks and an advisory one. -/
def mixedOutcomes : List Outcome :=
  [⟨.report, some "r", none, none, none, "noted"⟩, ⟨.assert, some "a", none, none, none, "wrong"⟩,
    ⟨.assert, some "b", some "warning", none, none, "unusual"⟩]

/-- Files with an assessment plan and with rules for it that find nothing. -/
def planStorage : Storage :=
  ⟨⟨[(["p.xml"], .file (Text.encode
      "<assessment-plan xmlns='http://csrc.nist.gov/ns/oscal/1.0'/>")),
    (["dist"], .directory), (["dist", "rules"], .directory),
    (["dist", "rules", "rev5"], .directory),
    (["dist", "rules", "rev5", "sap.xsl"], .file (Text.encode
      ("<x:stylesheet version='1.0' xmlns:x='http://www.w3.org/1999/XSL/Transform'>" ++
        "<x:template match='/'><r/></x:template></x:stylesheet>")))]⟩, fun _ => none⟩

def planCall (report : Option Path) : ValidateCall where
  invocation :=
    { verbose := false, quiet := false, rulesBase := none, contentBase := none, ruleset := none,
      command := .validate (.ofString "p.xml") none report }
  environment := []
  storage := planStorage
  time := ""
  path := .ofString "p.xml"
  type := none
  report := report

theorem planCall_opens (report : Option Path) {σ α : Type} (host : Host σ α)
    (going : host.interruption .opening = none) :
    (planCall report).Opens host ⟨{}, .bundled⟩ :=
  have there : (planStorage.files.isFile (.ofString "p.xml")).toOption = some true := by
    decide +kernel
  ⟨⟨going, eq_ok_of_toOption there⟩, {}, rfl, rfl⟩

/-- A report and two failures of which one blocks: three rows are printed, and the status is that
of a document that fails. -/
theorem planCall_toldAlike :
    ∃ result, (planCall none).invocation.quiet = false ∧
      (planCall none).Judges (fixedHost mixedOutcomes) ⟨{}, .bundled⟩ result ∧
      result.verdict ≠ .malformed ∧
      ToldAlike (Session.policy ⟨{}, .bundled⟩) result
        ((planCall none).run (fixedHost mixedOutcomes)) ∧
      ((planCall none).run (fixedHost mixedOutcomes)).status = 1 := by
  have judged : (planCall none).Judges (fixedHost mixedOutcomes) ⟨{}, .bundled⟩
      ⟨.fail, some .sap, .rev5, mixedOutcomes.map (⟨·, none⟩), []⟩ :=
    ⟨planCall_opens none _ rfl, rfl, eq_ok_of_toOption (by decide +kernel)⟩
  obtain ⟨-, -, -, -, -, halike⟩ := run_toldAlike_iff (fixedHost mixedOutcomes) rfl judged nofun
  have alike := halike.mpr ⟨by decide +kernel, Or.inl rfl⟩
  exact ⟨_, rfl, judged, nofun, alike, alike.fails.mpr rfl⟩

/-- **A report that cannot be written gives a document that passes the status of one that fails,**
though no assertion is shown. -/
theorem planCall_status :
    (planCall (some (.ofString "p.xml/o.json"))).judgement .usual ⟨{}, .bundled⟩ =
      .ok ⟨.pass, some .sap, .rev5, [], []⟩ ∧
    Console.tables ((planCall (some (.ofString "p.xml/o.json"))).run .usual).printed = [] ∧
    (CommandLine.run ["validate", "p.xml", "-o", "p.xml/o.json"] [] planStorage "").status = 1 := by
  have judged : (planCall (some (.ofString "p.xml/o.json"))).Judges .usual ⟨{}, .bundled⟩
      ⟨.pass, some .sap, .rev5, [], []⟩ :=
    ⟨planCall_opens _ _ rfl, rfl, eq_ok_of_toOption (by decide +kernel)⟩
  have reads : Request.read [] planStorage.files ["validate", "p.xml", "-o", "p.xml/o.json"] =
      .ok (.run (planCall (some (.ofString "p.xml/o.json"))).invocation) :=
    eq_ok_of_toOption (by decide +kernel)
  refine ⟨judged.judged, ?_, ?_⟩
  · rw [judged.run_eq]
    decide +kernel
  · have hstatus :=
      (@run_arguments _ _ (planCall (some (.ofString "p.xml/o.json"))) .usual _ reads rfl).1
    rw [judged.run_eq] at hstatus
    exact hstatus.trans (by decide +kernel)

end CommandLine.ValidateCall

end OscalValidation
