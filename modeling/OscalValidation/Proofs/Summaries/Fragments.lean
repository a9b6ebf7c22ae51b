import OscalValidation.CommandLine.Run
import OscalValidation.Proofs.Summaries.Generation
import OscalValidation.Proofs.Summaries.Scenarios

set_option autoImplicit false

/-! # Test suites that cannot be summed up

The context of a scenario is shown by writing its elements on their own and reading them back.
What means something only inside the document, or cannot be written in ASCII, is lost on the way
(`Node.readBack?_eq_none_iff`). A suite is summed up, or is refused with where it is, unless an
active expectation has such a context (`generate_told_iff`); then the command does not tell
anything (`CommandLine.ScenarioCall.run_told_iff`).
-/

namespace OscalValidation

open Scenario (Context HidesContext IsNearest Summarizes expectationsIn)

/-! ## Reading back -/

namespace Xml

/-- **The node cannot be read back on its own.** -/
inductive Node.Unreadable : Node → Prop
  /-- It refers to an entity of its document. -/
  | entity (name : String) : Unreadable (.entity name)
  /-- It is an instruction to a target that is not in ASCII. -/
  | target {target content : String} {line : Option Nat} (foreign : isAscii target = false) :
      Unreadable (.instruction target content line)
  | name {tag : Tag} {children : List Node} (foreign : tag.hasAsciiNames = false) :
      Unreadable (.element tag children)
  /-- The value of an attribute refers to an entity of its document. -/
  | value {tag : Tag} {children : List Node} {a : Attribute} (mem : a ∈ tag.attributes)
      (uses : a.usesEntity = true) : Unreadable (.element tag children)
  /-- A node inside cannot be read back. -/
  | inside {tag : Tag} {children : List Node} {child : Node} (mem : child ∈ children)
      (inner : Unreadable child) : Unreadable (.element tag children)

/-- An element cannot be read back because of its tag or of what is inside. -/
theorem Node.unreadable_element_iff {tag : Tag} {children : List Node} :
    (Node.element tag children).Unreadable ↔
      (tag.hasAsciiNames && !tag.attributes.any (·.usesEntity)) = false ∨
        ∃ child ∈ children, child.Unreadable := by
  rw [Bool.and_eq_false_iff, Bool.not_eq_false', List.any_eq_true]
  constructor
  · rintro (_ | _ | foreign | ⟨mem, uses⟩ | ⟨mem, inner⟩)
    · exact .inl (.inl foreign)
    · exact .inl (.inr ⟨_, mem, uses⟩)
    · exact .inr ⟨_, mem, inner⟩
  · rintro ((foreign | ⟨a, mem, uses⟩) | ⟨child, mem, inner⟩)
    · exact .name foreign
    · exact .value mem uses
    · exact .inside mem inner

mutual

/-- **What cannot be read back.** -/
theorem Node.readBack?_eq_none_iff : (node : Node) → (node.readBack? = none ↔ node.Unreadable)
  | .element tag children => by
      rw [Node.unreadable_element_iff, Node.readBack?]
      split
      · next hwritten =>
        rw [Option.map_eq_none_iff, nodesReadBack?_eq_none_iff children, hwritten]
        simp
      · next hwritten => simp [Bool.eq_false_iff.mpr hwritten]
  | .text content => by
      simp only [Node.readBack?, reduceCtorEq, false_iff]
      exact nofun
  | .comment content line => by
      simp only [Node.readBack?, reduceCtorEq, false_iff]
      exact nofun
  | .instruction target content line => by
      rw [Node.readBack?]
      split
      · next hascii =>
        simp only [reduceCtorEq, false_iff]
        rintro (_ | foreign)
        rw [hascii] at foreign
        cases foreign
      · next hforeign =>
        exact ⟨fun _ => .target (Bool.eq_false_iff.mpr hforeign), fun _ => rfl⟩
  | .entity name => ⟨fun _ => .entity name, fun _ => rfl⟩

theorem nodesReadBack?_eq_none_iff : (nodes : List Node) →
    (nodesReadBack? nodes = none ↔ ∃ node ∈ nodes, node.Unreadable)
  | [] => by simp [nodesReadBack?]
  | node :: rest => by
      rw [nodesReadBack?, List.exists_mem_cons_iff, ← Node.readBack?_eq_none_iff node,
        ← nodesReadBack?_eq_none_iff rest]
      cases node.readBack? with
      | none => simp
      | some read => cases nodesReadBack? rest <;> simp

end

/-- The element with the declarations in scope around it made its own. -/
def Element.inScope (outer : List Declaration) (e : Element) : Node :=
  .element { e.tag with declarations := addDeclarations e.tag.declarations outer } e.children

theorem Element.fragment?_eq_none_iff {outer : List Declaration} {e : Element} :
    e.fragment? outer = none ↔ (e.inScope outer).Unreadable := by
  rw [fragment?, Option.map_eq_none_iff, Node.readBack?_eq_none_iff]
  rfl

theorem fragmentParts?_eq_none_iff {outer : List Declaration} {nodes : List Node} :
    fragmentParts? outer nodes = none ↔
      ∃ e ∈ nodes.filterMap Node.element?, (e.inScope outer).Unreadable := by
  induction nodes with
  | nil => simp [fragmentParts?]
  | cons node rest ih =>
      rw [fragmentParts?]
      cases node with
      | element tag children =>
          have helement : (Node.element tag children).element? = some ⟨tag, children⟩ := rfl
          rw [List.filterMap_cons_some helement, List.exists_mem_cons_iff, ← ih,
            ← Element.fragment?_eq_none_iff]
          cases fragmentParts? outer rest with
          | none => simp
          | some after => cases h : Element.fragment? outer ⟨tag, children⟩ <;> simp [h]
      | _ =>
          rw [List.filterMap_cons_none rfl, ← ih]
          cases fragmentParts? outer rest <;> simp

/-- **An element's content cannot be shown** exactly if an element directly inside cannot be read
back with the declarations in scope there. -/
theorem Element.content?_eq_none_iff {outer : List Declaration} {e : Element} :
    e.content? outer = none ↔ ∃ child ∈ e.elements,
      (child.inScope (addDeclarations e.tag.declarations outer)).Unreadable := by
  rw [elements, ← fragmentParts?_eq_none_iff, content?]
  cases fragmentParts? (addDeclarations e.tag.declarations outer) e.children with
  | none => simp
  | some parts => cases parts <;> simp

end Xml

/-! ## Test suites -/

/-- **A part of the context of an expectation is lost:** the nearest scenario that has a context
holds it itself, and an element in it cannot be read back. -/
inductive Scenario.LosesPart (suite : Xml.Element) (place : Scenario.Place) : Prop
  /-- The part is directly in the context. -/
  | intro {context : Context} {part : Xml.Element}
      (nearest : IsNearest suite.tag.declarations place.around context)
      (here : context.element.attribute? "href" = none) (mem : part ∈ context.element.elements)
      (lost : (part.inScope
        (Xml.addDeclarations context.element.tag.declarations context.outer)).Unreadable)

theorem Scenario.hidesContext_iff {suite : Xml.Element} {place : Scenario.Place} :
    HidesContext suite.tag.declarations place.around ↔ Scenario.LosesPart suite place := by
  constructor
  · rintro ⟨context, nearest, here, hidden⟩
    obtain ⟨part, mem, lost⟩ := Xml.Element.content?_eq_none_iff.mp hidden
    exact ⟨nearest, here, mem, lost⟩
  · rintro ⟨nearest, here, mem, lost⟩
    exact ⟨_, nearest, here, Xml.Element.content?_eq_none_iff.mpr ⟨_, mem, lost⟩⟩

section Suite

variable {source : ArtifactSource} {storage : Storage} {type : DocumentType}

/-- **What summing up the test suite of a type comes to.** -/
inductive SumsUp (source : ArtifactSource) (storage : Storage) (type : DocumentType) :
    Except SummaryFault (List ScenarioSummary) → Prop
  /-- Each active expectation is summed up. -/
  | summed {suite : Xml.Element} {summaries : List ScenarioSummary}
      (usable : HasTests source storage type suite)
      (each : List.Forall₂ (Summarizes suite.tag.declarations) (expectationsIn suite) summaries) :
      SumsUp source storage type (.ok summaries)
  | refused {why : SourceFault} (lacks : LacksTests source storage type why) :
      SumsUp source storage type (.error (.source (source.resolve s!"{type.tag}.xspec") why))
  /-- A part of the context of an active expectation is lost. -/
  | lost {suite : Xml.Element} {place : Scenario.Place}
      (usable : HasTests source storage type suite) (active : place ∈ expectationsIn suite)
      (loses : Scenario.LosesPart suite place) :
      SumsUp source storage type (.error .fragment)

theorem summaries?_eq_some_iff {suite : Xml.Element} {summaries : List ScenarioSummary} :
    Scenario.summaries? suite = some summaries ↔
      List.Forall₂ (Summarizes suite.tag.declarations) (expectationsIn suite) summaries := by
  rw [Scenario.summaries?_eq, mapM_eq_some_iff]
  refine forall₂_congr_of_mem fun place hplace summary => Scenario.summary?_eq_some_iff ?_
  have hactive := (List.mem_filter.mp hplace).2
  rw [Scenario.Place.isActive, Bool.and_assoc, Bool.and_eq_true] at hactive
  exact hactive.1

theorem summaries?_eq_none_iff {suite : Xml.Element} :
    Scenario.summaries? suite = none ↔
      ∃ place ∈ expectationsIn suite, Scenario.LosesPart suite place := by
  rw [Scenario.summaries?_eq, mapM_eq_none_iff]
  refine exists_congr fun place => and_congr_right fun _ => ?_
  rw [Scenario.summary?_eq, Option.map_eq_none_iff, Scenario.shownContext?_eq_none_iff,
    Scenario.hidesContext_iff]

/-- **Summing up a test suite** comes to summaries, or to its fault, or to a lost part. -/
theorem generate_eq_iff {outcome : Except SummaryFault (List ScenarioSummary)} :
    ScenarioSummary.generate source storage type = outcome ↔
      SumsUp source storage type outcome := by
  rw [ScenarioSummary.generate]
  constructor
  · rintro rfl
    cases hread : readSource source storage s!"{type.tag}.xspec" Scenario.uri "description"
        "x:description" with
    | error fault =>
        obtain ⟨why, lacks, rfl⟩ := readSource_eq_error_iff.mp hread
        exact .refused lacks
    | ok suite =>
        have usable : HasTests source storage type suite := readSource_eq_ok_iff.mp hread
        dsimp only [bind, Except.bind]
        split
        · next hsummaries => exact .summed usable (summaries?_eq_some_iff.mp hsummaries)
        · next hnone =>
          obtain ⟨place, active, loses⟩ := summaries?_eq_none_iff.mp hnone
          exact .lost usable active loses
  · rintro (⟨usable, each⟩ | lacks | ⟨usable, active, loses⟩)
    · rw [readSource_eq_ok_iff.mpr usable]
      dsimp only [bind, Except.bind]
      rw [summaries?_eq_some_iff.mpr each]
      rfl
    · rw [readSource_eq_error_iff.mpr ⟨_, lacks, rfl⟩]
      rfl
    · rw [readSource_eq_ok_iff.mpr usable]
      dsimp only [bind, Except.bind]
      rw [summaries?_eq_none_iff.mpr ⟨_, active, loses⟩]
      rfl

/-- **There are results, or a fault is told** with the source it comes from. -/
inductive Told {α : Type} : Except SummaryFault α → Prop
  | results (a : α) : Told (.ok a)
  | source (location : String) (why : SourceFault) : Told (.error (.source location why))

/-- Where nothing is told, a part of a context is lost. -/
theorem generate_eq_fragment (untold : ¬ Told (ScenarioSummary.generate source storage type)) :
    ScenarioSummary.generate source storage type = .error .fragment := by
  cases hsums : ScenarioSummary.generate source storage type with
  | ok summaries =>
      rw [hsums] at untold
      exact absurd (.results summaries) untold
  | error fault =>
      cases generate_eq_iff.mp hsums with
      | refused lacks =>
          rw [hsums] at untold
          exact absurd (.source _ _) untold
      | lost usable active loses => rfl

/-- **Summing up a test suite is told** exactly if no part of the context of an active expectation
is lost. -/
theorem generate_told_iff (source : ArtifactSource) (storage : Storage) (type : DocumentType) :
    Told (ScenarioSummary.generate source storage type) ↔
      ∀ suite, HasTests source storage type suite →
        ∀ place ∈ expectationsIn suite, ¬ Scenario.LosesPart suite place := by
  constructor
  · intro told suite usable place active loses
    rw [generate_eq_iff.mpr (.lost usable active loses)] at told
    cases told
  · intro hshown
    by_contra untold
    cases generate_eq_iff.mp (generate_eq_fragment untold) with
    | lost usable active loses => exact hshown _ usable _ active loses

end Suite

/-! ## The command -/

namespace CommandLine

/-- **A call of the program to sum up a test suite:** the invocation and what belongs to its
command, and what the program finds there. -/
structure ScenarioCall where
  invocation : Invocation
  environment : Configuration.Variables
  /-- The files, and what servers answer. -/
  storage : Storage
  tag : String
  /-- Where the test suites are, if it is given. -/
  sources : Option String
  /-- Where the summaries are to be written, if it is given. -/
  output : Option String

namespace ScenarioCall

section Call

variable (call : ScenarioCall)

/-- **The session of the call,** in which the suite of a type is summed up. -/
def Opens (type : DocumentType) (session : Session) : Prop :=
  DocumentType.parse (.str call.tag) = .ok type ∧
    ∃ c, call.invocation.configuration call.environment
        (summarySettings .xspecDirectory call.sources call.output) = .ok c ∧
      Session.create .plain c call.storage.files = .ok session

def run : Run :=
  runScenarios .plain call.invocation call.environment call.storage call.tag call.sources call.output

end Call

variable {call : ScenarioCall} {type : DocumentType} {session : Session}

/-- In its session a call goes on with what summing up comes to. -/
theorem Opens.run_of_error (opened : call.Opens type session) {fault : SummaryFault}
    (h : ScenarioSummary.generate session.xspec call.storage type = .error fault) :
    call.run = match reasonOfFault fault with
      | some reason => .failed call.invocation.verbose call.storage.files
          s!"XSpec summary generation failed: {reason}" (some reason)
      | none => .broken call.storage.files (.summary fault) := by
  obtain ⟨known, c, configured, created⟩ := opened
  have hgather : gather (ScenarioSummary.generate session.xspec call.storage) [type] [type] =
      .error fault := by
    rw [gather, firstFault?, List.findSome?_cons, h]
  have hfile : ScenarioSummary.generateFile session.xspec
      session.configuration.summaryDirectory call.storage type =
      (.error fault, call.storage.files) := by
    rw [ScenarioSummary.generateFile, generateFiles, hgather]
  rw [run, runScenarios]
  simp only [known, withSession, configured, created, hfile]
  rfl

/-- The program runs the call for the arguments that stand for it; a quiet one logs errors only. -/
theorem run_arguments {arguments : List String} (time : String)
    (reads : Request.read call.environment call.storage.files arguments =
      .ok (.run call.invocation))
    (sums : call.invocation.command = .scenarios call.tag call.sources call.output) :
    CommandLine.run arguments call.environment call.storage time =
      if call.invocation.quiet then call.run.silenced else call.run := by
  rw [CommandLine.run, runOn, reads]
  simp only [Invocation.run, sums]
  rfl

/-- **Summing up a test suite ends in summaries or in a fault that is told** exactly if no part of
the context of an active expectation is lost. A fault that is told is reported by the command with
the status of faults; a lost part is let through. -/
theorem run_told_iff {arguments : List String} (time : String)
    (reads : Request.read call.environment call.storage.files arguments =
      .ok (.run call.invocation))
    (sums : call.invocation.command = .scenarios call.tag call.sources call.output)
    (opened : call.Opens type session) :
    let outcome := ScenarioSummary.generate session.xspec call.storage type
    let ran := CommandLine.run arguments call.environment call.storage time
    SumsUp session.xspec call.storage type outcome ∧
    (Told outcome ↔ ∀ suite, HasTests session.xspec call.storage type suite →
      ∀ place ∈ expectationsIn suite, ¬ Scenario.LosesPart suite place) ∧
    (∀ location why, outcome = .error (.source location why) →
      ran.status = faultStatus ∧ ran.escaped = none ∧
        ⟨.error, s!"XSpec summary generation failed: {why.report location}"⟩ ∈ ran.log) ∧
    (¬ Told outcome →
      ran.status = escapeStatus ∧ ran.escaped = some (.summary .fragment) ∧ ran.log = []) := by
  intro outcome ran
  have hran : ran = if call.invocation.quiet then call.run.silenced else call.run :=
    run_arguments time reads sums
  refine ⟨generate_eq_iff.mp rfl, generate_told_iff session.xspec call.storage type, ?_, ?_⟩
  · intro location why hrefused
    rw [hran, opened.run_of_error hrefused]
    dsimp only [reasonOfFault]
    cases call.invocation.quiet with
    | false => exact ⟨rfl, rfl, List.mem_cons_self⟩
    | true => exact ⟨rfl, rfl, List.mem_filter.mpr ⟨List.mem_cons_self, rfl⟩⟩
  · intro untold
    rw [hran, opened.run_of_error (generate_eq_fragment untold)]
    dsimp only [reasonOfFault]
    cases call.invocation.quiet <;> exact ⟨rfl, rfl, rfl⟩

/-! ## A test suite that is not summed up -/

/-- A test suite whose only context refers to an entity. -/
def entityText : String :=
  "<!DOCTYPE x [<!ENTITY e 'v'>]><description xmlns='" ++ Scenario.uri ++
    "'><scenario><context><a>&e;</a></context><expect-rule/></scenario></description>"

/-- A test suite whose only context is shown. -/
def contextText : String :=
  "<description xmlns='" ++ Scenario.uri ++
    "'><scenario><context><a>b</a></context><expect-assert/></scenario></description>"

/-- Files with a test suite for system security plans. -/
def suiteStorage (content : String) : Storage :=
  ⟨⟨[(["test"], .directory), (["test", "rules"], .directory),
    (["test", "rules", "ssp.xspec"], .file (Text.encode content))]⟩, fun _ => none⟩

/-- A call to sum up that suite. -/
def suiteCall (content : String) : ScenarioCall where
  invocation :=
    { verbose := false, quiet := false, rulesBase := none, contentBase := none, ruleset := none,
      command := .scenarios "ssp" none none }
  environment := []
  storage := suiteStorage content
  tag := "ssp"
  sources := none
  output := none

theorem suiteCall_reads (content : String) :
    Request.read [] (suiteStorage content).files ["create-xspec-summaries", "ssp"] =
      .ok (.run (suiteCall content).invocation) := by
  rfl

theorem suiteCall_opens (content : String) :
    (suiteCall content).Opens .ssp ⟨{}, .bundled⟩ := by
  have known : DocumentType.parse (.str "ssp") = .ok .ssp := eq_ok_of_toOption (by decide +kernel)
  exact ⟨known, {}, rfl, rfl⟩

/-- A test suite that is no document is reported, and one with a context is summed up with it:
no part of it is lost. -/
theorem suiteCall_run :
    let ran := CommandLine.run ["create-xspec-summaries", "ssp"] [] (suiteStorage "x") ""
    (Request.read [] (suiteStorage "x").files ["create-xspec-summaries", "ssp"] =
        .ok (.run (suiteCall "x").invocation) ∧
      (suiteCall "x").invocation.command = .scenarios "ssp" none none ∧
      (suiteCall "x").Opens .ssp ⟨{}, .bundled⟩) ∧
    (ran.status = 3 ∧ ran.escaped = none ∧
      ⟨.error, "XSpec summary generation failed: Could not generate summary from " ++
        "test/rules/ssp.xspec: not well-formed XML: <xml-syntax-error>"⟩ ∈ ran.log) ∧
    ∃ summary, ScenarioSummary.generate (Session.xspec ⟨{}, .bundled⟩) (suiteStorage contextText)
        .ssp = .ok [summary] ∧
      summary.context = some "<a xmlns=\"http://www.jenitennison.com/xslt/xspec\">b</a>" ∧
      ∀ suite, HasTests (Session.xspec ⟨{}, .bundled⟩) (suiteStorage contextText) .ssp suite →
        ∀ place ∈ expectationsIn suite, ¬ Scenario.LosesPart suite place := by
  have hrefused : ScenarioSummary.generate (Session.xspec ⟨{}, .bundled⟩) (suiteStorage "x")
      .ssp = .error (.source "test/rules/ssp.xspec" .malformed) := by decide +kernel
  obtain ⟨-, -, hreported, -⟩ :=
    run_told_iff "" (suiteCall_reads "x") rfl (suiteCall_opens "x")
  refine ⟨⟨suiteCall_reads "x", rfl, suiteCall_opens "x"⟩, hreported _ _ hrefused, ?_⟩
  obtain ⟨summary, hsummary⟩ : ∃ summary, ScenarioSummary.generate (Session.xspec ⟨{}, .bundled⟩)
      (suiteStorage contextText) .ssp = .ok [summary] ∧
        summary.context = some "<a xmlns=\"http://www.jenitennison.com/xslt/xspec\">b</a>" :=
    ⟨⟨"", none, none, "assert",
      some "<a xmlns=\"http://www.jenitennison.com/xslt/xspec\">b</a>", none⟩,
      by decide +kernel, rfl⟩
  obtain ⟨-, hshown, -, -⟩ :=
    run_told_iff "" (suiteCall_reads contextText) rfl (suiteCall_opens contextText)
  exact ⟨summary, hsummary.1, hsummary.2, hshown.mp (hsummary.1 ▸ .results [summary])⟩

/-- **A reference to an entity in a context is neither shown nor reported.** -/
theorem suiteCall_not_told :
    ¬ Told (ScenarioSummary.generate (Session.xspec ⟨{}, .bundled⟩) (suiteStorage entityText)
      .ssp) ∧
    (CommandLine.run ["create-xspec-summaries", "ssp"] [] (suiteStorage entityText) "").status =
      1 := by
  have hlost : ScenarioSummary.generate (Session.xspec ⟨{}, .bundled⟩) (suiteStorage entityText)
      .ssp = .error .fragment := by decide +kernel
  refine ⟨fun told => ?_, ?_⟩
  · rw [hlost] at told
    cases told
  · have hran := @run_arguments (suiteCall entityText) _ "" (suiteCall_reads entityText) rfl
    rw [(suiteCall_opens entityText).run_of_error hlost] at hran
    exact congrArg Run.status hran

end ScenarioCall

end CommandLine

end OscalValidation
