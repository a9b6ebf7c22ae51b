import OscalValidation.Proofs.Summaries.Generation
import OscalValidation.Proofs.Summaries.Values
import OscalValidation.Summaries.Repository

set_option autoImplicit false

/-! # Summaries are read back as they were computed

Summary commands that follow one another in one directory write files of different names, and none
that a source is read from. So a command leaves the sources of the others and their files as they
are (`run_written`), and after commands that write every file once or more, in any order, the
repository over the directory gives for every type what is computed from its own source
(`reads_back`).
-/

namespace OscalValidation

open Text (Bytes)

/-! ## Sources that can be summarized -/

/-- **What the sources of all types hold:** rules, and tests with their summaries. -/
structure SourceContents where
  schema : DocumentType → Xml.Element
  suite : DocumentType → Xml.Element
  /-- The summaries of the tests of a type. -/
  scenarios : DocumentType → List ScenarioSummary
  /-- They are computed from the tests of the type. -/
  summarized (type : DocumentType) : Scenario.summaries? (suite type) = some (scenarios type)

namespace SourceContents

/-- The sources of all types hold the contents. -/
structure InPlace (contents : SourceContents) (rules suites : ArtifactSource)
    (storage : Storage) : Prop where
  /-- The rules of every type can be read. -/
  rules (type : DocumentType) : HasRules rules storage type (contents.schema type)
  /-- The tests of every type can be read. -/
  tests (type : DocumentType) : HasTests suites storage type (contents.suite type)

/-- **The summary of a kind** that is computed from the source of a type. -/
def summary (contents : SourceContents) : SummaryKind → DocumentType → Json
  | .catalog, type => (Catalog.ofSchema (contents.schema type)).toJson
  | .view, type => (AssertionView.ofSchema (contents.schema type) type.title).toJson
  | .scenarios, type => .arr ((contents.scenarios type).map ScenarioSummary.toJson)

theorem restorable_summary (contents : SourceContents) (kind : SummaryKind)
    (type : DocumentType) : (contents.summary kind type).Restorable 4 := by
  cases kind with
  | catalog => exact (Catalog.restorable_toJson _).mono (by decide)
  | view => exact AssertionView.restorable_toJson _
  | scenarios =>
      refine (Json.restorable_arr fun item hitem => ?_ : Json.Restorable 2 _).mono (by decide)
      obtain ⟨summary, -, rfl⟩ := List.mem_map.mp hitem
      exact summary.restorable_toJson

end SourceContents

/-! ## Commands -/

/-- **A summary command,** with the types it is for and the order in which it reads their
sources. -/
inductive SummaryCommand
  | catalogs (arrival types : List DocumentType)
  | views (arrival types : List DocumentType)
  /-- Writes the scenario summaries of a type. -/
  | scenarios (type : DocumentType)

namespace SummaryCommand

/-- The kind of the files that a command writes. -/
def kind : SummaryCommand → SummaryKind
  | catalogs _ _ => .catalog
  | views _ _ => .view
  | scenarios _ => .scenarios

def types : SummaryCommand → List DocumentType
  | catalogs _ types => chosenTypes types
  | views _ types => chosenTypes types
  | scenarios type => [type]

variable (rules suites : ArtifactSource) (directory : Path)

/-- What a command comes to: the places of the files it writes, and the tree. -/
def run (storage : Storage) : SummaryCommand → Except SummaryFault (List Path) × FileTree
  | catalogs arrival types => Catalog.generateAll rules directory storage arrival types
  | views arrival types => AssertionView.generateAll rules directory storage arrival types
  | scenarios type => ScenarioSummary.generateFile suites directory storage type

/-- **Commands one after another:** what the program can reach after them, if all succeed. -/
def runAll (storage : Storage) : List SummaryCommand → Except SummaryFault Storage
  | [] => .ok storage
  | command :: rest =>
      match command.run rules suites directory storage with
      | (.error fault, _) => .error fault
      | (.ok _, files) => runAll { storage with files := files } rest

end SummaryCommand

/-! ## One command -/

section Step

variable {rules suites : ArtifactSource} {directory : Path} {storage : Storage}
  {contents : SourceContents} {command : SummaryCommand} {places : List Path} {after : FileTree}

/-- Files of a kind are written from the values of all types. -/
theorem written_of_generateFiles {α : Type} {compute : DocumentType → Except SummaryFault α}
    {toJson : α → Json} {arrival types : List DocumentType} {files : FileTree}
    (kind : SummaryKind) {value : DocumentType → α}
    (hvalue : ∀ type, compute type = .ok (value type))
    (hrun : generateFiles compute kind.fileName toJson directory arrival types files =
      (.ok places, after)) :
    SummaryWriter.Written directory (kind.outputs (fun type => toJson (value type)) types) files
      after := by
  obtain ⟨written, hwrite, hplaces⟩ := generateFiles_of_ok
    (fun type _ => ⟨_, hvalue type⟩) (fun type _ => hvalue type) hrun
  rw [mapError_eq_ok_iff.mp hplaces.symm] at hwrite
  exact (SummaryKind.written_of_writeAll_outputs hwrite).2

theorem SourceContents.InPlace.catalog (h : contents.InPlace rules suites storage)
    (type : DocumentType) : Catalog.generate rules storage type =
      .ok (.ofSchema (contents.schema type)) := by
  rw [Catalog.generate_eq, readRules_eq_ok_iff.mpr (h.rules type)]
  rfl

theorem SourceContents.InPlace.view (h : contents.InPlace rules suites storage)
    (type : DocumentType) : AssertionView.generate rules storage type =
      .ok (.ofSchema (contents.schema type) type.title) := by
  rw [AssertionView.generate_eq, readRules_eq_ok_iff.mpr (h.rules type)]
  rfl

theorem SourceContents.InPlace.scenarios (h : contents.InPlace rules suites storage)
    (type : DocumentType) : ScenarioSummary.generate suites storage type =
      .ok (contents.scenarios type) := by
  rw [ScenarioSummary.generate, readSource_eq_ok_iff.mpr (h.tests type)]
  dsimp only [bind, Except.bind]
  rw [contents.summarized]
  rfl

/-- **A command that succeeds** writes the summaries of its kind and types. -/
theorem SummaryCommand.run_written (hcontents : contents.InPlace rules suites storage)
    (hrun : command.run rules suites directory storage = (.ok places, after)) :
    SummaryWriter.Written directory (command.kind.outputs (contents.summary command.kind)
      command.types) storage.files after := by
  cases command with
  | catalogs arrival types =>
      have hwritten := written_of_generateFiles .catalog hcontents.catalog hrun
      exact hwritten
  | views arrival types =>
      have hwritten := written_of_generateFiles .view hcontents.view hrun
      exact hwritten
  | scenarios type =>
      have hfiles : generateFiles (ScenarioSummary.generate suites storage)
          SummaryKind.scenarios.fileName
          (fun summaries => .arr (summaries.map ScenarioSummary.toJson)) directory [type] [type]
          storage.files = (.ok places, after) := hrun
      have hwritten := written_of_generateFiles .scenarios hcontents.scenarios hfiles
      exact hwritten

/-- **A directory is there and has room for all summaries.** -/
structure SummaryCommand.Ready (directory : Path) (tree : FileTree) : Prop where
  there : tree.find directory = .ok .directory
  room (kind : SummaryKind) (type : DocumentType) :
    SummaryWriter.CanStage directory tree (kind.fileName type) ∧
      tree.HasRoom (directory.join (kind.fileName type))

theorem SummaryCommand.Ready.of_sameDirectories {tree tree' : FileTree}
    (hready : Ready directory tree) (h : tree.SameDirectories tree') : Ready directory tree' :=
  ⟨h.find_iff.mpr hready.there, fun kind type =>
    ⟨(hready.room kind type).1.of_sameDirectories h, h.hasRoom_iff.mpr (hready.room kind type).2⟩⟩

/-- **A command succeeds where there is room,** and leaves the room. -/
theorem SummaryCommand.exists_run (hcontents : contents.InPlace rules suites storage)
    (hready : Ready directory storage.files) (command : SummaryCommand) :
    ∃ places after, command.run rules suites directory storage = (.ok places, after) ∧
      Ready directory after := by
  have hmade := FileTree.makeDirectories_of_find hready.there
  obtain ⟨places, after, hrun, hsame⟩ : ∃ places after,
      command.run rules suites directory storage = (.ok places, after) ∧
        storage.files.SameDirectories after := by
    cases command with
    | catalogs arrival types =>
        exact exists_generateFiles .catalog hcontents.catalog hmade
          fun type _ => hready.room .catalog type
    | views arrival types =>
        exact exists_generateFiles .view hcontents.view hmade
          fun type _ => hready.room .view type
    | scenarios type =>
        have hfiles : ∃ places after, generateFiles (ScenarioSummary.generate suites storage)
            SummaryKind.scenarios.fileName
            (fun summaries => .arr (summaries.map ScenarioSummary.toJson)) directory [type] [type]
            storage.files = (.ok places, after) ∧ storage.files.SameDirectories after :=
          exists_generateFiles .scenarios hcontents.scenarios hmade
            fun type _ => hready.room .scenarios type
        exact hfiles
  exact ⟨places, after, hrun, hready.of_sameDirectories hsame⟩

theorem FileTree.read_eq_ok_iff {tree : FileTree} {path : Path} {content : Bytes} :
    tree.read path = .ok content ↔ tree.Holds path content := by
  unfold FileTree.read FileTree.Holds
  cases tree.find path with
  | error kind => simp
  | ok entry => cases entry <;> simp

variable {kind : SummaryKind} {summary : DocumentType → Json} {types : List DocumentType}

/-- A source that is read as before can be used as before. -/
theorem Usable.of_fetch {source : ArtifactSource} {storage' : Storage}
    {name uri localName : String} {root : Xml.Element}
    (husable : Usable source storage name uri localName root)
    (h : source.fetch storage' name = source.fetch storage name) :
    Usable source storage' name uri localName root := by
  obtain ⟨hfetch, hparse, hnamed⟩ := husable
  exact .intro (h.trans hfetch) hparse hnamed

/-- A source is read as before if no file of its name was written. -/
theorem Usable.of_written {source : ArtifactSource} {name uri localName : String}
    {root : Xml.Element}
    (h : SummaryWriter.Written directory (kind.outputs summary types) storage.files after)
    (hname : SummaryWriter.IsPlain name) (hother : ∀ type, kind.fileName type ≠ name)
    (husable : Usable source storage name uri localName root) :
    Usable source { storage with files := after } name uri localName root := by
  obtain ⟨hfetch, hparse, hnamed⟩ := husable
  refine .intro ?_ hparse hnamed
  unfold ArtifactSource.fetch at hfetch ⊢
  by_cases hremote : source.isRemote = true
  · rw [if_pos hremote] at hfetch ⊢
    exact hfetch
  · rw [if_neg hremote, mapError_eq_ok_iff, FileTree.read_eq_ok_iff] at hfetch ⊢
    refine h.kept hname (fun output houtput => ?_) hfetch
    obtain ⟨type, -, rfl⟩ := SummaryKind.mem_outputs_iff.mp houtput
    exact hother type

/-- The sources hold what they held. -/
theorem SourceContents.InPlace.of_written
    (h : SummaryWriter.Written directory (kind.outputs summary types) storage.files after)
    (hcontents : contents.InPlace rules suites storage) :
    contents.InPlace rules suites { storage with files := after } := by
  refine ⟨fun type => ?_, fun type => ?_⟩
  · refine (hcontents.rules type).of_written h ⟨?_, ?_⟩ fun type' => ?_
    · unfold SummaryWriter.IsFileName
      cases type <;> decide
    · cases type <;> decide
    · cases kind <;> cases type <;> cases type' <;> decide
  · refine (hcontents.tests type).of_written h ⟨?_, ?_⟩ fun type' => ?_
    · unfold SummaryWriter.IsFileName
      cases type <;> decide
    · cases type <;> decide
    · cases kind <;> cases type <;> cases type' <;> decide

/-- A file with the summary that is computed from its own source keeps it, whether the file is
written again or not. -/
theorem SummaryWriter.Written.keeps_summary
    (h : SummaryWriter.Written directory (kind.outputs (contents.summary kind) types)
      storage.files after) {kind' : SummaryKind} {type : DocumentType}
    (hholds : storage.files.Holds (directory.join (kind'.fileName type))
      (Text.encode (summaryText (contents.summary kind' type)))) :
    after.Holds (directory.join (kind'.fileName type))
      (Text.encode (summaryText (contents.summary kind' type))) := by
  by_cases hwritten : kind = kind' ∧ type ∈ types
  · obtain ⟨rfl, htype⟩ := hwritten
    exact SummaryKind.holds_of_written h htype
  · refine h.kept (SummaryKind.isPlain_fileName kind' type) (fun output houtput heq => ?_) hholds
    obtain ⟨type', htype', rfl⟩ := SummaryKind.mem_outputs_iff.mp houtput
    obtain ⟨rfl, rfl⟩ := SummaryKind.fileName_injective heq
    exact hwritten ⟨rfl, htype'⟩

end Step

/-! ## All commands -/

section Run

variable {rules suites : ArtifactSource} {directory : Path} {storage storage' : Storage}
  {contents : SourceContents} {commands : List SummaryCommand}

/-- **After commands that succeed every file that one of them writes holds its summary,** and so
does every file that held it before. -/
theorem SummaryCommand.runAll_holds (hcontents : contents.InPlace rules suites storage)
    (hrun : runAll rules suites directory storage commands = .ok storage') {kind : SummaryKind}
    {type : DocumentType}
    (hdone : storage.files.Holds (directory.join (kind.fileName type))
        (Text.encode (summaryText (contents.summary kind type))) ∨
      ∃ command ∈ commands, command.kind = kind ∧ type ∈ command.types) :
    storage'.files.Holds (directory.join (kind.fileName type))
      (Text.encode (summaryText (contents.summary kind type))) := by
  induction commands generalizing storage with
  | nil =>
      rw [runAll] at hrun
      cases hrun
      simpa using hdone
  | cons command rest ih =>
      rw [runAll] at hrun
      split at hrun
      · cases hrun
      · next places after hfirst =>
        have hwritten := run_written hcontents hfirst
        refine ih (hcontents.of_written hwritten) hrun ?_
        rcases hdone with hholds | ⟨other, hother, hkind, htype⟩
        · exact .inl (hwritten.keeps_summary hholds)
        · rcases List.mem_cons.mp hother with rfl | hother
          · subst hkind
            exact .inl (SummaryKind.holds_of_written hwritten htype)
          · exact .inr ⟨other, hother, hkind, htype⟩

/-- **Commands succeed in a directory with room.** -/
theorem SummaryCommand.exists_runAll (hcontents : contents.InPlace rules suites storage)
    (hready : Ready directory storage.files) (commands : List SummaryCommand) :
    ∃ storage', runAll rules suites directory storage commands = .ok storage' := by
  induction commands generalizing storage with
  | nil => exact ⟨storage, rfl⟩
  | cons command rest ih =>
      obtain ⟨places, after, hrun, hleft⟩ := exists_run hcontents hready command
      have hwritten := run_written hcontents hrun
      rw [runAll, hrun]
      exact ih (hcontents.of_written hwritten) hleft

end Run

/-! ## Reading back -/

namespace SummaryRepository

variable {repository : SummaryRepository} {storage : Storage} {contents : SourceContents}
  {kind : SummaryKind}

/-- A file with a summary gives the summary back. -/
theorem fetch_eq_ok (hlocal : repository.source.isRemote = false) {name : String} {value : Json}
    (hvalue : value.Restorable 4)
    (h : storage.files.Holds ((Path.ofString repository.source.base).join name)
      (Text.encode (summaryText value))) : repository.fetch storage name = .ok value := by
  have hread : repository.source.fetch storage name = .ok (Text.encode (summaryText value)) := by
    rw [ArtifactSource.fetch, hlocal, if_neg Bool.false_ne_true, mapError_eq_ok_iff,
      FileTree.read_eq_ok_iff]
    exact h
  rw [fetch, hread]
  dsimp only [Except.mapError, bind, Except.bind]
  rw [hvalue.readBytes_summaryText (by decide)]

/-- Files with the summaries of all types give them back, each with its type, in whatever order
they are read. -/
theorem fetchAll_eq_ok (hlocal : repository.source.isRemote = false)
    (h : ∀ type, storage.files.Holds
      ((Path.ofString repository.source.base).join (kind.fileName type))
      (Text.encode (summaryText (contents.summary kind type)))) (arrival : List DocumentType) :
    repository.fetchAll storage kind.fileName arrival =
      .ok (DocumentType.all.map fun type => (type, contents.summary kind type)) := by
  have hvalue (type : DocumentType) : repository.fetch storage (kind.fileName type) =
      .ok (contents.summary kind type) :=
    fetch_eq_ok hlocal (contents.restorable_summary kind type) (h type)
  rw [fetchAll, gather_eq_ok (fun type _ => ⟨_, hvalue type⟩) fun type _ => hvalue type]
  rfl

/-- **The repository gives back what is computed from the sources.** After summary commands that
have succeeded in its directory, in any order and over any earlier files, and that write the
summaries of every kind for every type, each type comes with the summary of its own source. -/
theorem reads_back {rules suites : ArtifactSource} {storage' : Storage}
    {commands : List SummaryCommand} (hlocal : repository.source.isRemote = false)
    (hcontents : contents.InPlace rules suites storage)
    (hrun : SummaryCommand.runAll rules suites (Path.ofString repository.source.base) storage
      commands = .ok storage')
    (hcomplete : ∀ kind type, ∃ command ∈ commands, command.kind = kind ∧ type ∈ command.types)
    (arrival : List DocumentType) :
    repository.catalogs storage' arrival = .ok (DocumentType.all.map fun type =>
        (type, (Catalog.ofSchema (contents.schema type)).toJson)) ∧
      repository.views storage' arrival = .ok (DocumentType.all.map fun type =>
        (type, (AssertionView.ofSchema (contents.schema type) type.title).toJson)) ∧
      repository.scenarios storage' arrival = .ok (DocumentType.all.map fun type =>
        (type, .arr ((contents.scenarios type).map ScenarioSummary.toJson))) := by
  have hholds (kind : SummaryKind) (type : DocumentType) :=
    SummaryCommand.runAll_holds hcontents hrun (.inr (hcomplete kind type))
  exact ⟨fetchAll_eq_ok hlocal (hholds .catalog) arrival,
    fetchAll_eq_ok hlocal (hholds .view) arrival,
    fetchAll_eq_ok hlocal (hholds .scenarios) arrival⟩

/-! ## An example -/

/-- Tests of a type with one scenario, which expects the assertion that has the name of the
type. -/
def plainTests (type : DocumentType) : Bytes :=
  ("<description xmlns='http://www.jenitennison.com/xslt/xspec'><scenario label='" ++ type.tag ++
    "'><expect-assert/></scenario></description>").toList.map Text.byteOf

/-- A server of rules and one of tests, and an earlier file among the summaries. -/
def exampleStorage : Storage where
  files := ⟨[(["out"], .directory), (["out", "ssp.json"], .file [0x5B])]⟩
  respond address := (rulesStorage.respond address).or
    ((DocumentType.all.find? fun type => address == s!"http://t/{type.tag}.xspec").map
      fun type => ⟨200, plainTests type⟩)

def exampleCommands : List SummaryCommand :=
  [.scenarios .sar, .catalogs [.poam, .ssp] [], .scenarios .ssp, .views [] [], .scenarios .poam,
    .scenarios .sap]

/-- Each type has rules and tests of its own. -/
theorem exampleStorage_inPlace : ∃ contents : SourceContents,
    contents.InPlace (.ofBase "http://r") (.ofBase "http://t") exampleStorage ∧
      ∀ type, (Catalog.ofSchema (contents.schema type)).entries.map (·.1) = [type.tag] ∧
        (contents.scenarios type).map (·.label) = [type.tag] := by
  have htests (type : DocumentType) : ∃ suite scenarios,
      HasTests (.ofBase "http://t") exampleStorage type suite ∧
        Scenario.summaries? suite = some scenarios ∧ scenarios.map (·.label) = [type.tag] := by
    have hparse : (Xml.readBytes? (plainTests type)).any (fun document =>
        document.root.denotes Scenario.uri "description" &&
          (Scenario.summaries? document.root).map (·.map (·.label)) == some [type.tag]) = true := by
      cases type <;> decide +kernel
    obtain ⟨document, hdocument, hroot⟩ := (Option.any_eq_true _ _).mp hparse
    rw [Bool.and_eq_true, beq_iff_eq] at hroot
    obtain ⟨scenarios, hscenarios, hlabels⟩ := Option.map_eq_some_iff.mp hroot.2
    have hfetch : (ArtifactSource.ofBase "http://t").fetch exampleStorage s!"{type.tag}.xspec" =
        .ok (plainTests type) := by
      cases type <;> decide +kernel
    exact ⟨_, scenarios, .intro hfetch hdocument hroot.1, hscenarios, hlabels⟩
  choose suite scenarios htests hscenarios hlabels using htests
  choose schema hschema hentries using hasRules_rulesStorage
  refine ⟨⟨schema, suite, scenarios, hscenarios⟩, ⟨fun type => ?_, htests⟩,
    fun type => ⟨hentries type, hlabels type⟩⟩
  refine (hschema type).of_fetch ?_
  cases type <;> rfl

/-- After these commands the repository gives back what is computed from the sources. -/
theorem reads_back_example :
    let repository : SummaryRepository := ⟨.ofBase "out"⟩
    ∃ (contents : SourceContents) (storage : Storage),
      (contents.InPlace (.ofBase "http://r") (.ofBase "http://t") exampleStorage ∧
        ∀ type, (Catalog.ofSchema (contents.schema type)).entries.map (·.1) = [type.tag] ∧
          (contents.scenarios type).map (·.label) = [type.tag]) ∧
      SummaryCommand.runAll (.ofBase "http://r") (.ofBase "http://t") (Path.ofString "out")
        exampleStorage exampleCommands = .ok storage ∧
      repository.catalogs storage [.poam, .sar] = .ok (DocumentType.all.map fun type =>
        (type, (Catalog.ofSchema (contents.schema type)).toJson)) ∧
      repository.views storage [.poam, .sar] = .ok (DocumentType.all.map fun type =>
        (type, (AssertionView.ofSchema (contents.schema type) type.title).toJson)) ∧
      repository.scenarios storage [.poam, .sar] = .ok (DocumentType.all.map fun type =>
        (type, .arr ((contents.scenarios type).map ScenarioSummary.toJson))) := by
  intro repository
  obtain ⟨contents, hcontents, hnames⟩ := exampleStorage_inPlace
  have hready : SummaryCommand.Ready (Path.ofString "out") exampleStorage.files := by
    refine ⟨by with_unfolding_all rfl, fun kind type => ?_⟩
    cases kind <;> cases type <;> decide +kernel
  obtain ⟨storage, hrun⟩ := SummaryCommand.exists_runAll hcontents hready exampleCommands
  have hcomplete : ∀ kind type, ∃ command ∈ exampleCommands,
      command.kind = kind ∧ type ∈ command.types := by
    intro kind type
    cases kind <;> cases type <;> decide
  have hlocal : repository.source.isRemote = false := by decide +kernel
  exact ⟨contents, storage, ⟨hcontents, hnames⟩, hrun,
    reads_back hlocal hcontents hrun hcomplete [.poam, .sar]⟩

end SummaryRepository

end OscalValidation
