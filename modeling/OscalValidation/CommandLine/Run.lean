import OscalValidation.CommandLine.Host
import OscalValidation.CommandLine.Invocation
import OscalValidation.Validation.Display

set_option autoImplicit false

/-! # Runs of commands

A run of a command is one value: the exit status, what is logged and printed, and the files
that are there afterwards. A fault that the program reports has status 3; one that it lets
through has status 1 and is part of the value.
-/

namespace OscalValidation.CommandLine

/-- How much a line of the log matters. -/
inductive LogLevel
  | info
  | error
deriving DecidableEq

/-- A line of the log. -/
structure LogLine where
  level : LogLevel
  text : String
deriving DecidableEq

/-- A fault that the program lets through. -/
inductive Escape
  | artifact (fault : ArtifactFault)
  | validation (fault : ValidationFault)
  | engine (fault : EngineFault)
  | summary (fault : SummaryFault)
  | file (fault : FileFault)
  | cancelled
  | interrupted (interruption : Interruption)

/-- **A run of a command.** -/
structure Run where
  status : Nat
  log : List LogLine := []
  printed : List Console.Item := []
  files : FileTree
  /-- The fault that was let through. -/
  escaped : Option Escape := none

/-! ## Statuses -/

/-- The exit status for arguments that cannot be used. -/
def usageStatus : Nat := 2

/-- The exit status where a fault is reported. -/
def faultStatus : Nat := 3

/-- The exit status where a fault is let through. -/
def escapeStatus : Nat := 1

/-- The exit status for a verdict. -/
def verdictStatus : Verdict → Nat
  | .pass => 0
  | .fail => 1
  | .malformed => 2

namespace Run

def succeeded (files : FileTree) (log : List LogLine) : Run := { status := 0, log, files }

/-- A run that reports a fault; a verbose one tells the reason once more on its own. -/
def failed (verbose : Bool) (files : FileTree) (message : String) (reason : Option String) :
    Run where
  status := faultStatus
  log := ⟨.error, message⟩ ::
    if verbose then (reason.map fun text => ⟨.error, text⟩).toList else []
  files := files

/-- A run that lets a fault through. -/
def broken (files : FileTree) (fault : Escape) : Run where
  status := escapeStatus
  files := files
  escaped := some fault

/-- The run with a log before its own. -/
def after (run : Run) (log : List LogLine) : Run := { run with log := log ++ run.log }

/-- The run of a quiet program: only errors are logged. -/
def silenced (run : Run) : Run := { run with log := run.log.filter (·.level == .error) }

end Run

/-! ## Sessions -/

/-- The configuration of an invocation: what is given goes before the environment. -/
def Invocation.configuration (i : Invocation) (environment : Configuration.Variables)
    (settings : List Setting) : Except UnknownTag Configuration := do
  let c ← Configuration.ofVariables environment
  let own := (i.rulesBase.map Setting.rulesBase).toList ++
    (i.contentBase.map Setting.contentBase).toList ++
    (i.ruleset.map fun r => Setting.ruleset (.str r.key)).toList
  c.applyAll (own ++ settings)

/-- The run that goes on with the session of an invocation. -/
def withSession (library : SchemaLibrary) (i : Invocation)
    (environment : Configuration.Variables) (files : FileTree) (settings : List Setting)
    (go : Session → Run) : Run :=
  let failed (reason : String) : Run :=
    .failed i.verbose files s!"Could not initialize oscalcheck: {reason}" (some reason)
  match i.configuration environment settings with
  | .error e => failed e.message
  | .ok c =>
      match Session.create library c files with
      | .error e =>
          match e.message? with
          | some reason => failed reason
          | none => .broken files (.artifact e)
      | .ok session => go session

/-! ## Validation -/

/-- What validation reports about a fault, if it does: the message and the reason in it. -/
def reportOfFault (path : Path) (fault : ValidationFault) : Option (String × String) :=
  let failed (reason : String) : Option (String × String) :=
    some (s!"Validation of {path.text} failed: {reason}", reason)
  match fault with
  | .tag e => failed e.message
  | .file e => failed e.message
  | .engine e =>
      if e.isReported then
        some (s!"Rule engine unavailable, document was not judged: {e.message}", e.message)
      else none
  | .excess _ | .conversion _ | .location _ | .cancelled => none

/-- The tree after writing a report; its directory is made if need be. -/
def writeReport (files : FileTree) (path : Path) (report : Json) : Except FileFault FileTree := do
  let files ← files.makeDirectories path.parent
  files.write path (Text.encode report.indented)

section Host

variable {σ α : Type} (host : Host σ α)

/-- The tree after writing the report of a result, if one is asked for. -/
def writeAsked (files : FileTree) (report : Option Path) (content : Json) :
    Except Escape FileTree :=
  match report, host.interruption .writing with
  | none, _ => .ok files
  | some _, some interruption => .error (.interrupted interruption)
  | some target, none => (writeReport files target content).mapError .file

/-- The run that shows a result and writes a report of it. Nothing is written if the console refuses
what is to be shown. -/
def showResult (i : Invocation) (session : Session) (files : FileTree) (time : String)
    (path : Path) (report : Option Path) (result : ValidationResult) : Run :=
  let source := some path.text
  let (printed, raised) :=
    if i.quiet then ([], none) else host.print (result.display session.policy source)
  match raised, writeAsked host files report (result.report source time) with
  | some name, _ => { Run.broken files (.interrupted (.foreign name)) with printed := printed }
  | none, .error e => { Run.broken files e with printed := printed }
  | none, .ok files =>
      { status := verdictStatus result.verdict
        log := match result.verdict with
          | .pass => []
          | verdict => [⟨.error, s!"{path.text} {verdict.name}"⟩]
        printed := printed
        files := files }

/-- The run that judges the document of a file in a session, and shows the result. -/
def runInSession (i : Invocation) (storage : Storage) (time : String) (path : Path)
    (type : Option String) (report : Option Path) (session : Session) : Run :=
  let files := storage.files
  match host.interruption .judging, host.judgement session storage path type with
  | some (.system reason), _ =>
      .failed i.verbose files s!"Validation of {path.text} failed: {reason}" (some reason)
  | some interruption, _ => .broken files (.interrupted interruption)
  | none, .ok result => showResult host i session files time path report result
  | none, .error fault =>
      match reportOfFault path fault with
      | some (message, reason) => .failed i.verbose files message (some reason)
      | none => .broken files (.validation fault)

/-- **The run that validates a file.** -/
def runValidate (i : Invocation) (environment : Configuration.Variables) (storage : Storage)
    (time : String) (path : Path) (type : Option String) (report : Option Path) : Run :=
  let files := storage.files
  match host.interruption .opening, files.isFile path with
  | some interruption, _ => .broken files (.interrupted interruption)
  | none, .error e => .broken files (.file e)
  | none, .ok false => .failed i.verbose files s!"Input file not found: {path.text}" none
  | none, .ok true =>
      withSession host.library i environment files []
        (runInSession host i storage time path type report)

end Host

/-! ## Summaries -/

/-- The reason that summary commands report for a fault, if they do. -/
def reasonOfFault : SummaryFault → Option String
  | .source location fault => some (fault.report location)
  | .write (.file fault) => some fault.message
  | .write (.nameless _) | .fragment => none

/-- The run that wrote summaries; `name` says what kind they are of. -/
def showWritten (i : Invocation) (name : String) (said : List Path → String)
    (result : Except SummaryFault (List Path) × FileTree) : Run :=
  match result with
  | (.ok written, files) => .succeeded files [⟨.info, said written⟩]
  | (.error fault, files) =>
      match reasonOfFault fault with
      | some reason =>
          .failed i.verbose files s!"{name} generation failed: {reason}" (some reason)
      | none => .broken files (.summary fault)

/-- The settings of a summary command. -/
def summarySettings (source : Path → Setting) (sources output : Option String) : List Setting :=
  (sources.map fun s => source (.ofString s)).toList ++
    (output.map fun s => Setting.summaryDirectory (.ofString s)).toList

/-- **The run that writes the catalogs of rules.** -/
def runCatalogs (library : SchemaLibrary) (i : Invocation)
    (environment : Configuration.Variables) (storage : Storage) (sources output : Option String) :
    Run :=
  withSession library i environment storage.files (summarySettings .schematronDirectory sources output)
    fun session => showWritten i "Schematron summary"
      (fun written => s!"Wrote {written.length} rule catalog summaries")
      (Catalog.generateAll session.schematron session.configuration.summaryDirectory storage
        DocumentType.all DocumentType.all)

/-- **The run that writes the assertion views.** -/
def runViews (library : SchemaLibrary) (i : Invocation)
    (environment : Configuration.Variables) (storage : Storage) (sources output : Option String) :
    Run :=
  withSession library i environment storage.files (summarySettings .schematronDirectory sources output)
    fun session => showWritten i "Assertion view"
      (fun written => s!"Wrote {written.length} assertion views")
      (AssertionView.generateAll session.schematron session.configuration.summaryDirectory
        storage DocumentType.all DocumentType.all)

/-- **The run that writes the scenario summaries of a type.** -/
def runScenarios (library : SchemaLibrary) (i : Invocation)
    (environment : Configuration.Variables) (storage : Storage) (type : String)
    (sources output : Option String) : Run :=
  match DocumentType.parse (.str type) with
  | .error e => .failed i.verbose storage.files e.message (some e.message)
  | .ok type =>
      withSession library i environment storage.files (summarySettings .xspecDirectory sources output)
        fun session => showWritten i "XSpec summary"
          (fun written =>
            "Wrote scenario summaries: " ++ ", ".intercalate (written.map Path.text))
          (ScenarioSummary.generateFile session.xspec session.configuration.summaryDirectory
            storage type)

/-! ## Checks -/

/-- What is logged about what the program needs: all of it is part of the program. -/
def dependenciesLog : List LogLine := [⟨.info, "All Python dependencies satisfied"⟩]

section Host

variable {σ α : Type} (host : Host σ α)

/-- The run that loads the rule artifacts of all types. -/
def checkRules (session : Session) (storage : Storage) : Run :=
  let ruleset := session.configuration.ruleset
  let files := storage.files
  match (Gateway.preload (host.engine session) {} (host.start storage) ruleset []).1 with
  | some (.failed e) =>
      if e.isReported then
        .failed false files s!"Rule artifacts for {ruleset.key} not usable: {e.message}" none
      else .broken files (.engine e)
  | some .cancelled => .broken files .cancelled
  | some (.loaded _) | none =>
      let base := session.configuration.rulesBase
      .succeeded files [⟨.info, s!"Rule artifacts for {ruleset.key} loaded from {base}"⟩]

/-- **The run that checks what is asked for,** everything if nothing is. -/
def runDoctor (i : Invocation) (environment : Configuration.Variables) (storage : Storage)
    (dependencies rules : Bool) : Run :=
  let neither := !dependencies && !rules
  let log := if dependencies || neither then dependenciesLog else []
  if rules || neither then
    (withSession host.library i environment storage.files []
      fun session => checkRules host session storage).after log
  else .succeeded storage.files log

/-! ## The program -/

def Invocation.run (i : Invocation) (environment : Configuration.Variables) (storage : Storage)
    (time : String) : Run :=
  let library := host.library
  let run := match i.command with
    | .validate path type report => runValidate host i environment storage time path type report
    | .catalogs sources output => runCatalogs library i environment storage sources output
    | .views sources output => runViews library i environment storage sources output
    | .scenarios type sources output =>
        runScenarios library i environment storage type sources output
    | .doctor dependencies rules => runDoctor host i environment storage dependencies rules
  if i.quiet then run.silenced else run

/-- **The run of the program** with arguments and an environment, at a time, on a host. -/
def runOn (arguments : List String) (environment : Configuration.Variables) (storage : Storage)
    (time : String) : Run :=
  match Request.read environment storage.files arguments with
  | .error _ => { status := usageStatus, files := storage.files }
  | .ok .help => { status := 0, files := storage.files }
  | .ok (.run i) => i.run host environment storage time

end Host

/-- The run of the program in the usual surroundings. -/
def run (arguments : List String) (environment : Configuration.Variables) (storage : Storage)
    (time : String) : Run :=
  runOn .usual arguments environment storage time

end OscalValidation.CommandLine
