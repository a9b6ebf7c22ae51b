import OscalValidation.CommandLine.Run
import OscalValidation.Proofs.Attempts

set_option autoImplicit false

/-! # What the exit status of a validation tells

The validation of a file comes to a result that is shown and reported, or to a fault that a handler
is for, or to one that is let through (`ValidateCall.cases`). The exit status tells which of them it
is but for the last, which has the status of a document that fails (`ValidateCall.run_status`). This
holds on every host, whatever its rule engine, its console and the interruptions on it are.
-/

namespace OscalValidation.CommandLine

/-- **A call of the program to validate a file:** the invocation and what belongs to its command,
and what the program finds there. -/
structure ValidateCall where
  invocation : Invocation
  environment : Configuration.Variables
  /-- The files, and what servers answer. -/
  storage : Storage
  time : String
  path : Path
  /-- The type that is declared, if there is one. -/
  type : Option String
  /-- Where a report is to be written, if it is. -/
  report : Option Path

namespace ValidateCall

variable {σ α : Type}

/-! ## The three ends -/

section Ends

variable (call : ValidateCall) (host : Host σ α)

/-- The file is there, so that a session can be made for it. -/
def Finds : Prop :=
  host.interruption .opening = none ∧ call.storage.files.isFile call.path = .ok true

/-- **The session of the call,** in which the file is validated. -/
def Opens (session : Session) : Prop :=
  call.Finds host ∧ ∃ c, call.invocation.configuration call.environment [] = .ok c ∧
    Session.create host.library c call.storage.files = .ok session

/-- What validating the file in a session comes to. -/
def judgement (session : Session) : Except ValidationFault ValidationResult :=
  host.judgement session call.storage call.path call.type

/-- The document is judged in the session of the call. -/
structure Judges (session : Session) (result : ValidationResult) : Prop where
  opened : call.Opens host session
  going : host.interruption .judging = none
  judged : call.judgement host session = .ok result

/-- What the console raises where a result is shown, if it does. -/
def refused (session : Session) (result : ValidationResult) : Option String :=
  if call.invocation.quiet then none
  else (host.print (result.display session.policy (some call.path.text))).2

/-- What writing the report of a result comes to, if one is asked for. -/
def written (result : ValidationResult) : Except Escape FileTree :=
  writeAsked host call.storage.files call.report
    (result.report (some call.path.text) call.time)

/-- **The document is judged with the result,** which is shown, and the report is written if one is
asked for. -/
def Completes (result : ValidationResult) : Prop :=
  ∃ session files, call.Judges host session result ∧ call.refused host session result = none ∧
    call.written host result = .ok files

/-- **A fault comes up that a handler is for.** -/
inductive Reports : Prop
  | missing (going : host.interruption .opening = none)
      (absent : call.storage.files.isFile call.path = .ok false)
  | unconfigured {e : UnknownTag} (there : call.Finds host)
      (refused : call.invocation.configuration call.environment [] = .error e)
  /-- The files of the converters cannot be used. -/
  | unopened {c : Configuration} {e : ArtifactFault} {reason : String} (there : call.Finds host)
      (configured : call.invocation.configuration call.environment [] = .ok c)
      (refused : Session.create host.library c call.storage.files = .error e)
      (told : e.message? = some reason)
  | unjudged {session : Session} {fault : ValidationFault} {told : String × String}
      (opened : call.Opens host session) (going : host.interruption .judging = none)
      (refused : call.judgement host session = .error fault)
      (handled : reportOfFault call.path fault = some told)
  /-- The system fails while the document is judged. -/
  | failing {session : Session} {reason : String} (opened : call.Opens host session)
      (interrupted : host.interruption .judging = some (.system reason))

/-- **A fault comes up that no handler is for.** -/
inductive LetsThrough : Escape → Prop
  /-- Something comes between before the document is judged. -/
  | opening {interruption : Interruption}
      (interrupted : host.interruption .opening = some interruption) :
      LetsThrough (.interrupted interruption)
  /-- The file cannot be looked up. -/
  | unsought {e : FileFault} (going : host.interruption .opening = none)
      (refused : call.storage.files.isFile call.path = .error e) : LetsThrough (.file e)
  /-- The table of a converter is malformed. -/
  | converter {c : Configuration} {e : ArtifactFault} (there : call.Finds host)
      (configured : call.invocation.configuration call.environment [] = .ok c)
      (refused : Session.create host.library c call.storage.files = .error e)
      (untold : e.message? = none) : LetsThrough (.artifact e)
  /-- The document cannot be judged, and nobody expected why. -/
  | judging {session : Session} {fault : ValidationFault} (opened : call.Opens host session)
      (going : host.interruption .judging = none)
      (refused : call.judgement host session = .error fault)
      (unhandled : reportOfFault call.path fault = none) : LetsThrough (.validation fault)
  /-- Something else than an error of the system comes between while the document is judged. -/
  | breaking {session : Session} {name : String} (opened : call.Opens host session)
      (interrupted : host.interruption .judging = some (.foreign name)) :
      LetsThrough (.interrupted (.foreign name))
  /-- The console refuses what is to be shown of the result. -/
  | showing {session : Session} {result : ValidationResult} {name : String}
      (judged : call.Judges host session result)
      (refused : call.refused host session result = some name) :
      LetsThrough (.interrupted (.foreign name))
  | writing {session : Session} {result : ValidationResult} {e : Escape}
      (judged : call.Judges host session result)
      (shown : call.refused host session result = none)
      (refused : call.written host result = .error e) : LetsThrough e

def run : Run :=
  runValidate host call.invocation call.environment call.storage call.time call.path call.type
    call.report

end Ends

variable {call : ValidateCall} {host : Host σ α}

/-- A call gets as far as its session, or ends before. -/
theorem opens_or (call : ValidateCall) (host : Host σ α) :
    (∃ session, call.Opens host session) ∨ call.Reports host ∨ ∃ e, call.LetsThrough host e := by
  cases going : host.interruption .opening with
  | some interruption => exact Or.inr (Or.inr ⟨_, .opening going⟩)
  | none =>
    cases there : call.storage.files.isFile call.path with
    | error e => exact Or.inr (Or.inr ⟨_, .unsought going there⟩)
    | ok found =>
      cases found with
      | false => exact Or.inr (Or.inl (.missing going there))
      | true =>
        cases hc : call.invocation.configuration call.environment [] with
        | error e => exact Or.inr (Or.inl (.unconfigured ⟨going, there⟩ hc))
        | ok c =>
          cases hs : Session.create host.library c call.storage.files with
          | ok session => exact Or.inl ⟨session, ⟨going, there⟩, c, hc, hs⟩
          | error e =>
            cases hm : e.message? with
            | some reason => exact Or.inr (Or.inl (.unopened ⟨going, there⟩ hc hs hm))
            | none => exact Or.inr (Or.inr ⟨_, .converter ⟨going, there⟩ hc hs hm⟩)

/-- A result is shown and reported, or a fault is let through. -/
theorem Judges.completes_or {session : Session} {result : ValidationResult}
    (judged : call.Judges host session result) :
    call.Completes host result ∨ ∃ e, call.LetsThrough host e := by
  cases shown : call.refused host session result with
  | some name => exact Or.inr ⟨_, .showing judged shown⟩
  | none =>
      cases hw : call.written host result with
      | ok files => exact Or.inl ⟨session, files, judged, shown, hw⟩
      | error e => exact Or.inr ⟨e, .writing judged shown hw⟩

/-- **A call has one of the three ends.** -/
theorem cases (call : ValidateCall) (host : Host σ α) :
    (∃ result, call.Completes host result) ∨ call.Reports host ∨
      ∃ e, call.LetsThrough host e := by
  rcases call.opens_or host with ⟨session, opened⟩ | h
  · cases hi : host.interruption .judging with
    | some interruption =>
        cases interruption with
        | system reason => exact Or.inr (Or.inl (.failing opened hi))
        | foreign name => exact Or.inr (Or.inr ⟨_, .breaking opened hi⟩)
    | none =>
        cases hj : call.judgement host session with
        | error fault =>
            cases hr : reportOfFault call.path fault with
            | some told => exact Or.inr (Or.inl (.unjudged opened hi hj hr))
            | none => exact Or.inr (Or.inr ⟨_, .judging opened hi hj hr⟩)
        | ok result =>
            rcases (Judges.mk opened hi hj).completes_or with h | h
            · exact Or.inl ⟨result, h⟩
            · exact Or.inr (Or.inr h)
  · exact Or.inr h

/-! ## Runs -/

/-- A result is shown with the status of its verdict, unless the console refuses it or the report
cannot be written. -/
theorem showResult_ends (call : ValidateCall) (host : Host σ α) (session : Session)
    (result : ValidationResult) :
    let shown := showResult host call.invocation session call.storage.files call.time call.path
      call.report result
    (shown.status, shown.escaped) =
      match call.refused host session result, call.written host result with
      | some name, _ => (escapeStatus, some (.interrupted (.foreign name)))
      | none, .ok _ => (verdictStatus result.verdict, none)
      | none, .error e => (escapeStatus, some e) := by
  unfold showResult refused written
  dsimp only
  generalize writeAsked host call.storage.files call.report
    (result.report (some call.path.text) call.time) = wrote
  generalize host.print (result.display session.policy (some call.path.text)) = shown
  obtain ⟨printed, raised⟩ := shown
  cases call.invocation.quiet with
  | true => cases wrote <;> rfl
  | false => cases raised <;> cases wrote <;> rfl

/-- In its session a call goes on with what comes between, or with the result of the file or the
fault that came up. -/
theorem Opens.run_eq {session : Session} (h : call.Opens host session) :
    call.run host = runInSession host call.invocation call.storage call.time call.path call.type
      call.report session := by
  obtain ⟨⟨going, there⟩, c, configured, created⟩ := h
  rw [run, runValidate, going, there]
  simp only [withSession, configured, created]

theorem Judges.run_eq {session : Session} {result : ValidationResult}
    (h : call.Judges host session result) :
    call.run host = showResult host call.invocation session call.storage.files call.time call.path
      call.report result := by
  obtain ⟨opened, going, judged⟩ := h
  rw [judgement] at judged
  rw [opened.run_eq, runInSession, going, judged]

/-- A call that completes has the status of the verdict. -/
theorem Completes.ends {result : ValidationResult} (h : call.Completes host result) :
    (call.run host).status = verdictStatus result.verdict ∧ (call.run host).escaped = none := by
  obtain ⟨session, files, judged, shown, hw⟩ := h
  have hends := call.showResult_ends host session result
  rw [shown, hw] at hends
  rw [judged.run_eq]
  exact Prod.mk.inj hends

/-- A call that reports a fault has the status for that. -/
theorem Reports.ends (h : call.Reports host) :
    (call.run host).status = faultStatus ∧ (call.run host).escaped = none := by
  cases h with
  | missing going absent =>
      rw [run, runValidate, going, absent]
      exact ⟨rfl, rfl⟩
  | unconfigured there refused =>
      rw [run, runValidate, there.1, there.2]
      simp only [withSession, refused]
      exact ⟨rfl, rfl⟩
  | unopened there configured refused told =>
      rw [run, runValidate, there.1, there.2]
      simp only [withSession, configured, refused, told]
      exact ⟨rfl, rfl⟩
  | unjudged opened going refused handled =>
      rw [judgement] at refused
      rw [opened.run_eq, runInSession, going, refused]
      dsimp only
      rw [handled]
      exact ⟨rfl, rfl⟩
  | failing opened interrupted =>
      rw [opened.run_eq, runInSession, interrupted]
      exact ⟨rfl, rfl⟩

/-- A call that lets a fault through has the status of what is not caught. -/
theorem LetsThrough.ends {e : Escape} (h : call.LetsThrough host e) :
    (call.run host).status = escapeStatus ∧ (call.run host).escaped = some e := by
  cases h with
  | opening interrupted =>
      rw [run, runValidate, interrupted]
      exact ⟨rfl, rfl⟩
  | unsought going refused =>
      rw [run, runValidate, going, refused]
      exact ⟨rfl, rfl⟩
  | converter there configured refused untold =>
      rw [run, runValidate, there.1, there.2]
      simp only [withSession, configured, refused, untold]
      exact ⟨rfl, rfl⟩
  | judging opened going refused unhandled =>
      rw [judgement] at refused
      rw [opened.run_eq, runInSession, going, refused]
      dsimp only
      rw [unhandled]
      exact ⟨rfl, rfl⟩
  | breaking opened interrupted =>
      rw [opened.run_eq, runInSession, interrupted]
      exact ⟨rfl, rfl⟩
  | @showing session result _ judged refused =>
      have hends := call.showResult_ends host session result
      rw [refused] at hends
      rw [judged.run_eq]
      exact Prod.mk.inj hends
  | @writing session result _ judged shown refused =>
      have hends := call.showResult_ends host session result
      rw [shown, refused] at hends
      rw [judged.run_eq]
      exact Prod.mk.inj hends

/-! ## Statuses -/

/-- The program runs the call for the arguments that stand for it; a quiet one logs less. -/
theorem run_arguments (host : Host σ α) {arguments : List String}
    (reads : Request.read call.environment call.storage.files arguments =
      .ok (.run call.invocation))
    (validates : call.invocation.command = .validate call.path call.type call.report) :
    let ran := runOn host arguments call.environment call.storage call.time
    ran.status = (call.run host).status ∧ ran.escaped = (call.run host).escaped := by
  have hrun : runOn host arguments call.environment call.storage call.time =
      if call.invocation.quiet then (call.run host).silenced else call.run host := by
    rw [runOn, reads]
    simp only [Invocation.run, validates]
    rfl
  rw [hrun]
  cases call.invocation.quiet <;> exact ⟨rfl, rfl⟩

theorem verdictStatus_eq_iff {v w : Verdict} : verdictStatus v = verdictStatus w ↔ v = w := by
  cases v <;> cases w <;> decide

end ValidateCall

end OscalValidation.CommandLine
