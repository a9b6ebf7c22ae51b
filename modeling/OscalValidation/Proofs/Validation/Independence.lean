import OscalValidation.Proofs.Gateway.Traffic
import OscalValidation.Proofs.Validation.DeclaredType
import OscalValidation.Proofs.Validation.Interleaving

set_option autoImplicit false

/-! # Validations do not influence each other

Whatever happens to a workload apart from calls brings its end nearer (`Move.effort_lt`), and while
a validation has not ended something can happen (`Orderly.exists_move`), so that all validations
end (`Fair.ends`). Main statement: with steady rules each validation comes to the result that it
comes to in a fresh session, one after another or at the same time, and the engine is asked to load
each key that is judged once (`ValidationService.validations_independent`).
-/

namespace OscalValidation

variable {σ α : Type}

/-! ## What the gateway has yet to do -/

namespace Gateway

variable {g : Gateway α}

/-- **What the gateway has yet to do,** if there are never more callers than so many: its tasks, and
for a load that has not ended those that its end will bring. -/
def backlog (callers : Nat) (g : Gateway α) : Nat :=
  (g.tasks.map (GatewayTask.weight 0)).sum +
    (g.loads.map fun l => if l.result.isNone then 2 * callers + 2 else 0).sum

/-- A request brings a load and its start, or nothing. -/
theorem backlog_request_le (n : Nat) (key : RuleKey) :
    (g.step (.request key)).backlog n ≤ g.backlog n + (2 * n + 4) := by
  rw [show g.step (.request key) = (g.request key).1 from rfl]
  rcases g.request_cases key with ⟨-, hr⟩ | ⟨_, -, -, hr⟩ | ⟨_, _, -, -, hr⟩ <;> rw [hr]
  · simp [backlog, GatewayTask.weight]
    omega
  · exact Nat.le_add_right _ _
  · exact Nat.le_add_right _ _

/-- A task is one less, whatever it gives rise to. -/
theorem backlog_advance_lt (n : Nat) {task : GatewayTask} {rest : List GatewayTask}
    (ht : g.tasks = task :: rest) : (g.step .advance).backlog n < g.backlog n := by
  obtain ⟨added, htasks, hlt⟩ := { g with tasks := rest }.tasks_perform task
  have hadded := hlt 0
  -- no task ends a load
  have hloads : ((g.step .advance).loads.map fun l =>
      if l.result.isNone then 2 * n + 2 else 0).sum =
        (g.loads.map fun l => if l.result.isNone then 2 * n + 2 else 0).sum := by
    by_cases hstart : ∃ load l, task = .start load ∧ g.loads[load]? = some l
    · obtain ⟨load, l, rfl, hl⟩ := hstart
      rw [step_advance_cons ht]
      exact Nat.add_right_cancel (sum_map_modify
        (fun l : Load α => if l.result.isNone then 2 * n + 2 else 0)
        (fun l => { l with started := true }) hl)
    · rw [loads_work ht fun load hload => ?_]
      rw [Option.eq_none_iff_forall_ne_some]
      exact fun l hl => hstart ⟨load, l, hload, hl⟩
  rw [backlog, hloads, step_advance_cons ht, htasks, backlog, ht, List.map_append, List.sum_append,
    List.map_cons, List.sum_cons]
  dsimp only
  omega

/-- The end of a load outweighs the tasks that it brings. -/
theorem backlog_finish_lt {n : Nat} (few : g.callers.length ≤ n) {load : Nat}
    (running : g.isRunning load = true) (result : LoadResult α) :
    (g.step (.finish load result)).backlog n < g.backlog n := by
  obtain ⟨l, hl, -, hnone⟩ := (g.isRunning_iff load).mp running
  have hloads := sum_map_modify (fun l : Load α => if l.result.isNone then 2 * n + 2 else 0)
    (fun l => { l with result := some result }) hl
  simp only [hnone, Option.isNone_none, if_true, Option.isNone_some, Bool.false_eq_true,
    if_false] at hloads
  have hwaiters := g.length_waiters_le load
  rw [step_finish, if_pos running, backlog, backlog, finish, List.map_append, List.sum_append,
    List.map_cons, List.sum_cons, weight_tells, GatewayTask.weight]
  dsimp only
  omega

end Gateway

/-! ## What a workload has yet to do -/

/-- The callers that a validation has yet to bring. -/
def Stage.callersAhead : Stage → Nat
  | .called => 1
  | _ => 0

/-- What is to be done about a validation, if there are so many. -/
def Stage.effort (validations : Nat) : Stage → Nat
  | .called => 2 * validations + 7
  | .loading .. => 2
  | .evaluating .. => 1
  | .ended _ => 0

namespace Workload

/-- What all validations come to, by what each comes to at its stage. -/
def total (f : Stage → Nat) (w : Workload σ α) : Nat := (w.validations.map fun v => f v.stage).sum

/-- **What is to be done** about a workload. -/
def effort (w : Workload σ α) : Nat :=
  w.gateway.backlog w.validations.length + w.total (Stage.effort w.validations.length)

/-- No more callers come than there are validations. -/
def Roomy (w : Workload σ α) : Prop :=
  w.gateway.callers.length + w.total Stage.callersAhead ≤ w.validations.length

section Move

variable {service : ValidationService σ α} {w w' : Workload σ α}

theorem Move.length_eq (h : Move service w w') : w'.validations.length = w.validations.length := by
  have hcalls := congrArg List.length h.calls_eq
  rw [calls, calls, List.length_map, List.length_map] at hcalls
  exact hcalls

/-- A validation that goes on changes the total by what it comes to itself. -/
theorem total_moveTo (f : Stage → Nat) {place : Nat} {v : Validation}
    (there : w.validations[place]? = some v) (stage : Stage) :
    (w.moveTo place stage).total f + f v.stage = w.total f + f stage :=
  sum_map_modify (fun v : Validation => f v.stage) (fun v => { v with stage := stage }) there

theorem total_moveTo_lt {f : Stage → Nat} {place : Nat} {v : Validation}
    (there : w.validations[place]? = some v) {stage : Stage} (h : f stage < f v.stage) :
    (w.moveTo place stage).total f < w.total f := by
  have htotal := total_moveTo f there stage
  omega

/-- **Every move brings the end nearer.** -/
theorem Move.effort_lt (h : Move service w w') (roomy : w.Roomy) : w'.effort < w.effort := by
  have few : w.gateway.callers.length ≤ w.validations.length := by
    unfold Roomy at roomy
    omega
  unfold effort
  rw [h.length_eq]
  generalize w.validations.length = n at few ⊢
  cases h with
  | refused there refuses =>
      exact Nat.add_lt_add_left (total_moveTo_lt there (Nat.succ_pos _)) _
  | @asked place call key document there prepared =>
      have hbacklog := w.gateway.backlog_request_le n key
      have htotal := total_moveTo (Stage.effort n) there
        (.loading w.gateway.callers.length key document)
      simp only [Stage.effort] at htotal
      show (w.gateway.step (.request key)).backlog n + (w.moveTo place _).total _ < _
      omega
  | worked tasks other => exact Nat.add_lt_add_right (Gateway.backlog_advance_lt n tasks) _
  | started tasks there answers => exact Nat.add_lt_add_right (Gateway.backlog_advance_lt n tasks) _
  | finished answered running =>
      exact Nat.add_lt_add_right (Gateway.backlog_finish_lt few running _) _
  | evaluating there obtained answers =>
      exact Nat.add_lt_add_left (total_moveTo_lt (w := w) there (Nat.lt_succ_self 1)) _
  | broken there obtained failed =>
      exact Nat.add_lt_add_left (total_moveTo_lt there (Nat.succ_pos _)) _
  | concluded there =>
      exact Nat.add_lt_add_left (total_moveTo_lt there (Nat.succ_pos _)) _

/-- **No move brings more callers than there are validations.** -/
theorem Move.roomy (h : Move service w w') (roomy : w.Roomy) : w'.Roomy := by
  have hkept : ∀ {e : Gateway.Event α}, e.key? = none →
      (w.gateway.step e).callers.length + w.total Stage.callersAhead ≤ w.validations.length := by
    intro e he
    rw [Traffic.length_callers_step, he]
    exact roomy
  -- neither work of the gateway nor a validation that goes on without it brings a caller
  have hmoved : ∀ {place : Nat} {v : Validation} (stage : Stage),
      w.validations[place]? = some v → stage.callersAhead = 0 →
      w.gateway.callers.length + (w.moveTo place stage).total Stage.callersAhead ≤
        w.validations.length := by
    intro place v stage there hnone
    have htotal := total_moveTo Stage.callersAhead there stage
    unfold Roomy at roomy
    omega
  unfold Roomy at roomy ⊢
  rw [h.length_eq]
  cases h with
  | refused there refuses => exact hmoved _ there rfl
  | @asked place call key document there prepared =>
      have htotal := total_moveTo Stage.callersAhead there
        (.loading w.gateway.callers.length key document)
      have hcallers := Traffic.length_callers_step w.gateway (.request key)
      simp only [Stage.callersAhead] at htotal
      simp only [Gateway.Event.key?, Option.toList_some, List.length_singleton] at hcallers
      show (w.gateway.step (.request key)).callers.length + (w.moveTo place _).total _ ≤ _
      omega
  | worked tasks other => exact hkept (e := .advance) rfl
  | started tasks there answers => exact hkept (e := .advance) rfl
  | @finished load result answered running => exact hkept (e := .finish load result) rfl
  | evaluating there obtained answers => exact hmoved _ there rfl
  | broken there obtained failed => exact hmoved _ there rfl
  | concluded there => exact hmoved _ there rfl

end Move

/-! ## Every validation ends -/

def AllEnded (w : Workload σ α) : Prop := ∀ v ∈ w.validations, ∃ result, v.stage = .ended result

section Order

variable {service : ValidationService σ α} {rules : SteadyRules α}
  {w : Workload (σ × List (EngineCall α)) α}

/-- A validation that waits for its rules is no dead end: it can go on, or the gateway can, or the
load can end. -/
theorem Orderly.exists_move_of_loading (h : w.Orderly service rules) {place caller : Nat}
    {call : ValidationCall} {key : RuleKey} {document : Xml.Document}
    (there : w.validations[place]? = some ⟨call, .loading caller key document⟩) :
    ∃ e : WorkloadEvent, e.isInner ∧ Move service.recording w (w.step service.recording e) := by
  cases hobtained : w.gateway.obtained caller with
  | some result =>
      refine ⟨.proceed place, trivial, ?_⟩
      rw [Workload.step, there]
      dsimp only
      rw [hobtained]
      exact move_proceed there hobtained
  | none =>
      cases ht : w.gateway.tasks with
      | cons task rest => exact ⟨.advance, trivial, move_advance ht⟩
      | nil =>
          -- a gateway without tasks leaves nobody waiting for a load that has ended, and no load
          -- unstarted, so that the load of the caller runs
          obtain ⟨-, load, l, shares, hl, -⟩ := h.stands _ (List.mem_of_getElem? there)
          have hunended : w.gateway.resultOf load = none := by
            rw [← shares.obtained_eq h.sound.attended ht]
            exact hobtained
          rw [Gateway.resultOf, hl] at hunended
          have hnone : l.result = none := hunended
          have hstarted : l.started = true := by
            by_contra hnot
            have hstart := h.sound.attended.unstarted hl (Bool.eq_false_iff.mpr hnot)
            rw [ht] at hstart
            cases hstart
          rcases h.promised hl hstarted with hloaded | ⟨-, hanswer⟩
          · rw [hnone] at hloaded
            cases hloaded
          · have hrunning := (w.gateway.isRunning_iff load).mpr ⟨l, hl, hstarted, hnone⟩
            refine ⟨.finish load, trivial, ?_⟩
            rw [Workload.step, hanswer]
            exact .finished hanswer hrunning

/-- **While a validation has not ended, something can happen.** -/
theorem Orderly.exists_move (h : w.Orderly service rules) (unended : ¬ w.AllEnded) :
    ∃ e : WorkloadEvent, e.isInner ∧ Move service.recording w (w.step service.recording e) := by
  unfold AllEnded at unended
  push Not at unended
  obtain ⟨⟨call, stage⟩, hv, hstage⟩ := unended
  obtain ⟨place, there⟩ := List.mem_iff_getElem?.mp hv
  cases stage with
  | called =>
      refine ⟨.begin place, trivial, ?_⟩
      rw [Workload.step, there]
      exact move_begin there
  | loading caller key document => exact h.exists_move_of_loading there
  | evaluating key document answer =>
      refine ⟨.conclude place, trivial, ?_⟩
      rw [Workload.step, there]
      exact .concluded there
  | ended result => exact absurd rfl (hstage result)

end Order

/-- The workload after the first events of a schedule, when others came before. -/
def course (service : ValidationService σ α) (state : σ) (events : List WorkloadEvent)
    (schedule : Nat → WorkloadEvent) (n : Nat) : Workload σ α :=
  run service state (events ++ (List.range n).map schedule)

theorem course_succ (service : ValidationService σ α) (state : σ) (events : List WorkloadEvent)
    (schedule : Nat → WorkloadEvent) (n : Nat) :
    course service state events schedule (n + 1) =
      (course service state events schedule n).step service (schedule n) := by
  rw [course, course, List.range_succ, List.map_append, ← List.append_assoc, run_append]
  rfl

/-- **A schedule that lets everything happen that can,** after some events: no calls come any more,
and what could change something from some moment on happens at last. -/
structure Fair (service : ValidationService σ α) (state : σ) (events : List WorkloadEvent)
    (schedule : Nat → WorkloadEvent) : Prop where
  inner (n : Nat) : (schedule n).isInner
  happens {n : Nat} {e : WorkloadEvent} (inner : e.isInner)
    (possible : ∀ m, n ≤ m → (course service state events schedule m).step service e ≠
      course service state events schedule m) :
    ∃ m, n ≤ m ∧ schedule m = e

section Fair

variable {service : ValidationService σ α} {rules : SteadyRules α} {state : σ}
  {events : List WorkloadEvent} {schedule : Nat → WorkloadEvent}

theorem roomy_run (service : ValidationService σ α) (state : σ) (events : List WorkloadEvent) :
    (run service state events).Roomy := by
  have hkeep : ∀ w : Workload σ α, w.Roomy → (events.foldl (step service) w).Roomy := by
    induction events with
    | nil => exact fun w h => h
    | cons e rest ih =>
        intro w h
        refine ih _ ?_
        by_cases he : e.isInner
        · rcases eq_or_move service w he with hsame | hmove
          · rw [hsame]
            exact h
          · exact hmove.roomy h
        · cases e with
          | call call =>
              have htotal : (w.step service (.call call)).total Stage.callersAhead =
                  w.total Stage.callersAhead + 1 := by
                rw [total, step, List.map_append, List.sum_append]
                rfl
              have hlength : (w.step service (.call call)).validations.length =
                  w.validations.length + 1 := List.length_append
              unfold Roomy at h ⊢
              rw [htotal, hlength]
              exact Nat.succ_le_succ h
          | _ => exact absurd trivial he
  exact hkeep _ (Nat.le_refl 0)

/-- From one moment to any later one nothing has changed, or the end is nearer. -/
theorem course_eq_or_effort_lt (inner : ∀ n, (schedule n).isInner) {n m : Nat} (hnm : n ≤ m) :
    course service state events schedule m = course service state events schedule n ∨
      (course service state events schedule m).effort <
        (course service state events schedule n).effort := by
  induction m, hnm using Nat.le_induction with
  | base => exact Or.inl rfl
  | succ m _ ih =>
      rw [course_succ]
      rcases eq_or_move service (course service state events schedule m) (inner m) with
        hsame | hmove
      · rw [hsame]
        exact ih
      · have hlt := hmove.effort_lt (roomy_run service state _)
        right
        rcases ih with heq | hless
        · rw [heq] at hlt ⊢
          exact hlt
        · exact Nat.lt_trans hlt hless

/-- **Whatever has happened, there is a schedule that lets everything happen that can.** -/
theorem exists_fair (service : ValidationService σ α) (state : σ) (events : List WorkloadEvent) :
    ∃ schedule, Fair service state events schedule := by
  -- at every moment something happens that changes the workload, if anything does
  have hnext : ∀ w : Workload σ α, ∃ e : WorkloadEvent, e.isInner ∧
      (w.step service e = w → ∀ e' : WorkloadEvent, e'.isInner → w.step service e' = w) := by
    intro w
    by_cases hchange : ∃ e : WorkloadEvent, e.isInner ∧ w.step service e ≠ w
    · obtain ⟨e, he, hne⟩ := hchange
      exact ⟨e, he, fun hsame => absurd hsame hne⟩
    · push Not at hchange
      exact ⟨.advance, trivial, fun _ => hchange⟩
  choose next inner stuck using hnext
  let moment (n : Nat) : Workload σ α :=
    (fun w => w.step service (next w))^[n] (run service state events)
  have hmoment : ∀ n, moment (n + 1) = (moment n).step service (next (moment n)) :=
    fun n => Function.iterate_succ_apply' _ n _
  have hcourse : ∀ n, course service state events (fun n => next (moment n)) n = moment n := by
    intro n
    induction n with
    | zero => rw [course, List.range_zero, List.map_nil, List.append_nil]; rfl
    | succ n ih =>
        rw [course_succ, ih]
        exact (hmoment n).symm
  refine ⟨fun n => next (moment n), fun n => inner _, fun {n e} he possible => ?_⟩
  -- what could happen for ever would bring the end nearer for ever
  have hdrop : ∀ k, (moment (n + k)).effort + k ≤ (moment n).effort := by
    intro k
    induction k with
    | zero => exact Nat.le_refl _
    | succ k ih =>
        have hpossible := possible (n + k) (Nat.le_add_right n k)
        rw [hcourse] at hpossible
        rcases eq_or_move service (moment (n + k)) (inner _) with hsame | hmove
        · exact absurd (stuck _ hsame e he) hpossible
        · have hroomy : (moment (n + k)).Roomy := hcourse (n + k) ▸ roomy_run service state _
          have hlt := hmove.effort_lt hroomy
          rw [← hmoment] at hlt
          show (moment (n + k + 1)).effort + (k + 1) ≤ (moment n).effort
          omega
  have habsurd := hdrop ((moment n).effort + 1)
  omega

/-- **With steady rules every validation ends.** -/
theorem Fair.ends (follows : service.engine.Follows rules) {state : σ}
    (fair : Fair service.recording (state, []) events schedule) :
    ∃ n, ∀ m, n ≤ m → (course service.recording (state, []) events schedule m).AllEnded := by
  -- induction on the effort that is left at a moment
  have hfrom : ∀ effort n,
      (course service.recording (state, []) events schedule n).effort = effort →
      ∃ n', ∀ m, n' ≤ m →
        (course service.recording (state, []) events schedule m).AllEnded := by
    intro effort
    induction effort using Nat.strong_induction_on with
    | _ effort ih =>
        intro n hn
        by_cases hconstant : ∀ m, n ≤ m → course service.recording (state, []) events schedule m =
          course service.recording (state, []) events schedule n
        · by_cases hended : (course service.recording (state, []) events schedule n).AllEnded
          · exact ⟨n, fun m hm => (hconstant m hm).symm ▸ hended⟩
          · -- something could happen at every later moment, and so it does
            have horderly := Orderly.run follows state (events ++ (List.range n).map schedule)
            obtain ⟨e, he, hmove⟩ := horderly.exists_move hended
            have hless := hmove.effort_lt (roomy_run _ _ _)
            have hchanges : (course service.recording (state, []) events schedule n).step
                service.recording e ≠ course service.recording (state, []) events schedule n := by
              intro hsame
              rw [course] at hsame
              rw [hsame] at hless
              exact Nat.lt_irrefl _ hless
            obtain ⟨m, hm, rfl⟩ := fair.happens he fun m hm => by
              rw [hconstant m hm]
              exact hchanges
            refine absurd (hconstant (m + 1) (Nat.le_succ_of_le hm)) ?_
            rw [course_succ, hconstant m hm]
            exact hchanges
        · -- something changes later, and brings the end nearer
          push Not at hconstant
          obtain ⟨m, hm, hchanged⟩ := hconstant
          rcases course_eq_or_effort_lt fair.inner hm with hsame | hless
          · exact absurd hsame hchanged
          · exact ih _ (hn ▸ hless) m rfl
  exact hfrom _ 0 rfl

end Fair

/-! ## Independence -/

/-- Each call has its validation. -/
theorem calls_run (service : ValidationService σ α) (state : σ) (events : List WorkloadEvent) :
    (run service state events).calls = events.filterMap WorkloadEvent.call? := by
  have hkeep : ∀ w : Workload σ α,
      (events.foldl (step service) w).calls = w.calls ++ events.filterMap WorkloadEvent.call? := by
    induction events with
    | nil => exact fun w => (List.append_nil _).symm
    | cons e rest ih =>
        intro w
        rw [List.foldl_cons, ih]
        by_cases he : e.isInner
        · have hcalls : (w.step service e).calls = w.calls := by
            rcases eq_or_move service w he with hsame | hmove
            · rw [hsame]
            · exact hmove.calls_eq
          have hnone : e.call? = none := by
            cases e with
            | call call => cases he
            | _ => rfl
          rw [hcalls, List.filterMap_cons_none hnone]
        · cases e with
          | call call =>
              rw [calls, step, List.map_append, List.append_assoc]
              rfl
          | _ => exact absurd trivial he
  rw [run, hkeep]
  rfl

/-- **The validations of a run are independent of each other,** of an engine that records its
calls. -/
structure Independent (service : ValidationService σ α) (state : σ)
    (events : List WorkloadEvent) : Prop where
  /-- Each call has its validation, in the order of the calls. -/
  called : (run service.recording (state, []) events).calls = events.filterMap WorkloadEvent.call?
  /-- There are schedules in which everything happens that can. -/
  fair : ∃ schedule, Fair service.recording (state, []) events schedule
  /-- In each of them all validations end. -/
  ends {schedule : Nat → WorkloadEvent}
    (fair : Fair service.recording (state, []) events schedule) :
    ∃ n, ∀ m, n ≤ m →
      (run service.recording (state, []) (events ++ (List.range m).map schedule)).AllEnded
  /-- A validation that has ended has the result of its call in a fresh session. -/
  faithful {v : Validation} (there : v ∈ (run service.recording (state, []) events).validations)
    {result : Except ValidationFault ValidationResult} (ended : v.stage = .ended result)
    (fresh : σ) : result = (service.validate v.call.input v.call.request ⟨{}, fresh⟩).1
  /-- The engine is asked for no key twice. -/
  sparing (key : RuleKey) :
    (run service.recording (state, []) events).engine.2.countP (EngineCall.isLoadOf key) ≤ 1
  /-- It was asked once for a key that a validation was judged by which has ended. -/
  asked {v : Validation} (there : v ∈ (run service.recording (state, []) events).validations)
    {result : Except ValidationFault ValidationResult} (ended : v.stage = .ended result)
    {key : RuleKey} (judges : service.Judges v.call key) :
    (run service.recording (state, []) events).engine.2.countP (EngineCall.isLoadOf key) = 1
  /-- It was asked for no key that no call is judged by. -/
  unasked {key : RuleKey}
    (none : ∀ call, .call call ∈ events → ¬ service.Judges call key) :
    (run service.recording (state, []) events).engine.2.countP (EngineCall.isLoadOf key) = 0

section Independent

variable {service : ValidationService σ α} {rules : SteadyRules α}

/-- A workload in order has asked the engine for no key twice, for each key that a load was started
for, and for none that has no load. -/
theorem Orderly.count_loads {w : Workload (σ × List (EngineCall α)) α}
    (h : w.Orderly service rules) (key : RuleKey) :
    w.engine.2.countP (EngineCall.isLoadOf key) ≤ 1 ∧
      (w.gateway.Started key → w.engine.2.countP (EngineCall.isLoadOf key) = 1) ∧
      (¬ w.gateway.HasLoad key → w.engine.2.countP (EngineCall.isLoadOf key) = 0) :=
  h.counted.asked h.sound.loads (h.promised.stand h.sound.loads) key

/-- A validation that has ended has come to the verdict on its call, and a load was started for the
key that it was judged by. -/
theorem Orderly.of_ended {w : Workload (σ × List (EngineCall α)) α} (h : w.Orderly service rules)
    {v : Validation} (there : v ∈ w.validations)
    {result : Except ValidationFault ValidationResult} (ended : v.stage = .ended result) :
    result = service.verdictBy rules v.call ∧
      ∀ key, service.Judges v.call key → w.gateway.Started key := by
  have hstands := h.stands v there
  unfold Validation.Stands at hstands
  rw [ended] at hstands
  exact hstands

/-- With steady rules the validations of every run are independent. -/
theorem independent (follows : service.engine.Follows rules) (state : σ)
    (events : List WorkloadEvent) : Independent service state events := by
  have horderly := Orderly.run follows state events
  refine ⟨calls_run _ _ _, exists_fair _ _ _, fun fair => fair.ends follows, ?_,
    fun key => (horderly.count_loads key).1, ?_, ?_⟩
  · intro v there result ended fresh
    rw [ValidationService.validate_fresh follows]
    exact (horderly.of_ended there ended).1
  · intro v there result ended key judges
    exact (horderly.count_loads key).2.1 ((horderly.of_ended there ended).2 key judges)
  · intro key hnone
    refine (horderly.count_loads key).2.2 fun hload => ?_
    obtain ⟨call, hcall, hjudges⟩ := horderly.judged key hload
    rw [calls_run] at hcall
    obtain ⟨e, he, hsome⟩ := List.mem_filterMap.mp hcall
    cases e with
    | call made =>
        cases hsome
        exact hnone call he hjudges
    | _ => cases hsome

end Independent

end Workload

namespace ValidationService

/-- **Validations do not influence each other.** If the engine answers loads and evaluations by
their inputs alone and fails none, the validations of every run are independent. Calls one after
another come to the results that they come to in fresh sessions, and the engine is asked once for
each key that is judged, and for no other. -/
theorem validations_independent {service : ValidationService σ α} {rules : SteadyRules α}
    (follows : service.engine.Follows rules) (state : σ) :
    (∀ events, Workload.Independent service state events) ∧
    ∀ (calls : List ValidationCall) (fresh : σ),
      let (results, after) := service.recording.validateAll calls ⟨{}, (state, [])⟩
      results =
          calls.map (fun call => (service.validate call.input call.request ⟨{}, fresh⟩).1) ∧
        ∀ key,
          ((∃ call ∈ calls, service.Judges call key) →
            after.engine.2.countP (EngineCall.isLoadOf key) = 1) ∧
          ((¬ ∃ call ∈ calls, service.Judges call key) →
            after.engine.2.countP (EngineCall.isLoadOf key) = 0) :=
  ⟨Workload.independent follows state, fun calls fresh => validateAll_fresh follows calls state fresh⟩

/-- The rules of the lenient service. -/
def lenientRules : SteadyRules Unit where
  handle _ := ()
  outcomes _ _ _ := []

/-- Two validations of the plan begin before its rules are there; the one called last goes on
first. -/
def plansAtOnce : List WorkloadEvent :=
  [.call ⟨.tree planTree, {}⟩, .call ⟨.tree planTree, {}⟩, .begin 0, .begin 1, .advance, .finish 0,
    .advance, .advance, .advance, .advance, .advance, .proceed 1, .conclude 1, .proceed 0,
    .conclude 0]

/-- Both validations of the plan come to the result that it has in a fresh session, and its rules
are loaded once. -/
theorem validations_independent_plansAtOnce :
    lenient.engine.Follows lenientRules ∧
    (Workload.run lenient.recording ((), []) plansAtOnce).validations.map (·.stage) =
      [.ended (.ok planResult), .ended (.ok planResult)] ∧
    (lenient.validate (.tree planTree) {} ⟨{}, ()⟩).1 = .ok planResult ∧
    (Workload.run lenient.recording ((), []) plansAtOnce).engine.2.countP
      (EngineCall.isLoadOf ⟨.ssp, .rev5⟩) = 1 := by
  have follows : lenient.engine.Follows lenientRules := ⟨fun _ _ => rfl, fun _ _ _ _ => rfl⟩
  obtain ⟨hruns, -⟩ := validations_independent follows ()
  let plan : Validation := ⟨⟨.tree planTree, {}⟩, .ended (.ok planResult)⟩
  have hended : (Workload.run lenient.recording ((), []) plansAtOnce).validations =
      [plan, plan] := rfl
  have there : plan ∈ (Workload.run lenient.recording ((), []) plansAtOnce).validations :=
    hended ▸ List.mem_cons_self
  have hjudges : lenient.Judges plan.call ⟨.ssp, .rev5⟩ :=
    ⟨planTree, prepare_eq_ready_iff.mp rfl⟩
  refine ⟨follows, congrArg (List.map (·.stage)) hended, ?_, ?_⟩
  · exact ((hruns plansAtOnce).faithful there rfl ()).symm
  · exact (hruns plansAtOnce).asked there rfl hjudges

end ValidationService

end OscalValidation
