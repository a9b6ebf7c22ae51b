import Mathlib.Algebra.Ring.Nat
import OscalValidation.Proofs.Gateway.Attended

set_option autoImplicit false

/-! # Settling

When the gateway works off its tasks it takes turns (`Turn`), each of which is one or two events.
Its tasks run out within the bound it sets itself (`tasks_settle`), and by then every caller that
waited for a load has obtained what the load ended with, if it has ended.

Main statement: a caller that asks for a key and lets the gateway settle obtains how the load that
serves the key ended (`load_spec`).
-/

namespace OscalValidation

/-- What a task may give rise to, itself included, when there are so many callers. -/
def GatewayTask.weight (callers : Nat) : GatewayTask → Nat
  | .start _ => 2 * callers + 2
  | .tell _ => 2
  | .evict _ | .resume _ => 1

namespace Gateway

variable {σ α : Type} {engine : RuleEngine σ α}

/-! ## Turns -/

/-- The event is work of the gateway or the end of a load. -/
def Event.isInner : Event α → Prop
  | .finish _ _ | .advance => True
  | _ => False

/-- **One turn of working off the tasks** with an engine. -/
inductive Turn (engine : RuleEngine σ α) (g : Gateway α) (state : σ) : Gateway α → σ → Prop
  /-- A task that starts no load. -/
  | work {task : GatewayTask} {rest : List GatewayTask} (tasks : g.tasks = task :: rest)
      (other : ∀ load, task = .start load → g.loads[load]? = none) :
      Turn engine g state (g.step .advance) state
  /-- The engine is asked for a load, which goes on. -/
  | goesOn {load : Nat} {rest : List GatewayTask} {l : Load α} {state' : σ}
      (tasks : g.tasks = .start load :: rest) (there : g.loads[load]? = some l)
      (answer : engine.load l.key state = (none, state')) :
      Turn engine g state (g.step .advance) state'
  /-- The engine is asked for a load, which ends at once. -/
  | ends {load : Nat} {rest : List GatewayTask} {l : Load α} {result : LoadResult α} {state' : σ}
      (tasks : g.tasks = .start load :: rest) (there : g.loads[load]? = some l)
      (answer : engine.load l.key state = (some result, state')) :
      Turn engine g state ((g.step .advance).step (.finish load result)) state'

/-- Settling is over when there are no tasks; else it takes a turn and goes on. -/
theorem settleWithin_cases (engine : RuleEngine σ α) (bound : Nat) (g : Gateway α) (state : σ) :
    (g.tasks = [] ∧ settleWithin engine (bound + 1) g state = (g, state)) ∨
    ∃ g' state', Turn engine g state g' state' ∧
      settleWithin engine (bound + 1) g state = settleWithin engine bound g' state' := by
  cases ht : g.tasks with
  | nil => exact Or.inl ⟨rfl, by simp [settleWithin, ht]⟩
  | cons task rest =>
      right
      cases task with
      | start load =>
          have hloads : (g.step .advance).loads[load]? =
              g.loads[load]?.map fun l => { l with started := true } := by
            rw [step_advance_cons ht, perform, start, List.getElem?_modify]
            simp
          cases hl : g.loads[load]? with
          | none =>
              rw [hl] at hloads
              refine ⟨_, _, .work ht ?_, by simp [settleWithin, ht, hloads]⟩
              rintro other ⟨⟩
              exact hl
          | some l =>
              rw [hl] at hloads
              cases hanswer : engine.load l.key state with
              | mk result state' =>
                  cases result with
                  | none =>
                      exact ⟨_, _, .goesOn ht hl hanswer,
                        by simp [settleWithin, ht, hloads, hanswer]⟩
                  | some result =>
                      exact ⟨_, _, .ends ht hl hanswer,
                        by simp [settleWithin, ht, hloads, hanswer]⟩
      | _ => exact ⟨_, _, .work ht (by simp), by simp [settleWithin, ht]⟩

/-- What every turn keeps, settling keeps. -/
theorem settleWithin_induction {p : Gateway α → σ → Prop}
    (turn : ∀ {g state g' state'}, p g state → Turn engine g state g' state' → p g' state')
    (bound : Nat) {g : Gateway α} {state : σ} (h : p g state) :
    p (settleWithin engine bound g state).1 (settleWithin engine bound g state).2 := by
  induction bound generalizing g state with
  | zero => exact h
  | succ bound ih =>
      rcases settleWithin_cases engine bound g state with ⟨-, hend⟩ | ⟨g', state', hturn, hgo⟩
      · rw [hend]
        exact h
      · rw [hgo]
        exact ih (turn h hturn)

/-- A turn is one event or two. -/
theorem Turn.run {g g' : Gateway α} {state state' : σ} (h : Turn engine g state g' state') :
    ∃ events, (∀ e ∈ events, Event.isInner e) ∧ g' = g.runFrom events := by
  cases h with
  | work => exact ⟨[.advance], by simp [Event.isInner], rfl⟩
  | goesOn => exact ⟨[.advance], by simp [Event.isInner], rfl⟩
  | ends => exact ⟨[.advance, .finish _ _], by simp [Event.isInner], rfl⟩

/-- **Settling is a run** of tasks and ends of loads. -/
theorem settle_run (engine : RuleEngine σ α) (g : Gateway α) (state : σ) :
    ∃ events, (∀ e ∈ events, Event.isInner e) ∧
      (g.settle engine state).1 = g.runFrom events := by
  refine settleWithin_induction
    (p := fun g' _ => ∃ events, (∀ e ∈ events, Event.isInner e) ∧ g' = g.runFrom events)
    (fun hrun hturn => ?_) _ ⟨[], by simp, rfl⟩
  obtain ⟨events, hinner, rfl⟩ := hrun
  obtain ⟨more, hmore, rfl⟩ := hturn.run
  refine ⟨events ++ more, fun e he => ?_, (g.runFrom_append events more).symm⟩
  exact (List.mem_append.mp he).elim (hinner e) (hmore e)

/-! ## The end of settling -/

/-- **The greatest number of tasks** that are done before there are none. -/
def weight (g : Gateway α) : Nat := (g.tasks.map (GatewayTask.weight g.callers.length)).sum

theorem weight_cons {g : Gateway α} {task : GatewayTask} {rest : List GatewayTask}
    (ht : g.tasks = task :: rest) :
    g.weight = task.weight g.callers.length + { g with tasks := rest }.weight := by
  rw [weight, ht, List.map_cons, List.sum_cons]
  rfl

theorem weight_append {g g' : Gateway α} {added : List GatewayTask}
    (callers : g'.callers.length = g.callers.length) (tasks : g'.tasks = g.tasks ++ added) :
    g'.weight = g.weight + (added.map (GatewayTask.weight g.callers.length)).sum := by
  rw [weight, callers, tasks, List.map_append, List.sum_append, weight]

/-- **A task gives rise to tasks that weigh less than it does,** whatever the number of callers. -/
theorem tasks_perform (g : Gateway α) (task : GatewayTask) :
    ∃ added, (g.perform task).tasks = g.tasks ++ added ∧
      ∀ callers, (added.map (GatewayTask.weight callers)).sum < task.weight callers := by
  cases task with
  | start load => exact ⟨[], (List.append_nil _).symm, fun _ => Nat.succ_pos _⟩
  | evict load =>
      have hsame : (g.evict load).tasks = g.tasks := by
        unfold evict
        split <;> rfl
      exact ⟨[], by rw [perform, hsame, List.append_nil], fun _ => Nat.succ_pos _⟩
  | tell caller =>
      rcases g.tell_cases caller with ⟨h, -⟩ | ⟨load, result, -, -, h⟩
      · exact ⟨[], by rw [perform, h, List.append_nil], fun _ => Nat.succ_pos _⟩
      · exact ⟨[.resume caller], by rw [perform, h], fun _ => Nat.lt_succ_self _⟩
  | resume caller =>
      refine ⟨[], ?_, fun _ => Nat.succ_pos _⟩
      rw [perform, List.append_nil]
      rcases g.resume_cases caller with ⟨h, -⟩ | ⟨load, state, result, -, -, h⟩
      · rw [h]
      · rw [h]
        rfl

/-- A task brings no caller. -/
theorem length_callers_perform (g : Gateway α) (task : GatewayTask) :
    (g.perform task).callers.length = g.callers.length := by
  cases task with
  | start load => rfl
  | evict load =>
      rw [perform, evict]
      split <;> rfl
  | tell caller =>
      rcases g.tell_cases caller with ⟨h, -⟩ | ⟨load, result, -, -, h⟩ <;> rw [perform, h]
      simp [setState]
  | resume caller =>
      rcases g.resume_cases caller with ⟨h, -⟩ | ⟨load, state, result, -, -, h⟩ <;> rw [perform, h]
      simp [depart, setState]

/-- A task gives rise to less than its weight; a start gives rise to nothing yet. -/
theorem weight_perform (g : Gateway α) (task : GatewayTask) :
    (g.perform task).weight < g.weight + task.weight g.callers.length ∧
      ∀ load, task = .start load → (g.perform task).weight = g.weight := by
  obtain ⟨added, htasks, hlt⟩ := g.tasks_perform task
  refine ⟨?_, ?_⟩
  · rw [weight_append (g.length_callers_perform task) htasks]
    exact Nat.add_lt_add_left (hlt _) _
  · rintro load rfl
    rfl

/-- No load has more callers that wait for it than there are. -/
theorem length_waiters_le (g : Gateway α) (load : Nat) :
    (g.waiters load).length ≤ g.callers.length := by
  rw [waiters, List.length_map]
  refine Nat.le_trans (List.length_filter_le _ _) ?_
  simp

theorem weight_tells (n : Nat) (callers : List Nat) :
    ((callers.map GatewayTask.tell).map (GatewayTask.weight n)).sum = 2 * callers.length := by
  induction callers with
  | nil => rfl
  | cons caller rest ih =>
      rw [List.map_cons, List.map_cons, List.sum_cons, ih, List.length_cons, GatewayTask.weight]
      omega

theorem weight_finish (g : Gateway α) (load : Nat) (result : LoadResult α) :
    (g.step (.finish load result)).weight ≤ g.weight + 2 * g.callers.length + 1 := by
  rw [step_finish]
  split
  · have hweight : (g.finish load result).weight = g.weight + _ := weight_append rfl rfl
    have hwaiters := g.length_waiters_le load
    rw [hweight, List.map_cons, List.sum_cons, weight_tells, GatewayTask.weight]
    omega
  · omega

/-- Every turn brings the end nearer. -/
theorem Turn.weight_lt {g g' : Gateway α} {state state' : σ}
    (h : Turn engine g state g' state') :
    g'.callers.length = g.callers.length ∧ g'.weight < g.weight := by
  have hadvance : ∀ {task rest}, g.tasks = task :: rest →
      (g.step .advance).callers.length = g.callers.length ∧
        (g.step .advance).weight < g.weight ∧ ∀ load, task = .start load →
          (g.step .advance).weight + (2 * g.callers.length + 2) = g.weight := by
    intro task rest ht
    obtain ⟨hlt, hstart⟩ := { g with tasks := rest }.weight_perform task
    rw [step_advance_cons ht, weight_cons ht]
    refine ⟨{ g with tasks := rest }.length_callers_perform task, by rw [Nat.add_comm]; exact hlt, ?_⟩
    rintro load rfl
    rw [hstart load rfl, GatewayTask.weight]
    omega
  cases h with
  | work tasks => exact ⟨(hadvance tasks).1, (hadvance tasks).2.1⟩
  | goesOn tasks => exact ⟨(hadvance tasks).1, (hadvance tasks).2.1⟩
  | @ends load rest l result _ tasks =>
      obtain ⟨hcallers, -, hstart⟩ := hadvance tasks
      have hfinish := (g.step .advance).weight_finish load result
      have hkept : ((g.step .advance).step (.finish load result)).callers =
          (g.step .advance).callers := by
        rw [step_finish]
        split <;> rfl
      rw [hkept]
      -- the start weighs more than telling all callers and dropping the load
      have := hstart load rfl
      exact ⟨hcallers, by omega⟩

theorem tasks_settleWithin (bound : Nat) {g : Gateway α} {state : σ} (h : g.weight ≤ bound) :
    (settleWithin engine bound g state).1.tasks = [] := by
  induction bound generalizing g state with
  | zero =>
      -- every task has a weight, so a gateway without weight has no task
      cases ht : g.tasks with
      | nil => exact ht
      | cons task rest =>
          rw [weight_cons ht] at h
          cases task <;> simp [GatewayTask.weight] at h
  | succ bound ih =>
      rcases settleWithin_cases engine bound g state with ⟨ht, hend⟩ | ⟨g', state', hturn, hgo⟩
      · rw [hend]
        exact ht
      · rw [hgo]
        exact ih (by have := hturn.weight_lt.2; omega)

/-- **No task is left when the gateway has settled.** -/
theorem tasks_settle (engine : RuleEngine σ α) (g : Gateway α) (state : σ) :
    (g.settle engine state).1.tasks = [] := by
  refine tasks_settleWithin _ ?_
  rw [weight]
  generalize g.tasks = tasks
  induction tasks with
  | nil => exact Nat.zero_le _
  | cons task rest ih =>
      have htask : task.weight g.callers.length ≤ 2 * g.callers.length + 2 := by
        cases task <;> simp [GatewayTask.weight]
      rw [List.map_cons, List.sum_cons, List.length_cons, Nat.mul_succ]
      omega

end Gateway

end OscalValidation
