import OscalValidation.Proofs.Gateway.Loading

set_option autoImplicit false

/-! # The order of tasks

Tasks are done in the order in which they came up. `TaskMove` lists what an event does to them:
the first one is done, or others come up behind all that are there. From this it follows that a
failed load leaves the cache before any caller that waited for it goes on (`DropsFirst`), and that
nobody is told anything before the end of its load (`Timely`).
-/

namespace OscalValidation

namespace Gateway

variable {α : Type}

/-! ## Callers -/

/-- A caller stays with its load, and does not go back to waiting. -/
theorem caller_step (g : Gateway α) (e : Event α) {caller load : Nat} {state : CallerState α}
    (h : g.callers[caller]? = some ⟨load, state⟩) :
    ∃ state', (g.step e).callers[caller]? = some ⟨load, state'⟩ ∧
      (state' = .waiting → state = .waiting) := by
  have hmodify : ∀ {other : Nat} {new : CallerState α}, new ≠ .waiting →
      (g.step e).callers = g.callers.modify other (fun c => { c with state := new }) →
      ∃ state', (g.step e).callers[caller]? = some ⟨load, state'⟩ ∧
        (state' = .waiting → state = .waiting) := by
    intro other new hnew callers
    rw [callers, getElem?_modify_of_some h]
    by_cases heq : other = caller
    · rw [if_pos heq]
      exact ⟨new, rfl, fun hw => absurd hw hnew⟩
    · rw [if_neg heq]
      exact ⟨state, rfl, id⟩
  cases g.callerMove e with
  | kept _ callers => exact ⟨state, by rw [callers]; exact h, id⟩
  | joined _ _ _ _ callers =>
      exact ⟨state, by rw [callers]; exact getElem?_append_one_of_some h, id⟩
  | served _ _ _ _ _ _ callers =>
      exact ⟨state, by rw [callers]; exact getElem?_append_one_of_some h, id⟩
  | told _ _ _ _ _ _ callers => exact hmodify (by simp) callers
  | cancelled _ _ _ _ _ _ callers => exact hmodify (by simp) callers
  | departed _ _ _ _ _ _ _ callers => exact hmodify (by simp) callers

/-! ## What an event does to the tasks -/

/-- **The task has come due:** what a caller is told has happened, and a caller that is let go on
does not wait any more. -/
def Due (g : Gateway α) : GatewayTask → Prop
  | .start _ | .evict _ => True
  | .tell caller => ∃ load state result,
      g.callers[caller]? = some ⟨load, state⟩ ∧ g.resultOf load = some result
  | .resume caller => ∃ load state, g.callers[caller]? = some ⟨load, state⟩ ∧ state ≠ .waiting

/-- A task stays due. -/
theorem Due.step {g : Gateway α} {task : GatewayTask} (h : g.Due task) (e : Event α) :
    (g.step e).Due task := by
  cases task with
  | start load => trivial
  | evict load => trivial
  | tell caller =>
      obtain ⟨load, state, result, hc, hr⟩ := h
      obtain ⟨state', hc', -⟩ := g.caller_step e hc
      exact ⟨load, state', result, hc', (g.extends_step e).resultOf hr⟩
  | resume caller =>
      obtain ⟨load, state, hc, hs⟩ := h
      obtain ⟨state', hc', hback⟩ := g.caller_step e hc
      exact ⟨load, state', hc', fun hw => hs (hback hw)⟩

/-- **What an event does to the tasks.** -/
inductive TaskMove (g : Gateway α) (e : Event α) : Prop
  /-- Tasks come up behind all others. -/
  | added (new : List GatewayTask) (event : e ≠ .advance)
      (tasks : (g.step e).tasks = g.tasks ++ new) (due : ∀ task ∈ new, (g.step e).Due task)
  | idle (event : e = .advance) (before : g.tasks = []) (tasks : (g.step e).tasks = [])
  /-- The first task is done, and tasks come up behind the rest. -/
  | done (task : GatewayTask) (rest new : List GatewayTask) (event : e = .advance)
      (before : g.tasks = task :: rest) (tasks : (g.step e).tasks = rest ++ new)
      (due : ∀ task ∈ new, (g.step e).Due task)

theorem taskMove_request (g : Gateway α) (key : RuleKey) : g.TaskMove (.request key) := by
  have hstep : g.step (.request key) = (g.request key).1 := rfl
  rcases g.request_cases key with ⟨-, h⟩ | ⟨load, -, -, h⟩ | ⟨load, result, -, -, h⟩
  · refine .added [.start g.loads.length] (by simp) (by rw [hstep, h]) fun task htask => ?_
    rw [List.mem_singleton] at htask
    subst htask
    trivial
  · exact .added [] (by simp) (by rw [hstep, h, List.append_nil]) (by simp)
  · exact .added [] (by simp) (by rw [hstep, h, List.append_nil]) (by simp)

theorem taskMove_cancel (g : Gateway α) (caller : Nat) : g.TaskMove (.cancel caller) := by
  have hstep : g.step (.cancel caller) = (g.cancel caller).1 := rfl
  rcases g.cancel_cases caller with h | ⟨load, state, resumes, hc, hs, h⟩
  · exact .added [] (by simp) (by rw [hstep, h, List.append_nil]) (by simp)
  · refine .added (resumes.map .resume) (by simp) (by rw [hstep, h]) fun task htask => ?_
    obtain ⟨other, hother, rfl⟩ := List.mem_map.mp htask
    -- only the cancelled caller is let go on
    have heq : other = caller := by
      rcases hs with ⟨-, rfl⟩ | ⟨-, rfl⟩
      · exact List.mem_singleton.mp hother
      · cases hother
    subst heq
    refine ⟨load, .leaving, ?_, by simp⟩
    rw [hstep, h]
    exact (getElem?_modify_of_some hc).trans (by rw [if_pos rfl])

theorem taskMove_finish (g : Gateway α) (load : Nat) (result : LoadResult α) :
    g.TaskMove (.finish load result) := by
  by_cases hrunning : g.isRunning load = true
  · refine .added (.evict load :: (g.waiters load).map .tell) (by simp)
      (by rw [step_finish, if_pos hrunning]; rfl) fun task htask => ?_
    rcases List.mem_cons.mp htask with rfl | htask
    · trivial
    · obtain ⟨caller, hcaller, rfl⟩ := List.mem_map.mp htask
      obtain ⟨state', hc', -⟩ := g.caller_step (.finish load result) (mem_waiters_iff.mp hcaller)
      obtain ⟨l, hl, -⟩ := (g.isRunning_iff load).mp hrunning
      refine ⟨load, state', result, hc', ?_⟩
      rw [step_finish, if_pos hrunning, resultOf_eq_some_iff]
      exact ⟨_, (getElem?_modify_of_some hl).trans (by rw [if_pos rfl]), rfl⟩
  · exact .added [] (by simp) (by rw [step_finish, if_neg hrunning, List.append_nil]) (by simp)

theorem taskMove_advance (g : Gateway α) : g.TaskMove .advance := by
  cases ht : g.tasks with
  | nil => exact .idle rfl ht (by rw [step_advance_nil ht, ht])
  | cons task rest =>
      have hstep := step_advance_cons ht
      cases task with
      | start load =>
          exact .done (.start load) rest [] rfl ht (by rw [hstep, List.append_nil]; rfl) (by simp)
      | evict load =>
          refine .done (.evict load) rest [] rfl ht ?_ (by simp)
          rw [hstep, perform, evict, List.append_nil]
          split <;> rfl
      | tell caller =>
          have htell : g.step .advance = { g with tasks := rest }.tell caller := hstep
          rcases { g with tasks := rest }.tell_cases caller with ⟨h, -⟩ | ⟨load, result, hc, -, h⟩
          · exact .done (.tell caller) rest [] rfl ht (by rw [htell, h, List.append_nil]) (by simp)
          · refine .done (.tell caller) rest [.resume caller] rfl ht (by rw [htell, h])
              fun task htask => ?_
            rw [List.mem_singleton] at htask
            subst htask
            refine ⟨load, .told result, ?_, by simp⟩
            rw [htell, h]
            exact (getElem?_modify_of_some hc).trans (by rw [if_pos rfl])
      | resume caller =>
          have hresume : g.step .advance = { g with tasks := rest }.resume caller := hstep
          refine .done (.resume caller) rest [] rfl ht ?_ (by simp)
          rw [hresume, List.append_nil]
          rcases { g with tasks := rest }.resume_cases caller with
            ⟨h, -⟩ | ⟨load, state, result, -, -, h⟩
          · rw [h]
          · rw [h]
            rfl

/-- Every event is one of the moves of the tasks. -/
theorem taskMove (g : Gateway α) (e : Event α) : g.TaskMove e := by
  cases e with
  | request key => exact g.taskMove_request key
  | cancel caller => exact g.taskMove_cancel caller
  | finish load result => exact g.taskMove_finish load result
  | advance => exact g.taskMove_advance

/-! ## Nothing is told before its time -/

/-- **All tasks are due.** -/
def Timely (g : Gateway α) : Prop := ∀ task ∈ g.tasks, g.Due task

theorem timely_empty : Timely ({} : Gateway α) := by simp [Timely]

/-- No event makes a task that is not due. -/
theorem Timely.step {g : Gateway α} (hg : g.Timely) (e : Event α) : (g.step e).Timely := by
  intro task htask
  cases g.taskMove e with
  | added new _ tasks due =>
      rw [tasks, List.mem_append] at htask
      exact htask.elim (fun h => (hg task h).step e) (due task)
  | idle _ _ tasks =>
      rw [tasks] at htask
      cases htask
  | done first rest new _ before tasks due =>
      rw [tasks, List.mem_append] at htask
      refine htask.elim (fun h => (hg task ?_).step e) (due task)
      rw [before]
      exact List.mem_cons_of_mem _ h

theorem Timely.runFrom {g : Gateway α} (hg : g.Timely) (events : List (Event α)) :
    (g.runFrom events).Timely :=
  runFrom_induction hg (fun _ e h => h.step e) events

/-- While a load runs, nothing is to be done about the callers that wait for it. -/
theorem Timely.not_mem_tasks {g : Gateway α} (hg : g.Timely) {caller load : Nat}
    (hc : g.callers[caller]? = some ⟨load, .waiting⟩) (hr : g.resultOf load = none) :
    .tell caller ∉ g.tasks ∧ .resume caller ∉ g.tasks := by
  constructor
  · intro h
    obtain ⟨other, state, result, hother, hended⟩ := hg _ h
    rw [hc] at hother
    cases hother
    rw [hr] at hended
    cases hended
  · intro h
    obtain ⟨other, state, hother, hs⟩ := hg _ h
    rw [hc] at hother
    cases hother
    exact hs rfl

/-! ## Failed loads leave the cache -/

/-- **The cache does not hold the load.** -/
def Forgets (g : Gateway α) (load : Nat) : Prop := ∀ key, (key, load) ∉ g.cache

/-- A load that there has been does not come into the cache again. -/
theorem Forgets.step {g : Gateway α} {load : Nat} {l : Load α} (h : g.Forgets load)
    (hl : g.loads[load]? = some l) (e : Event α) : (g.step e).Forgets load := by
  intro key
  have hlt := (List.getElem?_eq_some_iff.mp hl).1
  cases g.loadMove e with
  | kept _ cache => rw [cache]; exact h key
  | opened other _ _ cache =>
      rw [cache, List.mem_append, List.mem_singleton]
      rintro (hmem | heq)
      · exact h key hmem
      · cases heq
        exact Nat.lt_irrefl _ hlt
  | started _ _ cache => rw [cache]; exact h key
  | finished _ _ _ _ cache => rw [cache]; exact h key
  | dropped _ _ _ cache =>
      rw [cache]
      exact fun hmem => h key (List.mem_filter.mp hmem).1

/-- **Only the drop of a failed load takes anything from the cache,** and it takes that load. -/
theorem evicted_of_not_mem {g : Gateway α} {e : Event α} {entry : RuleKey × Nat}
    (h : entry ∈ g.cache) (hgone : entry ∉ (g.step e).cache) :
    e = .advance ∧ g.tasks.head? = some (.evict entry.2) ∧ g.isFailed entry.2 = true := by
  cases g.loadMove e with
  | kept _ cache => exact absurd (by rwa [cache]) hgone
  | opened _ _ _ cache => exact absurd (by rw [cache]; exact List.mem_append_left _ h) hgone
  | started _ _ cache => exact absurd (by rwa [cache]) hgone
  | finished _ _ _ _ cache => exact absurd (by rwa [cache]) hgone
  | dropped load failed _ cache _ _ event task =>
      have heq : entry.2 = load := by
        by_contra hne
        rw [cache] at hgone
        exact hgone (List.mem_filter.mpr ⟨h, by simpa using hne⟩)
      rw [heq]
      exact ⟨event, task, failed⟩

/-! ## Before a caller goes on -/

/-- **The load leaves the cache before the caller goes on:** it has left it, or its drop comes
before anything that is to be done about the caller. -/
def DropsFirst (g : Gateway α) (load caller : Nat) : Prop :=
  g.Forgets load ∨
  ∃ before after other state, g.tasks = before ++ .evict load :: after ∧
    .tell caller ∉ before ∧ .resume caller ∉ before ∧
    g.callers[caller]? = some ⟨other, state⟩ ∧ (state = .waiting ∨ state = .leaving)

/-- A caller that waits or leaves does so until something is done about it. -/
theorem stays_of_step {g : Gateway α} {e : Event α} {caller load : Nat} {state : CallerState α}
    (h : g.callers[caller]? = some ⟨load, state⟩) (hs : state = .waiting ∨ state = .leaving)
    (hother : e = .advance → g.tasks.head? ≠ some (.tell caller) ∧
      g.tasks.head? ≠ some (.resume caller)) :
    ∃ state', (g.step e).callers[caller]? = some ⟨load, state'⟩ ∧
      (state' = .waiting ∨ state' = .leaving) := by
  -- what happens to another caller does not matter
  have hmodify : ∀ {other : Nat} {new : CallerState α}, other ≠ caller →
      (g.step e).callers = g.callers.modify other (fun c => { c with state := new }) →
      (g.step e).callers[caller]? = some ⟨load, state⟩ := by
    intro other new hne callers
    rw [callers, List.getElem?_modify_ne _ _ hne]
    exact h
  cases g.callerMove e with
  | kept _ callers => exact ⟨state, by rw [callers]; exact h, hs⟩
  | joined _ _ _ _ callers =>
      exact ⟨state, by rw [callers]; exact getElem?_append_one_of_some h, hs⟩
  | served _ _ _ _ _ _ callers =>
      exact ⟨state, by rw [callers]; exact getElem?_append_one_of_some h, hs⟩
  | told other _ _ _ _ _ callers _ advance task =>
      have hne : other ≠ caller := fun heq => (hother advance).1 (heq ▸ task)
      exact ⟨state, hmodify hne callers, hs⟩
  | cancelled other _ _ _ _ _ callers =>
      by_cases heq : other = caller
      · subst heq
        refine ⟨.leaving, ?_, Or.inr rfl⟩
        rw [callers]
        exact (getElem?_modify_of_some h).trans (by rw [if_pos rfl])
      · exact ⟨state, hmodify heq callers, hs⟩
  | departed other _ _ _ _ _ _ callers _ advance task =>
      have hne : other ≠ caller := fun heq => (hother advance).2 (heq ▸ task)
      exact ⟨state, hmodify hne callers, hs⟩

/-- Dropping a failed load makes the cache forget it. -/
theorem forgets_of_evict {g : Gateway α} {load : Nat} (hfailed : g.isFailed load = true)
    (hfirst : g.tasks.head? = some (.evict load)) : (g.step .advance).Forgets load := by
  obtain ⟨rest, ht⟩ := List.head?_eq_some_iff.mp hfirst
  intro key
  have hevict : g.step .advance = { g with tasks := rest }.evict load := step_advance_cons ht
  have hstill : { g with tasks := rest }.isFailed load = true := hfailed
  rw [hevict, Gateway.evict, if_pos hstill]
  simp

/-- **No event lets a caller go on ahead of the drop of a failed load.** -/
theorem DropsFirst.step {g : Gateway α} {load caller : Nat} (h : g.DropsFirst load caller)
    (hfailed : g.isFailed load = true) (e : Event α) : (g.step e).DropsFirst load caller := by
  obtain ⟨l, hl, -⟩ := (g.isFailed_iff load).mp hfailed
  rcases h with h | ⟨before, after, other, state, ht, htell, hresume, hc, hs⟩
  · exact Or.inl (h.step hl e)
  cases g.taskMove e with
  | added new event tasks _ =>
      obtain ⟨state', hc', hs'⟩ := stays_of_step hc hs fun h => absurd h event
      exact Or.inr ⟨before, after ++ new, other, state', by rw [tasks, ht]; simp, htell, hresume,
        hc', hs'⟩
  | idle _ none =>
      rw [none] at ht
      simp at ht
  | done task rest new event hbefore tasks _ =>
      subst event
      cases before with
      | nil => exact Or.inl (forgets_of_evict hfailed (by rw [ht]; rfl))
      | cons first before =>
          rw [hbefore] at ht
          obtain ⟨rfl, hrest⟩ := List.cons_eq_cons.mp ht
          -- what is done now is about another caller
          have hhead : ∀ other, other ∉ task :: before → g.tasks.head? ≠ some other := by
            rintro other hmem heq
            rw [hbefore] at heq
            cases heq
            exact hmem List.mem_cons_self
          obtain ⟨state', hc', hs'⟩ :=
            stays_of_step hc hs fun _ => ⟨hhead _ htell, hhead _ hresume⟩
          exact Or.inr ⟨before, after ++ new, other, state', by rw [tasks, hrest]; simp,
            fun hmem => htell (List.mem_cons_of_mem _ hmem),
            fun hmem => hresume (List.mem_cons_of_mem _ hmem), hc', hs'⟩

/-- When a load ends, its drop comes before what is to be done about the callers that wait. -/
theorem Timely.dropsFirst {g : Gateway α} (hg : g.Timely) {load caller : Nat}
    (hrunning : g.isRunning load = true) (hc : g.callers[caller]? = some ⟨load, .waiting⟩)
    (result : LoadResult α) : (g.step (.finish load result)).DropsFirst load caller := by
  obtain ⟨l, hl, -, hnone⟩ := (g.isRunning_iff load).mp hrunning
  have hr : g.resultOf load = none := by
    rw [resultOf, hl]
    exact hnone
  obtain ⟨htell, hresume⟩ := hg.not_mem_tasks hc hr
  rw [step_finish, if_pos hrunning]
  exact Or.inr ⟨g.tasks, _, load, .waiting, rfl, htell, hresume, hc, Or.inl rfl⟩

/-- **A caller that has gone on finds the load forgotten.** -/
theorem DropsFirst.forgets {g : Gateway α} {load caller : Nat} (h : g.DropsFirst load caller)
    {result : LoadResult α} (ho : g.obtained caller = some result) : g.Forgets load := by
  rcases h with h | ⟨_, _, other, state, -, -, -, hc, hs⟩
  · exact h
  · obtain ⟨load', hgone⟩ := (g.obtained_eq_some_iff caller result).mp ho
    rw [hc] at hgone
    cases hgone
    rcases hs with hs | hs <;> cases hs

end Gateway

end OscalValidation
