import OscalValidation.Rules.Gateway

set_option autoImplicit false

/-! # What an event does to the gateway

An event of the gateway touches its loads, its cache and its callers in few ways. `LoadMove` and
`CallerMove` list them, guards included; `loadMove` and `callerMove` say that every event is
among them. The invariants of the gateway are proved from these two lists alone.
-/

namespace OscalValidation

variable {α : Type}

def Load.hasFailed (l : Load α) : Prop := ∃ result, l.result = some result ∧ result.handle? = none

/-- The load goes on, or it ended with success. -/
theorem Load.not_hasFailed_iff (l : Load α) :
    ¬ l.hasFailed ↔ l.result = none ∨ ∃ handle, l.result = some (.loaded handle) := by
  constructor
  · intro h
    cases hr : l.result with
    | none => exact Or.inl rfl
    | some result =>
        cases result with
        | loaded handle => exact Or.inr ⟨handle, rfl⟩
        | failed fault => exact absurd ⟨_, hr, rfl⟩ h
        | cancelled => exact absurd ⟨_, hr, rfl⟩ h
  · rintro (h | ⟨handle, h⟩) ⟨result, hr, hf⟩
    · rw [h] at hr
      cases hr
    · rw [h] at hr
      cases hr
      cases hf

/-- The caller is about to go on. -/
def CallerState.isLeaving : CallerState α → Prop
  | .told _ | .leaving => True
  | _ => False

namespace Gateway

/-! ## Runs -/

/-- The gateway after events in a row. -/
def runFrom (g : Gateway α) (events : List (Event α)) : Gateway α := events.foldl step g

theorem runFrom_append (g : Gateway α) (events later : List (Event α)) :
    g.runFrom (events ++ later) = (g.runFrom events).runFrom later :=
  List.foldl_append

/-- What every event keeps, a run keeps. -/
theorem runFrom_induction {p : Gateway α → Prop} {g : Gateway α} (start : p g)
    (step : ∀ g e, p g → p (g.step e)) (events : List (Event α)) : p (g.runFrom events) := by
  induction events generalizing g with
  | nil => exact start
  | cons e rest ih => exact ih (step g e start)

/-! ## Readings -/

theorem resultOf_eq_some_iff (g : Gateway α) (load : Nat) (result : LoadResult α) :
    g.resultOf load = some result ↔
      ∃ l, g.loads[load]? = some l ∧ l.result = some result := by
  simp [resultOf, Option.bind_eq_some_iff]

theorem isRunning_iff (g : Gateway α) (load : Nat) :
    g.isRunning load = true ↔
      ∃ l, g.loads[load]? = some l ∧ l.started = true ∧ l.result = none := by
  unfold isRunning
  cases h : g.loads[load]? with
  | none => simp
  | some l =>
      obtain ⟨key, started, result⟩ := l
      cases started <;> cases result <;> simp

theorem isFailed_iff (g : Gateway α) (load : Nat) :
    g.isFailed load = true ↔ ∃ l, g.loads[load]? = some l ∧ l.hasFailed := by
  unfold isFailed
  cases h : g.resultOf load with
  | none =>
      simp only [Bool.false_eq_true, false_iff, not_exists, not_and]
      rintro l hl ⟨result, hr, -⟩
      have := (g.resultOf_eq_some_iff load result).mpr ⟨l, hl, hr⟩
      rw [h] at this
      cases this
  | some result =>
      obtain ⟨l, hl, hr⟩ := (g.resultOf_eq_some_iff load result).mp h
      have hfail : (∃ l, g.loads[load]? = some l ∧ l.hasFailed) ↔ result.handle? = none := by
        constructor
        · rintro ⟨l', hl', result', hr', hf⟩
          rw [hl] at hl'
          cases hl'
          rw [hr] at hr'
          cases hr'
          exact hf
        · intro hf
          exact ⟨l, hl, result, hr, hf⟩
      rw [hfail]
      cases result <;> simp [LoadResult.handle?]

/-- The key that is asked for when something happens. -/
def Event.key? : Event α → Option RuleKey
  | .request key => some key
  | _ => none

/-- The loads that the gateway is still to ask the engine for. -/
def pendingStarts (g : Gateway α) : List Nat :=
  g.tasks.filterMap fun
    | .start load => some load
    | _ => none

/-- The load that the engine is asked for when something happens. -/
def startedBy (g : Gateway α) : Event α → List Nat
  | .advance => match g.tasks with
      | .start load :: _ => [load]
      | _ => []
  | _ => []

/-! ## What the operations do -/

theorem request_cases (g : Gateway α) (key : RuleKey) :
    (g.cache.lookup key = none ∧ (g.request key).1 =
      { g with loads := g.loads ++ [⟨key, false, none⟩],
               cache := g.cache ++ [(key, g.loads.length)],
               callers := g.callers ++ [⟨g.loads.length, .waiting⟩],
               tasks := g.tasks ++ [.start g.loads.length] }) ∨
    (∃ load, g.cache.lookup key = some load ∧ g.resultOf load = none ∧ (g.request key).1 =
      { g with callers := g.callers ++ [⟨load, .waiting⟩] }) ∨
    (∃ load result, g.cache.lookup key = some load ∧ g.resultOf load = some result ∧
      (g.request key).1 =
        { g with callers := g.callers ++ [⟨load, .gone result⟩],
                 departures := g.departures ++ [g.callers.length] }) := by
  unfold request
  cases hc : g.cache.lookup key with
  | none => exact Or.inl ⟨rfl, rfl⟩
  | some load =>
      cases hr : g.resultOf load with
      | none => exact Or.inr (Or.inl ⟨load, rfl, hr, by simp [hr]⟩)
      | some result => exact Or.inr (Or.inr ⟨load, result, rfl, hr, by simp [hr]⟩)

theorem cancel_cases (g : Gateway α) (caller : Nat) :
    (g.cancel caller).1 = g ∨
    ∃ load state resumes, g.callers[caller]? = some ⟨load, state⟩ ∧
      ((state = .waiting ∧ resumes = [caller]) ∨
        ((∃ result, state = .told result) ∧ resumes = [])) ∧
      (g.cancel caller).1 =
        { g.setState caller .leaving with
            tasks := g.tasks ++ List.map GatewayTask.resume resumes } := by
  unfold cancel
  cases hc : g.callers[caller]? with
  | none => exact Or.inl rfl
  | some c =>
      obtain ⟨load, state⟩ := c
      cases state with
      | waiting => exact Or.inr ⟨load, .waiting, [caller], rfl, Or.inl ⟨rfl, rfl⟩, rfl⟩
      | told result =>
          refine Or.inr ⟨load, .told result, [], rfl, Or.inr ⟨⟨result, rfl⟩, rfl⟩, ?_⟩
          simp [setState]
      | leaving => exact Or.inl rfl
      | gone result => exact Or.inl rfl

theorem tell_cases (g : Gateway α) (caller : Nat) :
    (g.tell caller = g ∧ ∀ load result, g.callers[caller]? = some ⟨load, .waiting⟩ →
      g.resultOf load ≠ some result) ∨
    ∃ load result, g.callers[caller]? = some ⟨load, .waiting⟩ ∧
      g.resultOf load = some result ∧
      g.tell caller =
        { g.setState caller (.told result) with tasks := g.tasks ++ [.resume caller] } := by
  unfold tell
  cases hc : g.callers[caller]? with
  | none => exact Or.inl ⟨rfl, by simp⟩
  | some c =>
      obtain ⟨load, state⟩ := c
      cases state with
      | waiting =>
          cases hr : g.resultOf load with
          | none =>
              refine Or.inl ⟨by simp [hr], ?_⟩
              rintro _ result ⟨⟩
              simp [hr]
          | some result => exact Or.inr ⟨load, result, rfl, hr, by simp [hr]⟩
      | told result => exact Or.inl ⟨rfl, by simp⟩
      | leaving => exact Or.inl ⟨rfl, by simp⟩
      | gone result => exact Or.inl ⟨rfl, by simp⟩

theorem resume_cases (g : Gateway α) (caller : Nat) :
    (g.resume caller = g ∧ ∀ load state, g.callers[caller]? = some ⟨load, state⟩ →
      ¬ state.isLeaving) ∨
    ∃ load state result, g.callers[caller]? = some ⟨load, state⟩ ∧
      (state = .told result ∨ (state = .leaving ∧ result = .cancelled)) ∧
      g.resume caller = g.depart caller result := by
  unfold resume
  cases hc : g.callers[caller]? with
  | none => exact Or.inl ⟨rfl, by simp⟩
  | some c =>
      obtain ⟨load, state⟩ := c
      cases state with
      | waiting => exact Or.inl ⟨rfl, by simp [CallerState.isLeaving]⟩
      | told result => exact Or.inr ⟨load, .told result, result, rfl, Or.inl rfl, rfl⟩
      | leaving => exact Or.inr ⟨load, .leaving, .cancelled, rfl, Or.inr ⟨rfl, rfl⟩, rfl⟩
      | gone result => exact Or.inl ⟨rfl, by simp [CallerState.isLeaving]⟩

theorem step_finish (g : Gateway α) (load : Nat) (result : LoadResult α) :
    g.step (.finish load result) = if g.isRunning load then g.finish load result else g := rfl

theorem step_advance_nil {g : Gateway α} (h : g.tasks = []) : g.step .advance = g := by
  simp [step, h]

theorem step_advance_cons {g : Gateway α} {task : GatewayTask} {rest : List GatewayTask}
    (h : g.tasks = task :: rest) :
    g.step .advance = { g with tasks := rest }.perform task := by
  simp [step, h]

/-! ## Loads and cache -/

/-- **What an event does to the loads and the cache.** -/
inductive LoadMove (g : Gateway α) (e : Event α) : Prop
  | kept (loads : (g.step e).loads = g.loads) (cache : (g.step e).cache = g.cache)
      (starts : (g.step e).pendingStarts = g.pendingStarts) (asked : g.startedBy e = [])
  /-- A key that nothing serves gets a load. -/
  | opened (key : RuleKey) (absent : g.cache.lookup key = none)
      (loads : (g.step e).loads = g.loads ++ [⟨key, false, none⟩])
      (cache : (g.step e).cache = g.cache ++ [(key, g.loads.length)])
      (starts : (g.step e).pendingStarts = g.pendingStarts ++ [g.loads.length])
      (asked : g.startedBy e = []) (event : e.key? = some key)
  /-- The engine is asked for a load. -/
  | started (load : Nat)
      (loads : (g.step e).loads = g.loads.modify load fun l => { l with started := true })
      (cache : (g.step e).cache = g.cache)
      (starts : g.pendingStarts = load :: (g.step e).pendingStarts)
      (asked : g.startedBy e = [load])
  | finished (load : Nat) (result : LoadResult α) (running : g.isRunning load = true)
      (loads : (g.step e).loads = g.loads.modify load fun l => { l with result := some result })
      (cache : (g.step e).cache = g.cache)
      (starts : (g.step e).pendingStarts = g.pendingStarts) (asked : g.startedBy e = [])
      (event : e = .finish load result)
  /-- A failed load leaves the cache. -/
  | dropped (load : Nat) (failed : g.isFailed load = true)
      (loads : (g.step e).loads = g.loads)
      (cache : (g.step e).cache = g.cache.filter fun entry => entry.2 != load)
      (starts : (g.step e).pendingStarts = g.pendingStarts) (asked : g.startedBy e = [])
      (event : e = .advance) (task : g.tasks.head? = some (.evict load))

theorem loadMove_request (g : Gateway α) (key : RuleKey) : g.LoadMove (.request key) := by
  have hstep : g.step (.request key) = (g.request key).1 := rfl
  rcases g.request_cases key with ⟨hc, h⟩ | ⟨load, hc, -, h⟩ | ⟨load, result, hc, hr, h⟩
  · refine .opened key hc ?_ ?_ ?_ rfl rfl <;> rw [hstep, h]
    simp [pendingStarts]
  · refine .kept ?_ ?_ ?_ rfl <;> rw [hstep, h]
    rfl
  · refine .kept ?_ ?_ ?_ rfl <;> rw [hstep, h]
    rfl

theorem loadMove_cancel (g : Gateway α) (caller : Nat) : g.LoadMove (.cancel caller) := by
  have hstep : g.step (.cancel caller) = (g.cancel caller).1 := rfl
  rcases g.cancel_cases caller with h | ⟨load, state, resumes, -, -, h⟩
  · refine .kept ?_ ?_ ?_ rfl <;> rw [hstep, h]
  · refine .kept ?_ ?_ ?_ rfl <;> rw [hstep, h]
    · rfl
    · rfl
    · simp [pendingStarts, List.filterMap_map]

theorem loadMove_finish (g : Gateway α) (load : Nat) (result : LoadResult α) :
    g.LoadMove (.finish load result) := by
  by_cases h : g.isRunning load = true
  · refine .finished load result h ?_ ?_ ?_ rfl rfl <;> rw [step_finish, if_pos h, finish]
    simp [pendingStarts, List.filterMap_map]
  · refine .kept ?_ ?_ ?_ rfl <;> rw [step_finish, if_neg h]

/-- Telling a caller and letting one go on leave the loads alone. -/
theorem loadMove_of_eq {g : Gateway α} {task : GatewayTask} {rest : List GatewayTask}
    (ht : g.tasks = task :: rest) (htask : ∀ load, task ≠ .start load)
    (loads : (g.step .advance).loads = g.loads) (cache : (g.step .advance).cache = g.cache)
    (starts : (g.step .advance).pendingStarts = { g with tasks := rest }.pendingStarts) :
    g.LoadMove .advance := by
  refine .kept loads cache ?_ ?_
  · rw [starts]
    cases task with
    | start load => exact absurd rfl (htask load)
    | _ => simp [pendingStarts, ht]
  · cases task with
    | start load => exact absurd rfl (htask load)
    | _ => simp [startedBy, ht]

theorem loadMove_advance (g : Gateway α) : g.LoadMove .advance := by
  cases ht : g.tasks with
  | nil =>
      refine .kept ?_ ?_ ?_ ?_ <;> simp [step_advance_nil ht, startedBy, ht]
  | cons task rest =>
      have hstep := step_advance_cons ht
      cases task with
      | start load =>
          refine .started load ?_ ?_ ?_ ?_ <;>
            simp [hstep, perform, start, pendingStarts, startedBy, ht]
      | evict load =>
          have hevict : g.step .advance = { g with tasks := rest }.evict load := hstep
          by_cases h : g.isFailed load = true
          · have h' : { g with tasks := rest }.isFailed load = true := h
            refine .dropped load h ?_ ?_ ?_ ?_ rfl ?_ <;>
              simp [hevict, evict, h', pendingStarts, startedBy, ht]
          · have h' : ¬ { g with tasks := rest }.isFailed load = true := h
            refine loadMove_of_eq ht (by simp) ?_ ?_ ?_ <;> simp [hevict, evict, h']
      | tell caller =>
          have htell : g.step .advance = { g with tasks := rest }.tell caller := hstep
          rcases { g with tasks := rest }.tell_cases caller with ⟨h, -⟩ | ⟨load, result, -, -, h⟩
          · refine loadMove_of_eq ht (by simp) ?_ ?_ ?_ <;> rw [htell, h]
          · refine loadMove_of_eq ht (by simp) ?_ ?_ ?_ <;> rw [htell, h]
            · rfl
            · rfl
            · simp [pendingStarts]
      | resume caller =>
          have hresume : g.step .advance = { g with tasks := rest }.resume caller := hstep
          rcases { g with tasks := rest }.resume_cases caller with
            ⟨h, -⟩ | ⟨load, state, result, -, -, h⟩
          · refine loadMove_of_eq ht (by simp) ?_ ?_ ?_ <;> rw [hresume, h]
          · refine loadMove_of_eq ht (by simp) ?_ ?_ ?_ <;> rw [hresume, h] <;> rfl

/-- Every event is one of the moves of the loads. -/
theorem loadMove (g : Gateway α) (e : Event α) : g.LoadMove e := by
  cases e with
  | request key => exact g.loadMove_request key
  | cancel caller => exact g.loadMove_cancel caller
  | finish load result => exact g.loadMove_finish load result
  | advance => exact g.loadMove_advance

/-! ## Callers -/

/-- **What an event does to the callers.** -/
inductive CallerMove (g : Gateway α) (e : Event α) : Prop
  | kept (event : e.key? = none) (callers : (g.step e).callers = g.callers)
      (departures : (g.step e).departures = g.departures)
  | joined (key : RuleKey) (load : Nat) (event : e.key? = some key)
      (serves : (g.step e).cache.lookup key = some load)
      (callers : (g.step e).callers = g.callers ++ [⟨load, .waiting⟩])
      (departures : (g.step e).departures = g.departures)
  /-- A caller comes after the end of its load and goes on at once. -/
  | served (key : RuleKey) (load : Nat) (result : LoadResult α) (event : e.key? = some key)
      (serves : (g.step e).cache.lookup key = some load)
      (ended : g.resultOf load = some result)
      (callers : (g.step e).callers = g.callers ++ [⟨load, .gone result⟩])
      (departures : (g.step e).departures = g.departures ++ [g.callers.length])
  /-- A caller that waits is told how its load ended. -/
  | told (caller load : Nat) (result : LoadResult α) (event : e.key? = none)
      (before : g.callers[caller]? = some ⟨load, .waiting⟩)
      (ended : g.resultOf load = some result)
      (callers : (g.step e).callers =
        g.callers.modify caller fun c => { c with state := .told result })
      (departures : (g.step e).departures = g.departures)
      (advance : e = .advance) (task : g.tasks.head? = some (.tell caller))
  /-- A caller that has not gone on is cancelled. -/
  | cancelled (caller load : Nat) (state : CallerState α) (event : e = .cancel caller)
      (before : g.callers[caller]? = some ⟨load, state⟩)
      (there : state = .waiting ∨ ∃ result, state = .told result)
      (callers : (g.step e).callers =
        g.callers.modify caller fun c => { c with state := .leaving })
      (departures : (g.step e).departures = g.departures)
  | departed (caller load : Nat) (state : CallerState α) (result : LoadResult α)
      (event : e.key? = none)
      (before : g.callers[caller]? = some ⟨load, state⟩)
      (obtains : state = .told result ∨ (state = .leaving ∧ result = .cancelled))
      (callers : (g.step e).callers =
        g.callers.modify caller fun c => { c with state := .gone result })
      (departures : (g.step e).departures = g.departures ++ [caller])
      (advance : e = .advance) (task : g.tasks.head? = some (.resume caller))

theorem callerMove_request (g : Gateway α) (key : RuleKey) : g.CallerMove (.request key) := by
  have hstep : g.step (.request key) = (g.request key).1 := rfl
  rcases g.request_cases key with ⟨hc, h⟩ | ⟨load, hc, -, h⟩ | ⟨load, result, hc, hr, h⟩
  · refine .joined key g.loads.length rfl ?_ ?_ ?_ <;> rw [hstep, h]
    simp [List.lookup_append, hc]
  · refine .joined key load rfl ?_ ?_ ?_ <;> rw [hstep, h]
    exact hc
  · refine .served key load result rfl ?_ hr ?_ ?_ <;> rw [hstep, h]
    exact hc

theorem callerMove_cancel (g : Gateway α) (caller : Nat) : g.CallerMove (.cancel caller) := by
  have hstep : g.step (.cancel caller) = (g.cancel caller).1 := rfl
  rcases g.cancel_cases caller with h | ⟨load, state, resumes, hc, hs, h⟩
  · exact .kept rfl (by rw [hstep, h]) (by rw [hstep, h])
  · refine .cancelled caller load state rfl hc (hs.imp And.left And.left) ?_ ?_
    · rw [hstep, h]
      rfl
    · rw [hstep, h]
      rfl

theorem callerMove_finish (g : Gateway α) (load : Nat) (result : LoadResult α) :
    g.CallerMove (.finish load result) := by
  by_cases h : g.isRunning load = true
  · refine .kept rfl ?_ ?_ <;> rw [step_finish, if_pos h, finish]
  · refine .kept rfl ?_ ?_ <;> rw [step_finish, if_neg h]

theorem callerMove_advance (g : Gateway α) : g.CallerMove .advance := by
  cases ht : g.tasks with
  | nil => exact .kept rfl (by rw [step_advance_nil ht]) (by rw [step_advance_nil ht])
  | cons task rest =>
      have hstep := step_advance_cons ht
      cases task with
      | start load => refine .kept rfl ?_ ?_ <;> rw [hstep] <;> rfl
      | evict load =>
          refine .kept rfl ?_ ?_ <;> rw [hstep, perform, evict] <;> split <;> rfl
      | tell caller =>
          have htell : g.step .advance = { g with tasks := rest }.tell caller := hstep
          rcases { g with tasks := rest }.tell_cases caller with ⟨h, -⟩ | ⟨load, result, hc, hr, h⟩
          · refine .kept rfl ?_ ?_ <;> rw [htell, h]
          · refine .told caller load result rfl hc hr ?_ ?_ rfl (by rw [ht]; rfl) <;>
              rw [htell, h] <;> rfl
      | resume caller =>
          have hresume : g.step .advance = { g with tasks := rest }.resume caller := hstep
          rcases { g with tasks := rest }.resume_cases caller with
            ⟨h, -⟩ | ⟨load, state, result, hc, hs, h⟩
          · refine .kept rfl ?_ ?_ <;> rw [hresume, h]
          · refine .departed caller load state result rfl hc hs ?_ ?_ rfl (by rw [ht]; rfl) <;>
              rw [hresume, h] <;> rfl

/-- Every event is one of the moves of the callers. -/
theorem callerMove (g : Gateway α) (e : Event α) : g.CallerMove e := by
  cases e with
  | request key => exact g.callerMove_request key
  | cancel caller => exact g.callerMove_cancel caller
  | finish load result => exact g.callerMove_finish load result
  | advance => exact g.callerMove_advance

end Gateway

end OscalValidation
