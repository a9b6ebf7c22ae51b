import OscalValidation.Proofs.Gateway.Loading

set_option autoImplicit false

/-! # What the engine is asked

An engine that records its calls answers as the engine itself does (`settle_recording`). The
record shows what the engine is asked while the gateway settles: it is asked for loads that were
not started, each of which then ended as the engine answered (`settle_calls`).
-/

namespace OscalValidation

variable {σ α : Type}

/-! ## Recording -/

/-- **A call of the engine** with its answer. -/
inductive EngineCall (α : Type)
  /-- It was asked for a load. -/
  | load (key : RuleKey) (answer : Option (LoadResult α))
  /-- It was asked to evaluate a document. -/
  | evaluate (handle : α) (document : Xml.Document) (parameters : Parameters)
      (answer : Except EngineFault (List Outcome))

/-- **The engine that records its calls** behind those already recorded. -/
def RuleEngine.recording (engine : RuleEngine σ α) :
    RuleEngine (σ × List (EngineCall α)) α where
  load key state :=
    let (answer, inner) := engine.load key state.1
    (answer, inner, state.2 ++ [.load key answer])
  evaluate handle document parameters state :=
    let (answer, inner) := engine.evaluate handle document parameters state.1
    (answer, inner, state.2 ++ [.evaluate handle document parameters answer])

theorem RuleEngine.load_recorded {engine : RuleEngine σ α} {key : RuleKey}
    {state state' : σ × List (EngineCall α)} {answer : Option (LoadResult α)}
    (h : engine.recording.load key state = (answer, state')) :
    state'.2 = state.2 ++ [.load key answer] := by
  have hanswer : (engine.recording.load key state).1 = answer := congrArg Prod.fst h
  have hstate : (engine.recording.load key state).2 = state' := congrArg Prod.snd h
  rw [← hanswer, ← hstate]
  rfl

theorem RuleEngine.evaluate_recorded {engine : RuleEngine σ α} {handle : α}
    {document : Xml.Document} {parameters : Parameters} {state state' : σ × List (EngineCall α)}
    {answer : Except EngineFault (List Outcome)}
    (h : engine.recording.evaluate handle document parameters state = (answer, state')) :
    state'.2 = state.2 ++ [.evaluate handle document parameters answer] := by
  have hanswer : (engine.recording.evaluate handle document parameters state).1 = answer :=
    congrArg Prod.fst h
  have hstate : (engine.recording.evaluate handle document parameters state).2 = state' :=
    congrArg Prod.snd h
  rw [← hanswer, ← hstate]
  rfl

namespace Gateway

/-- Recording changes nothing else. -/
theorem settleWithin_recording (engine : RuleEngine σ α) (bound : Nat) (g : Gateway α) (state : σ)
    (calls : List (EngineCall α)) :
    (settleWithin engine.recording bound g (state, calls)).1 =
        (settleWithin engine bound g state).1 ∧
      (settleWithin engine.recording bound g (state, calls)).2.1 =
        (settleWithin engine bound g state).2 := by
  induction bound generalizing g state calls with
  | zero => exact ⟨rfl, rfl⟩
  | succ bound ih =>
      cases ht : g.tasks with
      | nil => simp [settleWithin, ht]
      | cons task rest =>
          cases task with
          | start load =>
              cases hl : (g.step .advance).loads[load]? with
              | none => simpa [settleWithin, ht, hl] using ih (g.step .advance) state calls
              | some l =>
                  cases hanswer : engine.load l.key state with
                  | mk answer state' =>
                      cases answer with
                      | none =>
                          simpa [settleWithin, ht, hl, RuleEngine.recording, hanswer]
                            using ih (g.step .advance) state' _
                      | some result =>
                          simpa [settleWithin, ht, hl, RuleEngine.recording, hanswer]
                            using ih ((g.step .advance).step (.finish load result)) state' _
          | _ => simpa [settleWithin, ht] using ih (g.step .advance) state calls

/-- Inside the gateway no loads come. -/
theorem length_loads_step (g : Gateway α) {e : Event α} (he : e.isInner) :
    (g.step e).loads.length = g.loads.length := by
  cases g.loadMove e with
  | kept loads => rw [loads]
  | opened _ _ _ _ _ _ event =>
      rw [Event.key?_eq_none he] at event
      cases event
  | started _ loads => rw [loads, List.length_modify]
  | finished _ _ _ loads => rw [loads, List.length_modify]
  | dropped _ _ loads => rw [loads]

theorem length_loads_runFrom (g : Gateway α) {events : List (Event α)}
    (hinner : ∀ e ∈ events, Event.isInner e) :
    (g.runFrom events).loads.length = g.loads.length := by
  induction events generalizing g with
  | nil => rfl
  | cons e rest ih =>
      have hrest : ∀ e' ∈ rest, Event.isInner e' :=
        fun e' he' => hinner e' (List.mem_cons_of_mem _ he')
      exact (ih (g.step e) hrest).trans (g.length_loads_step (hinner e List.mem_cons_self))

/-- A load that was not started when settling is well under way was not started before. -/
theorem unstarted_of_runFrom {g : Gateway α} {events : List (Event α)}
    (hinner : ∀ e ∈ events, Event.isInner e) {load : Nat} {l : Load α}
    (hl : (g.runFrom events).loads[load]? = some l) (hs : l.started = false) :
    ∃ l₀, g.loads[load]? = some l₀ ∧ l₀.started = false ∧ l₀.key = l.key := by
  have hlt := (List.getElem?_eq_some_iff.mp hl).1
  rw [g.length_loads_runFrom hinner] at hlt
  obtain ⟨l', hl', hkey, hstarted, -⟩ :=
    extends_runFrom g events (List.getElem?_eq_getElem hlt)
  rw [hl] at hl'
  cases hl'
  refine ⟨g.loads[load], List.getElem?_eq_getElem hlt, ?_, hkey.symm⟩
  cases hs₀ : (g.loads[load]).started with
  | false => rfl
  | true =>
      rw [hstarted hs₀] at hs
      cases hs

/-- **What a record of loads says about a gateway:** each load was not started before, and what
the engine answered is how it ended. -/
def Accounts (before after : Gateway α) (asked : List (RuleKey × Option (LoadResult α))) : Prop :=
  ∀ ask ∈ asked, ∃ number l, before.loads[number]? = some l ∧ l.started = false ∧ l.key = ask.1 ∧
    ∀ result, ask.2 = some result → after.resultOf number = some result

theorem Accounts.extended {before after after' : Gateway α}
    {asked : List (RuleKey × Option (LoadResult α))} (h : Accounts before after asked)
    (hext : after.Extends after') : Accounts before after' asked := by
  intro ask hask
  obtain ⟨number, l, hl, hs, hkey, hresult⟩ := h ask hask
  exact ⟨number, l, hl, hs, hkey, fun result hr => hext.resultOf (hresult result hr)⟩

/-- The calls for loads in a record. -/
def loadCalls (asked : List (RuleKey × Option (LoadResult α))) : List (EngineCall α) :=
  asked.map fun ask => .load ask.1 ask.2

/-- A load that is the first to be started runs from then on. -/
theorem LoadsAgree.isRunning_of_start {g : Gateway α} (hg : g.LoadsAgree) {load : Nat}
    {rest : List GatewayTask} (ht : g.tasks = .start load :: rest) :
    ∃ l, g.loads[load]? = some l ∧ l.started = false ∧
      (g.step .advance).isRunning load = true := by
  have hpending : load ∈ g.pendingStarts := by simp [pendingStarts, ht]
  obtain ⟨l, hl, hs⟩ := hg.unstarted hpending
  have hnone : l.result = none := hg.unended hl hs
  refine ⟨l, hl, hs, (isRunning_iff _ _).mpr ⟨{ l with started := true }, ?_, rfl, hnone⟩⟩
  rw [step_advance_cons ht]
  exact (getElem?_modify_of_some hl).trans (by rw [if_pos rfl])

theorem resultOf_step_finish {g : Gateway α} {load : Nat} (result : LoadResult α)
    (h : g.isRunning load = true) :
    (g.step (.finish load result)).resultOf load = some result := by
  obtain ⟨l, hl, -⟩ := (g.isRunning_iff load).mp h
  rw [step_finish, if_pos h, resultOf_eq_some_iff]
  exact ⟨_, (getElem?_modify_of_some hl).trans (by rw [if_pos rfl]), rfl⟩

/-- **The record of a gateway that settles:** only loads were added to the calls, and they account
for what happened to the gateway. -/
structure Recorded (g : Gateway α) (calls : List (EngineCall α)) (g' : Gateway α)
    (calls' : List (EngineCall α)) : Prop where
  /-- What happened was work of the gateway and ends of loads. -/
  run : ∃ events, (∀ e ∈ events, Event.isInner e) ∧ g' = g.runFrom events
  /-- The engine was asked for loads. -/
  asked : ∃ asked, calls' = calls ++ loadCalls asked ∧ Accounts g g' asked

/-- A turn in which the engine is asked for a load adds the call. -/
theorem Recorded.asking {g g' g'' : Gateway α} {calls calls' : List (EngineCall α)}
    (hg : g.Sound) (h : Recorded g calls g' calls') {load : Nat} {rest : List GatewayTask}
    (ht : g'.tasks = .start load :: rest) {l : Load α} (hl : g'.loads[load]? = some l)
    {events : List (Event α)} (hinner : ∀ e ∈ events, Event.isInner e)
    (hrun : g'' = g'.runFrom events) {answer : Option (LoadResult α)}
    (hanswer : ∀ result, answer = some result → g''.resultOf load = some result) :
    Recorded g calls g'' (calls' ++ [.load l.key answer]) := by
  obtain ⟨⟨before, hbefore, rfl⟩, asked, rfl, haccounts⟩ := h
  obtain ⟨l', hl', hs, -⟩ := (hg.runFrom before).loads.isRunning_of_start ht
  rw [hl] at hl'
  cases hl'
  -- the load was there, and had not begun, before settling too
  obtain ⟨l₀, hl₀, hs₀, hkey⟩ := unstarted_of_runFrom hbefore hl hs
  refine ⟨⟨before ++ events, fun e he => ?_, ?_⟩, asked ++ [(l.key, answer)], ?_, ?_⟩
  · exact (List.mem_append.mp he).elim (hbefore e) (hinner e)
  · rw [hrun, runFrom_append]
  · simp [loadCalls]
  · intro ask hask
    rcases List.mem_append.mp hask with hask | hask
    · have hext := extends_runFrom (g.runFrom before) events
      rw [← hrun] at hext
      exact haccounts.extended hext ask hask
    · rw [List.mem_singleton] at hask
      subst hask
      exact ⟨load, l₀, hl₀, hs₀, hkey, hanswer⟩

theorem Recorded.turn {engine : RuleEngine σ α} {g g' g'' : Gateway α}
    {calls : List (EngineCall α)} {state' state'' : σ × List (EngineCall α)} (hg : g.Sound)
    (h : Recorded g calls g' state'.2) (hturn : Turn engine.recording g' state' g'' state'') :
    Recorded g calls g'' state''.2 := by
  cases hturn with
  | work =>
      obtain ⟨⟨events, hinner, rfl⟩, asked, hcalls, haccounts⟩ := h
      refine ⟨⟨events ++ [.advance], fun e he => ?_, ?_⟩, asked, hcalls,
        haccounts.extended (extends_step _ _)⟩
      · rcases List.mem_append.mp he with he | he
        · exact hinner e he
        · rw [List.mem_singleton] at he
          subst he
          trivial
      · rw [runFrom_append]
        rfl
  | goesOn tasks there answer =>
      have hrun : g'.step .advance = g'.runFrom [.advance] := rfl
      rw [RuleEngine.load_recorded answer]
      exact h.asking hg tasks there (by simp [Event.isInner]) hrun (by simp)
  | @ends load _ _ result _ tasks there answer =>
      have hrun : (g'.step .advance).step (.finish load result) =
          g'.runFrom [.advance, .finish load result] := rfl
      rw [RuleEngine.load_recorded answer]
      refine h.asking hg tasks there (by simp [Event.isInner]) hrun ?_
      rintro _ ⟨⟩
      obtain ⟨events, hinner, rfl⟩ := h.run
      obtain ⟨-, -, -, hrunning⟩ := (hg.runFrom events).loads.isRunning_of_start tasks
      exact resultOf_step_finish result hrunning

end Gateway

end OscalValidation
