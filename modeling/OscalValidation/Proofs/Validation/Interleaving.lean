import OscalValidation.Proofs.Validation.Consecutive

set_option autoImplicit false

/-! # Validations at the same time

A service that has several validations to do at the same time turns from one to another whenever
one has to wait: for the rules of its key, or for the engine to evaluate its document
(`Workload`). `Move` lists what can happen; with steady rules every move keeps the workload in
order (`Orderly`). Main statement: whatever has happened, a validation that has ended has come to
the verdict on its call, and the record of the engine is that of its loads (`Orderly.run`). No
validation is cancelled here.
-/

namespace OscalValidation

variable {σ α : Type}

/-! ## Loads that are under way -/

namespace Gateway

variable {rules : SteadyRules α} {answers : List (Nat × LoadResult α)} {g : Gateway α}

/-- **Every load that was started ends with the handle of its key:** it has, or that is what the
engine has answered. -/
def Promised (rules : SteadyRules α) (answers : List (Nat × LoadResult α)) (g : Gateway α) : Prop :=
  ∀ ⦃load : Nat⦄ ⦃l : Load α⦄, g.loads[load]? = some l → l.started = true →
    l.result = some (.loaded (rules.handle l.key)) ∨
      (l.result = none ∧ answers.lookup load = some (.loaded (rules.handle l.key)))

/-- A load that has ended was started, and has the handle of its key. -/
theorem Promised.ended (h : g.Promised rules answers) (hg : g.LoadsAgree) {load : Nat} {l : Load α}
    (hl : g.loads[load]? = some l) {result : LoadResult α} (hr : g.resultOf load = some result) :
    l.started = true ∧ result = .loaded (rules.handle l.key) := by
  obtain ⟨l', hl', hr'⟩ := (g.resultOf_eq_some_iff load result).mp hr
  cases hl.symm.trans hl'
  have hstarted : l.started = true := by
    by_contra hnot
    rw [hg.unended hl (Bool.eq_false_iff.mpr hnot)] at hr'
    cases hr'
  -- of the two promises only the one about a result fits a load that has one
  rcases h hl hstarted with hloaded | ⟨hnone, -⟩
  · exact ⟨hstarted, Option.some.inj (hr'.symm.trans hloaded)⟩
  · rw [hnone] at hr'
    cases hr'

/-- No load has failed. -/
theorem Promised.stand (h : g.Promised rules answers) (hg : g.LoadsAgree) ⦃load : Nat⦄
    ⦃l : Load α⦄ (hl : g.loads[load]? = some l) : ¬ l.hasFailed := by
  rintro ⟨result, hr, hfailed⟩
  obtain ⟨-, rfl⟩ := h.ended hg hl ((g.resultOf_eq_some_iff load result).mpr ⟨l, hl, hr⟩)
  cases hfailed

/-- A request starts no load. -/
theorem Promised.request (h : g.Promised rules answers) (key : RuleKey) :
    (g.request key).1.Promised rules answers := by
  intro load l hl hs
  rcases g.request_cases key with ⟨-, hr⟩ | ⟨_, -, -, hr⟩ | ⟨_, _, -, -, hr⟩
  · rw [hr] at hl
    rcases getElem?_append_one hl with hl | ⟨-, rfl⟩
    · exact h hl hs
    · cases hs
  · rw [hr] at hl
    exact h hl hs
  · rw [hr] at hl
    exact h hl hs

/-- The engine answers a load that is started. -/
theorem Promised.asking (h : g.Promised rules answers) (hg : g.LoadsAgree) {load : Nat}
    {rest : List GatewayTask} (ht : g.tasks = .start load :: rest) {l : Load α}
    (hl : g.loads[load]? = some l) :
    (g.step .advance).Promised rules ((load, .loaded (rules.handle l.key)) :: answers) := by
  intro other l' hl' hs
  obtain ⟨l₁, hl₁, hunstarted, -⟩ := hg.isRunning_of_start ht
  cases hl.symm.trans hl₁
  have hnone : l.result = none := hg.unended hl hunstarted
  rw [step_advance_cons ht] at hl'
  obtain ⟨l₀, hl₀, rfl⟩ := getElem?_of_modify hl'
  -- the load that is started has the newest answer, the others have those they had
  by_cases heq : load = other
  · subst heq
    cases hl.symm.trans hl₀
    rw [if_pos rfl]
    exact Or.inr ⟨hnone, List.lookup_cons_self⟩
  · rw [if_neg heq] at hs ⊢
    have hne : (other == load) = false := beq_eq_false_iff_ne.mpr (Ne.symm heq)
    rw [List.lookup_cons, hne]
    exact h hl₀ hs

/-- A load ends as the engine has answered. -/
theorem Promised.finish (h : g.Promised rules answers) {load : Nat} {result : LoadResult α}
    (hanswer : answers.lookup load = some result) :
    (g.step (.finish load result)).Promised rules answers := by
  rw [step_finish]
  split
  · next hrunning =>
    intro other l' hl' hs
    obtain ⟨l, hl, hstarted, hnone⟩ := (g.isRunning_iff load).mp hrunning
    obtain ⟨l₀, hl₀, rfl⟩ := getElem?_of_modify hl'
    by_cases heq : load = other
    · subst heq
      cases hl.symm.trans hl₀
      -- the load runs, so that what it is promised is what the engine has answered
      rcases h hl hstarted with hloaded | ⟨-, hpromise⟩
      · rw [hnone] at hloaded
        cases hloaded
      · rw [if_pos rfl]
        exact Or.inl (hanswer.symm.trans hpromise)
    · rw [if_neg heq] at hs ⊢
      exact h hl₀ hs
  · exact h

end Gateway

/-! ## Validations -/

/-- How far a validation is. -/
inductive Stage
  | called
  /-- A caller waits for the rules of the prepared document. -/
  | loading (caller : Nat) (key : RuleKey) (document : Xml.Document)
  /-- The engine evaluates the document, with this answer. -/
  | evaluating (key : RuleKey) (document : Xml.Document)
      (answer : Except EngineFault (List Outcome))
  | ended (result : Except ValidationFault ValidationResult)

/-- **A validation.** -/
structure Validation where
  call : ValidationCall
  stage : Stage

/-- **How a validation stands with the gateway,** by steady rules: its caller shares a load of the
key that its document is judged by, the engine evaluates the document with the rules of that key, or
it has come to the verdict on its call. -/
def Validation.Stands (service : ValidationService σ α) (rules : SteadyRules α) (g : Gateway α)
    (v : Validation) : Prop :=
  match v.stage with
  | .called => True
  | .loading caller key document =>
      service.Prepares v.call.input v.call.request key document ∧
        ∃ load l, g.Shares caller load ∧ g.loads[load]? = some l ∧ l.key = key
  | .evaluating key document answer =>
      service.Prepares v.call.input v.call.request key document ∧ g.Started key ∧
        answer = .ok (rules.outcomes (rules.handle key) document
          (service.content.parameters key.ruleset))
  | .ended result =>
      result = service.verdictBy rules v.call ∧
        ∀ key, service.Judges v.call key → g.Started key

/-- Nothing but a cancellation changes how a validation stands. -/
theorem Validation.Stands.step {service : ValidationService σ α} {rules : SteadyRules α}
    {g : Gateway α} {v : Validation} (h : v.Stands service rules g) {e : Gateway.Event α}
    (he : ∀ caller, e ≠ .cancel caller) : v.Stands service rules (g.step e) := by
  have hext := g.extends_step e
  obtain ⟨call, stage⟩ := v
  cases stage with
  | called => trivial
  | loading caller key document =>
      obtain ⟨prepared, load, l, shares, hl, hkey⟩ := h
      obtain ⟨l', hl', hkey', -⟩ := hext hl
      exact ⟨prepared, load, l', shares.step (he caller), hl', hkey'.trans hkey⟩
  | evaluating key document answer =>
      obtain ⟨prepared, started, hanswer⟩ := h
      exact ⟨prepared, started.extended hext, hanswer⟩
  | ended result => exact ⟨h.1, fun key judges => (h.2 key judges).extended hext⟩

/-- **A service at work:** validations that share a gateway and an engine. -/
structure Workload (σ α : Type) where
  gateway : Gateway α := {}
  engine : σ
  /-- What the engine has answered to the loads that it was asked for. -/
  answers : List (Nat × LoadResult α) := []
  /-- The validations, in the order of their calls. -/
  validations : List Validation := []

/-- **What can happen to a workload.** -/
inductive WorkloadEvent
  | call (call : ValidationCall)
  /-- The validation at a place begins. -/
  | begin (place : Nat)
  /-- The gateway does its next task. -/
  | advance
  /-- A load ends as the engine has answered. -/
  | finish (load : Nat)
  /-- The validation at a place goes on with what its caller has obtained. -/
  | proceed (place : Nat)
  /-- The evaluation of the document at a place ends as the engine has answered. -/
  | conclude (place : Nat)

def WorkloadEvent.isInner : WorkloadEvent → Prop
  | .call _ => False
  | _ => True

def WorkloadEvent.call? : WorkloadEvent → Option ValidationCall
  | .call made => some made
  | _ => none

namespace Workload

/-- The workload with the validation at a place so far. -/
def moveTo (w : Workload σ α) (place : Nat) (stage : Stage) : Workload σ α :=
  { w with validations := w.validations.modify place fun v => { v with stage := stage } }

/-- A document is prepared, and if it is ready a caller asks for its rules. -/
def begin (service : ValidationService σ α) (w : Workload σ α) (place : Nat)
    (call : ValidationCall) : Workload σ α :=
  match prepare service.registry service.usualRuleset call.input call.request with
  | .error fault => w.moveTo place (.ended (.error fault))
  | .ok (.malformed result) => w.moveTo place (.ended (.ok result))
  | .ok (.ready key document) =>
      let (gateway, caller) := w.gateway.request key
      { w with gateway := gateway }.moveTo place (.loading caller key document)

/-- The gateway does its next task; if it starts a load, the engine is asked for it. -/
def advance (service : ValidationService σ α) (w : Workload σ α) : Workload σ α :=
  let gateway := w.gateway.step .advance
  match w.gateway.tasks with
  | .start load :: _ =>
      match w.gateway.loads[load]? with
      | some l =>
          let (answer, engine) := service.engine.load l.key w.engine
          { w with gateway := gateway, engine := engine,
                   answers := (answer.map fun result => (load, result)).toList ++ w.answers }
      | none => { w with gateway := gateway }
  | _ => { w with gateway := gateway }

/-- With the rules the engine is asked to evaluate a document; without them its validation ends. -/
def proceed (service : ValidationService σ α) (w : Workload σ α) (place : Nat) (key : RuleKey)
    (document : Xml.Document) : LoadResult α → Workload σ α
  | .loaded handle =>
      let (answer, engine) := service.engine.evaluate handle document
        (service.content.parameters key.ruleset) w.engine
      { w with engine := engine }.moveTo place (.evaluating key document answer)
  | .failed fault => w.moveTo place (.ended (.error (.engine fault)))
  | .cancelled => w.moveTo place (.ended (.error .cancelled))

/-- **The workload after an event.** -/
def step (service : ValidationService σ α) (w : Workload σ α) : WorkloadEvent → Workload σ α
  | .call call => { w with validations := w.validations ++ [⟨call, .called⟩] }
  | .begin place =>
      match w.validations[place]? with
      | some ⟨call, .called⟩ => w.begin service place call
      | _ => w
  | .advance => w.advance service
  | .finish load =>
      match w.answers.lookup load with
      | some result => { w with gateway := w.gateway.step (.finish load result) }
      | none => w
  | .proceed place =>
      match w.validations[place]? with
      | some ⟨_, .loading caller key document⟩ =>
          match w.gateway.obtained caller with
          | some result => w.proceed service place key document result
          | none => w
      | _ => w
  | .conclude place =>
      match w.validations[place]? with
      | some ⟨_, .evaluating key document answer⟩ =>
          w.moveTo place (.ended (service.conclude key document (answer.mapError .engine)))
      | _ => w

/-- **The workload after events in a row,** starting from nothing. -/
def run (service : ValidationService σ α) (state : σ) (events : List WorkloadEvent) :
    Workload σ α :=
  events.foldl (step service) { engine := state }

theorem run_append (service : ValidationService σ α) (state : σ)
    (events later : List WorkloadEvent) :
    run service state (events ++ later) = later.foldl (step service) (run service state events) :=
  List.foldl_append

def calls (w : Workload σ α) : List ValidationCall := w.validations.map (·.call)

/-! ## Moves -/

/-- **What an event other than a call does to a workload,** if it does anything. -/
inductive Move (service : ValidationService σ α) (w : Workload σ α) : Workload σ α → Prop
  /-- A validation ends whose document is not ready. -/
  | refused {place : Nat} {call : ValidationCall} {result : Except ValidationFault ValidationResult}
      (there : w.validations[place]? = some ⟨call, .called⟩)
      (refuses : service.Refuses call result) : Move service w (w.moveTo place (.ended result))
  /-- A caller asks for the rules of a document that is ready. -/
  | asked {place : Nat} {call : ValidationCall} {key : RuleKey} {document : Xml.Document}
      (there : w.validations[place]? = some ⟨call, .called⟩)
      (prepared : service.Prepares call.input call.request key document) :
      Move service w ({ w with gateway := w.gateway.step (.request key) }.moveTo place
        (.loading w.gateway.callers.length key document))
  /-- The gateway does a task that starts no load. -/
  | worked {task : GatewayTask} {rest : List GatewayTask} (tasks : w.gateway.tasks = task :: rest)
      (other : ∀ load, task = .start load → w.gateway.loads[load]? = none) :
      Move service w { w with gateway := w.gateway.step .advance }
  /-- The engine is asked for a load. -/
  | started {load : Nat} {rest : List GatewayTask} {l : Load α} {answer : Option (LoadResult α)}
      {engine : σ} (tasks : w.gateway.tasks = .start load :: rest)
      (there : w.gateway.loads[load]? = some l)
      (answers : service.engine.load l.key w.engine = (answer, engine)) :
      Move service w
        { w with gateway := w.gateway.step .advance, engine := engine,
                 answers := (answer.map fun result => (load, result)).toList ++ w.answers }
  | finished {load : Nat} {result : LoadResult α} (answered : w.answers.lookup load = some result)
      (running : w.gateway.isRunning load = true) :
      Move service w { w with gateway := w.gateway.step (.finish load result) }
  /-- The engine is asked to evaluate a document. -/
  | evaluating {place caller : Nat} {call : ValidationCall} {key : RuleKey}
      {document : Xml.Document} {handle : α} {answer : Except EngineFault (List Outcome)}
      {engine : σ} (there : w.validations[place]? = some ⟨call, .loading caller key document⟩)
      (obtained : w.gateway.obtained caller = some (.loaded handle))
      (answers : service.engine.evaluate handle document
        (service.content.parameters key.ruleset) w.engine = (answer, engine)) :
      Move service w ({ w with engine := engine }.moveTo place (.evaluating key document answer))
  /-- A validation ends whose rules are wanting. -/
  | broken {place caller : Nat} {call : ValidationCall} {key : RuleKey} {document : Xml.Document}
      {result : LoadResult α} {fault : ValidationFault}
      (there : w.validations[place]? = some ⟨call, .loading caller key document⟩)
      (obtained : w.gateway.obtained caller = some result) (failed : result.handle? = none) :
      Move service w (w.moveTo place (.ended (.error fault)))
  /-- A validation ends whose document was evaluated. -/
  | concluded {place : Nat} {call : ValidationCall} {key : RuleKey} {document : Xml.Document}
      {answer : Except EngineFault (List Outcome)}
      (there : w.validations[place]? = some ⟨call, .evaluating key document answer⟩) :
      Move service w
        (w.moveTo place (.ended (service.conclude key document (answer.mapError .engine))))

section Move

variable {service : ValidationService σ α} {w : Workload σ α}

theorem move_begin {place : Nat} {call : ValidationCall}
    (there : w.validations[place]? = some ⟨call, .called⟩) :
    Move service w (w.begin service place call) := by
  unfold begin
  cases hprepare : prepare service.registry service.usualRuleset call.input call.request with
  | error fault => exact .refused there (.faulty hprepare)
  | ok preparation =>
      cases preparation with
      | malformed result => exact .refused there (.malformed hprepare)
      | ready key document =>
          have hcaller := w.gateway.snd_request key
          have hmove := Move.asked there (ValidationService.prepare_eq_ready_iff.mp hprepare)
          rw [← hcaller] at hmove
          exact hmove

theorem move_advance {task : GatewayTask} {rest : List GatewayTask}
    (ht : w.gateway.tasks = task :: rest) : Move service w (w.advance service) := by
  unfold advance
  rw [ht]
  cases task with
  | start load =>
      dsimp only
      cases hl : w.gateway.loads[load]? with
      | none =>
          refine .worked ht fun other hother => ?_
          cases hother
          exact hl
      | some l => exact .started ht hl rfl
  | evict load => exact .worked ht (by simp)
  | tell caller => exact .worked ht (by simp)
  | resume caller => exact .worked ht (by simp)

theorem move_proceed {place caller : Nat} {call : ValidationCall} {key : RuleKey}
    {document : Xml.Document} {result : LoadResult α}
    (there : w.validations[place]? = some ⟨call, .loading caller key document⟩)
    (obtained : w.gateway.obtained caller = some result) :
    Move service w (w.proceed service place key document result) := by
  cases result with
  | loaded handle => exact .evaluating there obtained rfl
  | failed fault => exact .broken there obtained rfl
  | cancelled => exact .broken there obtained rfl

/-- **Every event other than a call is one of the moves, or it does nothing.** -/
theorem eq_or_move (service : ValidationService σ α) (w : Workload σ α) {e : WorkloadEvent}
    (he : e.isInner) : w.step service e = w ∨ Move service w (w.step service e) := by
  cases e with
  | call call => cases he
  | begin place =>
      rw [step]
      split
      · next call there => exact Or.inr (move_begin there)
      · exact Or.inl rfl
  | advance =>
      cases ht : w.gateway.tasks with
      | nil =>
          rw [step, advance, ht, Gateway.step_advance_nil ht]
          exact Or.inl rfl
      | cons task rest => exact Or.inr (move_advance ht)
  | finish load =>
      rw [step]
      split
      · next result answered =>
        by_cases hrunning : w.gateway.isRunning load = true
        · exact Or.inr (.finished answered hrunning)
        · rw [Gateway.step_finish, if_neg hrunning]
          exact Or.inl rfl
      · exact Or.inl rfl
  | proceed place =>
      rw [step]
      split
      · next there =>
        split
        · next obtained => exact Or.inr (move_proceed there obtained)
        · exact Or.inl rfl
      · exact Or.inl rfl
  | conclude place =>
      rw [step]
      split
      · next there => exact Or.inr (.concluded there)
      · exact Or.inl rfl

theorem calls_moveTo (w : Workload σ α) (place : Nat) (stage : Stage) :
    (w.moveTo place stage).calls = w.calls := by
  unfold calls moveTo
  refine List.ext_getElem? fun i => ?_
  rw [List.getElem?_map, List.getElem?_map, List.getElem?_modify]
  cases w.validations[i]? with
  | none => rfl
  | some v => split <;> rfl

/-- No move changes the calls. -/
theorem Move.calls_eq {w' : Workload σ α} (h : Move service w w') : w'.calls = w.calls := by
  cases h with
  | worked | started | finished => rfl
  | refused | asked | evaluating | broken | concluded => exact calls_moveTo _ _ _

end Move

/-! ## Order -/

section Order

variable {service : ValidationService σ α} {rules : SteadyRules α}
  {w : Workload (σ × List (EngineCall α)) α}

/-- **The workload is in order:** its loads end as the rules say, its record is that of its loads,
and its validations come to the verdicts on their calls. -/
structure Orderly (service : ValidationService σ α) (rules : SteadyRules α)
    (w : Workload (σ × List (EngineCall α)) α) : Prop where
  /-- Loads, callers and tasks fit together. -/
  sound : w.gateway.Sound
  /-- Loads end with the handles of their keys. -/
  promised : w.gateway.Promised rules w.answers
  /-- The record has one call for each load that was started. -/
  counted : w.gateway.Counted w.engine.2
  /-- Every validation stands as it should. -/
  stands : ∀ v ∈ w.validations, v.Stands service rules w.gateway
  /-- There are loads for no keys but those that calls are judged by. -/
  judged : ∀ key, w.gateway.HasLoad key → ∃ call ∈ w.calls, service.Judges call key

theorem orderly_empty (service : ValidationService σ α) (rules : SteadyRules α) (state : σ) :
    Orderly service rules { engine := (state, []) } where
  sound := Gateway.sound_runFrom_empty []
  promised load l hl := by simp at hl
  counted key := rfl
  stands v hv := by cases hv
  judged key h := by
    obtain ⟨load, l, hl, -⟩ := h
    simp at hl

/-- A call keeps the order. -/
theorem Orderly.call (h : w.Orderly service rules) (call : ValidationCall) :
    (w.step service.recording (.call call)).Orderly service rules where
  sound := h.sound
  promised := h.promised
  counted := h.counted
  stands v hv := by
    rcases List.mem_append.mp hv with hv | hv
    · exact h.stands v hv
    · rw [List.mem_singleton.mp hv]
      trivial
  judged key hload := by
    obtain ⟨call', hcall, hjudges⟩ := h.judged key hload
    have hsame : (w.step service.recording (.call call)).calls = w.calls ++ [call] :=
      List.map_append
    rw [hsame]
    exact ⟨call', List.mem_append_left _ hcall, hjudges⟩

/-- A validation that stands as it should keeps the order. -/
theorem Orderly.moveTo (h : w.Orderly service rules) {place : Nat} {v : Validation}
    (there : w.validations[place]? = some v) {stage : Stage}
    (stands : Validation.Stands service rules w.gateway { v with stage := stage }) :
    (w.moveTo place stage).Orderly service rules where
  sound := h.sound
  promised := h.promised
  counted := h.counted
  stands v' hv' := by
    obtain ⟨i, hi⟩ := List.mem_iff_getElem?.mp hv'
    obtain ⟨v₀, hv₀, rfl⟩ := Gateway.getElem?_of_modify hi
    -- the gateway is the same, so that the other validations stand as they did
    split
    · next heq =>
      subst heq
      cases there.symm.trans hv₀
      exact stands
    · exact h.stands v₀ (List.mem_of_getElem? hv₀)
  judged key hload := by
    rw [calls_moveTo]
    exact h.judged key hload

/-- What happens to the gateway keeps the order, if the loads and the record agree again. -/
theorem Orderly.follow (h : w.Orderly service rules) {e : Gateway.Event α}
    (he : ∀ caller, e ≠ .cancel caller) {engine : σ × List (EngineCall α)}
    {answers : List (Nat × LoadResult α)}
    (promised : (w.gateway.step e).Promised rules answers)
    (counted : (w.gateway.step e).Counted engine.2)
    (judged : ∀ key, (w.gateway.step e).HasLoad key →
      ∃ call ∈ w.calls, service.Judges call key) :
    Orderly service rules ⟨w.gateway.step e, engine, answers, w.validations⟩ where
  sound := h.sound.step e
  promised := promised
  counted := counted
  stands v hv := (h.stands v hv).step he
  judged := judged

/-- Work of the gateway brings no load. -/
theorem Orderly.judged_inner (h : w.Orderly service rules) {e : Gateway.Event α} (he : e.isInner)
    (key : RuleKey) (hload : (w.gateway.step e).HasLoad key) :
    ∃ call ∈ w.calls, service.Judges call key := by
  have hinner : ∀ e' ∈ [e], Gateway.Event.isInner e' := by
    intro e' he'
    rw [List.mem_singleton.mp he']
    exact he
  exact h.judged key ((Gateway.hasLoad_runFrom_iff hinner key).mp hload)

/-- What a waiting validation obtains is the handle of its key, whose load was started. -/
theorem Orderly.obtained (h : w.Orderly service rules) {place caller : Nat} {call : ValidationCall}
    {key : RuleKey} {document : Xml.Document}
    (there : w.validations[place]? = some ⟨call, .loading caller key document⟩)
    {result : LoadResult α} (obtained : w.gateway.obtained caller = some result) :
    service.Prepares call.input call.request key document ∧ w.gateway.Started key ∧
      result = .loaded (rules.handle key) := by
  obtain ⟨prepared, load, l, shares, hl, rfl⟩ := h.stands _ (List.mem_of_getElem? there)
  obtain ⟨started, hresult⟩ := h.promised.ended h.sound.loads hl (shares.resultOf obtained)
  exact ⟨prepared, ⟨load, l, hl, rfl, started⟩, hresult⟩

/-- A caller that asks for the rules of a document keeps the order. -/
theorem Orderly.asked (h : w.Orderly service rules) {place : Nat} {call : ValidationCall}
    {key : RuleKey} {document : Xml.Document}
    (there : w.validations[place]? = some ⟨call, .called⟩)
    (prepared : service.Prepares call.input call.request key document) :
    ({ w with gateway := w.gateway.step (.request key) }.moveTo place
      (.loading w.gateway.callers.length key document)).Orderly service rules := by
  have hcall : call ∈ w.calls := List.mem_map.mpr ⟨_, List.mem_of_getElem? there, rfl⟩
  have hjudged : ∀ other, (w.gateway.step (.request key)).HasLoad other →
      ∃ call ∈ w.calls, service.Judges call other := by
    intro other hload
    rcases (Gateway.hasLoad_request_iff h.sound key other).mp hload with hload | rfl
    · exact h.judged other hload
    · exact ⟨call, hcall, document, prepared⟩
  have hrequest := h.follow (e := .request key) (by simp) (h.promised.request key)
    (h.counted.request key) hjudged
  -- the new caller shares the load that serves the key
  obtain ⟨load, hlookup, hshares⟩ := w.gateway.shares_request key
  obtain ⟨l, hl, hkey⟩ := hrequest.sound.loads.cached_key (Gateway.mem_cache_of_lookup hlookup)
  exact hrequest.moveTo there ⟨prepared, load, l, hshares, hl, hkey⟩

/-- A load that the engine is asked for keeps the order. -/
theorem Orderly.started (follows : service.engine.Follows rules) (h : w.Orderly service rules)
    {load : Nat} {rest : List GatewayTask} {l : Load α} {answer : Option (LoadResult α)}
    {engine : σ × List (EngineCall α)} (tasks : w.gateway.tasks = .start load :: rest)
    (there : w.gateway.loads[load]? = some l)
    (answers : service.engine.recording.load l.key w.engine = (answer, engine)) :
    Orderly service rules
      { w with gateway := w.gateway.step .advance, engine := engine,
               answers := (answer.map fun result => (load, result)).toList ++ w.answers } := by
  have hanswer := follows.recording.load l.key w.engine
  rw [answers] at hanswer
  cases hanswer
  refine h.follow (by simp) (h.promised.asking h.sound.loads tasks there) ?_
    (h.judged_inner trivial)
  rw [RuleEngine.load_recorded answers]
  exact h.counted.asking h.sound.loads tasks there _

/-- A document that the engine is asked to evaluate keeps the order. -/
theorem Orderly.evaluating (follows : service.engine.Follows rules) (h : w.Orderly service rules)
    {place caller : Nat} {call : ValidationCall} {key : RuleKey} {document : Xml.Document}
    {handle : α} {answer : Except EngineFault (List Outcome)} {engine : σ × List (EngineCall α)}
    (there : w.validations[place]? = some ⟨call, .loading caller key document⟩)
    (obtained : w.gateway.obtained caller = some (.loaded handle))
    (answers : service.engine.recording.evaluate handle document
      (service.content.parameters key.ruleset) w.engine = (answer, engine)) :
    ({ w with engine := engine }.moveTo place
      (.evaluating key document answer)).Orderly service rules := by
  obtain ⟨prepared, started, hresult⟩ := h.obtained there obtained
  cases hresult
  have hanswer := follows.recording.evaluate (rules.handle key) document
    (service.content.parameters key.ruleset) w.engine
  rw [answers] at hanswer
  -- the call for the evaluation asks for no load
  have hcounted : w.gateway.Counted engine.2 := by
    intro other
    rw [RuleEngine.evaluate_recorded answers, List.countP_append]
    exact h.counted other
  have hengine : Orderly service rules { w with engine := engine } :=
    ⟨h.sound, h.promised, hcounted, h.stands, h.judged⟩
  exact hengine.moveTo there ⟨prepared, started, hanswer⟩

/-- **Every move keeps the order.** -/
theorem Orderly.move (follows : service.engine.Follows rules) (h : w.Orderly service rules)
    {w' : Workload (σ × List (EngineCall α)) α} (hmove : Move service.recording w w') :
    w'.Orderly service rules := by
  cases hmove with
  | refused there refuses =>
      obtain ⟨hverdict, hnone⟩ := refuses.verdict
      exact h.moveTo there ⟨hverdict, fun key judges => absurd judges (hnone key)⟩
  | asked there prepared => exact h.asked there prepared
  | worked tasks other =>
      have hloads := Gateway.loads_work tasks other
      refine h.follow (by simp) ?_ ?_ (h.judged_inner trivial)
      · intro load l hl
        rw [hloads] at hl
        exact h.promised hl
      · intro key
        rw [hloads]
        exact h.counted key
  | started tasks there answers => exact h.started follows tasks there answers
  | finished answered running =>
      exact h.follow (by simp) (h.promised.finish answered) (h.counted.finish _ _)
        (h.judged_inner trivial)
  | evaluating there obtained answers => exact h.evaluating follows there obtained answers
  | broken there obtained failed =>
      -- no load fails
      obtain ⟨-, -, rfl⟩ := h.obtained there obtained
      cases failed
  | concluded there =>
      obtain ⟨prepared, started, rfl⟩ := h.stands _ (List.mem_of_getElem? there)
      refine h.moveTo there ⟨(ValidationService.verdictBy_of_prepares prepared).symm, ?_⟩
      rintro other ⟨_, hprepares⟩
      obtain ⟨rfl, -⟩ := prepared.eq hprepares
      exact started

/-- **Every event keeps the order.** -/
theorem Orderly.step (follows : service.engine.Follows rules) (h : w.Orderly service rules)
    (e : WorkloadEvent) : (w.step service.recording e).Orderly service rules := by
  by_cases he : e.isInner
  · rcases eq_or_move service.recording w he with hsame | hmove
    · rw [hsame]
      exact h
    · exact h.move follows hmove
  · cases e with
    | call call => exact h.call call
    | _ => exact absurd trivial he

/-- **Every workload is in order.** -/
theorem Orderly.run (follows : service.engine.Follows rules) (state : σ)
    (events : List WorkloadEvent) :
    (Workload.run service.recording (state, []) events).Orderly service rules := by
  have hkeep : ∀ w : Workload (σ × List (EngineCall α)) α, w.Orderly service rules →
      (events.foldl (Workload.step service.recording) w).Orderly service rules := by
    induction events with
    | nil => exact fun w h => h
    | cons e rest ih => exact fun w h => ih _ (h.step follows e)
  exact hkeep _ (orderly_empty service rules state)

end Order

end Workload

end OscalValidation
