import OscalValidation.Proofs.Gateway.Steady
import OscalValidation.Proofs.Validation.Verdicts

set_option autoImplicit false

/-! # Validations one after another

With steady rules every validation comes to its verdict (`ValidationService.verdictBy`), whatever
was validated before. Main statement: validations one after another come to the verdicts that each
comes to in a fresh session, and the engine is asked to load each key that is judged once
(`ValidationService.validateAll_fresh`).
-/

namespace OscalValidation

variable {σ α : Type}

/-- **A call of validation.** -/
structure ValidationCall where
  input : DocumentInput
  request : ValidationRequest

/-! ## Evaluating with steady rules -/

section Steady

variable {engine : RuleEngine σ α} {rules : SteadyRules α}

/-- Rules that are found at rest have the outcomes of the key, and the caller is the only one that
came. -/
theorem evaluateRules_steady (follows : engine.Follows rules) (content : ArtifactSource)
    (key : RuleKey) (document : Xml.Document) {state : ValidationState σ α}
    (steady : state.gateway.Steady rules) :
    ∃ after, evaluateRules engine content key document state =
        (.ok (rules.outcomes (rules.handle key) document (content.parameters key.ruleset)), after) ∧
      after.gateway = (state.gateway.load engine state.engine key).2.1 := by
  obtain ⟨hloaded, -⟩ := steady.load follows state.engine key
  unfold evaluateRules
  generalize state.gateway.load engine state.engine key = loaded at hloaded
  obtain ⟨result, gateway, inner⟩ := loaded
  cases hloaded
  have hevaluated := follows.evaluate (rules.handle key) document
    (content.parameters key.ruleset) inner
  dsimp only
  rw [hevaluated]
  exact ⟨_, rfl, rfl⟩

/-- Evaluating leaves the record as that of the loads. -/
theorem counted_evaluateRules (engine : RuleEngine σ α) (content : ArtifactSource) (key : RuleKey)
    (document : Xml.Document) {g : Gateway α} (hg : g.Sound) {calls : List (EngineCall α)}
    (counted : g.Counted calls) (state : σ) :
    let after := (evaluateRules engine.recording content key document ⟨g, (state, calls)⟩).2
    after.gateway.Counted after.engine.2 := by
  have hload := counted.load hg engine state key
  unfold evaluateRules
  dsimp only
  generalize g.load engine.recording (state, calls) key = loaded at hload
  obtain ⟨result, gateway, inner⟩ := loaded
  split
  · -- the call for the evaluation asks for no load
    intro other
    dsimp only [RuleEngine.recording]
    rw [List.countP_append]
    exact hload other
  · exact hload
  · exact hload
  · exact hload

end Steady

namespace ValidationService

variable {service : ValidationService σ α} {rules : SteadyRules α}

/-! ## Verdicts -/

/-- The result for a prepared document when evaluating its rules came to this. -/
def conclude (service : ValidationService σ α) (key : RuleKey) (document : Xml.Document)
    (outcomes : Except ValidationFault (List Outcome)) :
    Except ValidationFault ValidationResult := do
  let assertions ← assertionsOf document (← outcomes)
  return .ofAssertions (some key.type) key.ruleset service.policy assertions

/-- Judging a document evaluates its rules and concludes. -/
theorem judge_eq (service : ValidationService σ α) (key : RuleKey) (document : Xml.Document)
    (state : ValidationState σ α) :
    service.judge key document state =
      (service.conclude key document
        (evaluateRules service.engine service.content key document state).1,
        (evaluateRules service.engine service.content key document state).2) := rfl

/-- **The verdict on a call,** by steady rules. -/
def verdictBy (service : ValidationService σ α) (rules : SteadyRules α) (call : ValidationCall) :
    Except ValidationFault ValidationResult :=
  match prepare service.registry service.usualRuleset call.input call.request with
  | .error fault => .error fault
  | .ok (.malformed result) => .ok result
  | .ok (.ready key document) => service.conclude key document
      (.ok (rules.outcomes (rules.handle key) document (service.content.parameters key.ruleset)))

/-- **The call is judged by the rules of the key.** -/
def Judges (service : ValidationService σ α) (call : ValidationCall) (key : RuleKey) : Prop :=
  ∃ document, service.Prepares call.input call.request key document

/-- A document is ready exactly if the service judges it. -/
theorem prepare_eq_ready_iff {input : DocumentInput} {request : ValidationRequest} {key : RuleKey}
    {document : Xml.Document} :
    prepare service.registry service.usualRuleset input request = .ok (.ready key document) ↔
      service.Prepares input request key document := by
  constructor
  · intro h
    rcases service.prepare_cases input request with ⟨fault, h'⟩ | ⟨_, _, _, -, h'⟩ |
      ⟨key', document', hprepares, h'⟩
    · rw [h'] at h
      cases h
    · rw [h'] at h
      cases h
    · rw [h'] at h
      cases h
      exact hprepares
  · exact Prepares.prepare_eq

/-- The verdict on a call whose document is ready. -/
theorem verdictBy_of_prepares {call : ValidationCall} {key : RuleKey} {document : Xml.Document}
    (h : service.Prepares call.input call.request key document) :
    service.verdictBy rules call = service.conclude key document
      (.ok (rules.outcomes (rules.handle key) document
        (service.content.parameters key.ruleset))) := by
  rw [verdictBy, h.prepare_eq]

/-- **A call comes to a result without rules:** its document is not ready. -/
inductive Refuses (service : ValidationService σ α) (call : ValidationCall) :
    Except ValidationFault ValidationResult → Prop
  /-- What was asked for cannot be read. -/
  | faulty {fault : ValidationFault}
      (prepared : prepare service.registry service.usualRuleset call.input call.request =
        .error fault) : Refuses service call (.error fault)
  | malformed {result : ValidationResult}
      (prepared : prepare service.registry service.usualRuleset call.input call.request =
        .ok (.malformed result)) : Refuses service call (.ok result)

/-- A call that comes to a result without rules has it as its verdict, and no key judges it. -/
theorem Refuses.verdict {call : ValidationCall}
    {result : Except ValidationFault ValidationResult} (h : service.Refuses call result) :
    result = service.verdictBy rules call ∧ ∀ key, ¬ service.Judges call key := by
  cases h with
  | faulty prepared =>
      refine ⟨by rw [verdictBy, prepared], fun key ⟨document, hready⟩ => ?_⟩
      cases hready.prepare_eq.symm.trans prepared
  | malformed prepared =>
      refine ⟨by rw [verdictBy, prepared], fun key ⟨document, hready⟩ => ?_⟩
      cases hready.prepare_eq.symm.trans prepared

/-- **With steady rules at rest a call comes to its verdict,** and leaves the rules at rest. -/
theorem validate_steady (follows : service.engine.Follows rules) (call : ValidationCall)
    {state : ValidationState σ α} (steady : state.gateway.Steady rules) :
    (service.validate call.input call.request state).1 = service.verdictBy rules call ∧
      (service.validate call.input call.request state).2.gateway.Steady rules := by
  rw [verdictBy, service.validate_eq _ _ _ _ rfl]
  rcases prepare service.registry service.usualRuleset call.input call.request with
    fault | (result | ⟨key, document⟩)
  · exact ⟨rfl, steady⟩
  · exact ⟨rfl, steady⟩
  · obtain ⟨after, hevaluated, hafter⟩ :=
      evaluateRules_steady follows service.content key document steady
    dsimp only
    rw [judge_eq, hevaluated]
    exact ⟨rfl, hafter ▸ (steady.load follows state.engine key).2⟩

/-- In a fresh session a call comes to its verdict. -/
theorem validate_fresh (follows : service.engine.Follows rules) (call : ValidationCall)
    (state : σ) : (service.validate call.input call.request ⟨{}, state⟩).1 =
      service.verdictBy rules call :=
  (validate_steady follows call (Gateway.steady_empty rules)).1

/-- A call brings a load for the key that it is judged by, and no other. -/
theorem hasLoad_validate (follows : service.engine.Follows rules) (call : ValidationCall)
    {state : ValidationState σ α} (steady : state.gateway.Steady rules) (key : RuleKey) :
    (service.validate call.input call.request state).2.gateway.HasLoad key ↔
      state.gateway.HasLoad key ∨ service.Judges call key := by
  have hjudges : ∀ other, service.Judges call other ↔ ∃ document,
      prepare service.registry service.usualRuleset call.input call.request =
        .ok (.ready other document) :=
    fun other => exists_congr fun document => prepare_eq_ready_iff.symm
  rw [hjudges, service.validate_eq _ _ _ _ rfl]
  rcases prepare service.registry service.usualRuleset call.input call.request with
    fault | (result | ⟨key', document⟩)
  · simp
  · simp
  · obtain ⟨after, hevaluated, hafter⟩ :=
      evaluateRules_steady follows service.content key' document steady
    dsimp only
    rw [judge_eq, hevaluated, hafter, Gateway.hasLoad_load_iff steady.sound]
    simp [eq_comm]

/-- A call leaves the record as that of the loads. -/
theorem counted_validate (service : ValidationService σ α) (call : ValidationCall) {g : Gateway α}
    (hg : g.Sound) {calls : List (EngineCall α)} (counted : g.Counted calls) (state : σ) :
    let after := (service.recording.validate call.input call.request ⟨g, (state, calls)⟩).2
    after.gateway.Counted after.engine.2 := by
  rw [service.recording.validate_eq _ _ _ _ rfl]
  rcases prepare service.recording.registry service.recording.usualRuleset call.input
    call.request with fault | (result | ⟨key, document⟩)
  · exact counted
  · exact counted
  · exact counted_evaluateRules service.engine service.content key document hg counted state

/-! ## One after another -/

/-- **Calls one after another,** with what changes handed on. -/
def validateAll (service : ValidationService σ α) :
    List ValidationCall → ValidationState σ α →
      List (Except ValidationFault ValidationResult) × ValidationState σ α
  | [], state => ([], state)
  | call :: rest, state =>
      let (result, state) := service.validate call.input call.request state
      let (results, state) := service.validateAll rest state
      (result :: results, state)

/-- **Calls one after another come to their verdicts,** and the record has one call for each load,
of which there is one for each key that is judged. -/
theorem validateAll_from (follows : service.engine.Follows rules) (calls : List ValidationCall)
    {state : ValidationState (σ × List (EngineCall α)) α} (steady : state.gateway.Steady rules)
    (counted : state.gateway.Counted state.engine.2) :
    (service.recording.validateAll calls state).1 = calls.map (service.verdictBy rules) ∧
      (service.recording.validateAll calls state).2.gateway.Steady rules ∧
      (service.recording.validateAll calls state).2.gateway.Counted
        (service.recording.validateAll calls state).2.engine.2 ∧
      ∀ key, (service.recording.validateAll calls state).2.gateway.HasLoad key ↔
        state.gateway.HasLoad key ∨ ∃ call ∈ calls, service.Judges call key := by
  induction calls generalizing state with
  | nil => exact ⟨rfl, steady, counted, by simp [validateAll]⟩
  | cons call rest ih =>
      have hfollows : service.recording.engine.Follows rules := follows.recording
      obtain ⟨hresult, hsteady⟩ := validate_steady hfollows call steady
      have hcounted := service.counted_validate call steady.sound counted state.engine.1
      obtain ⟨hresults, hsteady', hcounted', hloads⟩ := ih hsteady hcounted
      refine ⟨?_, hsteady', hcounted', fun key => ?_⟩
      · rw [validateAll, List.map_cons]
        exact List.cons_eq_cons.mpr ⟨hresult, hresults⟩
      · rw [show (service.recording.validateAll (call :: rest) state).2 =
          (service.recording.validateAll rest
            (service.recording.validate call.input call.request state).2).2 from rfl, hloads,
          hasLoad_validate hfollows call steady key]
        simp only [List.mem_cons, exists_eq_or_imp, or_assoc]
        rfl

/-- **Calls one after another come to the results that they come to in fresh sessions,** and the
engine is asked once for each key that is judged, and for no other. -/
theorem validateAll_fresh (follows : service.engine.Follows rules) (calls : List ValidationCall)
    (state fresh : σ) :
    let (results, after) := service.recording.validateAll calls ⟨{}, (state, [])⟩
    results =
        calls.map (fun call => (service.validate call.input call.request ⟨{}, fresh⟩).1) ∧
      ∀ key,
        ((∃ call ∈ calls, service.Judges call key) →
          after.engine.2.countP (EngineCall.isLoadOf key) = 1) ∧
        ((¬ ∃ call ∈ calls, service.Judges call key) →
          after.engine.2.countP (EngineCall.isLoadOf key) = 0) := by
  let start : ValidationState (σ × List (EngineCall α)) α := ⟨{}, (state, [])⟩
  have hsteady : start.gateway.Steady rules := Gateway.steady_empty rules
  have hcounted : start.gateway.Counted start.engine.2 := fun key => rfl
  obtain ⟨hresults, hsteady', hcounted', hloads⟩ :=
    validateAll_from follows calls hsteady hcounted
  refine ⟨?_, fun key => ?_⟩
  · rw [hresults]
    exact List.map_congr_left fun call _ => (validate_fresh follows call fresh).symm
  · -- at first there is no load, so that the keys with a load are the ones that are judged
    have hjudged : (service.recording.validateAll calls start).2.gateway.HasLoad key ↔
        ∃ call ∈ calls, service.Judges call key := by
      rw [hloads]
      simp [Gateway.HasLoad, start]
    obtain ⟨honce, hnever⟩ := hsteady'.count_loads hcounted' key
    exact ⟨fun h => honce (hjudged.mpr h), fun h => hnever (mt hjudged.mp h)⟩

end ValidationService

end OscalValidation
