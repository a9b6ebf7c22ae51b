import Mathlib.Data.List.Nodup
import OscalValidation.Proofs.Gateway.Calls

set_option autoImplicit false

/-! # Engines that never change their answers

An engine follows steady rules (`RuleEngine.Follows`) if it answers by them alone, whatever it was
asked before. When such an engine is at work the gateway comes to rest with every load ended and
every handle that of its key (`Steady`), and the record of the engine has one call for each load
(`Counted`). Main statement: a caller that finds the gateway at rest obtains the handle of its key
and leaves the gateway at rest (`Steady.load`).
-/

namespace OscalValidation

variable {σ α : Type}

/-! ## Steady rules -/

/-- **Rules that do not change:** each key has a handle, and with each handle a document has
outcomes. -/
structure SteadyRules (α : Type) where
  handle : RuleKey → α
  outcomes : α → Xml.Document → Parameters → List Outcome

/-- **The engine answers by the rules,** in whatever state it is. -/
structure RuleEngine.Follows (engine : RuleEngine σ α) (rules : SteadyRules α) : Prop where
  /-- Every load succeeds, with the handle of the key. -/
  load (key : RuleKey) (state : σ) :
    (engine.load key state).1 = some (.loaded (rules.handle key))
  /-- Every evaluation succeeds, with the outcomes for the document. -/
  evaluate (handle : α) (document : Xml.Document) (parameters : Parameters) (state : σ) :
    (engine.evaluate handle document parameters state).1 =
      .ok (rules.outcomes handle document parameters)

/-- Recording changes no answer. -/
theorem RuleEngine.Follows.recording {engine : RuleEngine σ α} {rules : SteadyRules α}
    (h : engine.Follows rules) : engine.recording.Follows rules where
  load key state := h.load key state.1
  evaluate handle document parameters state := h.evaluate handle document parameters state.1

/-- The call asks for a load of the key. -/
def EngineCall.isLoadOf (key : RuleKey) : EngineCall α → Bool
  | .load other _ => other == key
  | .evaluate .. => false

/-- What changes one entry of a list changes a sum by that entry. -/
theorem sum_map_modify {β : Type} (w : β → Nat) (f : β → β) {xs : List β} {i : Nat} {x : β}
    (h : xs[i]? = some x) :
    ((xs.modify i f).map w).sum + w x = (xs.map w).sum + w (f x) := by
  induction xs generalizing i with
  | nil => cases h
  | cons y rest ih =>
      cases i with
      | zero =>
          cases h
          rw [List.modify_zero_cons, List.map_cons, List.sum_cons, List.map_cons, List.sum_cons]
          omega
      | succ i =>
          rw [List.modify_succ_cons, List.map_cons, List.sum_cons, List.map_cons, List.sum_cons]
          have hrest := ih h
          omega

/-- What changes one entry of a list changes a count by that entry. -/
theorem countP_modify {β : Type} (p : β → Bool) (f : β → β) {xs : List β} {i : Nat} {x : β}
    (h : xs[i]? = some x) :
    (xs.modify i f).countP p + (if p x then 1 else 0) = xs.countP p + if p (f x) then 1 else 0 := by
  have hsum : ∀ ys : List β, ys.countP p = (ys.map fun y => if p y then 1 else 0).sum := by
    intro ys
    induction ys with
    | nil => rfl
    | cons y rest ih => rw [List.countP_cons, ih, List.map_cons, List.sum_cons, Nat.add_comm]
  rw [hsum, hsum]
  exact sum_map_modify (fun y => if p y then 1 else 0) f h

namespace Gateway

variable {engine : RuleEngine σ α} {rules : SteadyRules α} {g : Gateway α}

/-! ## The gateway at rest -/

/-- **Every load that was started has ended** with the handle of its key. -/
def Answered (rules : SteadyRules α) (g : Gateway α) : Prop :=
  ∀ ⦃load : Nat⦄ ⦃l : Load α⦄, g.loads[load]? = some l → l.started = true →
    l.result = some (.loaded (rules.handle l.key))

/-- **The gateway is at rest:** nothing is to be done, and every load has ended with the handle of
its key. -/
structure Steady (rules : SteadyRules α) (g : Gateway α) : Prop where
  /-- Loads, callers and tasks fit together. -/
  sound : g.Sound
  answered : g.Answered rules
  idle : g.tasks = []

theorem steady_empty (rules : SteadyRules α) : Steady rules {} where
  sound := ⟨loadsAgree_empty, callersAgree_empty, attended_empty⟩
  answered load l hl := by simp at hl
  idle := rfl

/-- At rest every load was started. -/
theorem Steady.started (h : g.Steady rules) {load : Nat} {l : Load α}
    (hl : g.loads[load]? = some l) : l.started = true := by
  cases hs : l.started with
  | true => rfl
  | false =>
      have hstart := h.sound.attended.unstarted hl hs
      rw [h.idle] at hstart
      cases hstart

/-- At rest every load has ended with the handle of its key. -/
theorem Steady.result (h : g.Steady rules) {load : Nat} {l : Load α}
    (hl : g.loads[load]? = some l) : l.result = some (.loaded (rules.handle l.key)) :=
  h.answered hl (h.started hl)

/-- A task that starts no load leaves the loads alone. -/
theorem loads_work {task : GatewayTask} {rest : List GatewayTask} (ht : g.tasks = task :: rest)
    (other : ∀ load, task = .start load → g.loads[load]? = none) :
    (g.step .advance).loads = g.loads := by
  rw [step_advance_cons ht]
  cases task with
  | start load =>
      have hlength := List.getElem?_eq_none_iff.mp (other load rfl)
      exact List.modify_eq_self hlength
  | evict load =>
      rw [perform, Gateway.evict]
      split <;> rfl
  | tell caller =>
      rw [perform]
      rcases { g with tasks := rest }.tell_cases caller with ⟨h, -⟩ | ⟨_, _, -, -, h⟩ <;> rw [h]
      rfl
  | resume caller =>
      rw [perform]
      rcases { g with tasks := rest }.resume_cases caller with ⟨h, -⟩ | ⟨_, _, _, -, -, h⟩ <;>
        rw [h]
      rfl

/-- A load that the engine answers at once is started and ends. -/
theorem loads_ends (hg : g.LoadsAgree) {load : Nat} {rest : List GatewayTask}
    (ht : g.tasks = .start load :: rest) (result : LoadResult α) :
    ((g.step .advance).step (.finish load result)).loads =
      (g.loads.modify load fun l => { l with started := true }).modify load
        fun l => { l with result := some result } := by
  obtain ⟨l, -, -, hrunning⟩ := hg.isRunning_of_start ht
  rw [step_finish, if_pos hrunning, step_advance_cons ht]
  rfl

/-- **Every turn with steady rules ends the load that it starts.** -/
theorem Answered.turn (h : g.Answered rules) (hg : g.LoadsAgree) (follows : engine.Follows rules)
    {g' : Gateway α} {state state' : σ} (hturn : Turn engine g state g' state') :
    g'.Answered rules := by
  intro load l hl hs
  cases hturn with
  | work tasks other =>
      rw [loads_work tasks other] at hl
      exact h hl hs
  | @goesOn _ _ first _ tasks there answer =>
      have hanswer := follows.load first.key state
      rw [answer] at hanswer
      cases hanswer
  | @ends asked _ first result _ tasks there answer =>
      have hanswer := follows.load first.key state
      rw [answer] at hanswer
      cases hanswer
      rw [loads_ends hg tasks] at hl
      obtain ⟨l₁, hl₁, rfl⟩ := getElem?_of_modify hl
      obtain ⟨l₀, hl₀, rfl⟩ := getElem?_of_modify hl₁
      by_cases heq : asked = load
      · subst heq
        cases there.symm.trans hl₀
        simp
      · simp only [if_neg heq] at hs ⊢
        exact h hl₀ hs

/-- **With steady rules the gateway comes to rest.** -/
theorem Steady.settle (hg : g.Sound) (h : g.Answered rules) (follows : engine.Follows rules)
    (state : σ) : (g.settle engine state).1.Steady rules := by
  have hkeep : (g.settle engine state).1.Sound ∧ (g.settle engine state).1.Answered rules := by
    refine settleWithin_induction (p := fun g' _ => g'.Sound ∧ g'.Answered rules)
      (fun hp hturn => ?_) _ ⟨hg, h⟩
    obtain ⟨events, -, hrun⟩ := hturn.run
    refine ⟨?_, hp.2.turn hp.1.loads follows hturn⟩
    rw [hrun]
    exact hp.1.runFrom events
  exact ⟨hkeep.1, hkeep.2, g.tasks_settle engine state⟩

/-- A request starts no load. -/
theorem Answered.request (h : g.Answered rules) (key : RuleKey) :
    (g.request key).1.Answered rules := by
  intro load l hl hs
  rcases g.request_cases key with ⟨-, hr⟩ | ⟨_, -, -, hr⟩ | ⟨_, _, -, -, hr⟩
  · rw [hr] at hl
    rcases getElem?_append_one hl with hl | ⟨-, rfl⟩
    · exact h hl hs
    · cases hs
  · rw [hr] at hl
    exact h hl hs
  · rw [hr] at hl
    exact h hl hs

/-- **A caller that finds the gateway at rest obtains the handle of its key** and leaves the gateway
at rest. -/
theorem Steady.load (h : g.Steady rules) (follows : engine.Follows rules) (state : σ)
    (key : RuleKey) :
    (g.load engine state key).1 = some (.loaded (rules.handle key)) ∧
      (g.load engine state key).2.1.Steady rules := by
  have hafter : (g.load engine state key).2.1.Steady rules :=
    Steady.settle (h.sound.step (.request key)) (h.answered.request key) follows state
  obtain ⟨number, l, -, hl, hkey, hresult, -, -⟩ := load_spec h.sound engine state key
  refine ⟨?_, hafter⟩
  rw [hresult, hafter.result hl, hkey]

/-! ## Keys with a load -/

def HasLoad (g : Gateway α) (key : RuleKey) : Prop :=
  ∃ (load : Nat) (l : Load α), g.loads[load]? = some l ∧ l.key = key

theorem HasLoad.extended {g' : Gateway α} {key : RuleKey} (h : g.HasLoad key)
    (hext : g.Extends g') : g'.HasLoad key := by
  obtain ⟨load, l, hl, hkey⟩ := h
  obtain ⟨l', hl', hkey', -⟩ := hext hl
  exact ⟨load, l', hl', hkey'.trans hkey⟩

theorem hasLoad_request_iff (hg : g.Sound) (key other : RuleKey) :
    (g.request key).1.HasLoad other ↔ g.HasLoad other ∨ other = key := by
  constructor
  · rintro ⟨load, l, hl, rfl⟩
    rcases g.request_cases key with ⟨-, hr⟩ | ⟨_, -, -, hr⟩ | ⟨_, _, -, -, hr⟩
    · rw [hr] at hl
      rcases getElem?_append_one hl with hl | ⟨-, rfl⟩
      · exact Or.inl ⟨load, l, hl, rfl⟩
      · exact Or.inr rfl
    · rw [hr] at hl
      exact Or.inl ⟨load, l, hl, rfl⟩
    · rw [hr] at hl
      exact Or.inl ⟨load, l, hl, rfl⟩
  · rintro (h | rfl)
    · exact h.extended (g.extends_step (.request key))
    · -- the load that serves the key is one for it
      obtain ⟨load, hlookup, -⟩ := g.shares_request other
      obtain ⟨l, hl, hkey⟩ :=
        (hg.step (.request other)).loads.cached_key (mem_cache_of_lookup hlookup)
      exact ⟨load, l, hl, hkey⟩

/-- Work of the gateway brings no load. -/
theorem hasLoad_runFrom_iff {events : List (Event α)} (hinner : ∀ e ∈ events, Event.isInner e)
    (key : RuleKey) : (g.runFrom events).HasLoad key ↔ g.HasLoad key := by
  constructor
  · rintro ⟨load, l, hl, rfl⟩
    have hlt := (List.getElem?_eq_some_iff.mp hl).1
    rw [g.length_loads_runFrom hinner] at hlt
    have hthere := List.getElem?_eq_getElem hlt
    obtain ⟨l', hl', hkey, -⟩ := extends_runFrom g events hthere
    cases hl.symm.trans hl'
    exact ⟨load, _, hthere, hkey.symm⟩
  · exact fun h => h.extended (extends_runFrom g events)

/-- **A caller brings a load for its key and no other.** -/
theorem hasLoad_load_iff (hg : g.Sound) (engine : RuleEngine σ α) (state : σ)
    (key other : RuleKey) :
    (g.load engine state key).2.1.HasLoad other ↔ g.HasLoad other ∨ other = key := by
  obtain ⟨events, hinner, hrun⟩ := (g.request key).1.settle_run engine state
  have hload : (g.load engine state key).2.1 = ((g.request key).1.settle engine state).1 := rfl
  rw [hload, hrun, hasLoad_runFrom_iff hinner, hasLoad_request_iff hg]

/-! ## The record of the engine -/

/-- **The record has one call for each load of a key that was started.** -/
def Counted (g : Gateway α) (calls : List (EngineCall α)) : Prop :=
  ∀ key, calls.countP (EngineCall.isLoadOf key) =
    g.loads.countP fun l => l.started && l.key == key

/-- A load that is started is one call more. -/
theorem Counted.asking {calls : List (EngineCall α)} (h : g.Counted calls) (hg : g.LoadsAgree)
    {load : Nat} {rest : List GatewayTask} (ht : g.tasks = .start load :: rest) {l : Load α}
    (hl : g.loads[load]? = some l) (answer : Option (LoadResult α)) :
    (g.step .advance).Counted (calls ++ [.load l.key answer]) := by
  obtain ⟨l', hl', hs, -⟩ := hg.isRunning_of_start ht
  cases hl.symm.trans hl'
  have hloads : (g.step .advance).loads =
      g.loads.modify load fun l => { l with started := true } := by
    rw [step_advance_cons ht]
    rfl
  intro key
  have hmodify := countP_modify (fun l : Load α => l.started && l.key == key)
    (fun l => { l with started := true }) hl
  have hcalls := h key
  rw [List.countP_append, List.countP_singleton, hloads]
  cases hkey : l.key == key with
  | true =>
      simp only [hs, hkey, Bool.and_true, Bool.false_eq_true, if_false, if_true] at hmodify
      simp only [EngineCall.isLoadOf, hkey, if_true]
      omega
  | false =>
      simp only [hkey, Bool.and_false, Bool.false_eq_true, if_false] at hmodify
      simp only [EngineCall.isLoadOf, hkey, Bool.false_eq_true, if_false]
      omega

/-- The end of a load is no call. -/
theorem Counted.finish {calls : List (EngineCall α)} (h : g.Counted calls) (load : Nat)
    (result : LoadResult α) : (g.step (.finish load result)).Counted calls := by
  intro key
  rw [h key, step_finish]
  split
  · next hrunning =>
    obtain ⟨l, hl, -⟩ := (g.isRunning_iff load).mp hrunning
    -- the end of a load changes neither its key nor that it was started
    have hend := countP_modify (fun l : Load α => l.started && l.key == key)
      (fun l => { l with result := some result }) hl
    exact (Nat.add_right_cancel hend).symm
  · rfl

/-- Every turn records the load that it starts. -/
theorem Counted.turn {g' : Gateway α} {state state' : σ × List (EngineCall α)}
    (h : g.Counted state.2) (hg : g.LoadsAgree)
    (hturn : Turn engine.recording g state g' state') : g'.Counted state'.2 := by
  cases hturn with
  | work tasks other =>
      intro key
      rw [loads_work tasks other]
      exact h key
  | goesOn tasks there answer =>
      rw [RuleEngine.load_recorded answer]
      exact h.asking hg tasks there none
  | @ends load _ l result _ tasks there answer =>
      rw [RuleEngine.load_recorded answer]
      exact (h.asking hg tasks there (some result)).finish load result

/-- **While the gateway settles the record stays that of its loads.** -/
theorem Counted.settle (hg : g.Sound) {calls : List (EngineCall α)} (h : g.Counted calls)
    (engine : RuleEngine σ α) (state : σ) :
    (g.settle engine.recording (state, calls)).1.Counted
      (g.settle engine.recording (state, calls)).2.2 := by
  have hkeep : (g.settle engine.recording (state, calls)).1.Sound ∧
      (g.settle engine.recording (state, calls)).1.Counted
        (g.settle engine.recording (state, calls)).2.2 := by
    refine settleWithin_induction
      (p := fun g' (state' : σ × List (EngineCall α)) => g'.Sound ∧ g'.Counted state'.2)
      (fun hp hturn => ?_) _ ⟨hg, h⟩
    obtain ⟨events, -, hrun⟩ := hturn.run
    refine ⟨?_, hp.2.turn hp.1.loads hturn⟩
    rw [hrun]
    exact hp.1.runFrom events
  exact hkeep.2

theorem Counted.request {calls : List (EngineCall α)} (h : g.Counted calls) (key : RuleKey) :
    (g.request key).1.Counted calls := by
  intro other
  rw [h other]
  rcases g.request_cases key with ⟨-, hr⟩ | ⟨_, -, -, hr⟩ | ⟨_, _, -, -, hr⟩ <;> rw [hr]
  rw [List.countP_append, List.countP_singleton]
  rfl

/-- **A caller leaves the record as that of the loads.** -/
theorem Counted.load (hg : g.Sound) {calls : List (EngineCall α)} (h : g.Counted calls)
    (engine : RuleEngine σ α) (state : σ) (key : RuleKey) :
    (g.load engine.recording (state, calls) key).2.1.Counted
      (g.load engine.recording (state, calls) key).2.2.2 :=
  Counted.settle (hg.step (.request key)) (h.request key) engine state

/-! ## Loads that do not fail -/

/-- If no load has failed, no key has two loads. -/
theorem LoadsAgree.nodup_keys (hg : g.LoadsAgree)
    (stand : ∀ ⦃load : Nat⦄ ⦃l : Load α⦄, g.loads[load]? = some l → ¬ l.hasFailed) :
    (g.loads.map (·.key)).Nodup := by
  rw [List.nodup_iff_getElem?_ne_getElem?]
  intro i j hij hj heq
  rw [List.length_map] at hj
  have hi : i < g.loads.length := Nat.lt_trans hij hj
  have hli := List.getElem?_eq_getElem hi
  have hlj := List.getElem?_eq_getElem hj
  rw [List.getElem?_map, List.getElem?_map, hli, hlj] at heq
  have hsame := hg.eq_of_not_failed hli hlj (Option.some.inj heq) (stand hli) (stand hlj)
  omega

/-- **A load for the key was started.** -/
def Started (g : Gateway α) (key : RuleKey) : Prop :=
  ∃ (load : Nat) (l : Load α), g.loads[load]? = some l ∧ l.key = key ∧ l.started = true

theorem Started.extended {g' : Gateway α} {key : RuleKey} (h : g.Started key)
    (hext : g.Extends g') : g'.Started key := by
  obtain ⟨load, l, hl, hkey, hs⟩ := h
  obtain ⟨l', hl', hkey', hs', -⟩ := hext hl
  exact ⟨load, l', hl', hkey'.trans hkey, hs' hs⟩

/-- **If no load has failed, the engine was asked for a key once if a load for it was started,** for
no key more often, and for none that has no load. -/
theorem Counted.asked {calls : List (EngineCall α)} (h : g.Counted calls) (hg : g.LoadsAgree)
    (stand : ∀ ⦃load : Nat⦄ ⦃l : Load α⦄, g.loads[load]? = some l → ¬ l.hasFailed)
    (key : RuleKey) :
    calls.countP (EngineCall.isLoadOf key) ≤ 1 ∧
      (g.Started key → calls.countP (EngineCall.isLoadOf key) = 1) ∧
      (¬ g.HasLoad key → calls.countP (EngineCall.isLoadOf key) = 0) := by
  rw [h key]
  -- the keys of the loads are different, so that no two loads count
  have hone : g.loads.countP (fun l => l.started && l.key == key) ≤ 1 := by
    calc g.loads.countP (fun l => l.started && l.key == key)
        ≤ g.loads.countP (fun l => l.key == key) :=
          List.countP_mono_left fun l _ hl => (Bool.and_eq_true_iff.mp hl).2
      _ = (g.loads.map (·.key)).count key := by
          rw [List.count, List.countP_map]
          rfl
      _ ≤ 1 := List.nodup_iff_count_le_one.mp (hg.nodup_keys stand) key
  refine ⟨hone, ?_, ?_⟩
  · rintro ⟨load, l, hl, hkey, hs⟩
    have hpos : 0 < g.loads.countP fun l => l.started && l.key == key :=
      List.countP_pos_iff.mpr ⟨l, List.mem_of_getElem? hl, by simp [hkey, hs]⟩
    omega
  · intro hnone
    refine List.countP_eq_zero.mpr fun l hl hkey => hnone ?_
    obtain ⟨load, hload⟩ := List.mem_iff_getElem?.mp hl
    exact ⟨load, l, hload, beq_iff_eq.mp (Bool.and_eq_true_iff.mp hkey).2⟩

/-- **At rest the engine was asked for every key that has a load, once,** and for no other. -/
theorem Steady.count_loads (h : g.Steady rules) {calls : List (EngineCall α)}
    (hcalls : g.Counted calls) (key : RuleKey) :
    (g.HasLoad key → calls.countP (EngineCall.isLoadOf key) = 1) ∧
      (¬ g.HasLoad key → calls.countP (EngineCall.isLoadOf key) = 0) := by
  obtain ⟨-, honce, hnever⟩ := hcalls.asked h.sound.loads
    (fun _ l hl => l.not_hasFailed_iff.mpr (Or.inr ⟨_, h.result hl⟩)) key
  exact ⟨fun ⟨load, l, hl, hkey⟩ => honce ⟨load, l, hl, hkey, h.started hl⟩, hnever⟩

end Gateway

end OscalValidation
