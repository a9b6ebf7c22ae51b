import OscalValidation.Proofs.Gateway.Calls
import OscalValidation.Proofs.Gateway.Fairness
import OscalValidation.Proofs.Gateway.SharedLoads

set_option autoImplicit false

/-! # Failed loads

A load that fails, or is given up, is told to every caller that waits for it, and by then the cache
has dropped it. `LeavesNoTrace` says so of one load. Main statement: every load that fails leaves
no trace, no failed load counts as loaded, and nothing but its own drop takes a load from the cache
(`failed_loads_leave_no_trace`).
-/

namespace OscalValidation

namespace Traffic

variable {α : Type}

/-! ## The gateway in a run -/

/-- What an event of the traffic is to the gateway, if it concerns the gateway. -/
def gatewayEvent? (t : Traffic α) : TrafficEvent α → Option (Gateway.Event α)
  | .call _ | .withdraw _ => none
  | .begin place => t.ahead[place]?.map fun errand => .request errand.key
  | .cancel caller => some (.cancel caller)
  | .finish load result => some (.finish load result)
  | .advance => some .advance

theorem gateway_step (t : Traffic α) (e : TrafficEvent α) :
    (t.step e).gateway = ((t.gatewayEvent? e).map t.gateway.step).getD t.gateway := by
  cases e with
  | begin place =>
      cases h : t.ahead[place]? with
      | none => simp [step, gatewayEvent?, h]
      | some errand => simp [step, gatewayEvent?, h, follow]
  | _ => rfl

/-- **The event comes to the gateway** when events of the traffic happen. -/
def Comes (later : List (TrafficEvent α)) (e : Gateway.Event α) : Prop :=
  ∃ (t : Traffic α) (e' : TrafficEvent α), e' ∈ later ∧ t.gatewayEvent? e' = some e

/-- Only the cancellation of a caller cancels it. -/
theorem Comes.cancel {later : List (TrafficEvent α)} {caller : Nat}
    (h : Comes later (.cancel caller)) : .cancel caller ∈ later := by
  obtain ⟨t, e', hmem, he⟩ := h
  cases e' with
  | begin place =>
      obtain ⟨errand, -, herrand⟩ := Option.map_eq_some_iff.mp he
      cases herrand
  | cancel other =>
      cases he
      exact hmem
  | _ => cases he

/-- Only the end of a load ends it. -/
theorem Comes.finish {later : List (TrafficEvent α)} {load : Nat} {result : LoadResult α}
    (h : Comes later (.finish load result)) : .finish load result ∈ later := by
  obtain ⟨t, e', hmem, he⟩ := h
  cases e' with
  | begin place =>
      obtain ⟨errand, -, herrand⟩ := Option.map_eq_some_iff.mp he
      cases herrand
  | finish other result' =>
      cases he
      exact hmem
  | _ => cases he

/-- What every event that comes to the gateway keeps, traffic keeps. -/
theorem gateway_foldl_of_comes {p : Gateway α → Prop} (later : List (TrafficEvent α))
    (step : ∀ g e, Comes later e → p g → p (g.step e)) {t : Traffic α} (h : p t.gateway) :
    p (later.foldl Traffic.step t).gateway := by
  induction later generalizing t with
  | nil => exact h
  | cons e rest ih =>
      refine ih (fun g e' ⟨t', first, hmem, he'⟩ =>
        step g e' ⟨t', first, List.mem_cons_of_mem _ hmem, he'⟩) ?_
      rw [gateway_step]
      cases he : t.gatewayEvent? e with
      | none => exact h
      | some e' => exact step t.gateway e' ⟨t, e, List.mem_cons_self, he⟩ h

/-- What all events of the gateway keep, traffic keeps. -/
theorem gateway_foldl_induction {p : Gateway α → Prop} (later : List (TrafficEvent α))
    (step : ∀ g e, (∀ caller, .cancel caller ∉ later → e ≠ .cancel caller) → p g → p (g.step e))
    {t : Traffic α} (h : p t.gateway) : p (later.foldl Traffic.step t).gateway := by
  refine gateway_foldl_of_comes later (fun g e hcomes => step g e fun caller hnot => ?_) h
  rintro rfl
  exact hnot hcomes.cancel

theorem sound_run (events : List (TrafficEvent α)) : (run events).gateway.Sound :=
  gateway_foldl_induction (p := Gateway.Sound) events (fun _ e _ h => h.step e)
    ⟨Gateway.loadsAgree_empty, Gateway.callersAgree_empty, Gateway.attended_empty⟩

theorem timely_run (events : List (TrafficEvent α)) : (run events).gateway.Timely :=
  gateway_foldl_induction (p := Gateway.Timely) events (fun _ e _ h => h.step e)
    Gateway.timely_empty

theorem extends_foldl (t : Traffic α) (later : List (TrafficEvent α)) :
    t.gateway.Extends (later.foldl step t).gateway :=
  gateway_foldl_induction (p := t.gateway.Extends) later
    (fun g e _ h => h.trans (g.extends_step e)) (Gateway.Extends.refl _)

/-- **A schedule that lets the gateway work:** again and again it does its next task. -/
def Fair (schedule : Nat → TrafficEvent α) : Prop := ∀ n, ∃ m, n ≤ m ∧ schedule m = .advance

def firstOf (schedule : Nat → TrafficEvent α) (n : Nat) : List (TrafficEvent α) :=
  (List.range n).map schedule

theorem foldl_firstOf_succ (t : Traffic α) (schedule : Nat → TrafficEvent α) (n : Nat) :
    (firstOf schedule (n + 1)).foldl step t =
      ((firstOf schedule n).foldl step t).step (schedule n) := by
  rw [firstOf, List.range_succ, List.map_append, List.foldl_append]
  rfl

/-- A fair schedule takes the gateway through a fair course. -/
theorem Fair.course {schedule : Nat → TrafficEvent α} (h : Fair schedule) (t : Traffic α)
    {caller : Nat} (hcaller : ∀ n, schedule n ≠ .cancel caller) :
    Gateway.Course (fun n => ((firstOf schedule n).foldl step t).gateway) caller where
  moves n := by
    rw [foldl_firstOf_succ, gateway_step]
    cases he : ((firstOf schedule n).foldl step t).gatewayEvent? (schedule n) with
    | none => exact Or.inl rfl
    | some e =>
        refine Or.inr ⟨e, ?_, rfl⟩
        rintro rfl
        have hcomes : Comes [schedule n] (.cancel caller) := ⟨_, _, List.mem_cons_self, he⟩
        exact hcaller n (List.mem_singleton.mp hcomes.cancel).symm
  advances n := by
    obtain ⟨m, hm, hadvance⟩ := h n
    refine ⟨m, hm, ?_⟩
    rw [foldl_firstOf_succ, hadvance]
    rfl

/-! ## Loaded keys -/

/-- **A key counts as loaded exactly if a load of it that the engine was asked for succeeded.** -/
theorem Agrees.mem_loadedKeys_iff {t : Traffic α} (ht : t.Agrees) (key : RuleKey) :
    key ∈ t.gateway.loadedKeys ↔ ∃ load ∈ t.loadsFor key, t.hasSucceeded load = true := by
  simp only [Gateway.loadedKeys, List.mem_map, List.mem_filter]
  constructor
  · rintro ⟨⟨_, load⟩, ⟨hmem, hready⟩, rfl⟩
    obtain ⟨l, hl, hkey⟩ := ht.loads.cached_key hmem
    obtain ⟨handle, hr⟩ := (t.hasSucceeded_iff load).mp hready
    have hstarted : l.started = true := by
      by_contra hnot
      have hnone := ht.loads.unended hl (Bool.eq_false_iff.mpr hnot)
      rw [Gateway.resultOf, hl] at hr
      simp [hnone] at hr
    have hasked := (ht.asked_iff load).mpr ⟨l, hl, hstarted⟩
    exact ⟨load, (t.mem_loadsFor_iff _ load).mpr ⟨hasked, l, hl, hkey⟩, hready⟩
  · rintro ⟨load, hload, hready⟩
    obtain ⟨-, l, hl, rfl⟩ := (t.mem_loadsFor_iff key load).mp hload
    obtain ⟨handle, hr⟩ := (t.hasSucceeded_iff load).mp hready
    have hnot : ¬ l.hasFailed := fun hf => not_hasFailed_of_loaded hr ⟨l, hl, hf⟩
    exact ⟨(l.key, load), ⟨ht.loads.cached hl hnot, hready⟩, rfl⟩

/-- A key whose load in the cache failed does not count as loaded. -/
theorem Agrees.not_mem_loadedKeys {t : Traffic α} (ht : t.Agrees) {key : RuleKey} {load : Nat}
    (hmem : (key, load) ∈ t.gateway.cache) (hfailed : t.gateway.isFailed load = true) :
    key ∉ t.gateway.loadedKeys := by
  intro hloaded
  simp only [Gateway.loadedKeys, List.mem_map, List.mem_filter] at hloaded
  obtain ⟨⟨_, other⟩, ⟨hother, hready⟩, rfl⟩ := hloaded
  -- the load by which the key counts as loaded is the only one in the cache
  have heq : other = load := ht.loads.load_unique hother hmem
  subst heq
  obtain ⟨handle, hr⟩ := (t.hasSucceeded_iff other).mp hready
  obtain ⟨l, hl, hf⟩ := (t.gateway.isFailed_iff other).mp hfailed
  exact not_hasFailed_of_loaded hr ⟨l, hl, hf⟩

/-! ## A load that fails -/

/-- **A load for a key that ends with a failure leaves no trace.** -/
structure LeavesNoTrace (events : List (TrafficEvent α)) (load : Nat) (key : RuleKey)
    (result : LoadResult α) : Prop where
  /-- If the gateway goes on working, a caller that waited for the load and is not cancelled is
  told the failure. -/
  received {caller : Nat} {schedule : Nat → TrafficEvent α}
    (waited : (run events).gateway.callers[caller]? = some ⟨load, .waiting⟩)
    (fair : Fair schedule) (uncancelled : ∀ n, schedule n ≠ .cancel caller) :
    ∃ n, (run (events ++ .finish load result :: firstOf schedule n)).gateway.obtained caller =
      some result
  faithful {caller : Nat} {later : List (TrafficEvent α)} {obtained : LoadResult α}
    (waited : (run events).gateway.callers[caller]? = some ⟨load, .waiting⟩)
    (uncancelled : .cancel caller ∉ later)
    (gone : (run (events ++ .finish load result :: later)).gateway.obtained caller =
      some obtained) : obtained = result
  /-- When a caller that waited goes on, cancelled or not, the cache does not hold the load. -/
  dropped {caller : Nat} {later : List (TrafficEvent α)} {obtained : LoadResult α}
    (waited : (run events).gateway.callers[caller]? = some ⟨load, .waiting⟩)
    (gone : (run (events ++ .finish load result :: later)).gateway.obtained caller =
      some obtained) : (run (events ++ .finish load result :: later)).gateway.Forgets load
  /-- From then on whoever asks for the key shares another load of it. The engine is asked for
  that one after the failure, and how that one ends is what the caller obtains, unless it is
  cancelled. -/
  replaced {later : List (TrafficEvent α)} {place : Nat} {errand : Errand}
    (forgotten : (run (events ++ .finish load result :: later)).gateway.Forgets load)
    (asks : (run (events ++ .finish load result :: later)).ahead[place]? = some errand)
    (same : errand.key = key) (more : List (TrafficEvent α)) :
    let caller := (run (events ++ .finish load result :: later)).gateway.callers.length
    let now := run (events ++ .finish load result :: later ++ .begin place :: more)
    ∃ other state, now.gateway.callers[caller]? = some ⟨other, state⟩ ∧
      now.serves key other = true ∧ other ≠ load ∧
      other ∉ (run (events ++ [.finish load result])).asked ∧
      (other ∈ now.asked ∨ .start other ∈ now.gateway.tasks) ∧
      ∀ obtained, now.gateway.obtained caller = some obtained →
        obtained = .cancelled ∨ now.gateway.resultOf other = some obtained

section Failure

variable {events : List (TrafficEvent α)} {load : Nat} {l : Load α} {result : LoadResult α}

/-- The gateway when the load has just failed. -/
theorem gateway_finish (events : List (TrafficEvent α)) (load : Nat) (result : LoadResult α) :
    (run (events ++ [.finish load result])).gateway =
      (run events).gateway.step (.finish load result) := by
  rw [run_append, List.foldl_cons, List.foldl_nil, gateway_step]
  rfl

theorem run_finish_append (later : List (TrafficEvent α)) :
    run (events ++ .finish load result :: later) =
      later.foldl step (run (events ++ [.finish load result])) := by
  rw [← run_append, List.append_assoc]
  rfl

/-- The load has failed from then on. -/
theorem isFailed_finish (hrunning : (run events).gateway.isRunning load = true)
    (hfailure : result.handle? = none) :
    (run (events ++ [.finish load result])).gateway.isFailed load = true := by
  have hr := Gateway.resultOf_step_finish result hrunning
  rw [gateway_finish, Gateway.isFailed, hr]
  cases result with
  | loaded handle => cases hfailure
  | failed fault => rfl
  | cancelled => rfl

/-- A failed load stays failed. -/
theorem isFailed_of_extends {g g' : Gateway α} (h : g.Extends g')
    (hf : g.isFailed load = true) : g'.isFailed load = true := by
  obtain ⟨l, hl, result, hr, hnone⟩ := (g.isFailed_iff load).mp hf
  obtain ⟨l', hl', -, -, hkeep⟩ := h hl
  exact (g'.isFailed_iff load).mpr ⟨l', hl', result, hkeep result hr, hnone⟩

/-- Whatever comes after the failure, no caller that waited goes on before the load is dropped. -/
theorem dropsFirst_run (hrunning : (run events).gateway.isRunning load = true)
    (hfailure : result.handle? = none) {caller : Nat}
    (waited : (run events).gateway.callers[caller]? = some ⟨load, .waiting⟩)
    (later : List (TrafficEvent α)) :
    (run (events ++ .finish load result :: later)).gateway.DropsFirst load caller := by
  have hstart : (run (events ++ [.finish load result])).gateway.DropsFirst load caller := by
    rw [gateway_finish]
    exact (timely_run events).dropsFirst hrunning waited result
  have hfailed : (run (events ++ [.finish load result])).gateway.isFailed load = true :=
    isFailed_finish hrunning hfailure
  have hkeep : (later.foldl step (run (events ++ [.finish load result]))).gateway.DropsFirst load
      caller ∧ (later.foldl step (run (events ++ [.finish load result]))).gateway.isFailed load =
        true := by
    refine gateway_foldl_induction (p := fun g => g.DropsFirst load caller ∧ g.isFailed load = true)
      later ?_ ⟨hstart, hfailed⟩
    rintro g e - ⟨hdrops, hf⟩
    exact ⟨hdrops.step hf e, isFailed_of_extends (g.extends_step e) hf⟩
  rw [run_finish_append]
  exact hkeep.1

/-- A caller that waited shares the failed load. -/
theorem shares_finish {caller : Nat}
    (waited : (run events).gateway.callers[caller]? = some ⟨load, .waiting⟩) :
    (run (events ++ [.finish load result])).gateway.Shares caller load := by
  have hshares : (run events).gateway.Shares caller load := Or.inl waited
  rw [gateway_finish]
  exact hshares.step (by simp)

/-- Other loads of the key that there were when the load failed had left the cache. -/
theorem forgets_other (hl : (run events).gateway.loads[load]? = some l)
    (hrunning : (run events).gateway.isRunning load = true) {other : Nat} {m : Load α}
    (hm : (run (events ++ [.finish load result])).gateway.loads[other]? = some m)
    (hkey : m.key = l.key) (hne : other ≠ load) :
    (run (events ++ [.finish load result])).gateway.Forgets other := by
  have hagree := (sound_run (events ++ [.finish load result])).loads
  have hcached : (l.key, load) ∈ (run (events ++ [.finish load result])).gateway.cache := by
    obtain ⟨l', hl', -, hnone⟩ := ((run events).gateway.isRunning_iff load).mp hrunning
    rw [hl] at hl'
    cases hl'
    have hmem := (sound_run events).loads.cached hl (l.not_hasFailed_iff.mpr (Or.inl hnone))
    rw [gateway_finish, Gateway.step_finish, if_pos hrunning]
    exact hmem
  intro key hmem
  obtain ⟨m', hm', rfl⟩ := hagree.cached_key hmem
  rw [hm] at hm'
  cases hm'
  rw [hkey] at hmem
  exact hne (hagree.load_unique hmem hcached)

/-- **Whoever asks for the key later is served by a load that the engine is asked for later.** -/
theorem served_anew (hl : (run events).gateway.loads[load]? = some l)
    (hrunning : (run events).gateway.isRunning load = true) {later : List (TrafficEvent α)}
    {other : Nat}
    (hserves : (run (events ++ .finish load result :: later)).gateway.cache.lookup l.key =
      some other)
    (hne : other ≠ load) : other ∉ (run (events ++ [.finish load result])).asked := by
  intro hasked
  have hmem := Gateway.mem_cache_of_lookup hserves
  obtain ⟨m, hm, -⟩ := ((agrees_run _).asked_iff other).mp hasked
  obtain ⟨m', hm', hkey⟩ := (sound_run _).loads.cached_key hmem
  rw [run_finish_append] at hm' hmem
  obtain ⟨m'', hm'', hkept, -⟩ := extends_foldl (run (events ++ [.finish load result])) later hm
  rw [hm'] at hm''
  cases hm''
  -- a load of the key that was there before would have been forgotten for good
  have hforgets := forgets_other hl hrunning hm (hkept.symm.trans hkey) hne
  have hstill := gateway_foldl_induction
    (p := fun g => g.Forgets other ∧ ∃ m, g.loads[other]? = some m) later
    (fun g e _ h => by
      obtain ⟨hf, m, hm⟩ := h
      obtain ⟨m', hm', -⟩ := g.extends_step e hm
      exact ⟨hf.step hm e, m', hm'⟩)
    (t := run (events ++ [.finish load result])) ⟨hforgets, m, hm⟩
  exact hstill.1 _ hmem

theorem run_begin (events : List (TrafficEvent α)) (place : Nat) (more : List (TrafficEvent α)) :
    run (events ++ .begin place :: more) =
      more.foldl step (run (events ++ [.begin place])) := by
  rw [← run_append, List.append_assoc]
  rfl

/-- Whoever asks comes as the last caller, with the load that serves the key from then on. -/
theorem shares_begin {events : List (TrafficEvent α)} {place : Nat} {errand : Errand}
    (asks : (run events).ahead[place]? = some errand) :
    ∃ other state, (run (events ++ [.begin place])).gateway.callers[
        (run events).gateway.callers.length]? = some ⟨other, state⟩ ∧
      (run (events ++ [.begin place])).gateway.cache.lookup errand.key = some other ∧
      ∃ e, (run (events ++ [.begin place])).gateway = (run events).gateway.step e := by
  have hstep : (run (events ++ [.begin place])).gateway =
      ((run events).gateway.request errand.key).1 := by
    rw [run_append, List.foldl_cons, List.foldl_nil, gateway_step, gatewayEvent?, asks]
    rfl
  obtain ⟨other, hlookup, hshares⟩ := (run events).gateway.shares_request errand.key
  rw [hstep]
  rcases hshares with h | ⟨result, -, h | h⟩
  · exact ⟨other, _, h, hlookup, .request errand.key, rfl⟩
  · exact ⟨other, _, h, hlookup, .request errand.key, rfl⟩
  · exact ⟨other, _, h, hlookup, .request errand.key, rfl⟩

/-- A caller stays with its load. -/
theorem caller_foldl {t : Traffic α} {caller other : Nat}
    (h : ∃ state, t.gateway.callers[caller]? = some ⟨other, state⟩)
    (more : List (TrafficEvent α)) :
    ∃ state, (more.foldl step t).gateway.callers[caller]? = some ⟨other, state⟩ := by
  refine gateway_foldl_induction
    (p := fun g => ∃ state, g.callers[caller]? = some ⟨other, state⟩) more ?_ h
  rintro g e - ⟨state, hc⟩
  obtain ⟨state', hc', -⟩ := g.caller_step e hc
  exact ⟨state', hc'⟩

/-- The engine was asked for a load, or will be. -/
theorem mem_asked_or_start (events : List (TrafficEvent α)) {other : Nat} {m : Load α}
    (hm : (run events).gateway.loads[other]? = some m) :
    other ∈ (run events).asked ∨ .start other ∈ (run events).gateway.tasks := by
  cases hs : m.started with
  | true => exact Or.inl (((agrees_run events).asked_iff other).mpr ⟨m, hm, hs⟩)
  | false => exact Or.inr ((sound_run events).attended.unstarted hm hs)

/-- **A load that fails leaves no trace.** -/
theorem leavesNoTrace (hl : (run events).gateway.loads[load]? = some l)
    (hrunning : (run events).gateway.isRunning load = true) (hfailure : result.handle? = none) :
    LeavesNoTrace events load l.key result where
  received {caller schedule} waited fair uncancelled := by
    have hcourse := fair.course (run (events ++ [.finish load result])) uncancelled
    have hended : (run (events ++ [.finish load result])).gateway.resultOf load = some result := by
      rw [gateway_finish]
      exact Gateway.resultOf_step_finish result hrunning
    obtain ⟨n, hn⟩ := hcourse.obtains (sound_run _) (shares_finish waited) hended
    exact ⟨n, by rw [run_finish_append]; exact hn⟩
  faithful {caller later obtained} waited uncancelled gone := by
    have hkeep := gateway_foldl_induction
      (p := fun g => g.Shares caller load ∧ g.resultOf load = some result) later
      (fun g e he h => ⟨h.1.step (he caller uncancelled), (g.extends_step e).resultOf h.2⟩)
      (t := run (events ++ [.finish load result])) ⟨shares_finish waited, by
        rw [gateway_finish]
        exact Gateway.resultOf_step_finish result hrunning⟩
    rw [← run_finish_append] at hkeep
    obtain ⟨hshares, hr⟩ := hkeep
    obtain ⟨other, hgone⟩ := (Gateway.obtained_eq_some_iff _ caller obtained).mp gone
    rcases hshares with h | ⟨result', hr', h | h⟩
    · rw [hgone] at h
      cases h
    · rw [hgone] at h
      cases h
    · rw [hgone] at h
      cases h
      rw [hr] at hr'
      cases hr'
      rfl
  dropped waited gone := (dropsFirst_run hrunning hfailure waited _).forgets gone
  replaced {later place errand} forgotten asks same more := by
    intro caller now
    obtain ⟨other, state, hc, hlookup, e, hstep⟩ := shares_begin asks
    rw [same] at hlookup
    have hthere : ∃ m, (run (events ++ .finish load result :: later)).gateway.loads[load]? =
        some m := by
      rw [run_append]
      obtain ⟨m, hm, -⟩ := extends_foldl (run events) (.finish load result :: later) hl
      exact ⟨m, hm⟩
    -- the load that serves the key is not the forgotten one
    have hne : other ≠ load := by
      rintro rfl
      obtain ⟨m, hm⟩ := hthere
      have hstill := forgotten.step hm e
      rw [← hstep] at hstill
      exact hstill l.key (Gateway.mem_cache_of_lookup hlookup)
    have hnew : other ∉ (run (events ++ [.finish load result])).asked := by
      have hserves : (run (events ++ .finish load result :: (later ++ [.begin place])
          )).gateway.cache.lookup l.key = some other := by
        rw [← List.cons_append, ← List.append_assoc]
        exact hlookup
      exact served_anew hl hrunning hserves hne
    obtain ⟨m, hm, hkey⟩ := (sound_run _).loads.cached_key (Gateway.mem_cache_of_lookup hlookup)
    have hnow : now = more.foldl step (run (events ++ .finish load result :: later ++
      [.begin place])) := run_begin _ _ _
    obtain ⟨m', hm', hkey', -⟩ := extends_foldl _ more hm
    obtain ⟨state', hc'⟩ := caller_foldl ⟨state, hc⟩ more
    rw [← hnow] at hm' hc'
    refine ⟨other, state', hc', ?_, hne, hnew, mem_asked_or_start _ hm', ?_⟩
    · simp [serves, hm', hkey', hkey]
    · intro obtained hobtained
      obtain ⟨other', hgone⟩ := (Gateway.obtained_eq_some_iff _ caller obtained).mp hobtained
      rw [hc'] at hgone
      cases hgone
      exact (sound_run _).callers.gone hc'

end Failure

/-- **A failed load leaves no trace:** those who waited for it and are not cancelled are told the
failure, after the cache has dropped it, and whoever asks for its key then is served by a later
load. The keys that count as loaded are those of loads that succeeded, a failed load in the cache
does not count, and an entry leaves the cache only when its own load has failed and is dropped. -/
theorem failed_loads_leave_no_trace (events : List (TrafficEvent α)) :
    (∀ load l result, (run events).gateway.loads[load]? = some l →
      (run events).gateway.isRunning load = true → result.handle? = none →
      LeavesNoTrace events load l.key result) ∧
    (∀ key, key ∈ (run events).gateway.loadedKeys ↔
      ∃ load ∈ (run events).loadsFor key, (run events).hasSucceeded load = true) ∧
    (∀ key load, (key, load) ∈ (run events).gateway.cache →
      (run events).gateway.isFailed load = true → key ∉ (run events).gateway.loadedKeys) ∧
    (∀ e entry, entry ∈ (run events).gateway.cache →
      entry ∉ (run (events ++ [e])).gateway.cache →
      e = .advance ∧ (run events).gateway.tasks.head? = some (.evict entry.2) ∧
        (run events).gateway.isFailed entry.2 = true) := by
  refine ⟨fun load l result hl hrunning hfailure => leavesNoTrace hl hrunning hfailure,
    (agrees_run events).mem_loadedKeys_iff, fun key load hmem hfailed =>
      (agrees_run events).not_mem_loadedKeys hmem hfailed, ?_⟩
  intro e entry hmem hgone
  rw [run_append, List.foldl_cons, List.foldl_nil, gateway_step] at hgone
  cases he : (run events).gatewayEvent? e with
  | none =>
      rw [he] at hgone
      exact absurd hmem hgone
  | some e' =>
      rw [he] at hgone
      obtain ⟨rfl, hfirst, hfailed⟩ := Gateway.evicted_of_not_mem hmem hgone
      refine ⟨?_, hfirst, hfailed⟩
      cases e with
      | begin place =>
          obtain ⟨errand, -, herrand⟩ := Option.map_eq_some_iff.mp he
          cases herrand
      | advance => rfl
      | _ => cases he

/-- The load of the first caller is given up; the caller is told, and a second one that asks later
obtains the handle of a new load. -/
example : ((run [.call (.load ⟨.ssp, .rev4⟩), .begin 0, .advance, .finish 0 .cancelled, .advance,
      .advance, .advance, .call (.load ⟨.ssp, .rev4⟩), .begin 0, .advance, .finish 1 (.loaded 7),
      .advance, .advance, .advance] : Traffic Nat).gateway.callers.map (·.state)) =
    [.gone .cancelled, .gone (.loaded 7)] := by
  rfl

end Traffic

end OscalValidation
