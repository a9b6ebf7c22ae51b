import OscalValidation.Proofs.Gateway.FailedLoads

set_option autoImplicit false

/-! # Cancelled callers

Cancelling callers does nothing to the load that they share: it goes on, those who are not
cancelled obtain how it ends, and if it succeeds its handle serves all who come later, even if
nobody was left to wait for it. `Outlives` says so of one load. Main statement: every load that has
not ended outlives the cancellation of its callers (`loads_outlive_cancellations`).
-/

namespace OscalValidation

namespace Gateway

variable {α : Type} {g : Gateway α} {load : Nat}

/-! ## Loads that have not ended -/

/-- Nothing but its end gives a load a result. -/
theorem resultOf_step_of_ne {e : Event α} (he : ∀ result, e ≠ .finish load result) :
    (g.step e).resultOf load = g.resultOf load := by
  cases g.loadMove e with
  | kept loads => rw [resultOf, resultOf, loads]
  | opened _ _ loads => exact resultOf_opened loads load
  | started _ loads => exact resultOf_started loads load
  | finished other result _ loads _ _ _ event =>
      refine resultOf_finished loads ?_
      rintro rfl
      exact he result event
  | dropped _ _ loads => rw [resultOf, resultOf, loads]

/-- A load that runs goes on until its end. -/
theorem isRunning_step {e : Event α} (h : g.isRunning load = true)
    (he : ∀ result, e ≠ .finish load result) : (g.step e).isRunning load = true := by
  obtain ⟨l, hl, hs, hnone⟩ := (g.isRunning_iff load).mp h
  obtain ⟨l', hl', -, hs', -⟩ := g.extends_step e hl
  refine ((g.step e).isRunning_iff load).mpr ⟨l', hl', hs' hs, ?_⟩
  have hr := resultOf_step_of_ne (g := g) he
  rw [resultOf, resultOf, hl, hl'] at hr
  exact hr.trans hnone

/-- **A caller that is not cancelled waits until the end of its load.** -/
theorem waiting_step {e : Event α} {caller : Nat}
    (h : g.callers[caller]? = some ⟨load, .waiting⟩) (hr : g.resultOf load = none)
    (he : e ≠ .cancel caller) : (g.step e).callers[caller]? = some ⟨load, .waiting⟩ := by
  cases g.callerMove e with
  | kept _ callers => rw [callers, h]
  | joined _ _ _ _ callers => rw [callers, getElem?_append_one_of_some h]
  | served _ _ _ _ _ _ callers => rw [callers, getElem?_append_one_of_some h]
  | told other _ result _ before ended callers =>
      have hne : other ≠ caller := by
        rintro rfl
        rw [h] at before
        cases before
        rw [hr] at ended
        cases ended
      rw [callers, List.getElem?_modify_ne _ _ hne, h]
  | cancelled other _ _ event _ _ callers =>
      have hne : other ≠ caller := by
        rintro rfl
        exact he event
      rw [callers, List.getElem?_modify_ne _ _ hne, h]
  | departed other _ _ _ _ before obtains callers =>
      have hne : other ≠ caller := by
        rintro rfl
        rw [h] at before
        cases before
        rcases obtains with h | ⟨h, -⟩ <;> cases h
      rw [callers, List.getElem?_modify_ne _ _ hne, h]

/-! ## Loads that have not failed -/

/-- **The load for the key has not failed.** -/
def Stands (g : Gateway α) (key : RuleKey) (load : Nat) : Prop :=
  ∃ l, g.loads[load]? = some l ∧ l.key = key ∧ ¬ l.hasFailed

/-- A load that has not failed stays so unless it ends with a failure. -/
theorem Stands.step {key : RuleKey} (h : g.Stands key load) {e : Event α}
    (he : ∀ result, e = .finish load result → ∃ handle, result = .loaded handle) :
    (g.step e).Stands key load := by
  obtain ⟨l, hl, hkey, hf⟩ := h
  obtain ⟨l', hl', hkey', -, hkeep⟩ := g.extends_step e hl
  refine ⟨l', hl', hkey'.trans hkey, l'.not_hasFailed_iff.mpr ?_⟩
  rcases l.not_hasFailed_iff.mp hf with hnone | ⟨handle, hr⟩
  · by_cases hend : ∃ result, e = .finish load result
    · obtain ⟨result, rfl⟩ := hend
      obtain ⟨handle, rfl⟩ := he result rfl
      by_cases hrunning : g.isRunning load = true
      · have hr := resultOf_step_finish (.loaded handle) hrunning
        obtain ⟨l'', hl'', hr⟩ := ((g.step _).resultOf_eq_some_iff load _).mp hr
        rw [hl'] at hl''
        cases hl''
        exact Or.inr ⟨handle, hr⟩
      · rw [step_finish, if_neg hrunning, hl] at hl'
        cases hl'
        exact Or.inl hnone
    · have hr : (g.step e).resultOf load = g.resultOf load :=
        resultOf_step_of_ne fun result heq => hend ⟨result, heq⟩
      rw [resultOf, resultOf, hl, hl'] at hr
      exact Or.inl (hr.trans hnone)
  · exact Or.inr ⟨handle, hkeep _ hr⟩

/-- A load that has not failed serves its key. -/
theorem Stands.lookup {key : RuleKey} (h : g.Stands key load) (hg : g.LoadsAgree) :
    g.cache.lookup key = some load := by
  obtain ⟨l, hl, rfl, hf⟩ := h
  exact lookup_eq_of_mem hg (hg.cached hl hf)

/-- While a load of a key has not failed, no other load of the key is started. -/
theorem Stands.eq_of_startedBy {key : RuleKey} (h : g.Stands key load) (hg : g.LoadsAgree)
    {e : Event α} {other : Nat} (hother : other ∈ g.startedBy e)
    (hkey : ∃ l, (g.step e).loads[other]? = some l ∧ l.key = key) : other = load := by
  obtain ⟨l, hl, hlkey, hf⟩ := h
  obtain ⟨m', hm', hmkey⟩ := hkey
  cases g.loadMove e with
  | started first _ _ starts asked =>
      rw [asked, List.mem_singleton] at hother
      subst hother
      obtain ⟨m, hm, hs⟩ := hg.unstarted (starts ▸ List.mem_cons_self)
      obtain ⟨m'', hm'', hkept, -⟩ := g.extends_step e hm
      rw [hm'] at hm''
      cases hm''
      have hnone : ¬ m.hasFailed := m.not_hasFailed_iff.mpr (Or.inl (hg.unended hm hs))
      exact hg.eq_of_not_failed hm hl ((hkept.symm.trans hmkey).trans hlkey.symm) hnone hf
  | kept _ _ _ asked => rw [asked] at hother; cases hother
  | opened _ _ _ _ _ asked => rw [asked] at hother; cases hother
  | finished _ _ _ _ _ _ asked => rw [asked] at hother; cases hother
  | dropped _ _ _ _ _ asked => rw [asked] at hother; cases hother

end Gateway

namespace Traffic

variable {α : Type}

/-! ## The engine is asked for one load -/

/-- While a load of a key has not failed, the engine is asked for no other load of the key. -/
theorem loadsFor_step_of_stands {t : Traffic α} (ht : t.Agrees) {key : RuleKey} {load : Nat}
    (h : t.gateway.Stands key load) (e : TrafficEvent α) {other : Nat}
    (hother : other ∈ (t.step e).loadsFor key) : other ∈ t.loadsFor key ∨ other = load := by
  obtain ⟨hasked, l', hl', hkey'⟩ := ((t.step e).mem_loadsFor_iff key other).mp hother
  have hkept : other ∈ t.asked → other ∈ t.loadsFor key := by
    intro hmem
    obtain ⟨l, hl, -⟩ := (ht.asked_iff other).mp hmem
    obtain ⟨l'', hl'', hkey, -⟩ := extends_foldl t [e] hl
    cases hl'.symm.trans hl''
    exact (t.mem_loadsFor_iff key other).mpr ⟨hmem, l, hl, hkey.symm.trans hkey'⟩
  rcases t.step_cases e with ⟨e', hg, hnew⟩ | ⟨-, hsame⟩
  · rw [hnew, List.mem_append] at hasked
    refine hasked.imp hkept fun hstarted => ?_
    rw [hg] at hl'
    exact h.eq_of_startedBy ht.loads hstarted ⟨l', hl', hkey'⟩
  · rw [hsame] at hasked
    exact Or.inl (hkept hasked)

/-! ## While a load goes on -/

section Foldl

variable {t : Traffic α} {key : RuleKey} {load : Nat} {later : List (TrafficEvent α)}

theorem resultOf_foldl (unended : ∀ result, .finish load result ∉ later)
    (h : t.gateway.resultOf load = none) :
    (later.foldl step t).gateway.resultOf load = none := by
  refine gateway_foldl_of_comes (p := fun g => g.resultOf load = none) later
    (fun g e hcomes hg => ?_) h
  rw [Gateway.resultOf_step_of_ne, hg]
  rintro result rfl
  exact unended result hcomes.finish

theorem isRunning_foldl (unended : ∀ result, .finish load result ∉ later)
    (h : t.gateway.isRunning load = true) :
    (later.foldl step t).gateway.isRunning load = true := by
  refine gateway_foldl_of_comes (p := fun g => g.isRunning load = true) later
    (fun g e hcomes hg => Gateway.isRunning_step hg ?_) h
  rintro result rfl
  exact unended result hcomes.finish

/-- **A caller that is not cancelled goes on waiting while the load goes on.** -/
theorem waiting_foldl {caller : Nat} (unended : ∀ result, .finish load result ∉ later)
    (uncancelled : .cancel caller ∉ later) (hr : t.gateway.resultOf load = none)
    (h : t.gateway.callers[caller]? = some ⟨load, .waiting⟩) :
    (later.foldl step t).gateway.callers[caller]? = some ⟨load, .waiting⟩ := by
  refine (gateway_foldl_of_comes (p := fun g => g.callers[caller]? = some ⟨load, .waiting⟩ ∧
    g.resultOf load = none) later (fun g e hcomes hg => ?_) ⟨h, hr⟩).1
  constructor
  · refine Gateway.waiting_step hg.1 hg.2 ?_
    rintro rfl
    exact uncancelled hcomes.cancel
  · rw [Gateway.resultOf_step_of_ne, hg.2]
    rintro result rfl
    exact unended result hcomes.finish

theorem stands_foldl
    (spared : ∀ result, .finish load result ∈ later → ∃ handle, result = .loaded handle)
    (h : t.gateway.Stands key load) : (later.foldl step t).gateway.Stands key load := by
  refine gateway_foldl_of_comes (p := fun g => g.Stands key load) later
    (fun g e hcomes hg => hg.step ?_) h
  rintro result rfl
  exact spared result hcomes.finish

/-- Unless the load fails, the engine is asked for no other load of its key. -/
theorem loadsFor_foldl_of_stands (ht : t.Agrees)
    (spared : ∀ result, .finish load result ∈ later → ∃ handle, result = .loaded handle)
    (h : t.gateway.Stands key load) {other : Nat}
    (hother : other ∈ (later.foldl step t).loadsFor key) :
    other ∈ t.loadsFor key ∨ other = load := by
  induction later generalizing t with
  | nil => exact Or.inl hother
  | cons e rest ih =>
      have hnext : (t.step e).gateway.Stands key load := by
        have hspared : ∀ result, .finish load result ∈ [e] →
            ∃ handle, result = .loaded handle := by
          intro result hmem
          rw [List.mem_singleton] at hmem
          exact spared result (hmem ▸ List.mem_cons_self)
        exact stands_foldl hspared h
      rcases ih (ht.step e) (fun result hmem => spared result (List.mem_cons_of_mem _ hmem)) hnext
        hother with hmem | heq
      · exact loadsFor_step_of_stands ht h e hmem
      · exact Or.inr heq

/-- Cancellations leave the loads, the cache and the record of the engine as they are. -/
theorem foldl_cancel (callers : List Nat) :
    ((callers.map .cancel).foldl step t).gateway.loads = t.gateway.loads ∧
    ((callers.map .cancel).foldl step t).gateway.cache = t.gateway.cache ∧
    ((callers.map .cancel).foldl step t).asked = t.asked := by
  induction callers generalizing t with
  | nil => exact ⟨rfl, rfl, rfl⟩
  | cons caller rest ih =>
      obtain ⟨loads, cache, asked⟩ := @ih (t.step (.cancel caller))
      have hstep : (t.step (.cancel caller)).gateway = (t.gateway.cancel caller).1 := rfl
      have hasked : (t.step (.cancel caller)).asked = t.asked := List.append_nil _
      rw [List.map_cons, List.foldl_cons, loads, cache, asked, hstep, hasked]
      rcases t.gateway.cancel_cases caller with h | ⟨_, _, _, -, -, h⟩ <;> rw [h]
      · exact ⟨rfl, rfl, rfl⟩
      · exact ⟨rfl, rfl, rfl⟩

/-- Whoever asks for a key whose load has ended obtains how it ended, at once and for good. -/
theorem obtained_begin {place : Nat} {errand : Errand} {result : LoadResult α}
    (asks : t.ahead[place]? = some errand)
    (hlookup : t.gateway.cache.lookup errand.key = some load)
    (hr : t.gateway.resultOf load = some result) (more : List (TrafficEvent α)) :
    (more.foldl step (t.step (.begin place))).gateway.obtained t.gateway.callers.length =
      some result := by
  refine gateway_foldl_of_comes
    (p := fun g => g.obtained t.gateway.callers.length = some result) more
    (fun g e _ h => g.obtained_step e h) ?_
  have hstep : (t.step (.begin place)).gateway = (t.gateway.request errand.key).1 := by
    rw [gateway_step, gatewayEvent?, asks]
    rfl
  rw [hstep, Gateway.obtained_eq_some_iff]
  refine ⟨load, ?_⟩
  rcases t.gateway.request_cases errand.key with
    ⟨hnone, -⟩ | ⟨other, hother, hnone, -⟩ | ⟨other, result', hother, hr', h⟩
  · rw [hlookup] at hnone
    cases hnone
  · cases hlookup.symm.trans hother
    rw [hr] at hnone
    cases hnone
  · cases hlookup.symm.trans hother
    cases hr.symm.trans hr'
    rw [h]
    simp

end Foldl

/-! ## A load and its callers -/

/-- **A load for a key outlives the cancellation of its callers.** -/
structure Outlives (events : List (TrafficEvent α)) (load : Nat) (key : RuleKey) : Prop where
  /-- Whoever is cancelled, the load, what the cache holds and what the engine was asked for are as
  they were. -/
  spared (callers : List Nat) :
    let now := run (events ++ callers.map .cancel)
    now.gateway.loads = (run events).gateway.loads ∧
      now.gateway.cache = (run events).gateway.cache ∧ now.asked = (run events).asked
  /-- Until the load ends it goes on, it serves its key, and the engine is asked for no other load
  of the key. -/
  goesOn {later : List (TrafficEvent α)} (unended : ∀ result, .finish load result ∉ later) :
    let now := run (events ++ later)
    now.isOpen load = true ∧
      ((run events).gateway.isRunning load = true → now.gateway.isRunning load = true) ∧
      (load ∈ now.asked ∨ .start load ∈ now.gateway.tasks) ∧
      now.gateway.cache.lookup key = some load ∧
      ∀ other ∈ now.loadsFor key, other ∈ (run events).loadsFor key ∨ other = load
  /-- If the gateway goes on working, a caller that waits for the load and is not cancelled, before
  or after the load ends, obtains how it ends. -/
  received {caller : Nat} {later : List (TrafficEvent α)} {result : LoadResult α}
    {schedule : Nat → TrafficEvent α}
    (waited : (run events).gateway.callers[caller]? = some ⟨load, .waiting⟩)
    (unended : ∀ result, .finish load result ∉ later) (uncancelled : .cancel caller ∉ later)
    (running : (run (events ++ later)).gateway.isRunning load = true) (fair : Fair schedule)
    (spared : ∀ n, schedule n ≠ .cancel caller) :
    ∃ n, (run (events ++ later ++ .finish load result :: firstOf schedule n)).gateway.obtained
      caller = some result
  faithful {caller : Nat} {later : List (TrafficEvent α)} {obtained : LoadResult α}
    (waited : (run events).gateway.callers[caller]? = some ⟨load, .waiting⟩)
    (uncancelled : .cancel caller ∉ later)
    (gone : (run (events ++ later)).gateway.obtained caller = some obtained) :
    (run (events ++ later)).gateway.resultOf load = some obtained
  /-- If the load succeeds its handle stays in the cache, and the engine is asked for no load of the
  key any more. -/
  kept {later : List (TrafficEvent α)} {handle : α}
    (unended : ∀ result, .finish load result ∉ later)
    (running : (run (events ++ later)).gateway.isRunning load = true)
    (after : List (TrafficEvent α)) :
    let now := run (events ++ later ++ .finish load (.loaded handle) :: after)
    now.gateway.cache.lookup key = some load ∧
      now.gateway.resultOf load = some (.loaded handle) ∧
      now.loadsFor key = (run (events ++ later)).loadsFor key
  /-- Whoever asks for the key then obtains the handle at once. -/
  served {later after : List (TrafficEvent α)} {handle : α} {place : Nat} {errand : Errand}
    (unended : ∀ result, .finish load result ∉ later)
    (running : (run (events ++ later)).gateway.isRunning load = true)
    (asks : (run (events ++ later ++ .finish load (.loaded handle) :: after)).ahead[place]? =
      some errand) (same : errand.key = key) (more : List (TrafficEvent α)) :
    (run (events ++ later ++ .finish load (.loaded handle) :: after ++
        .begin place :: more)).gateway.obtained
      (run (events ++ later ++ .finish load (.loaded handle) :: after)).gateway.callers.length =
        some (.loaded handle)

section Inflight

variable {events : List (TrafficEvent α)} {load : Nat} {l : Load α}

/-- **A load that succeeds serves its key for good,** and the engine is asked for no other. -/
theorem kept_of_loaded (handle : α) (hl : (run events).gateway.loads[load]? = some l)
    (hrunning : (run events).gateway.isRunning load = true) (after : List (TrafficEvent α)) :
    let now := run (events ++ .finish load (.loaded handle) :: after)
    now.gateway.cache.lookup l.key = some load ∧
      now.gateway.resultOf load = some (.loaded handle) ∧
      now.loadsFor l.key = (run events).loadsFor l.key := by
  intro now
  have hnow : now = after.foldl step (run (events ++ [.finish load (.loaded handle)])) :=
    run_finish_append after
  have hended : (run (events ++ [.finish load (.loaded handle)])).gateway.resultOf load =
      some (.loaded handle) := by
    rw [gateway_finish]
    exact Gateway.resultOf_step_finish _ hrunning
  -- the end of a load is no start of another
  have hsame : (run (events ++ [.finish load (.loaded handle)])).loadsFor l.key =
      (run events).loadsFor l.key := by
    rw [run_append, List.foldl_cons, List.foldl_nil]
    have hasked : ((run events).step (.finish load (.loaded handle))).asked =
        (run events).asked := List.append_nil _
    rw [loadsFor, hasked, loadsFor]
    exact List.filter_congr fun other hother =>
      serves_step (agrees_run events) (.finish load (.loaded handle)) hother l.key
  have hasked : load ∈ (run events).loadsFor l.key := by
    obtain ⟨l', hl', hs, -⟩ := ((run events).gateway.isRunning_iff load).mp hrunning
    exact ((run events).mem_loadsFor_iff l.key load).mpr
      ⟨((agrees_run events).asked_iff load).mpr ⟨l', hl', hs⟩, l, hl, rfl⟩
  have hholds : (run (events ++ [.finish load (.loaded handle)])).Holds l.key handle :=
    ⟨load, hsame ▸ hasked, hended⟩
  have hstill : now.gateway.resultOf load = some (.loaded handle) := by
    rw [hnow]
    exact (extends_foldl _ after).resultOf hended
  refine ⟨?_, hstill, ?_⟩
  · obtain ⟨l', hl', hkey, -⟩ :=
      extends_foldl (run events) (.finish load (.loaded handle) :: after) hl
    rw [← run_append] at hl'
    have hstands : now.gateway.Stands l.key load :=
      ⟨l', hl', hkey, fun hf => not_hasFailed_of_loaded hstill ⟨l', hl', hf⟩⟩
    exact hstands.lookup (sound_run _).loads
  · rw [hnow, loadsFor_foldl (agrees_run _) hholds after, hsame]

/-- **Every load that has not ended outlives the cancellation of its callers.** -/
theorem loads_outlive_cancellations (hl : (run events).gateway.loads[load]? = some l)
    (inflight : l.result = none) : Outlives events load l.key where
  spared callers := by
    rw [run_append]
    exact foldl_cancel callers
  goesOn {later} unended := by
    intro now
    have hnow : now = later.foldl step (run events) := run_append events later
    -- a load that has not failed stands, and what stands keeps its place in the cache
    have hopen : (run events).gateway.resultOf load = none := by
      rw [Gateway.resultOf, hl]
      exact inflight
    have hstands : (run events).gateway.Stands l.key load :=
      ⟨l, hl, rfl, l.not_hasFailed_iff.mpr (Or.inl inflight)⟩
    have hspared : ∀ result, .finish load result ∈ later → ∃ handle, result = .loaded handle :=
      fun result hmem => absurd hmem (unended result)
    obtain ⟨l', hl', -⟩ := extends_foldl (run events) later hl
    rw [← hnow] at hl'
    refine ⟨?_, ?_, mem_asked_or_start _ hl', ?_, ?_⟩
    · rw [isOpen, hnow, resultOf_foldl unended hopen]
      rfl
    · rw [hnow]
      exact isRunning_foldl unended
    · have hstill := stands_foldl hspared hstands
      rw [← hnow] at hstill
      exact hstill.lookup (sound_run _).loads
    · rw [hnow]
      exact fun other => loadsFor_foldl_of_stands (agrees_run events) hspared hstands
  received {caller later result schedule} waited unended uncancelled running fair spared := by
    have hopen : (run events).gateway.resultOf load = none := by
      rw [Gateway.resultOf, hl]
      exact inflight
    have hwaiting : (run (events ++ later)).gateway.callers[caller]? = some ⟨load, .waiting⟩ := by
      rw [run_append]
      exact waiting_foldl unended uncancelled hopen waited
    have hended : (run (events ++ later ++ [.finish load result])).gateway.resultOf load =
        some result := by
      rw [gateway_finish]
      exact Gateway.resultOf_step_finish result running
    have hcourse := fair.course (run (events ++ later ++ [.finish load result])) spared
    obtain ⟨n, hn⟩ := hcourse.obtains (sound_run _) (shares_finish hwaiting) hended
    exact ⟨n, by rw [run_finish_append]; exact hn⟩
  faithful {caller later obtained} waited uncancelled gone := by
    have hshares : (later.foldl step (run events)).gateway.Shares caller load :=
      gateway_foldl_induction (p := fun g => g.Shares caller load) later
        (fun g e he h => h.step (he caller uncancelled)) (Or.inl waited)
    rw [← run_append] at hshares
    exact hshares.resultOf gone
  kept {later handle} unended running after := by
    obtain ⟨l', hl', hkey, -⟩ := extends_foldl (run events) later hl
    rw [← run_append] at hl'
    rw [← hkey]
    exact kept_of_loaded handle hl' running after
  served {later after handle place errand} unended running asks same more := by
    obtain ⟨l', hl', hkey, -⟩ := extends_foldl (run events) later hl
    rw [← run_append] at hl'
    obtain ⟨hlookup, hended, -⟩ := kept_of_loaded handle hl' running after
    rw [hkey, ← same] at hlookup
    rw [run_append _ (.begin place :: more)]
    exact obtained_begin asks hlookup hended more

end Inflight

/-- Two callers wait for the load of a key, which runs. -/
def twoWaiting : List (TrafficEvent Nat) :=
  [.call (.load ⟨.ssp, .rev5⟩), .call (.load ⟨.ssp, .rev5⟩), .begin 0, .begin 0, .advance]

/-- Both are cancelled, the load ends, both go on, and a third one has a call. -/
def bothCancelled : List (TrafficEvent Nat) :=
  twoWaiting ++ [.cancel 0, .cancel 1] ++
    .finish 0 (.loaded 7) :: [.advance, .advance, .advance, .call (.load ⟨.ssp, .rev5⟩)]

/-- A load all of whose callers are cancelled runs on, and its handle serves whoever comes later
without another load. -/
theorem loads_outlive_bothCancelled :
    (run twoWaiting).gateway.loads[0]? = some ⟨⟨.ssp, .rev5⟩, true, none⟩ ∧
    (run bothCancelled).gateway.callers.map (·.state) = [.gone .cancelled, .gone .cancelled] ∧
    (run (bothCancelled ++ [.begin 0])).gateway.obtained 2 = some (.loaded 7) ∧
    (run bothCancelled).loadsFor ⟨.ssp, .rev5⟩ = [0] := by
  have hl : (run twoWaiting).gateway.loads[0]? = some ⟨⟨.ssp, .rev5⟩, true, none⟩ := rfl
  have houtlives : Outlives twoWaiting 0 ⟨.ssp, .rev5⟩ := loads_outlive_cancellations hl rfl
  have hunended : ∀ result : LoadResult Nat,
      TrafficEvent.finish 0 result ∉ [.cancel 0, .cancel 1] := by simp
  have hrunning : (run (twoWaiting ++ [.cancel 0, .cancel 1])).gateway.isRunning 0 = true :=
    (houtlives.goesOn hunended).2.1 rfl
  obtain ⟨-, -, hloads⟩ := houtlives.kept hunended hrunning
    [.advance, .advance, .advance, .call (.load ⟨.ssp, .rev5⟩)]
  exact ⟨hl, rfl, houtlives.served hunended hrunning rfl rfl [], hloads.trans rfl⟩

end Traffic

end OscalValidation
