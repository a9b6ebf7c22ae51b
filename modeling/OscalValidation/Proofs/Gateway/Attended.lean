import OscalValidation.Proofs.Gateway.Invariant

set_option autoImplicit false

/-! # Nothing is forgotten

`Attended` says that whatever the gateway owes is among its tasks: a load that was not started, a
failed load that is still in the cache, and a caller that is to go on. Every event keeps it
(`Attended.step`), so a gateway without tasks owes nothing to anyone.
-/

namespace OscalValidation

namespace Gateway

variable {α : Type}

/-- **What is to be done is among the tasks.** -/
structure Attended (g : Gateway α) : Prop where
  /-- A caller that waits for a load that has ended will be told. -/
  waiting {caller load : Nat} {result : LoadResult α}
    (h : g.callers[caller]? = some ⟨load, .waiting⟩) (hr : g.resultOf load = some result) :
    .tell caller ∈ g.tasks
  /-- A caller that is about to go on will do so. -/
  leaving {caller load : Nat} {state : CallerState α}
    (h : g.callers[caller]? = some ⟨load, state⟩) (hs : state.isLeaving) :
    .resume caller ∈ g.tasks
  /-- A load that was not started will be. -/
  unstarted {load : Nat} {l : Load α} (h : g.loads[load]? = some l) (hs : l.started = false) :
    .start load ∈ g.tasks
  /-- A failed load will leave the cache. -/
  failed {key : RuleKey} {load : Nat} (h : (key, load) ∈ g.cache)
    (hf : g.isFailed load = true) : .evict load ∈ g.tasks

theorem attended_empty : Attended ({} : Gateway α) where
  waiting h := by simp at h
  leaving h := by simp at h
  unstarted h := by simp at h
  failed h := by simp at h

/-! ## Readings after a change -/

theorem isFailed_congr {g g' : Gateway α} {load : Nat}
    (h : g'.resultOf load = g.resultOf load) : g'.isFailed load = g.isFailed load := by
  rw [isFailed, isFailed, h]

/-- A load that has come just now has not ended. -/
theorem resultOf_opened {g g' : Gateway α} {key : RuleKey}
    (h : g'.loads = g.loads ++ [⟨key, false, none⟩]) (load : Nat) :
    g'.resultOf load = g.resultOf load := by
  rw [resultOf, resultOf, h]
  rcases Nat.lt_trichotomy load g.loads.length with hlt | heq | hgt
  · rw [List.getElem?_append_left hlt]
  · subst heq
    simp
  · rw [List.getElem?_eq_none (by simp; omega), List.getElem?_eq_none (by omega)]

/-- Starting a load leaves all results as they are. -/
theorem resultOf_started {g g' : Gateway α} {other : Nat}
    (h : g'.loads = g.loads.modify other fun l => { l with started := true }) (load : Nat) :
    g'.resultOf load = g.resultOf load := by
  rw [resultOf, resultOf, h, List.getElem?_modify]
  cases g.loads[load]? with
  | none => rfl
  | some l =>
      by_cases heq : other = load <;> simp [heq]

/-- The end of a load leaves the results of all others as they are. -/
theorem resultOf_finished {g g' : Gateway α} {other load : Nat} {result : LoadResult α}
    (h : g'.loads = g.loads.modify other fun l => { l with result := some result })
    (hne : other ≠ load) : g'.resultOf load = g.resultOf load := by
  rw [resultOf, resultOf, h, List.getElem?_modify_ne _ _ hne]

/-! ## Requests, cancellations and ends of loads -/

/-- A new load will be started, and its first caller waits for it. -/
theorem Attended.opened {g : Gateway α} (hg : g.Attended) (key : RuleKey) :
    ({ g with loads := g.loads ++ [⟨key, false, none⟩],
              cache := g.cache ++ [(key, g.loads.length)],
              callers := g.callers ++ [⟨g.loads.length, .waiting⟩],
              tasks := g.tasks ++ [.start g.loads.length] } : Gateway α).Attended := by
  have hresult := @resultOf_opened α g
    { g with loads := g.loads ++ [⟨key, false, none⟩],
             cache := g.cache ++ [(key, g.loads.length)],
             callers := g.callers ++ [⟨g.loads.length, .waiting⟩],
             tasks := g.tasks ++ [.start g.loads.length] } key rfl
  have hnew : g.resultOf g.loads.length = none := by simp [resultOf]
  refine ⟨fun hcaller hended => ?_, fun hcaller hs => ?_, fun hload hs => ?_,
    fun hentry hf => ?_⟩
  · rw [hresult] at hended
    rcases getElem?_append_one hcaller with hcaller | ⟨-, heq⟩
    · exact List.mem_append_left _ (hg.waiting hcaller hended)
    · cases heq
      rw [hnew] at hended
      cases hended
  · rcases getElem?_append_one hcaller with hcaller | ⟨-, heq⟩
    · exact List.mem_append_left _ (hg.leaving hcaller hs)
    · cases heq
      cases hs
  · rcases getElem?_append_one hload with hload | ⟨rfl, -⟩
    · exact List.mem_append_left _ (hg.unstarted hload hs)
    · simp
  · rw [isFailed_congr (hresult _)] at hf
    rcases List.mem_append.mp hentry with hentry | hentry
    · exact List.mem_append_left _ (hg.failed hentry hf)
    · rw [List.mem_singleton] at hentry
      cases hentry
      rw [isFailed, hnew] at hf
      cases hf

/-- A caller that comes to a load of the cache waits only if the load has not ended. -/
theorem Attended.joined {g : Gateway α} (hg : g.Attended) {load : Nat} {state : CallerState α}
    (hwaits : state = .waiting → g.resultOf load = none) (hstays : ¬ state.isLeaving)
    (departures : List Nat) :
    ({ g with callers := g.callers ++ [⟨load, state⟩], departures := departures } :
      Gateway α).Attended := by
  refine ⟨fun hcaller hended => ?_, fun hcaller hs => ?_, hg.unstarted, hg.failed⟩
  · rcases getElem?_append_one hcaller with hcaller | ⟨-, heq⟩
    · exact hg.waiting hcaller hended
    · cases heq
      have hrunning : g.resultOf load = none := hwaits rfl
      have hended : g.resultOf load = some _ := hended
      rw [hrunning] at hended
      cases hended
  · rcases getElem?_append_one hcaller with hcaller | ⟨-, heq⟩
    · exact hg.leaving hcaller hs
    · cases heq
      exact absurd hs hstays

theorem Attended.request {g : Gateway α} (hg : g.Attended) (key : RuleKey) :
    (g.request key).1.Attended := by
  rcases g.request_cases key with ⟨-, h⟩ | ⟨load, -, hrunning, h⟩ | ⟨load, result, -, -, h⟩
  · rw [h]
    exact hg.opened key
  · rw [h]
    exact hg.joined (fun _ => hrunning) id g.departures
  · rw [h]
    exact hg.joined (fun hwaits => by cases hwaits) id (g.departures ++ [g.callers.length])

theorem Attended.cancel {g : Gateway α} (hg : g.Attended) (caller : Nat) :
    (g.cancel caller).1.Attended := by
  rcases g.cancel_cases caller with h | ⟨load, state, resumes, hc, hs, h⟩
  · rw [h]
    exact hg
  · rw [h]
    -- a caller that was told is going to go on anyway
    have hresume : .resume caller ∈ g.tasks ++ List.map GatewayTask.resume resumes := by
      rcases hs with ⟨-, rfl⟩ | ⟨⟨result, rfl⟩, -⟩
      · simp
      · exact List.mem_append_left _ (hg.leaving hc trivial)
    refine ⟨fun hcaller hended => ?_, fun hcaller hs => ?_, fun hload hs => ?_,
      fun hentry hf => ?_⟩
    · rcases getElem?_modify_state hcaller with ⟨-, hcaller⟩ | ⟨-, heq, -⟩
      · exact List.mem_append_left _ (hg.waiting hcaller hended)
      · cases heq
    · rcases getElem?_modify_state hcaller with ⟨-, hcaller⟩ | ⟨rfl, -, -⟩
      · exact List.mem_append_left _ (hg.leaving hcaller hs)
      · exact hresume
    · exact List.mem_append_left _ (hg.unstarted hload hs)
    · exact List.mem_append_left _ (hg.failed hentry hf)

theorem mem_waiters_iff {g : Gateway α} {load caller : Nat} :
    caller ∈ g.waiters load ↔ g.callers[caller]? = some ⟨load, .waiting⟩ := by
  have hwaits : ∀ c : Caller α, c.waitsFor load = true ↔ c = ⟨load, .waiting⟩ := by
    rintro ⟨other, state⟩
    cases state <;> simp [Caller.waitsFor]
  simp only [waiters, List.mem_map, List.mem_filter, List.mem_zipIdx_iff_getElem?, hwaits]
  constructor
  · rintro ⟨⟨c, i⟩, ⟨hc, rfl⟩, rfl⟩
    exact hc
  · intro hc
    exact ⟨(_, caller), ⟨hc, rfl⟩, rfl⟩

theorem Attended.finish {g : Gateway α} (hg : g.Attended) (load : Nat)
    (result : LoadResult α) : (g.finish load result).Attended := by
  have hresult : ∀ other, load ≠ other →
      (g.finish load result).resultOf other = g.resultOf other :=
    fun _ => resultOf_finished rfl
  refine ⟨fun {caller other _} hcaller hended => ?_, fun hcaller hs => ?_,
    fun {other l'} hload hs => ?_, fun {key other} hentry hf => ?_⟩
  · by_cases heq : load = other
    · subst heq
      have hmem : caller ∈ g.waiters load := mem_waiters_iff.mpr hcaller
      exact List.mem_append_right _ (List.mem_cons_of_mem _ (List.mem_map_of_mem hmem))
    · rw [hresult other heq] at hended
      exact List.mem_append_left _ (hg.waiting hcaller hended)
  · exact List.mem_append_left _ (hg.leaving hcaller hs)
  · obtain ⟨l, hl, rfl⟩ := getElem?_of_modify hload
    refine List.mem_append_left _ (hg.unstarted hl ?_)
    split at hs <;> exact hs
  · by_cases heq : load = other
    · subst heq
      exact List.mem_append_right _ (List.mem_cons_self ..)
    · rw [isFailed_congr (hresult other heq)] at hf
      exact List.mem_append_left _ (hg.failed hentry hf)

/-! ## Tasks -/

section Tasks

variable {g : Gateway α} {rest : List GatewayTask}

/-- A task that is not done stays. -/
theorem mem_rest {task other : GatewayTask} (ht : g.tasks = task :: rest) (h : other ∈ g.tasks)
    (hne : other ≠ task) : other ∈ rest := by
  rw [ht, List.mem_cons] at h
  exact h.resolve_left hne

theorem Attended.start (hg : g.Attended) {load : Nat} (ht : g.tasks = .start load :: rest) :
    ({ g with tasks := rest }.start load).Attended := by
  have hresult : ∀ other,
      ({ g with tasks := rest }.start load).resultOf other = g.resultOf other :=
    resultOf_started rfl
  refine ⟨fun hcaller hended => ?_, fun hcaller hs => ?_, fun {other l'} hload hs => ?_,
    fun hentry hf => ?_⟩
  · rw [hresult] at hended
    exact mem_rest ht (hg.waiting hcaller hended) (by simp)
  · exact mem_rest ht (hg.leaving hcaller hs) (by simp)
  · obtain ⟨l, hl, rfl⟩ := getElem?_of_modify hload
    by_cases heq : load = other
    · rw [if_pos heq] at hs
      cases hs
    · rw [if_neg heq] at hs
      refine mem_rest ht (hg.unstarted hl hs) ?_
      rintro ⟨⟩
      exact heq rfl
  · rw [isFailed_congr (hresult _)] at hf
    exact mem_rest ht (hg.failed hentry hf) (by simp)

theorem Attended.evict (hg : g.Attended) {load : Nat} (ht : g.tasks = .evict load :: rest) :
    ({ g with tasks := rest }.evict load).Attended := by
  have hfailed : { g with tasks := rest }.isFailed load = g.isFailed load := rfl
  unfold Gateway.evict
  split
  · refine ⟨fun hcaller hended => ?_, fun hcaller hs => ?_, fun hload hs => ?_,
      fun {key other} hentry hf => ?_⟩
    · exact mem_rest ht (hg.waiting hcaller hended) (by simp)
    · exact mem_rest ht (hg.leaving hcaller hs) (by simp)
    · exact mem_rest ht (hg.unstarted hload hs) (by simp)
    · obtain ⟨hentry, hne⟩ := List.mem_filter.mp hentry
      refine mem_rest ht (hg.failed hentry hf) ?_
      rintro ⟨⟩
      simp at hne
  · next hnot =>
    rw [hfailed] at hnot
    refine ⟨fun hcaller hended => ?_, fun hcaller hs => ?_, fun hload hs => ?_,
      fun {key other} hentry hf => ?_⟩
    · exact mem_rest ht (hg.waiting hcaller hended) (by simp)
    · exact mem_rest ht (hg.leaving hcaller hs) (by simp)
    · exact mem_rest ht (hg.unstarted hload hs) (by simp)
    · refine mem_rest ht (hg.failed hentry hf) ?_
      rintro ⟨⟩
      exact hnot hf

theorem Attended.tell (hg : g.Attended) {caller : Nat} (ht : g.tasks = .tell caller :: rest) :
    ({ g with tasks := rest }.tell caller).Attended := by
  rcases { g with tasks := rest }.tell_cases caller with ⟨h, hnone⟩ | ⟨load, result, hc, hr, h⟩
  · rw [h]
    refine ⟨fun {other load result} hcaller hended => ?_, fun hcaller hs => ?_,
      fun hload hs => ?_, fun hentry hf => ?_⟩
    · refine mem_rest ht (hg.waiting hcaller hended) ?_
      rintro ⟨⟩
      exact hnone load result hcaller hended
    · exact mem_rest ht (hg.leaving hcaller hs) (by simp)
    · exact mem_rest ht (hg.unstarted hload hs) (by simp)
    · exact mem_rest ht (hg.failed hentry hf) (by simp)
  · rw [h]
    refine ⟨fun {other load result} hcaller hended => ?_, fun {other load state} hcaller hs => ?_,
      fun hload hs => ?_, fun hentry hf => ?_⟩
    · rcases getElem?_modify_state hcaller with ⟨hne, hcaller⟩ | ⟨-, heq, -⟩
      · refine List.mem_append_left _ (mem_rest ht (hg.waiting hcaller hended) ?_)
        rintro ⟨⟩
        exact hne rfl
      · cases heq
    · rcases getElem?_modify_state hcaller with ⟨-, hcaller⟩ | ⟨rfl, -, -⟩
      · exact List.mem_append_left _ (mem_rest ht (hg.leaving hcaller hs) (by simp))
      · simp
    · exact List.mem_append_left _ (mem_rest ht (hg.unstarted hload hs) (by simp))
    · exact List.mem_append_left _ (mem_rest ht (hg.failed hentry hf) (by simp))

theorem Attended.resume (hg : g.Attended) {caller : Nat}
    (ht : g.tasks = .resume caller :: rest) :
    ({ g with tasks := rest }.resume caller).Attended := by
  rcases { g with tasks := rest }.resume_cases caller with
    ⟨h, hnone⟩ | ⟨load, state, result, hc, -, h⟩
  · rw [h]
    refine ⟨fun hcaller hended => ?_, fun {other load state} hcaller hs => ?_,
      fun hload hs => ?_, fun hentry hf => ?_⟩
    · exact mem_rest ht (hg.waiting hcaller hended) (by simp)
    · refine mem_rest ht (hg.leaving hcaller hs) ?_
      rintro ⟨⟩
      exact hnone load state hcaller hs
    · exact mem_rest ht (hg.unstarted hload hs) (by simp)
    · exact mem_rest ht (hg.failed hentry hf) (by simp)
  · rw [h]
    refine ⟨fun hcaller hended => ?_, fun {other load state} hcaller hs => ?_,
      fun hload hs => ?_, fun hentry hf => ?_⟩
    · rcases getElem?_modify_state hcaller with ⟨-, hcaller⟩ | ⟨-, heq, -⟩
      · exact mem_rest ht (hg.waiting hcaller hended) (by simp)
      · cases heq
    · rcases getElem?_modify_state hcaller with ⟨hne, hcaller⟩ | ⟨-, rfl, -⟩
      · refine mem_rest ht (hg.leaving hcaller hs) ?_
        rintro ⟨⟩
        exact hne rfl
      · cases hs
    · exact mem_rest ht (hg.unstarted hload hs) (by simp)
    · exact mem_rest ht (hg.failed hentry hf) (by simp)

end Tasks

/-- **No event makes the gateway forget anything.** -/
theorem Attended.step {g : Gateway α} (hg : g.Attended) (e : Event α) : (g.step e).Attended := by
  cases e with
  | request key => exact hg.request key
  | cancel caller => exact hg.cancel caller
  | finish load result =>
      rw [step_finish]
      split
      · exact hg.finish load result
      · exact hg
  | advance =>
      cases ht : g.tasks with
      | nil =>
          rw [step_advance_nil ht]
          exact hg
      | cons task rest =>
          rw [step_advance_cons ht]
          cases task with
          | start load => exact hg.start ht
          | evict load => exact hg.evict ht
          | tell caller => exact hg.tell ht
          | resume caller => exact hg.resume ht

end Gateway

end OscalValidation
