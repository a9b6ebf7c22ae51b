import OscalValidation.Proofs.Gateway.Traffic

set_option autoImplicit false

/-! # Loads are shared

Whatever calls are made, cancelled and served in whatever order, the engine never has two
unfinished loads of a key, no key is loaded with success twice, and the handle that a caller or
an evaluation gets is that of the one load of its key (`loads_shared`).
-/

namespace OscalValidation

namespace Traffic

variable {α : Type}

/-! ## Loads of one key -/

/-- A list without repetition all of whose entries are equal has at most one. -/
theorem length_le_one_of_nodup {β : Type} {xs : List β} (hn : xs.Nodup)
    (heq : ∀ x ∈ xs, ∀ y ∈ xs, x = y) : xs.length ≤ 1 := by
  match xs, hn, heq with
  | [], _, _ => exact Nat.zero_le 1
  | [x], _, _ => exact Nat.le_refl 1
  | x :: y :: rest, hn, heq =>
      have hxy : x = y := heq x (by simp) y (by simp)
      subst hxy
      simp at hn

/-- Of the loads that the engine was asked for, those of a key that have not failed are one. -/
theorem Agrees.eq_of_loadsFor {t : Traffic α} (ht : t.Agrees) {key : RuleKey} {i j : Nat}
    (hi : i ∈ t.loadsFor key) (hj : j ∈ t.loadsFor key)
    (hfi : ¬ ∃ l, t.gateway.loads[i]? = some l ∧ l.hasFailed)
    (hfj : ¬ ∃ l, t.gateway.loads[j]? = some l ∧ l.hasFailed) : i = j := by
  obtain ⟨-, l, hl, hlk⟩ := (t.mem_loadsFor_iff key i).mp hi
  obtain ⟨-, m, hm, hmk⟩ := (t.mem_loadsFor_iff key j).mp hj
  exact ht.loads.eq_of_not_failed hl hm (hlk.trans hmk.symm) (fun h => hfi ⟨l, hl, h⟩)
    (fun h => hfj ⟨m, hm, h⟩)

theorem not_hasFailed_of_isOpen {t : Traffic α} {load : Nat} (h : t.isOpen load = true) :
    ¬ ∃ l, t.gateway.loads[load]? = some l ∧ l.hasFailed := by
  rintro ⟨l, hl, result, hr, -⟩
  have := (t.gateway.resultOf_eq_some_iff load result).mpr ⟨l, hl, hr⟩
  rw [isOpen, this] at h
  cases h

theorem hasSucceeded_iff (t : Traffic α) (load : Nat) :
    t.hasSucceeded load = true ↔
      ∃ handle, t.gateway.resultOf load = some (.loaded handle) := by
  unfold hasSucceeded
  cases t.gateway.resultOf load with
  | none => simp
  | some result => cases result <;> simp [LoadResult.handle?]

theorem not_hasFailed_of_loaded {t : Traffic α} {load : Nat} {handle : α}
    (h : t.gateway.resultOf load = some (.loaded handle)) :
    ¬ ∃ l, t.gateway.loads[load]? = some l ∧ l.hasFailed := by
  rintro ⟨l, hl, hf⟩
  obtain ⟨l', hl', hr⟩ := (t.gateway.resultOf_eq_some_iff load _).mp h
  rw [hl] at hl'
  cases hl'
  exact (l.not_hasFailed_iff.mpr (Or.inr ⟨handle, hr⟩)) hf

/-- At most one load of a key goes on. -/
theorem Agrees.length_open_le_one {t : Traffic α} (ht : t.Agrees) (key : RuleKey) :
    ((t.loadsFor key).filter t.isOpen).length ≤ 1 := by
  refine length_le_one_of_nodup ((ht.asked_nodup.filter _).filter _) ?_
  intro i hi j hj
  obtain ⟨hi, hio⟩ := List.mem_filter.mp hi
  obtain ⟨hj, hjo⟩ := List.mem_filter.mp hj
  exact ht.eq_of_loadsFor hi hj (not_hasFailed_of_isOpen hio) (not_hasFailed_of_isOpen hjo)

/-- At most one load of a key has succeeded. -/
theorem Agrees.length_succeeded_le_one {t : Traffic α} (ht : t.Agrees) (key : RuleKey) :
    ((t.loadsFor key).filter t.hasSucceeded).length ≤ 1 := by
  refine length_le_one_of_nodup ((ht.asked_nodup.filter _).filter _) ?_
  intro i hi j hj
  obtain ⟨hi, his⟩ := List.mem_filter.mp hi
  obtain ⟨hj, hjs⟩ := List.mem_filter.mp hj
  obtain ⟨_, hir⟩ := (t.hasSucceeded_iff i).mp his
  obtain ⟨_, hjr⟩ := (t.hasSucceeded_iff j).mp hjs
  exact ht.eq_of_loadsFor hi hj (not_hasFailed_of_loaded hir) (not_hasFailed_of_loaded hjr)

/-- A key has one handle. -/
theorem Agrees.handle_unique {t : Traffic α} (ht : t.Agrees) {key : RuleKey} {handle other : α}
    (h : t.Holds key handle) (h' : t.Holds key other) : handle = other := by
  obtain ⟨i, hi, hir⟩ := h
  obtain ⟨j, hj, hjr⟩ := h'
  have hij : i = j :=
    ht.eq_of_loadsFor hi hj (not_hasFailed_of_loaded hir) (not_hasFailed_of_loaded hjr)
  subst hij
  rw [hir] at hjr
  cases hjr
  rfl

/-! ## After a success -/

/-- An event of the traffic is one of the gateway, of which the engine sees the start of a load,
or it leaves the gateway alone. -/
theorem step_cases (t : Traffic α) (e : TrafficEvent α) :
    (∃ e', (t.step e).gateway = t.gateway.step e' ∧
      (t.step e).asked = t.asked ++ t.gateway.startedBy e') ∨
    ((t.step e).gateway = t.gateway ∧ (t.step e).asked = t.asked) := by
  cases e with
  | call call => exact Or.inr ⟨rfl, rfl⟩
  | begin place =>
      cases h : t.ahead[place]? with
      | none => exact Or.inr (by simp [step, h])
      | some errand => exact Or.inl ⟨.request errand.key, by simp [step, h, follow]⟩
  | withdraw place => exact Or.inr ⟨rfl, rfl⟩
  | cancel caller => exact Or.inl ⟨_, rfl, rfl⟩
  | finish load result => exact Or.inl ⟨_, rfl, rfl⟩
  | advance => exact Or.inl ⟨_, rfl, rfl⟩

/-- A load keeps its key. -/
theorem serves_step {t : Traffic α} (ht : t.Agrees) (e : Gateway.Event α) {load : Nat}
    (hload : load ∈ t.asked) (key : RuleKey) :
    (((t.gateway.step e).loads[load]?.map (·.key)) == some key) = t.serves key load := by
  obtain ⟨l, hl, -⟩ := (ht.asked_iff load).mp hload
  obtain ⟨l', hl', hkey, -⟩ := t.gateway.extends_step e hl
  simp [serves, hl, hl', hkey]

/-- While the load of a key that succeeded is there, no load of the key is started. -/
theorem not_serves_of_startedBy {t : Traffic α} (ht : t.Agrees) {e : Gateway.Event α}
    {key : RuleKey} {handle : α} (h : t.Holds key handle) {load : Nat}
    (hload : load ∈ t.gateway.startedBy e) :
    (((t.gateway.step e).loads[load]?.map (·.key)) == some key) = false := by
  cases t.gateway.loadMove e with
  | started other _ _ starts asked =>
      rw [asked, List.mem_singleton] at hload
      subst hload
      obtain ⟨l, hl, hs⟩ := ht.loads.unstarted (starts ▸ List.mem_cons_self)
      obtain ⟨l', hl', hkey, -⟩ := t.gateway.extends_step e hl
      -- a load of the key that has not begun would be the one that succeeded
      have hne : l.key ≠ key := by
        rintro rfl
        obtain ⟨done, hdone, hr⟩ := h
        obtain ⟨-, m, hm, hmk⟩ := (t.mem_loadsFor_iff l.key done).mp hdone
        have hnone := ht.loads.unended hl hs
        have heq : load = done := ht.loads.eq_of_not_failed hl hm hmk.symm
          (l.not_hasFailed_iff.mpr (Or.inl hnone))
          (fun hf => not_hasFailed_of_loaded hr ⟨m, hm, hf⟩)
        obtain ⟨m', hm', hmr⟩ := (t.gateway.resultOf_eq_some_iff done _).mp hr
        rw [← heq, hl] at hm'
        cases hm'
        rw [hnone] at hmr
        cases hmr
      simp [hl', hkey, hne]
  | kept _ _ _ asked => rw [asked] at hload; cases hload
  | opened _ _ _ _ _ asked => rw [asked] at hload; cases hload
  | finished _ _ _ _ _ _ asked => rw [asked] at hload; cases hload
  | dropped _ _ _ _ _ asked => rw [asked] at hload; cases hload

/-- After a success no event starts a load of the key. -/
theorem loadsFor_step {t : Traffic α} (ht : t.Agrees) {key : RuleKey} {handle : α}
    (h : t.Holds key handle) (e : TrafficEvent α) :
    (t.step e).loadsFor key = t.loadsFor key := by
  rcases t.step_cases e with ⟨e', hg, hasked⟩ | ⟨hg, hasked⟩
  · have hserves : (t.step e).serves key =
        fun load => ((t.gateway.step e').loads[load]?.map (·.key)) == some key := by
      funext load
      rw [serves, hg]
    rw [loadsFor, hasked, hserves, List.filter_append]
    have hnew : (t.gateway.startedBy e').filter (fun load =>
        ((t.gateway.step e').loads[load]?.map (·.key)) == some key) = [] :=
      List.filter_eq_nil_iff.mpr fun load hload => by
        rw [not_serves_of_startedBy ht h hload]
        exact Bool.false_ne_true
    rw [hnew, List.append_nil, loadsFor]
    exact List.filter_congr fun load hload => serves_step ht e' hload key
  · have hserves : (t.step e).serves key = t.serves key := by
      funext load
      rw [serves, serves, hg]
    rw [loadsFor, hasked, hserves, loadsFor]

/-- A handle stays that of its key. -/
theorem Holds.step {t : Traffic α} (ht : t.Agrees) {key : RuleKey} {handle : α}
    (h : t.Holds key handle) (e : TrafficEvent α) : (t.step e).Holds key handle := by
  have hsame := loadsFor_step ht h e
  obtain ⟨load, hload, hr⟩ := h
  refine ⟨load, by rw [hsame]; exact hload, ?_⟩
  rcases t.step_cases e with ⟨e', hg, -⟩ | ⟨hg, -⟩
  · rw [hg]
    exact (t.gateway.extends_step e').resultOf hr
  · rw [hg]
    exact hr

theorem loadsFor_foldl {t : Traffic α} (ht : t.Agrees) {key : RuleKey} {handle : α}
    (h : t.Holds key handle) (later : List (TrafficEvent α)) :
    (later.foldl step t).loadsFor key = t.loadsFor key := by
  induction later generalizing t with
  | nil => rfl
  | cons e rest ih =>
      rw [List.foldl_cons, ih (ht.step e) (h.step ht e)]
      exact loadsFor_step ht h e

/-! ## Handles of callers and evaluations -/

/-- A caller that obtains a handle obtains that of the key it asked for. -/
theorem Agrees.holds_of_obtained {t : Traffic α} (ht : t.Agrees) {caller : Nat}
    {errand : Errand} {handle : α} (he : t.errands[caller]? = some errand)
    (ho : t.gateway.obtained caller = some (.loaded handle)) : t.Holds errand.key handle := by
  obtain ⟨load, hc⟩ := (t.gateway.obtained_eq_some_iff caller _).mp ho
  have hr : t.gateway.resultOf load = some (.loaded handle) := by
    rcases ht.callers.gone hc with h | h
    · cases h
    · exact h
  obtain ⟨l, hl, hlr⟩ := (t.gateway.resultOf_eq_some_iff load _).mp hr
  obtain ⟨l', hl', hkey⟩ := ht.errand_key he hc
  rw [hl] at hl'
  cases hl'
  -- a load that ended had begun, so the engine was asked for it
  have hstarted : l.started = true := by
    cases hs : l.started with
    | true => rfl
    | false =>
        rw [ht.loads.unended hl hs] at hlr
        cases hlr
  exact ⟨load, (t.mem_loadsFor_iff _ load).mpr
    ⟨(ht.asked_iff load).mpr ⟨l, hl, hstarted⟩, l, hl, hkey⟩, hr⟩

theorem evaluationFor_eq_some_iff (gateway : Gateway α) (errands : List Errand) (caller : Nat)
    (evaluation : Evaluation α) :
    evaluationFor gateway errands caller = some evaluation ↔
      evaluation.caller = caller ∧
      (∃ key, errands[caller]? = some (.evaluate key evaluation.document)) ∧
      gateway.obtained caller = some (.loaded evaluation.handle) := by
  obtain ⟨c, handle, document⟩ := evaluation
  unfold evaluationFor
  constructor
  · intro h
    split at h
    · rename_i key document' handle' he ho
      cases h
      exact ⟨rfl, ⟨key, he⟩, ho⟩
    · cases h
  · rintro ⟨rfl, ⟨key, he⟩, ho⟩
    rw [he, ho]

/-- The evaluations are those of the callers that have a document evaluated and obtained a
handle. -/
theorem Agrees.mem_evaluations_iff {t : Traffic α} (ht : t.Agrees) (evaluation : Evaluation α) :
    evaluation ∈ t.evaluations ↔
      (∃ key, t.errands[evaluation.caller]? = some (.evaluate key evaluation.document)) ∧
      t.gateway.obtained evaluation.caller = some (.loaded evaluation.handle) := by
  rw [ht.evaluations_eq, List.mem_filterMap]
  constructor
  · rintro ⟨caller, -, h⟩
    obtain ⟨rfl, he, ho⟩ := (evaluationFor_eq_some_iff _ _ _ _).mp h
    exact ⟨he, ho⟩
  · rintro ⟨he, ho⟩
    refine ⟨evaluation.caller, (Gateway.mem_departures_iff ht.callers _).mpr ⟨_, ho⟩, ?_⟩
    exact (evaluationFor_eq_some_iff _ _ _ _).mpr ⟨rfl, he, ho⟩

/-- No caller has its document evaluated twice. -/
theorem Agrees.evaluations_nodup {t : Traffic α} (ht : t.Agrees) :
    (t.evaluations.map (·.caller)).Nodup := by
  rw [ht.evaluations_eq, List.map_filterMap]
  refine ht.callers.departures_nodup.filterMap ?_
  intro i j caller hi hj
  obtain ⟨e, he, rfl⟩ := Option.map_eq_some_iff.mp (Option.mem_def.mp hi)
  obtain ⟨e', he', heq⟩ := Option.map_eq_some_iff.mp (Option.mem_def.mp hj)
  obtain ⟨rfl, -⟩ := (evaluationFor_eq_some_iff _ _ _ _).mp he
  obtain ⟨rfl, -⟩ := (evaluationFor_eq_some_iff _ _ _ _).mp he'
  exact heq.symm

/-! ## The main statement -/

/-- **Loads are shared.** In every run, a key has at most one unfinished load and at most one
that succeeded, after which none of the key is ever started; all callers that obtain a handle for
a key obtain the one of that load, and the engine evaluates a document, once, for exactly the
callers that asked for it and obtained a handle, with the handle of their key. -/
theorem loads_shared (events : List (TrafficEvent α)) :
    (∀ key,
      (((run events).loadsFor key).filter (run events).isOpen).length ≤ 1 ∧
      (((run events).loadsFor key).filter (run events).hasSucceeded).length ≤ 1 ∧
      (∀ load ∈ (run events).loadsFor key, (run events).hasSucceeded load = true →
        ∀ later, (run (events ++ later)).loadsFor key = (run events).loadsFor key) ∧
      (∀ handle other, (run events).Holds key handle → (run events).Holds key other →
        handle = other)) ∧
    (run events).asked.Nodup ∧
    (∀ caller errand handle, (run events).errands[caller]? = some errand →
      (run events).gateway.obtained caller = some (.loaded handle) →
      (run events).Holds errand.key handle) ∧
    (∀ evaluation ∈ (run events).evaluations, ∃ key,
      (run events).errands[evaluation.caller]? = some (.evaluate key evaluation.document) ∧
      (run events).Holds key evaluation.handle) ∧
    (∀ caller key document handle,
      (run events).errands[caller]? = some (.evaluate key document) →
      (run events).gateway.obtained caller = some (.loaded handle) →
      ⟨caller, handle, document⟩ ∈ (run events).evaluations) ∧
    ((run events).evaluations.map (·.caller)).Nodup := by
  have ht := agrees_run events
  refine ⟨fun key => ⟨ht.length_open_le_one key, ht.length_succeeded_le_one key, ?_,
      fun handle other => ht.handle_unique⟩,
    ht.asked_nodup, fun caller errand handle => ht.holds_of_obtained, ?_, ?_,
    ht.evaluations_nodup⟩
  · intro load hload hs later
    obtain ⟨handle, hr⟩ := ((run events).hasSucceeded_iff load).mp hs
    rw [run_append]
    exact loadsFor_foldl ht ⟨load, hload, hr⟩ later
  · intro evaluation he
    obtain ⟨⟨key, herrand⟩, ho⟩ := (ht.mem_evaluations_iff evaluation).mp he
    exact ⟨key, herrand, ht.holds_of_obtained herrand ho⟩
  · intro caller key document handle he ho
    exact (ht.mem_evaluations_iff _).mpr ⟨⟨key, he⟩, ho⟩

end Traffic

end OscalValidation
