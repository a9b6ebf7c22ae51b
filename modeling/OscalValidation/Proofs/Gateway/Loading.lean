import OscalValidation.Proofs.Gateway.Settling

set_option autoImplicit false

/-! # What a caller obtains

A caller that asks for a key shares the load that serves the key (`shares_request`). It keeps
sharing it while the gateway settles, and then obtains how that load ended (`load_spec`).
-/

namespace OscalValidation

namespace Gateway

variable {σ α : Type}

/-! ## Sharing -/

/-- **The caller shares the load:** it waits for it, or what it was told is how it ended. -/
def Shares (g : Gateway α) (caller load : Nat) : Prop :=
  g.callers[caller]? = some ⟨load, .waiting⟩ ∨
  ∃ result, g.resultOf load = some result ∧
    (g.callers[caller]? = some ⟨load, .told result⟩ ∨
      g.callers[caller]? = some ⟨load, .gone result⟩)

/-- **A new caller shares the load that serves the key.** -/
theorem shares_request (g : Gateway α) (key : RuleKey) :
    ∃ load, (g.request key).1.cache.lookup key = some load ∧
      (g.request key).1.Shares g.callers.length load := by
  rcases g.request_cases key with ⟨hc, h⟩ | ⟨load, hc, -, h⟩ | ⟨load, result, hc, hr, h⟩
  · refine ⟨g.loads.length, ?_, Or.inl ?_⟩ <;> rw [h]
    · simp [List.lookup_append, hc]
    · simp
  · refine ⟨load, ?_, Or.inl ?_⟩ <;> rw [h]
    · exact hc
    · simp
  · refine ⟨load, ?_, Or.inr ⟨result, ?_, Or.inr ?_⟩⟩ <;> rw [h]
    · exact hc
    · exact hr
    · simp

theorem Event.key?_eq_none {e : Event α} (h : e.isInner) : e.key? = none := by
  cases e with
  | request key => cases h
  | _ => rfl

/-- A caller that is as it was shares what it shared. -/
theorem Shares.kept {g g' : Gateway α} {caller load : Nat} (h : g.Shares caller load)
    (hext : g.Extends g') (hcaller : g'.callers[caller]? = g.callers[caller]?) :
    g'.Shares caller load := by
  rw [Shares, hcaller]
  exact h.imp_right fun ⟨result, hr, hs⟩ => ⟨result, hext.resultOf hr, hs⟩

/-- A caller that was there keeps its place when another comes. -/
theorem Shares.grown {g g' : Gateway α} {caller load : Nat} (h : g.Shares caller load)
    (hext : g.Extends g') {c : Caller α} (callers : g'.callers = g.callers ++ [c]) :
    g'.Shares caller load := by
  rw [Shares, callers]
  rcases h with h | ⟨result, hr, h | h⟩
  · exact Or.inl (getElem?_append_one_of_some h)
  · exact Or.inr ⟨result, hext.resultOf hr, Or.inl (getElem?_append_one_of_some h)⟩
  · exact Or.inr ⟨result, hext.resultOf hr, Or.inr (getElem?_append_one_of_some h)⟩

/-- Unless it is cancelled, a caller keeps sharing its load. -/
theorem Shares.step {g : Gateway α} {caller load : Nat} (h : g.Shares caller load)
    {e : Event α} (he : e ≠ .cancel caller) : (g.step e).Shares caller load := by
  have hext := extends_step g e
  cases g.callerMove e with
  | kept _ callers =>
      exact h.kept hext (by rw [callers])
  | joined _ _ _ _ callers => exact h.grown hext callers
  | served _ _ _ _ _ _ callers => exact h.grown hext callers
  | told other load' result _ before ended callers =>
      by_cases heq : other = caller
      · -- only who waits is told, and what it is told is how its load ended
        subst heq
        rw [Shares, callers]
        right
        rcases h with h | ⟨result', hr, h | h⟩
        · rw [before] at h
          cases h
          refine ⟨result, hext.resultOf ended, Or.inl ?_⟩
          rw [getElem?_modify_of_some before, if_pos rfl]
        · rw [before] at h
          cases h
        · rw [before] at h
          cases h
      · exact h.kept hext (by rw [callers, List.getElem?_modify_ne _ _ heq])
  | cancelled other _ _ event _ _ callers =>
      have hne : other ≠ caller := by
        rintro rfl
        exact he event
      exact h.kept hext (by rw [callers, List.getElem?_modify_ne _ _ hne])
  | departed other load' state result _ before obtains callers =>
      by_cases heq : other = caller
      · -- who shares a load leaves with what it was told
        subst heq
        rw [Shares, callers]
        right
        rcases h with h | ⟨result', hr, h | h⟩
        · rw [before] at h
          cases h
          rcases obtains with h | ⟨h, -⟩ <;> cases h
        · rw [before] at h
          cases h
          rcases obtains with h | ⟨h, -⟩
          · cases h
            refine ⟨result, hext.resultOf hr, Or.inr ?_⟩
            rw [getElem?_modify_of_some before, if_pos rfl]
          · cases h
        · rw [before] at h
          cases h
          rcases obtains with h | ⟨h, -⟩ <;> cases h
      · exact h.kept hext (by rw [callers, List.getElem?_modify_ne _ _ heq])

/-- Inside the gateway nobody is cancelled. -/
theorem Event.isInner.ne_cancel {e : Event α} (h : e.isInner) (caller : Nat) :
    e ≠ .cancel caller := by
  rintro rfl
  cases h

theorem Shares.runFrom {g : Gateway α} {caller load : Nat} (h : g.Shares caller load)
    {events : List (Event α)} (hevents : ∀ e ∈ events, e ≠ .cancel caller) :
    (g.runFrom events).Shares caller load := by
  induction events generalizing g with
  | nil => exact h
  | cons e rest ih =>
      exact ih (h.step (hevents e List.mem_cons_self))
        fun e' he' => hevents e' (List.mem_cons_of_mem _ he')

/-- **When nothing is to be done, a caller has obtained how its load ended.** -/
theorem Shares.obtained_eq {g : Gateway α} {caller load : Nat} (h : g.Shares caller load)
    (hg : g.Attended) (ht : g.tasks = []) : g.obtained caller = g.resultOf load := by
  rcases h with h | ⟨result, hr, h | h⟩
  · cases hr : g.resultOf load with
    | none => simp [obtained, h]
    | some result =>
        have := hg.waiting h hr
        rw [ht] at this
        cases this
  · have := hg.leaving h trivial
    rw [ht] at this
    cases this
  · rw [hr]
    exact (g.obtained_eq_some_iff caller result).mpr ⟨load, h⟩

/-- What a caller obtains of a load that it shares is how the load ended. -/
theorem Shares.resultOf {g : Gateway α} {caller load : Nat} (h : g.Shares caller load)
    {result : LoadResult α} (ho : g.obtained caller = some result) :
    g.resultOf load = some result := by
  obtain ⟨other, hgone⟩ := (g.obtained_eq_some_iff caller result).mp ho
  rcases h with h | ⟨result', hr, h | h⟩
  · cases hgone.symm.trans h
  · cases hgone.symm.trans h
  · cases hgone.symm.trans h
    exact hr

/-! ## Loading -/

/-- A new caller is numbered after those that there are. -/
theorem snd_request (g : Gateway α) (key : RuleKey) : (g.request key).2 = g.callers.length := by
  unfold request
  split
  · rfl
  · split <;> rfl

/-- What holds of every gateway that events lead to. -/
structure Sound (g : Gateway α) : Prop where
  /-- Loads, cache and starting tasks fit together. -/
  loads : g.LoadsAgree
  /-- What callers were told is how their loads ended. -/
  callers : g.CallersAgree
  /-- What is to be done is among the tasks. -/
  attended : g.Attended

theorem Sound.step {g : Gateway α} (hg : g.Sound) (e : Event α) : (g.step e).Sound :=
  ⟨hg.loads.step e, hg.callers.step e, hg.attended.step e⟩

theorem Sound.runFrom {g : Gateway α} (hg : g.Sound) (events : List (Event α)) :
    (g.runFrom events).Sound :=
  runFrom_induction hg (fun _ e h => h.step e) events

/-- **Every gateway that events lead to is sound.** -/
theorem sound_runFrom_empty (events : List (Event α)) : (runFrom {} events).Sound :=
  Sound.runFrom ⟨loadsAgree_empty, callersAgree_empty, attended_empty⟩ events

theorem Sound.settle {g : Gateway α} (hg : g.Sound) (engine : RuleEngine σ α) (state : σ) :
    (g.settle engine state).1.Sound := by
  obtain ⟨events, -, hrun⟩ := g.settle_run engine state
  rw [hrun]
  exact hg.runFrom events

/-- **A caller obtains how the load that serves its key ended.** -/
theorem load_spec {g : Gateway α} (hg : g.Sound) (engine : RuleEngine σ α) (state : σ)
    (key : RuleKey) :
    ∃ number l, (g.request key).1.cache.lookup key = some number ∧
      (g.load engine state key).2.1.loads[number]? = some l ∧ l.key = key ∧
      (g.load engine state key).1 = l.result ∧
      (g.load engine state key).2.1.obtained g.callers.length = l.result ∧
      (g.load engine state key).2.1.Sound := by
  have hload : g.load engine state key =
      (((g.request key).1.settle engine state).1.obtained (g.request key).2,
        (g.request key).1.settle engine state) := rfl
  rw [hload, g.snd_request]
  dsimp only
  have hrequest : (g.request key).1.Sound := hg.step (.request key)
  obtain ⟨number, hlookup, hshares⟩ := g.shares_request key
  obtain ⟨l, hl, hkey⟩ := hrequest.loads.cached_key (mem_cache_of_lookup hlookup)
  obtain ⟨events, hinner, hrun⟩ := (g.request key).1.settle_run engine state
  have htasks := (g.request key).1.tasks_settle engine state
  have hsettled := hrequest.settle engine state
  -- after settling the caller has obtained how the load that it shares ended
  rw [hrun] at htasks hsettled ⊢
  obtain ⟨l', hl', hkey', -⟩ := extends_runFrom (g.request key).1 events hl
  have hobtained : ((g.request key).1.runFrom events).obtained g.callers.length = l'.result := by
    have hshared := hshares.runFrom fun e he => (hinner e he).ne_cancel _
    rw [hshared.obtained_eq hsettled.attended htasks, resultOf, hl']
    rfl
  exact ⟨number, l', hlookup, hl', hkey'.trans hkey, hobtained, hobtained, hsettled⟩

end Gateway

end OscalValidation
