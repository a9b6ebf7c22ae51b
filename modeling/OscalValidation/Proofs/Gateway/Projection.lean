import OscalValidation.Proofs.Gateway.Queue
import OscalValidation.Proofs.Gateway.Traffic

set_option autoImplicit false

/-! # What was there before

`Gateway.restrict` takes everything out of a gateway that concerns later loads and later callers.
If earlier callers wait for earlier loads only, a step of the whole is the same step of what is
left, or nothing to it (`restrict_step`). So what was there before goes its own way
(`restrict_runFrom`): it is led by all that comes from outside for it and by some of the work that
is done, and by nothing else (`IsShareOf`).
-/

namespace OscalValidation

namespace Gateway

variable {α : Type}

/-! ## Taking the later ones out -/

/-- The task concerns one of the first loads or callers. -/
def concerns (loads callers : Nat) : GatewayTask → Bool
  | .start load | .evict load => load < loads
  | .tell caller | .resume caller => caller < callers

/-- **The gateway with its first loads and callers,** and what concerns them. -/
def restrict (g : Gateway α) (loads callers : Nat) : Gateway α where
  loads := g.loads.take loads
  cache := g.cache.filter fun entry => entry.2 < loads
  callers := g.callers.take callers
  tasks := g.tasks.filter (concerns loads callers)
  departures := g.departures.filter (· < callers)

/-- The first callers share the first loads. -/
def IsClosed (g : Gateway α) (loads callers : Nat) : Prop :=
  ∀ ⦃caller : Nat⦄ ⦃c : Caller α⦄, caller < callers → g.callers[caller]? = some c → c.load < loads

/-- The event comes from outside for one of the first loads or callers. -/
def Event.isFor (loads callers : Nat) : Event α → Bool
  | .finish load _ => load < loads
  | .cancel caller => caller < callers
  | _ => false

/-- **Some events are the share that the first loads and callers have in all:** whatever comes from
outside for them, and some of the work that is done. -/
structure IsShareOf (loads callers : Nat) (events all : List (Event α)) : Prop where
  /-- They are among all events, in their order. -/
  sublist : events.Sublist all
  /-- All that comes from outside for these loads and callers is among them. -/
  complete : events.filter (Event.isFor loads callers) = all.filter (Event.isFor loads callers)
  own : ∀ e ∈ events, e.isFor loads callers = true ∨ e = .advance

theorem IsShareOf.skip {loads callers : Nat} {events rest : List (Event α)}
    (h : IsShareOf loads callers events rest) {e : Event α} (he : e.isFor loads callers = false) :
    IsShareOf loads callers events (e :: rest) where
  sublist := h.sublist.cons e
  complete := by
    rw [List.filter_cons_of_neg (by simp [he])]
    exact h.complete
  own := h.own

theorem IsShareOf.keep {loads callers : Nat} {events rest : List (Event α)}
    (h : IsShareOf loads callers events rest) {e : Event α}
    (he : e.isFor loads callers = true ∨ e = .advance) :
    IsShareOf loads callers (e :: events) (e :: rest) where
  sublist := h.sublist.cons_cons e
  complete := by rw [List.filter_cons, List.filter_cons, h.complete]
  own := List.forall_mem_cons.mpr ⟨he, h.own⟩

section Restrict

variable {g : Gateway α} {n m : Nat}

theorem restrict_loads {load : Nat} (h : load < n) :
    (g.restrict n m).loads[load]? = g.loads[load]? := List.getElem?_take_of_lt h

theorem restrict_callers {caller : Nat} (h : caller < m) :
    (g.restrict n m).callers[caller]? = g.callers[caller]? := List.getElem?_take_of_lt h

theorem restrict_resultOf {load : Nat} (h : load < n) :
    (g.restrict n m).resultOf load = g.resultOf load := by
  rw [resultOf, resultOf, restrict_loads h]

theorem restrict_isFailed {load : Nat} (h : load < n) :
    (g.restrict n m).isFailed load = g.isFailed load := by
  rw [isFailed, isFailed, restrict_resultOf h]

theorem restrict_isRunning {load : Nat} (h : load < n) :
    (g.restrict n m).isRunning load = g.isRunning load := by
  rw [isRunning, isRunning, restrict_loads h]

/-- A change behind the first entries does not change them. -/
theorem take_modify_of_le {β : Type} {xs : List β} {f : β → β} {k i : Nat} (h : k ≤ i) :
    (xs.modify i f).take k = xs.take k := by
  rw [List.take_modify, List.modify_eq_self]
  exact Nat.le_trans (List.length_take_le k xs) h

/-! ## Steps -/

theorem restrict_start (load : Nat) : (g.start load).restrict n m =
    if load < n then (g.restrict n m).start load else g.restrict n m := by
  by_cases hlt : load < n
  · rw [if_pos hlt]
    simp only [start, restrict, List.take_modify]
  · rw [if_neg hlt]
    simp only [start, restrict, take_modify_of_le (Nat.le_of_not_lt hlt)]

theorem restrict_evict (load : Nat) : (g.evict load).restrict n m =
    if load < n then (g.restrict n m).evict load else g.restrict n m := by
  by_cases hlt : load < n
  · rw [if_pos hlt, evict, evict, restrict_isFailed hlt]
    split
    · simp only [restrict, List.filter_filter, Bool.and_comm]
    · rfl
  · rw [if_neg hlt, evict]
    split
    · simp only [restrict, List.filter_filter]
      congr 1
      refine List.filter_congr fun entry _ => ?_
      -- an entry of a first load is not that of a later one
      by_cases hentry : entry.2 < n
      · have hne : entry.2 ≠ load := by omega
        simp [hentry, hne]
      · simp [hentry]
    · rfl

theorem restrict_tell (hg : g.IsClosed n m) (caller : Nat) : (g.tell caller).restrict n m =
    if caller < m then (g.restrict n m).tell caller else g.restrict n m := by
  by_cases hlt : caller < m
  · rw [if_pos hlt, tell, tell, restrict_callers hlt]
    cases hc : g.callers[caller]? with
    | none => rfl
    | some c =>
        obtain ⟨load, state⟩ := c
        cases state with
        | waiting =>
            dsimp only
            rw [restrict_resultOf (hg hlt hc)]
            cases g.resultOf load with
            | none => rfl
            | some result =>
                simp only [restrict, setState, List.take_modify, List.filter_append]
                simp [concerns, hlt]
        | _ => rfl
  · rw [if_neg hlt]
    rcases g.tell_cases caller with ⟨h, -⟩ | ⟨load, result, -, -, h⟩
    · rw [h]
    · rw [h]
      simp only [restrict, setState, take_modify_of_le (Nat.le_of_not_lt hlt), List.filter_append]
      simp [concerns, hlt]

theorem restrict_depart (caller : Nat) (result : LoadResult α) :
    (g.depart caller result).restrict n m =
      if caller < m then (g.restrict n m).depart caller result else g.restrict n m := by
  by_cases hlt : caller < m
  · rw [if_pos hlt]
    simp only [depart, setState, restrict, List.take_modify, List.filter_append]
    simp [hlt]
  · rw [if_neg hlt]
    simp only [depart, setState, restrict, take_modify_of_le (Nat.le_of_not_lt hlt),
      List.filter_append]
    simp [hlt]

theorem restrict_resume (caller : Nat) : (g.resume caller).restrict n m =
    if caller < m then (g.restrict n m).resume caller else g.restrict n m := by
  by_cases hlt : caller < m
  · rw [if_pos hlt, resume, resume, restrict_callers hlt]
    split
    · rw [restrict_depart, if_pos hlt]
    · rw [restrict_depart, if_pos hlt]
    · rfl
  · rw [if_neg hlt]
    rcases g.resume_cases caller with ⟨h, -⟩ | ⟨load, state, result, -, -, h⟩
    · rw [h]
    · rw [h, restrict_depart, if_neg hlt]

/-- **What a task does to what was there before:** the same, or nothing. -/
theorem restrict_perform (hg : g.IsClosed n m) (task : GatewayTask) :
    (g.perform task).restrict n m =
      if concerns n m task then (g.restrict n m).perform task else g.restrict n m := by
  cases task with
  | start load => simpa [perform, concerns] using restrict_start load
  | evict load => simpa [perform, concerns] using restrict_evict load
  | tell caller => simpa [perform, concerns] using restrict_tell hg caller
  | resume caller => simpa [perform, concerns] using restrict_resume caller

theorem restrict_waiters (load : Nat) :
    (g.restrict n m).waiters load = (g.waiters load).filter (· < m) := by
  have hsplit : g.callers.zipIdx =
      (g.callers.take m).zipIdx ++ (g.callers.drop m).zipIdx (g.callers.take m).length := by
    conv_lhs => rw [← List.take_append_drop m g.callers, List.zipIdx_append, Nat.zero_add]
  have hfirst : ∀ i ∈ ((g.callers.take m).zipIdx.filter fun entry =>
      Caller.waitsFor load entry.1).map (·.2), decide (i < m) = true := by
    intro i hi
    obtain ⟨⟨c, i⟩, hmem, rfl⟩ := List.mem_map.mp hi
    obtain ⟨-, hlt, -⟩ := List.mem_zipIdx (List.mem_of_mem_filter hmem)
    rw [List.length_take] at hlt
    simp only [decide_eq_true_eq]
    omega
  have hlater : ∀ i ∈ (((g.callers.drop m).zipIdx (g.callers.take m).length).filter fun entry =>
      Caller.waitsFor load entry.1).map (·.2), ¬ decide (i < m) = true := by
    intro i hi
    obtain ⟨⟨c, i⟩, hmem, rfl⟩ := List.mem_map.mp hi
    obtain ⟨hle, hlt, -⟩ := List.mem_zipIdx (List.mem_of_mem_filter hmem)
    rw [List.length_take, List.length_drop] at hlt
    rw [List.length_take] at hle
    simp only [decide_eq_true_eq]
    omega
  rw [waiters, waiters, hsplit, List.filter_append, List.map_append, List.filter_append,
    List.filter_eq_self.mpr hfirst, List.filter_eq_nil_iff.mpr hlater, List.append_nil]
  rfl

theorem restrict_finish (hg : g.IsClosed n m) (load : Nat) (result : LoadResult α) :
    (g.finish load result).restrict n m =
      if load < n then (g.restrict n m).finish load result else g.restrict n m := by
  have htells : ((g.waiters load).map GatewayTask.tell).filter (concerns n m) =
      ((g.restrict n m).waiters load).map .tell := by
    rw [restrict_waiters, List.filter_map]
    rfl
  by_cases hlt : load < n
  · have htasks : (g.finish load result).tasks.filter (concerns n m) =
        ((g.restrict n m).finish load result).tasks := by
      rw [finish, List.filter_append, List.filter_cons_of_pos (by simp [concerns, hlt]), htells]
      rfl
    have hloads : (g.finish load result).loads.take n =
        ((g.restrict n m).finish load result).loads := List.take_modify ..
    rw [if_pos hlt, restrict, htasks, hloads]
    rfl
  · -- nobody of the first callers waits for a later load
    have hnone : (g.restrict n m).waiters load = [] := by
      rw [restrict_waiters, List.filter_eq_nil_iff]
      intro caller hcaller hfirst
      exact hlt (hg (of_decide_eq_true hfirst) (mem_waiters_iff.mp hcaller))
    have htasks : (g.finish load result).tasks.filter (concerns n m) =
        (g.restrict n m).tasks := by
      rw [finish, List.filter_append, List.filter_cons_of_neg (by simp [concerns, hlt]), htells,
        hnone, List.map_nil, List.append_nil]
      rfl
    have hloads : (g.finish load result).loads.take n = (g.restrict n m).loads :=
      take_modify_of_le (Nat.le_of_not_lt hlt)
    rw [if_neg hlt, restrict, htasks, hloads]
    rfl

theorem restrict_cancel (caller : Nat) :
    (g.cancel caller).1.restrict n m =
      if caller < m then ((g.restrict n m).cancel caller).1 else g.restrict n m := by
  by_cases hlt : caller < m
  · rw [if_pos hlt, cancel, cancel, restrict_callers hlt]
    cases hc : g.callers[caller]? with
    | none => rfl
    | some c =>
        obtain ⟨load, state⟩ := c
        cases state with
        | waiting =>
            simp only [restrict, setState, List.take_modify, List.filter_append]
            simp [concerns, hlt]
        | told result => simp only [restrict, setState, List.take_modify]
        | leaving => rfl
        | gone result => rfl
  · rw [if_neg hlt]
    rcases g.cancel_cases caller with h | ⟨load, state, resumes, -, hresumes, h⟩
    · rw [h]
    · have hnone : (resumes.map GatewayTask.resume).filter (concerns n m) = [] := by
        rcases hresumes with ⟨-, rfl⟩ | ⟨-, rfl⟩ <;> simp [concerns, hlt]
      rw [h]
      simp only [restrict, setState, take_modify_of_le (Nat.le_of_not_lt hlt), List.filter_append,
        hnone, List.append_nil]

/-- **What an event does to what was there before:** the same, or nothing. What comes from outside
for the first loads and callers does the same. -/
theorem restrict_step (hg : g.IsClosed n m) {e : Event α} (he : e.key? = none) :
    (g.step e).restrict n m = g.restrict n m ∧ e.isFor n m = false ∨
      (g.step e).restrict n m = (g.restrict n m).step e ∧ (e.isFor n m = true ∨ e = .advance) := by
  cases e with
  | request key => cases he
  | cancel caller =>
      have hcancel : (g.step (.cancel caller)).restrict n m = _ := restrict_cancel caller
      by_cases hlt : caller < m
      · rw [if_pos hlt] at hcancel
        exact Or.inr ⟨hcancel, Or.inl (decide_eq_true hlt)⟩
      · rw [if_neg hlt] at hcancel
        exact Or.inl ⟨hcancel, decide_eq_false hlt⟩
  | finish load result =>
      rw [step_finish, step_finish]
      by_cases hlt : load < n
      · right
        refine ⟨?_, Or.inl (decide_eq_true hlt)⟩
        rw [restrict_isRunning hlt]
        by_cases hrunning : g.isRunning load = true
        · rw [if_pos hrunning, if_pos hrunning, restrict_finish hg, if_pos hlt]
        · rw [if_neg hrunning, if_neg hrunning]
      · left
        refine ⟨?_, decide_eq_false hlt⟩
        by_cases hrunning : g.isRunning load = true
        · rw [if_pos hrunning, restrict_finish hg, if_neg hlt]
        · rw [if_neg hrunning]
  | advance =>
      cases ht : g.tasks with
      | nil =>
          rw [step_advance_nil ht]
          exact Or.inl ⟨rfl, rfl⟩
      | cons task rest =>
          -- the restricted gateway has the task in front only if it concerns what was there
          have hperform := restrict_perform (g := { g with tasks := rest }) hg task
          rw [step_advance_cons ht, hperform]
          by_cases hconcerns : concerns n m task = true
          · have htasks : (g.restrict n m).tasks = task :: rest.filter (concerns n m) := by
              rw [restrict, ht, List.filter_cons_of_pos hconcerns]
            rw [if_pos hconcerns, step_advance_cons htasks]
            exact Or.inr ⟨rfl, Or.inr rfl⟩
          · have htasks : (g.restrict n m).tasks = rest.filter (concerns n m) := by
              rw [restrict, ht, List.filter_cons_of_neg hconcerns]
            rw [if_neg hconcerns]
            left
            refine ⟨?_, rfl⟩
            rw [restrict, restrict, ← htasks]
            rfl

/-- The first callers keep their loads. -/
theorem IsClosed.step (hg : g.IsClosed n m) (hm : m ≤ g.callers.length) (e : Event α) :
    (g.step e).IsClosed n m ∧ m ≤ (g.step e).callers.length := by
  refine ⟨fun caller c' hlt hc' => ?_, ?_⟩
  · rcases Traffic.callers_step g e hc' with ⟨c, hc, hload⟩ | ⟨rfl, -⟩
    · rw [hload]
      exact hg hlt hc
    · exact absurd hlt (Nat.not_lt.mpr hm)
  · rw [Traffic.length_callers_step]
    exact Nat.le_add_right_of_le hm

/-- **What was there before goes its own way,** as all that comes for it from outside leads it, and
some of the work that is done. -/
theorem restrict_runFrom (hg : g.IsClosed n m) (hm : m ≤ g.callers.length)
    {later : List (Event α)} (hlater : ∀ e ∈ later, e.key? = none) :
    ∃ events, IsShareOf n m events later ∧
      (g.runFrom later).restrict n m = (g.restrict n m).runFrom events := by
  induction later generalizing g with
  | nil => exact ⟨[], ⟨.slnil, rfl, nofun⟩, rfl⟩
  | cons e rest ih =>
      obtain ⟨he, hrest⟩ := List.forall_mem_cons.mp hlater
      obtain ⟨hclosed, hthere⟩ := hg.step hm e
      obtain ⟨events, hshare, hrun⟩ := ih hclosed hthere hrest
      rcases restrict_step hg he with ⟨hstep, hother⟩ | ⟨hstep, hown⟩
      · rw [hstep] at hrun
        exact ⟨events, hshare.skip hother, hrun⟩
      · rw [hstep] at hrun
        exact ⟨e :: events, hshare.keep hown, hrun⟩

/-- A request does nothing to what was there before. -/
theorem restrict_request (hn : n ≤ g.loads.length) (hm : m ≤ g.callers.length) (key : RuleKey) :
    (g.request key).1.restrict n m = g.restrict n m := by
  have hcaller : ¬ g.callers.length < m := Nat.not_lt.mpr hm
  have hload : ¬ g.loads.length < n := Nat.not_lt.mpr hn
  rcases g.request_cases key with ⟨-, h⟩ | ⟨load, -, -, h⟩ | ⟨load, result, -, -, h⟩ <;> rw [h]
  · simp [restrict, List.take_append_of_le_length, hn, hm, concerns, hload]
  · simp [restrict, List.take_append_of_le_length, hm]
  · simp [restrict, List.take_append_of_le_length, hm, hcaller]

end Restrict

/-! ## What is there -/

/-- **Whatever refers to a load refers to one that there is.** -/
structure Founded (g : Gateway α) : Prop where
  /-- The loads that are to be dropped are there. -/
  drops {load : Nat} (h : .evict load ∈ g.tasks) : load < g.loads.length
  /-- The loads that callers share are there. -/
  callers : g.IsClosed g.loads.length g.callers.length

theorem founded_empty : Founded ({} : Gateway α) where
  drops h := by simp at h
  callers _ _ h := absurd h (Nat.not_lt_zero _)

/-- Only the end of a load brings its drop up. -/
theorem mem_tasks_of_evict {g : Gateway α} {e : Event α} {load : Nat}
    (h : .evict load ∈ (g.step e).tasks) : .evict load ∈ g.tasks ∨ g.isRunning load = true := by
  cases e with
  | request key =>
      left
      rw [show g.step (.request key) = (g.request key).1 from rfl] at h
      rcases g.request_cases key with ⟨-, hr⟩ | ⟨_, -, -, hr⟩ | ⟨_, _, -, -, hr⟩ <;> rw [hr] at h
      · simpa using h
      · exact h
      · exact h
  | cancel caller =>
      left
      rw [show g.step (.cancel caller) = (g.cancel caller).1 from rfl] at h
      rcases g.cancel_cases caller with hc | ⟨_, _, _, -, -, hc⟩ <;> rw [hc] at h
      · exact h
      · simpa using h
  | finish other result =>
      rw [step_finish] at h
      split at h
      · next hrunning =>
        -- the drop comes up even if the load succeeded; the task itself looks at that later
        rw [finish, List.mem_append, List.mem_cons] at h
        rcases h with h | h | h
        · exact Or.inl h
        · cases h
          exact Or.inr hrunning
        · simp at h
      · exact Or.inl h
  | advance =>
      left
      cases ht : g.tasks with
      | nil =>
          rw [step_advance_nil ht, ht] at h
          exact h
      | cons task rest =>
          rw [step_advance_cons ht] at h
          -- work may add what resumes callers, never a drop
          refine List.mem_cons_of_mem _ ?_
          cases task with
          | start other => exact h
          | evict other =>
              rw [perform, evict] at h
              split at h <;> exact h
          | tell caller =>
              rw [perform] at h
              rcases { g with tasks := rest }.tell_cases caller with ⟨hc, -⟩ | ⟨_, _, -, -, hc⟩ <;>
                rw [hc] at h
              · exact h
              · simpa using h
          | resume caller =>
              rw [perform] at h
              rcases { g with tasks := rest }.resume_cases caller with
                ⟨hc, -⟩ | ⟨_, _, _, -, -, hc⟩ <;> rw [hc] at h
              · exact h
              · exact h

theorem Extends.length_le {g g' : Gateway α} (h : g.Extends g') :
    g.loads.length ≤ g'.loads.length := by
  by_contra hlt
  obtain ⟨l, hl, -⟩ := h (List.getElem?_eq_getElem (Nat.lt_of_not_le hlt))
  exact Nat.lt_irrefl _ (List.getElem?_eq_some_iff.mp hl).1

theorem Founded.step {g : Gateway α} (h : g.Founded) (hg : g.LoadsAgree) (e : Event α) :
    (g.step e).Founded := by
  have hgrown := (g.extends_step e).length_le
  refine ⟨fun {load} hload => ?_, fun caller c' _ hc' => ?_⟩
  · rcases mem_tasks_of_evict hload with hload | hrunning
    · exact Nat.lt_of_lt_of_le (h.drops hload) hgrown
    · obtain ⟨l, hl, -⟩ := (g.isRunning_iff load).mp hrunning
      exact Nat.lt_of_lt_of_le (List.getElem?_eq_some_iff.mp hl).1 hgrown
  · rcases Traffic.callers_step g e hc' with ⟨c, hc, hload⟩ | ⟨-, key, -, hserves⟩
    · rw [hload]
      exact Nat.lt_of_lt_of_le (h.callers (List.getElem?_eq_some_iff.mp hc).1 hc) hgrown
    · obtain ⟨l, hl, -⟩ := (hg.step e).cached_key (mem_cache_of_lookup hserves)
      exact (List.getElem?_eq_some_iff.mp hl).1

/-- Every gateway that events lead to is founded. -/
theorem founded_runFrom_empty (events : List (Event α)) : (runFrom {} events).Founded :=
  (runFrom_induction (p := fun g : Gateway α => g.LoadsAgree ∧ g.Founded)
    ⟨loadsAgree_empty, founded_empty⟩ (fun _ e h => ⟨h.1.step e, h.2.step h.1 e⟩) events).2

/-- **All that is in a gateway concerns its loads and callers.** -/
theorem restrict_self {g : Gateway α} (hg : g.Sound) (htimely : g.Timely)
    (hfounded : g.Founded) : g.restrict g.loads.length g.callers.length = g := by
  have hcache : g.cache.filter (fun entry => entry.2 < g.loads.length) = g.cache := by
    rw [List.filter_eq_self]
    rintro ⟨key, load⟩ hentry
    obtain ⟨l, hl, -⟩ := hg.loads.cached_key hentry
    exact decide_eq_true (List.getElem?_eq_some_iff.mp hl).1
  have htasks : g.tasks.filter (concerns g.loads.length g.callers.length) = g.tasks := by
    rw [List.filter_eq_self]
    intro task htask
    cases task with
    | start load =>
        have hpending : load ∈ g.pendingStarts := List.mem_filterMap.mpr ⟨_, htask, rfl⟩
        obtain ⟨l, hl, -⟩ := hg.loads.unstarted hpending
        exact decide_eq_true (List.getElem?_eq_some_iff.mp hl).1
    | evict load => exact decide_eq_true (hfounded.drops htask)
    | tell caller =>
        obtain ⟨_, _, _, hc, -⟩ := htimely _ htask
        exact decide_eq_true (List.getElem?_eq_some_iff.mp hc).1
    | resume caller =>
        obtain ⟨_, _, hc, -⟩ := htimely _ htask
        exact decide_eq_true (List.getElem?_eq_some_iff.mp hc).1
  have hdepartures : g.departures.filter (fun caller => caller < g.callers.length) =
      g.departures := by
    rw [List.filter_eq_self]
    intro caller hcaller
    obtain ⟨_, _, hc⟩ := hg.callers.left hcaller
    exact decide_eq_true (List.getElem?_eq_some_iff.mp hc).1
  rw [restrict, List.take_length, List.take_length, hcache, htasks, hdepartures]

end Gateway

end OscalValidation
