import Mathlib.Data.List.Nodup
import OscalValidation.Proofs.Gateway.Moves

set_option autoImplicit false

/-! # Invariants of the gateway

`LoadsAgree` says how loads, cache and the tasks that start loads fit together: every load that
has not failed is in the cache, under its own key, and no key is there twice. `CallersAgree` says
that what a caller was told is how its load ended. Every event keeps both, and no event takes
back a result (`Extends`).
-/

namespace OscalValidation

namespace Gateway

variable {α : Type}

/-! ## Loads and cache -/

/-- **Loads, cache and starting tasks fit together.** -/
structure LoadsAgree (g : Gateway α) : Prop where
  /-- No key is in the cache twice. -/
  keys_nodup : (g.cache.map (·.1)).Nodup
  cached_key {key : RuleKey} {load : Nat} (h : (key, load) ∈ g.cache) :
    ∃ l, g.loads[load]? = some l ∧ l.key = key
  cached {load : Nat} {l : Load α} (h : g.loads[load]? = some l) (hf : ¬ l.hasFailed) :
    (l.key, load) ∈ g.cache
  /-- A load that has not begun has not ended. -/
  unended {load : Nat} {l : Load α} (h : g.loads[load]? = some l) (hs : l.started = false) :
    l.result = none
  /-- No load is to be started twice. -/
  starts_nodup : g.pendingStarts.Nodup
  /-- A load that is to be started has not begun. -/
  unstarted {load : Nat} (h : load ∈ g.pendingStarts) :
    ∃ l, g.loads[load]? = some l ∧ l.started = false

theorem loadsAgree_empty : LoadsAgree ({} : Gateway α) where
  keys_nodup := List.nodup_nil
  cached_key h := by simp at h
  cached h := by simp at h
  unended h := by simp at h
  starts_nodup := List.nodup_nil
  unstarted h := by simp [pendingStarts] at h

/-- A key has one place in the cache. -/
theorem LoadsAgree.load_unique {g : Gateway α} (hg : g.LoadsAgree) {key : RuleKey} {i j : Nat}
    (hi : (key, i) ∈ g.cache) (hj : (key, j) ∈ g.cache) : i = j :=
  congrArg Prod.snd (List.inj_on_of_nodup_map hg.keys_nodup hi hj rfl)

/-- What the cache finds for a key is a load for the key. -/
theorem mem_cache_of_lookup {g : Gateway α} {key : RuleKey} {load : Nat}
    (h : g.cache.lookup key = some load) : (key, load) ∈ g.cache := by
  obtain ⟨before, after, hc, -⟩ := List.lookup_eq_some_iff.mp h
  rw [hc]
  simp

theorem not_mem_keys_of_lookup {g : Gateway α} {key : RuleKey}
    (h : g.cache.lookup key = none) : key ∉ g.cache.map (·.1) := by
  intro hmem
  obtain ⟨entry, hentry, rfl⟩ := List.mem_map.mp hmem
  have := List.lookup_eq_none_iff.mp h entry hentry
  simp at this

theorem lookup_eq_of_mem {g : Gateway α} (hg : g.LoadsAgree) {key : RuleKey} {load : Nat}
    (h : (key, load) ∈ g.cache) : g.cache.lookup key = some load := by
  cases hl : g.cache.lookup key with
  | none =>
      exact absurd (List.mem_map.mpr ⟨(key, load), h, rfl⟩) (not_mem_keys_of_lookup hl)
  | some other => rw [hg.load_unique h (mem_cache_of_lookup hl)]

/-! ### The moves keep the agreement -/

section Moves

variable {g g' : Gateway α}

theorem LoadsAgree.kept (hg : g.LoadsAgree) (loads : g'.loads = g.loads)
    (cache : g'.cache = g.cache) (starts : g'.pendingStarts = g.pendingStarts) :
    g'.LoadsAgree where
  keys_nodup := by rw [cache]; exact hg.keys_nodup
  cached_key h := by rw [cache] at h; rw [loads]; exact hg.cached_key h
  cached h hf := by rw [loads] at h; rw [cache]; exact hg.cached h hf
  unended h hs := by rw [loads] at h; exact hg.unended h hs
  starts_nodup := by rw [starts]; exact hg.starts_nodup
  unstarted h := by rw [starts] at h; rw [loads]; exact hg.unstarted h

/-- An entry of a list with one more at its end. -/
theorem getElem?_append_one {β : Type} {xs : List β} {x y : β} {i : Nat}
    (h : (xs ++ [x])[i]? = some y) : xs[i]? = some y ∨ (i = xs.length ∧ y = x) := by
  rw [List.getElem?_append] at h
  split at h
  · exact Or.inl h
  · rename_i hlt
    have hi : i - xs.length = 0 := by
      by_contra hne
      rw [List.getElem?_eq_none (by simp; omega)] at h
      cases h
    rw [hi] at h
    simp only [List.getElem?_cons_zero, Option.some.injEq] at h
    exact Or.inr ⟨by omega, h.symm⟩

theorem getElem?_append_one_of_some {β : Type} {xs : List β} {x y : β} {i : Nat}
    (h : xs[i]? = some y) : (xs ++ [x])[i]? = some y := by
  have hlt : i < xs.length := (List.getElem?_eq_some_iff.mp h).1
  rw [List.getElem?_append_left hlt]
  exact h

theorem LoadsAgree.opened (hg : g.LoadsAgree) {key : RuleKey}
    (absent : g.cache.lookup key = none) (loads : g'.loads = g.loads ++ [⟨key, false, none⟩])
    (cache : g'.cache = g.cache ++ [(key, g.loads.length)])
    (starts : g'.pendingStarts = g.pendingStarts ++ [g.loads.length]) : g'.LoadsAgree where
  keys_nodup := by
    rw [cache, List.map_append, List.nodup_append]
    refine ⟨hg.keys_nodup, by simp, ?_⟩
    intro k hk k' hk' heq
    rw [List.map_singleton, List.mem_singleton] at hk'
    rw [heq, hk'] at hk
    exact not_mem_keys_of_lookup absent hk
  cached_key h := by
    rw [cache, List.mem_append, List.mem_singleton] at h
    rw [loads]
    rcases h with h | h
    · obtain ⟨l, hl, hk⟩ := hg.cached_key h
      exact ⟨l, getElem?_append_one_of_some hl, hk⟩
    · cases h
      exact ⟨⟨key, false, none⟩, by simp, rfl⟩
  cached h hf := by
    rw [loads] at h
    rw [cache, List.mem_append, List.mem_singleton]
    -- a load that is not the new one was in the cache before
    rcases getElem?_append_one h with h | ⟨hi, rfl⟩
    · exact Or.inl (hg.cached h hf)
    · exact Or.inr (by rw [hi])
  unended h hs := by
    rw [loads] at h
    rcases getElem?_append_one h with h | ⟨-, rfl⟩
    · exact hg.unended h hs
    · rfl
  starts_nodup := by
    rw [starts, List.nodup_append]
    refine ⟨hg.starts_nodup, by simp, ?_⟩
    intro load hload last hlast heq
    rw [List.mem_singleton] at hlast
    -- whatever was to be started was there already, so it has a lower number
    obtain ⟨l, hl, -⟩ := hg.unstarted hload
    have := (List.getElem?_eq_some_iff.mp hl).1
    omega
  unstarted h := by
    rw [starts, List.mem_append, List.mem_singleton] at h
    rw [loads]
    rcases h with h | rfl
    · obtain ⟨l, hl, hs⟩ := hg.unstarted h
      exact ⟨l, getElem?_append_one_of_some hl, hs⟩
    · exact ⟨⟨key, false, none⟩, by simp, rfl⟩

/-- An entry of a list after a change at one place. -/
theorem getElem?_of_modify {β : Type} {xs : List β} {f : β → β} {i j : Nat} {y : β}
    (h : (xs.modify i f)[j]? = some y) :
    ∃ x, xs[j]? = some x ∧ y = if i = j then f x else x := by
  rw [List.getElem?_modify] at h
  obtain ⟨x, hx, rfl⟩ := Option.map_eq_some_iff.mp h
  exact ⟨x, hx, rfl⟩

theorem getElem?_modify_of_some {β : Type} {xs : List β} {f : β → β} {i j : Nat} {x : β}
    (h : xs[j]? = some x) : (xs.modify i f)[j]? = some (if i = j then f x else x) := by
  rw [List.getElem?_modify, h]
  rfl

theorem LoadsAgree.started (hg : g.LoadsAgree) {load : Nat}
    (loads : g'.loads = g.loads.modify load fun l => { l with started := true })
    (cache : g'.cache = g.cache) (starts : g.pendingStarts = load :: g'.pendingStarts) :
    g'.LoadsAgree where
  keys_nodup := by rw [cache]; exact hg.keys_nodup
  cached_key h := by
    rw [cache] at h
    obtain ⟨l, hl, hk⟩ := hg.cached_key h
    rw [loads]
    refine ⟨_, getElem?_modify_of_some hl, ?_⟩
    split <;> exact hk
  cached {other l'} h hf := by
    rw [loads] at h
    obtain ⟨l, hl, rfl⟩ := getElem?_of_modify h
    rw [cache]
    by_cases heq : load = other
    · rw [if_pos heq] at hf ⊢
      exact hg.cached (l := l) hl hf
    · rw [if_neg heq] at hf ⊢
      exact hg.cached hl hf
  unended {other l'} h hs := by
    rw [loads] at h
    obtain ⟨l, hl, rfl⟩ := getElem?_of_modify h
    by_cases heq : load = other
    · rw [if_pos heq] at hs
      cases hs
    · rw [if_neg heq] at hs ⊢
      exact hg.unended hl hs
  starts_nodup := by
    have := hg.starts_nodup
    rw [starts] at this
    exact this.of_cons
  unstarted {other} h := by
    have hne : load ≠ other := by
      have := hg.starts_nodup
      rw [starts] at this
      rintro rfl
      exact (List.nodup_cons.mp this).1 h
    obtain ⟨l, hl, hs⟩ := hg.unstarted (by rw [starts]; exact List.mem_cons_of_mem _ h)
    rw [loads]
    refine ⟨_, getElem?_modify_of_some hl, ?_⟩
    rw [if_neg hne]
    exact hs

theorem LoadsAgree.finished (hg : g.LoadsAgree) {load : Nat} {result : LoadResult α}
    (running : g.isRunning load = true)
    (loads : g'.loads = g.loads.modify load fun l => { l with result := some result })
    (cache : g'.cache = g.cache) (starts : g'.pendingStarts = g.pendingStarts) :
    g'.LoadsAgree where
  keys_nodup := by rw [cache]; exact hg.keys_nodup
  cached_key h := by
    rw [cache] at h
    obtain ⟨l, hl, hk⟩ := hg.cached_key h
    rw [loads]
    refine ⟨_, getElem?_modify_of_some hl, ?_⟩
    split <;> exact hk
  cached {other l'} h hf := by
    rw [loads] at h
    obtain ⟨l, hl, rfl⟩ := getElem?_of_modify h
    rw [cache]
    by_cases heq : load = other
    · -- before its end the load was running, so it was in the cache
      subst heq
      obtain ⟨r, hr, -, hnone⟩ := (g.isRunning_iff load).mp running
      rw [hl] at hr
      cases hr
      have hmem := hg.cached hl (l.not_hasFailed_iff.mpr (Or.inl hnone))
      rw [if_pos rfl]
      exact hmem
    · rw [if_neg heq] at hf ⊢
      exact hg.cached hl hf
  unended {other l'} h hs := by
    rw [loads] at h
    obtain ⟨l, hl, rfl⟩ := getElem?_of_modify h
    by_cases heq : load = other
    · subst heq
      obtain ⟨r, hr, hstarted, -⟩ := (g.isRunning_iff load).mp running
      rw [hl] at hr
      cases hr
      rw [if_pos rfl, hstarted] at hs
      cases hs
    · rw [if_neg heq] at hs ⊢
      exact hg.unended hl hs
  starts_nodup := by rw [starts]; exact hg.starts_nodup
  unstarted h := by
    rw [starts] at h
    obtain ⟨l, hl, hs⟩ := hg.unstarted h
    rw [loads]
    refine ⟨_, getElem?_modify_of_some hl, ?_⟩
    split <;> exact hs

theorem LoadsAgree.dropped (hg : g.LoadsAgree) {load : Nat} (failed : g.isFailed load = true)
    (loads : g'.loads = g.loads)
    (cache : g'.cache = g.cache.filter fun entry => entry.2 != load)
    (starts : g'.pendingStarts = g.pendingStarts) : g'.LoadsAgree where
  keys_nodup := by
    rw [cache]
    exact hg.keys_nodup.sublist (List.filter_sublist.map _)
  cached_key h := by
    rw [cache] at h
    rw [loads]
    exact hg.cached_key (List.mem_filter.mp h).1
  cached {other l} h hf := by
    rw [loads] at h
    rw [cache]
    refine List.mem_filter.mpr ⟨hg.cached h hf, ?_⟩
    -- only the failed load leaves, and this one has not failed
    obtain ⟨l', hl', hfailed⟩ := (g.isFailed_iff load).mp failed
    have hne : other ≠ load := by
      rintro rfl
      rw [h] at hl'
      cases hl'
      exact hf hfailed
    simpa using hne
  unended h hs := by rw [loads] at h; exact hg.unended h hs
  starts_nodup := by rw [starts]; exact hg.starts_nodup
  unstarted h := by rw [starts] at h; rw [loads]; exact hg.unstarted h

end Moves

/-- **Every event keeps the agreement of loads and cache.** -/
theorem LoadsAgree.step {g : Gateway α} (hg : g.LoadsAgree) (e : Event α) :
    (g.step e).LoadsAgree := by
  cases g.loadMove e with
  | kept loads cache starts _ => exact hg.kept loads cache starts
  | opened key absent loads cache starts _ => exact hg.opened absent loads cache starts
  | started load loads cache starts _ => exact hg.started loads cache starts
  | finished load result running loads cache starts _ =>
      exact hg.finished running loads cache starts
  | dropped load failed loads cache starts _ => exact hg.dropped failed loads cache starts

theorem LoadsAgree.runFrom {g : Gateway α} (hg : g.LoadsAgree) (events : List (Event α)) :
    (g.runFrom events).LoadsAgree :=
  runFrom_induction hg (fun _ e h => h.step e) events

/-- Two loads for a key of which neither has failed are one. -/
theorem LoadsAgree.eq_of_not_failed {g : Gateway α} (hg : g.LoadsAgree) {i j : Nat}
    {l m : Load α} (hi : g.loads[i]? = some l) (hj : g.loads[j]? = some m)
    (hkey : l.key = m.key) (hl : ¬ l.hasFailed) (hm : ¬ m.hasFailed) : i = j := by
  have hjc := hg.cached hj hm
  rw [← hkey] at hjc
  exact hg.load_unique (hg.cached hi hl) hjc

/-! ## Nothing is taken back -/

/-- **The later gateway has all loads of the earlier one,** with the results they had. -/
def Extends (g g' : Gateway α) : Prop :=
  ∀ ⦃load : Nat⦄ ⦃l : Load α⦄, g.loads[load]? = some l →
    ∃ l', g'.loads[load]? = some l' ∧ l'.key = l.key ∧
      (l.started = true → l'.started = true) ∧
      ∀ result, l.result = some result → l'.result = some result

theorem Extends.refl (g : Gateway α) : g.Extends g :=
  fun _ l h => ⟨l, h, rfl, id, fun _ => id⟩

theorem Extends.trans {g g' g'' : Gateway α} (h : g.Extends g') (h' : g'.Extends g'') :
    g.Extends g'' := by
  intro load l hl
  obtain ⟨l', hl', hkey, hstarted, hresult⟩ := h hl
  obtain ⟨l'', hl'', hkey', hstarted', hresult'⟩ := h' hl'
  exact ⟨l'', hl'', hkey'.trans hkey, fun hs => hstarted' (hstarted hs),
    fun result hr => hresult' result (hresult result hr)⟩

/-- No event takes back a load or its result. -/
theorem extends_step (g : Gateway α) (e : Event α) : g.Extends (g.step e) := by
  intro load l hl
  cases g.loadMove e with
  | kept loads => exact ⟨l, by rw [loads]; exact hl, rfl, id, fun _ => id⟩
  | opened key absent loads =>
      exact ⟨l, by rw [loads]; exact getElem?_append_one_of_some hl, rfl, id, fun _ => id⟩
  | started other loads =>
      refine ⟨_, by rw [loads]; exact getElem?_modify_of_some hl, ?_, ?_, ?_⟩ <;> split
      · rfl
      · rfl
      · exact fun _ => rfl
      · exact id
      · exact fun _ => id
      · exact fun _ => id
  | finished other result running loads =>
      refine ⟨_, by rw [loads]; exact getElem?_modify_of_some hl, ?_, ?_, ?_⟩ <;>
        by_cases heq : other = load
      · rw [if_pos heq]
      · rw [if_neg heq]
      · rw [if_pos heq]; exact id
      · rw [if_neg heq]; exact id
      · -- a load that runs has no result yet
        subst heq
        obtain ⟨r, hr, -, hnone⟩ := (g.isRunning_iff other).mp running
        rw [hl] at hr
        cases hr
        intro result' h
        rw [hnone] at h
        cases h
      · rw [if_neg heq]; exact fun _ => id
  | dropped other failed loads => exact ⟨l, by rw [loads]; exact hl, rfl, id, fun _ => id⟩

theorem extends_runFrom (g : Gateway α) (events : List (Event α)) :
    g.Extends (g.runFrom events) :=
  runFrom_induction (p := g.Extends) (Extends.refl g)
    (fun g' e h => h.trans (extends_step g' e)) events

theorem Extends.resultOf {g g' : Gateway α} (h : g.Extends g') {load : Nat}
    {result : LoadResult α} (hr : g.resultOf load = some result) :
    g'.resultOf load = some result := by
  obtain ⟨l, hl, hres⟩ := (g.resultOf_eq_some_iff load result).mp hr
  obtain ⟨l', hl', -, -, hkeep⟩ := h hl
  exact (g'.resultOf_eq_some_iff load result).mpr ⟨l', hl', hkeep result hres⟩

/-! ## Callers -/

/-- **What callers were told is how their loads ended,** and those that have gone on are the ones
listed as departed. -/
structure CallersAgree (g : Gateway α) : Prop where
  /-- What a caller is told is how its load ended. -/
  told {caller load : Nat} {result : LoadResult α}
    (h : g.callers[caller]? = some ⟨load, .told result⟩) : g.resultOf load = some result
  /-- What a caller obtains is how its load ended, unless it was cancelled. -/
  gone {caller load : Nat} {result : LoadResult α}
    (h : g.callers[caller]? = some ⟨load, .gone result⟩) :
    result = .cancelled ∨ g.resultOf load = some result
  /-- The callers that have gone on have departed. -/
  departed {caller load : Nat} {result : LoadResult α}
    (h : g.callers[caller]? = some ⟨load, .gone result⟩) : caller ∈ g.departures
  /-- The callers that have departed have gone on. -/
  left {caller : Nat} (h : caller ∈ g.departures) :
    ∃ load result, g.callers[caller]? = some ⟨load, .gone result⟩
  departures_nodup : g.departures.Nodup

theorem callersAgree_empty : CallersAgree ({} : Gateway α) where
  told h := by simp at h
  gone h := by simp at h
  departed h := by simp at h
  left h := by simp at h
  departures_nodup := List.nodup_nil

/-- A caller after one caller was brought into another state. -/
theorem getElem?_modify_state {callers : List (Caller α)} {caller other load : Nat}
    {state new : CallerState α}
    (h : (callers.modify caller fun c => { c with state := new })[other]? = some ⟨load, state⟩) :
    (other ≠ caller ∧ callers[other]? = some ⟨load, state⟩) ∨
    (other = caller ∧ state = new ∧ ∃ old, callers[caller]? = some ⟨load, old⟩) := by
  obtain ⟨c, hc, heq⟩ := getElem?_of_modify h
  by_cases hne : caller = other
  · rw [if_pos hne] at heq
    subst hne
    cases heq
    exact Or.inr ⟨rfl, rfl, c.state, hc⟩
  · rw [if_neg hne] at heq
    subst heq
    exact Or.inl ⟨fun h => hne h.symm, hc⟩

/-- A caller that comes leaves the others as they are. -/
theorem CallersAgree.appended {g g' : Gateway α} (hg : g.CallersAgree) (hext : g.Extends g')
    {c : Caller α} (hc : c.state = .waiting ∨
      ∃ result, c.state = .gone result ∧ g.resultOf c.load = some result)
    (callers : g'.callers = g.callers ++ [c])
    (departures : g'.departures =
      g.departures ++ match c.state with
        | .gone _ => [g.callers.length]
        | _ => []) : g'.CallersAgree where
  told h := by
    rw [callers] at h
    rcases getElem?_append_one h with h | ⟨-, rfl⟩
    · exact hext.resultOf (hg.told h)
    · rcases hc with hc | ⟨_, hc, -⟩ <;> cases hc
  gone h := by
    rw [callers] at h
    rcases getElem?_append_one h with h | ⟨-, rfl⟩
    · exact (hg.gone h).imp_right hext.resultOf
    · rcases hc with hc | ⟨_, hc, hr⟩
      · cases hc
      · cases hc
        exact Or.inr (hext.resultOf hr)
  departed h := by
    rw [callers] at h
    rw [departures, List.mem_append]
    rcases getElem?_append_one h with h | ⟨hi, rfl⟩
    · exact Or.inl (hg.departed h)
    · exact Or.inr (by rw [hi]; exact List.mem_singleton_self _)
  left h := by
    rw [departures, List.mem_append] at h
    rw [callers]
    rcases h with h | h
    · obtain ⟨load, result, hcaller⟩ := hg.left h
      exact ⟨load, result, getElem?_append_one_of_some hcaller⟩
    · rcases hc with hc | ⟨result, hc, -⟩
      · rw [hc] at h
        cases h
      · rw [hc, List.mem_singleton] at h
        refine ⟨c.load, result, ?_⟩
        rw [h, List.getElem?_append_right (Nat.le_refl _), Nat.sub_self]
        simp [← hc]
  departures_nodup := by
    rw [departures, List.nodup_append]
    refine ⟨hg.departures_nodup, ?_, ?_⟩
    · split <;> simp
    · -- whoever departed before has a lower number than the new caller
      intro caller hcaller last hlast heq
      obtain ⟨load, result, hgone⟩ := hg.left hcaller
      have hlt := (List.getElem?_eq_some_iff.mp hgone).1
      split at hlast
      · rw [List.mem_singleton] at hlast
        omega
      · cases hlast

/-- A caller that is told or cancelled has not gone on. -/
theorem CallersAgree.moved {g g' : Gateway α} (hg : g.CallersAgree) (hext : g.Extends g')
    {caller load : Nat} {before after : CallerState α}
    (hc : g.callers[caller]? = some ⟨load, before⟩)
    (hbefore : before = .waiting ∨ ∃ result, before = .told result)
    (hafter : after = .leaving ∨
      ∃ result, after = .told result ∧ g.resultOf load = some result)
    (callers : g'.callers = g.callers.modify caller fun c => { c with state := after })
    (departures : g'.departures = g.departures) : g'.CallersAgree where
  told h := by
    rw [callers] at h
    rcases getElem?_modify_state h with ⟨-, h⟩ | ⟨-, hs, old, hold⟩
    · exact hext.resultOf (hg.told h)
    · rw [hc] at hold
      cases hold
      rcases hafter with rfl | ⟨result, rfl, hr⟩
      · cases hs
      · cases hs
        exact hext.resultOf hr
  gone h := by
    rw [callers] at h
    rcases getElem?_modify_state h with ⟨-, h⟩ | ⟨-, hs, -⟩
    · exact (hg.gone h).imp_right hext.resultOf
    · rcases hafter with rfl | ⟨result, rfl, -⟩ <;> cases hs
  departed h := by
    rw [callers] at h
    rw [departures]
    rcases getElem?_modify_state h with ⟨-, h⟩ | ⟨-, hs, -⟩
    · exact hg.departed h
    · rcases hafter with rfl | ⟨result, rfl, -⟩ <;> cases hs
  left {other} h := by
    rw [departures] at h
    obtain ⟨load', result, hgone⟩ := hg.left h
    -- a caller that had departed is not the one that moves
    have hne : caller ≠ other := by
      rintro rfl
      rw [hc] at hgone
      cases hgone
      rcases hbefore with hb | ⟨_, hb⟩ <;> cases hb
    refine ⟨load', result, ?_⟩
    rw [callers, List.getElem?_modify_ne _ _ hne]
    exact hgone
  departures_nodup := by rw [departures]; exact hg.departures_nodup

/-- A caller that goes on departs. -/
theorem CallersAgree.departing {g g' : Gateway α} (hg : g.CallersAgree) (hext : g.Extends g')
    {caller load : Nat} {before : CallerState α} {result : LoadResult α}
    (hc : g.callers[caller]? = some ⟨load, before⟩)
    (obtains : before = .told result ∨ (before = .leaving ∧ result = .cancelled))
    (callers : g'.callers = g.callers.modify caller fun c => { c with state := .gone result })
    (departures : g'.departures = g.departures ++ [caller]) : g'.CallersAgree where
  told h := by
    rw [callers] at h
    rcases getElem?_modify_state h with ⟨-, h⟩ | ⟨-, hs, -⟩
    · exact hext.resultOf (hg.told h)
    · cases hs
  gone h := by
    rw [callers] at h
    rcases getElem?_modify_state h with ⟨-, h⟩ | ⟨-, hs, old, hold⟩
    · exact (hg.gone h).imp_right hext.resultOf
    · cases hs
      rw [hc] at hold
      cases hold
      rcases obtains with rfl | ⟨-, rfl⟩
      · exact Or.inr (hext.resultOf (hg.told hc))
      · exact Or.inl rfl
  departed h := by
    rw [callers] at h
    rw [departures, List.mem_append, List.mem_singleton]
    rcases getElem?_modify_state h with ⟨-, h⟩ | ⟨heq, -, -⟩
    · exact Or.inl (hg.departed h)
    · exact Or.inr heq
  left {other} h := by
    rw [departures, List.mem_append, List.mem_singleton] at h
    rw [callers]
    by_cases hne : caller = other
    · subst hne
      exact ⟨load, result, by rw [getElem?_modify_of_some hc, if_pos rfl]⟩
    · obtain ⟨load', result', hgone⟩ := hg.left (h.resolve_right fun h => hne h.symm)
      exact ⟨load', result', by rw [List.getElem?_modify_ne _ _ hne]; exact hgone⟩
  departures_nodup := by
    rw [departures, List.nodup_append]
    refine ⟨hg.departures_nodup, by simp, ?_⟩
    rintro other hother last hlast rfl
    rw [List.mem_singleton] at hlast
    obtain ⟨load', result', hgone⟩ := hg.left hother
    -- who has left before is gone already
    rw [hlast, hc] at hgone
    cases hgone
    rcases obtains with hb | ⟨hb, -⟩ <;> cases hb

/-- **Every event keeps what callers were told in agreement with the loads.** -/
theorem CallersAgree.step {g : Gateway α} (hg : g.CallersAgree) (e : Event α) :
    (g.step e).CallersAgree := by
  have hext := extends_step g e
  cases g.callerMove e with
  | kept _ callers departures =>
      exact ⟨fun h => hext.resultOf (hg.told (by rwa [callers] at h)),
        fun h => (hg.gone (by rwa [callers] at h)).imp_right hext.resultOf,
        fun h => by rw [departures]; exact hg.departed (by rwa [callers] at h),
        fun h => by rw [callers]; exact hg.left (by rwa [departures] at h),
        by rw [departures]; exact hg.departures_nodup⟩
  | joined key load _ _ callers departures =>
      exact hg.appended hext (Or.inl rfl) callers (by rw [departures]; simp)
  | served key load result _ _ ended callers departures =>
      exact hg.appended hext (Or.inr ⟨result, rfl, ended⟩) callers departures
  | told caller load result _ before ended callers departures =>
      exact hg.moved hext before (Or.inl rfl) (Or.inr ⟨result, rfl, ended⟩) callers departures
  | cancelled caller load state _ before there callers departures =>
      exact hg.moved hext before there (Or.inl rfl) callers departures
  | departed caller load state result _ before obtains callers departures =>
      exact hg.departing hext before obtains callers departures

/-! ## What callers obtain -/

theorem obtained_eq_some_iff (g : Gateway α) (caller : Nat) (result : LoadResult α) :
    g.obtained caller = some result ↔ ∃ load, g.callers[caller]? = some ⟨load, .gone result⟩ := by
  unfold obtained
  cases h : g.callers[caller]? with
  | none => simp
  | some c =>
      obtain ⟨load, state⟩ := c
      cases state <;> simp

/-- A caller that has gone on keeps what it obtained. -/
theorem obtained_step (g : Gateway α) (e : Event α) {caller : Nat} {result : LoadResult α}
    (h : g.obtained caller = some result) : (g.step e).obtained caller = some result := by
  obtain ⟨load, hc⟩ := (g.obtained_eq_some_iff caller result).mp h
  refine ((g.step e).obtained_eq_some_iff caller result).mpr ⟨load, ?_⟩
  cases g.callerMove e with
  | kept _ callers => rw [callers]; exact hc
  | joined _ _ _ _ callers => rw [callers]; exact getElem?_append_one_of_some hc
  | served _ _ _ _ _ _ callers => rw [callers]; exact getElem?_append_one_of_some hc
  | told other _ _ _ before _ callers =>
      have hne : other ≠ caller := by
        rintro rfl
        rw [hc] at before
        cases before
      rw [callers, List.getElem?_modify_ne _ _ hne]
      exact hc
  | cancelled other _ _ _ before there callers =>
      have hne : other ≠ caller := by
        rintro rfl
        rw [hc] at before
        cases before
        rcases there with h | ⟨_, h⟩ <;> cases h
      rw [callers, List.getElem?_modify_ne _ _ hne]
      exact hc
  | departed other _ _ _ _ before obtains callers =>
      have hne : other ≠ caller := by
        rintro rfl
        rw [hc] at before
        cases before
        rcases obtains with h | ⟨h, -⟩ <;> cases h
      rw [callers, List.getElem?_modify_ne _ _ hne]
      exact hc

/-- Only an event in which a caller departs gives it something. -/
theorem mem_departures_iff {g : Gateway α} (hg : g.CallersAgree) (caller : Nat) :
    caller ∈ g.departures ↔ ∃ result, g.obtained caller = some result := by
  constructor
  · intro h
    obtain ⟨load, result, hc⟩ := hg.left h
    exact ⟨result, (g.obtained_eq_some_iff caller result).mpr ⟨load, hc⟩⟩
  · rintro ⟨result, h⟩
    obtain ⟨load, hc⟩ := (g.obtained_eq_some_iff caller result).mp h
    exact hg.departed hc

end Gateway

end OscalValidation
