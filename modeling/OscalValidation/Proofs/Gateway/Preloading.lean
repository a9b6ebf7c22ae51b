import OscalValidation.Proofs.Attempts
import OscalValidation.Proofs.Gateway.Calls
import OscalValidation.Proofs.Gateway.Projection
import OscalValidation.Proofs.Lists

set_option autoImplicit false

/-! # Preloading

To preload is to ask for several keys at the same time. The engine is asked once for each key that
nothing serves yet, each load stands or falls by itself, the first failure is told, and all that
does not concern the keys goes on as without it (`Preloaded`). Main statement: so it is whenever the
gateway comes to rest (`preload_spec`).
-/

namespace OscalValidation

namespace Gateway

variable {σ α : Type}

/-! ## What the engine is asked for -/

def keyOf? (g : Gateway α) (load : Nat) : Option RuleKey := g.loads[load]?.map (·.key)

/-- **The keys that the engine is asked for** when events happen. -/
def askedKeys (g : Gateway α) : List (Event α) → List RuleKey
  | [] => []
  | e :: rest => (g.startedBy e).filterMap g.keyOf? ++ askedKeys (g.step e) rest

/-- The keys that the engine is still to be asked for. -/
def owedKeys (g : Gateway α) : List RuleKey := g.pendingStarts.filterMap g.keyOf?

/-- **The keys that nothing serves,** each once. -/
def freshKeys (g : Gateway α) (keys : List RuleKey) : List RuleKey :=
  (keys.filter fun key => (g.cache.lookup key).isNone).eraseDups

theorem mem_freshKeys_iff {g : Gateway α} {keys : List RuleKey} {key : RuleKey} :
    key ∈ g.freshKeys keys ↔ key ∈ keys ∧ g.cache.lookup key = none := by
  simp [freshKeys, List.mem_eraseDups]

theorem nodup_freshKeys (g : Gateway α) (keys : List RuleKey) : (g.freshKeys keys).Nodup :=
  nodup_eraseDups _

/-- Without requests the loads keep their keys, and no load comes. -/
theorem keyOf?_step (g : Gateway α) {e : Event α} (he : e.key? = none) :
    (g.step e).keyOf? = g.keyOf? := by
  have hmodify : ∀ {f : Load α → Load α} {load : Nat},
      (g.step e).loads = g.loads.modify load f → (∀ l, (f l).key = l.key) →
      (g.step e).keyOf? = g.keyOf? := by
    intro f load loads hf
    funext other
    rw [keyOf?, keyOf?, loads, List.getElem?_modify]
    cases g.loads[other]? with
    | none => rfl
    | some l => by_cases heq : load = other <;> simp [heq, hf]
  cases g.loadMove e with
  | kept loads => rw [funext_iff]; intro load; rw [keyOf?, keyOf?, loads]
  | opened _ _ _ _ _ _ event =>
      rw [he] at event
      cases event
  | started _ loads => exact hmodify loads fun _ => rfl
  | finished _ _ _ loads => exact hmodify loads fun _ => rfl
  | dropped _ _ loads => rw [funext_iff]; intro load; rw [keyOf?, keyOf?, loads]

/-- **The engine is asked for what it is owed, in this order.** -/
theorem askedKeys_append_owedKeys (g : Gateway α) {events : List (Event α)}
    (h : ∀ e ∈ events, e.key? = none) :
    g.askedKeys events ++ (g.runFrom events).owedKeys = g.owedKeys := by
  induction events generalizing g with
  | nil => rfl
  | cons e rest ih =>
      obtain ⟨he, hrest⟩ := List.forall_mem_cons.mp h
      have howed : (g.startedBy e).filterMap g.keyOf? ++ (g.step e).owedKeys = g.owedKeys := by
        rw [owedKeys, owedKeys, g.keyOf?_step he, ← List.filterMap_append]
        congr 1
        cases g.loadMove e with
        | kept _ _ starts asked => rw [starts, asked, List.nil_append]
        | opened _ _ _ _ _ _ event =>
            rw [he] at event
            cases event
        | started load _ _ starts asked => rw [starts, asked, List.singleton_append]
        | finished _ _ _ _ _ starts asked => rw [starts, asked, List.nil_append]
        | dropped _ _ _ _ starts asked => rw [starts, asked, List.nil_append]
      rw [askedKeys, List.append_assoc]
      rw [show g.runFrom (e :: rest) = (g.step e).runFrom rest from rfl, ih (g.step e) hrest]
      exact howed

theorem askedKeys_append (g : Gateway α) (events later : List (Event α)) :
    g.askedKeys (events ++ later) = g.askedKeys events ++ (g.runFrom events).askedKeys later := by
  induction events generalizing g with
  | nil => rfl
  | cons e rest ih =>
      rw [List.cons_append, askedKeys, askedKeys, ih, List.append_assoc]
      rfl

/-! ## Several requests -/

theorem requestAll_cons (g : Gateway α) (key : RuleKey) (rest : List RuleKey) :
    g.requestAll (key :: rest) = (((g.request key).1.requestAll rest).1,
      (g.request key).2 :: ((g.request key).1.requestAll rest).2) := rfl

theorem requestAll_eq (g : Gateway α) (keys : List RuleKey) :
    (g.requestAll keys).1 = g.runFrom (keys.map .request) := by
  induction keys generalizing g with
  | nil => rfl
  | cons key rest ih => exact ih (g.request key).1

theorem lookup_request {g : Gateway α} {key other : RuleKey} {load : Nat}
    (h : g.cache.lookup other = some load) :
    (g.request key).1.cache.lookup other = some load := by
  rcases g.request_cases key with ⟨-, hr⟩ | ⟨_, -, -, hr⟩ | ⟨_, _, -, -, hr⟩ <;> rw [hr]
  · rw [List.lookup_append, h]
    rfl
  · exact h
  · exact h

/-- Whatever serves a key goes on serving it when others are asked for. -/
theorem lookup_requestAll {g : Gateway α} {key : RuleKey} {load : Nat} {keys : List RuleKey}
    (h : g.cache.lookup key = some load) :
    (g.requestAll keys).1.cache.lookup key = some load := by
  induction keys generalizing g with
  | nil => exact h
  | cons other rest ih => exact ih (lookup_request h)

/-- **Each caller shares the load that serves its key.** -/
theorem shares_requestAll (g : Gateway α) (keys : List RuleKey) :
    List.Forall₂ (fun key caller => ∃ load,
      (g.requestAll keys).1.cache.lookup key = some load ∧
        (g.requestAll keys).1.Shares caller load) keys (g.requestAll keys).2 := by
  induction keys generalizing g with
  | nil => exact .nil
  | cons key rest ih =>
      obtain ⟨load, hlookup, hshares⟩ := g.shares_request key
      rw [requestAll_cons, snd_request]
      refine .cons ⟨load, lookup_requestAll hlookup, ?_⟩ (ih (g.request key).1)
      rw [requestAll_eq]
      refine hshares.runFrom fun e he => ?_
      obtain ⟨other, -, rfl⟩ := List.mem_map.mp he
      nofun

/-- A key that nothing serves is owed once it is asked for. -/
theorem owedKeys_request {g : Gateway α} (hg : g.LoadsAgree) (key : RuleKey) :
    (g.request key).1.owedKeys =
      g.owedKeys ++ if (g.cache.lookup key).isNone then [key] else [] := by
  rcases g.request_cases key with ⟨hc, hr⟩ | ⟨_, hc, -, hr⟩ | ⟨_, _, hc, -, hr⟩ <;> rw [hr, hc]
  · have hstarts : pendingStarts ({ g with
        loads := g.loads ++ [⟨key, false, none⟩], cache := g.cache ++ [(key, g.loads.length)],
        callers := g.callers ++ [⟨g.loads.length, .waiting⟩],
        tasks := g.tasks ++ [.start g.loads.length] }) = g.pendingStarts ++ [g.loads.length] := by
      simp [pendingStarts]
    rw [owedKeys, hstarts, List.filterMap_append, owedKeys]
    congr 1
    · refine List.filterMap_congr fun load hload => ?_
      obtain ⟨l, hl, -⟩ := hg.unstarted hload
      rw [keyOf?, keyOf?, hl, getElem?_append_one_of_some hl]
    · simp [keyOf?]
  · exact (List.append_nil _).symm
  · exact (List.append_nil _).symm

theorem freshKeys_cons (g : Gateway α) (key : RuleKey) (rest : List RuleKey) :
    g.freshKeys (key :: rest) =
      (if (g.cache.lookup key).isNone then [key] else []) ++ (g.request key).1.freshKeys rest := by
  rcases g.request_cases key with ⟨hc, hr⟩ | ⟨_, hc, -, hr⟩ | ⟨_, _, hc, -, hr⟩
  · -- once the key is asked for, it is not absent any more
    have habsent (other : RuleKey) : ((g.request key).1.cache.lookup other).isNone =
        ((g.cache.lookup other).isNone && !(other == key)) := by
      rw [hr, List.lookup_append]
      cases g.cache.lookup other <;> cases heq : other == key <;> simp [List.lookup_cons, heq]
    rw [freshKeys, freshKeys, List.filter_cons_of_pos (by rw [hc]; rfl), List.eraseDups_cons, hc,
      List.filter_filter]
    simp only [habsent, Bool.and_comm]
    rfl
  · rw [freshKeys, freshKeys, List.filter_cons_of_neg (by rw [hc]; simp), hc, hr]
    rfl
  · rw [freshKeys, freshKeys, List.filter_cons_of_neg (by rw [hc]; simp), hc, hr]
    rfl

/-- **What the engine is owed after several requests.** -/
theorem owedKeys_requestAll {g : Gateway α} (hg : g.LoadsAgree) (keys : List RuleKey) :
    (g.requestAll keys).1.owedKeys = g.owedKeys ++ g.freshKeys keys := by
  induction keys generalizing g with
  | nil => exact (List.append_nil _).symm
  | cons key rest ih =>
      have hrest := ih (hg.step (.request key))
      rw [freshKeys_cons, ← List.append_assoc, ← owedKeys_request hg]
      exact hrest

/-! ## Failures and loaded keys -/

/-- **The failure that comes first** among those that callers obtained. -/
def firstFailure (g : Gateway α) (callers : List Nat) : Option (LoadResult α) :=
  (g.departures.filter callers.contains).findSome? fun caller =>
    (g.obtained caller).bind fun result => if isFailure result then some result else none

theorem firstFailure_isSome_iff {g : Gateway α} (hg : g.CallersAgree) {callers : List Nat} :
    (g.firstFailure callers).isSome = true ↔
      ∃ caller ∈ callers, ∃ result, g.obtained caller = some result ∧ isFailure result = true := by
  rw [firstFailure, List.findSome?_isSome_iff]
  constructor
  · rintro ⟨caller, hcaller, hsome⟩
    obtain ⟨failure, hfailure⟩ := Option.isSome_iff_exists.mp hsome
    obtain ⟨result, hobtained, hresult⟩ := Option.bind_eq_some_iff.mp hfailure
    split at hresult
    · next hfails =>
      refine ⟨caller, ?_, result, hobtained, hfails⟩
      simpa using (List.mem_filter.mp hcaller).2
    · cases hresult
  · rintro ⟨caller, hcaller, result, hobtained, hfails⟩
    refine ⟨caller, List.mem_filter.mpr ⟨?_, by simpa using hcaller⟩, ?_⟩
    · exact (mem_departures_iff hg caller).mpr ⟨result, hobtained⟩
    · simp [hobtained, hfails]

theorem isFailed_iff_isFailure (g : Gateway α) (load : Nat) :
    g.isFailed load = true ↔ ∃ result, g.resultOf load = some result ∧ isFailure result = true := by
  unfold isFailed
  cases g.resultOf load with
  | none => simp
  | some result => cases result <;> simp [isFailure]

/-- **A key counts as loaded exactly if the load that serves it succeeded.** -/
theorem mem_loadedKeys_iff {g : Gateway α} (hg : g.LoadsAgree) {key : RuleKey} :
    key ∈ g.loadedKeys ↔ ∃ load handle, g.cache.lookup key = some load ∧
      g.resultOf load = some (.loaded handle) := by
  have hhandle {result : LoadResult α} {handle : α} :
      result.handle? = some handle ↔ result = .loaded handle := by
    cases result <;> simp [LoadResult.handle?]
  simp only [loadedKeys, List.mem_map, List.mem_filter]
  constructor
  · rintro ⟨⟨_, load⟩, ⟨hmem, hready⟩, rfl⟩
    obtain ⟨handle, hready⟩ := Option.isSome_iff_exists.mp hready
    obtain ⟨result, hresult, hloaded⟩ := Option.bind_eq_some_iff.mp hready
    rw [hhandle] at hloaded
    exact ⟨load, handle, lookup_eq_of_mem hg hmem, hloaded ▸ hresult⟩
  · rintro ⟨load, handle, hlookup, hresult⟩
    exact ⟨(key, load), ⟨mem_cache_of_lookup hlookup, by simp [hresult, LoadResult.handle?]⟩, rfl⟩

/-- Without requests nothing comes into the cache. -/
theorem mem_cache_of_runFrom {g : Gateway α} {later : List (Event α)}
    (hlater : ∀ e ∈ later, e.key? = none) {entry : RuleKey × Nat}
    (h : entry ∈ (g.runFrom later).cache) : entry ∈ g.cache := by
  induction later generalizing g with
  | nil => exact h
  | cons e rest ih =>
      obtain ⟨he, hrest⟩ := List.forall_mem_cons.mp hlater
      have hstep : entry ∈ (g.step e).cache := ih hrest h
      cases g.loadMove e with
      | kept _ cache => rwa [cache] at hstep
      | opened _ _ _ _ _ _ event =>
          rw [he] at event
          cases event
      | started _ _ cache => rwa [cache] at hstep
      | finished _ _ _ _ cache => rwa [cache] at hstep
      | dropped _ _ _ cache =>
          rw [cache] at hstep
          exact List.mem_of_mem_filter hstep

/-- **A key that is served counts as loaded later exactly if that load succeeded.** -/
theorem mem_loadedKeys_runFrom_iff {g : Gateway α} (hg : g.LoadsAgree) {later : List (Event α)}
    (hlater : ∀ e ∈ later, e.key? = none) {key : RuleKey} {load : Nat}
    (h : g.cache.lookup key = some load) :
    key ∈ (g.runFrom later).loadedKeys ↔
      ∃ handle, (g.runFrom later).resultOf load = some (.loaded handle) := by
  rw [mem_loadedKeys_iff (hg.runFrom later)]
  constructor
  · rintro ⟨other, handle, hlookup, hresult⟩
    have hmem := mem_cache_of_runFrom hlater (mem_cache_of_lookup hlookup)
    rw [hg.load_unique hmem (mem_cache_of_lookup h)] at hresult
    exact ⟨handle, hresult⟩
  · rintro ⟨handle, hresult⟩
    obtain ⟨l, hl, rfl⟩ := hg.cached_key (mem_cache_of_lookup h)
    obtain ⟨l', hl', hkey, -⟩ := extends_runFrom g later hl
    have hstands : ¬ l'.hasFailed := by
      rw [l'.not_hasFailed_iff]
      obtain ⟨l'', hl'', hr⟩ := (resultOf_eq_some_iff _ _ _).mp hresult
      cases hl'.symm.trans hl''
      exact Or.inr ⟨handle, hr⟩
    have hcached := (hg.runFrom later).cached hl' hstands
    rw [hkey] at hcached
    exact ⟨load, handle, lookup_eq_of_mem (hg.runFrom later) hcached, hresult⟩

/-! ## Other keys -/

/-- **How a key stands:** whether a load serves it, and how that load ended if it has. -/
def status (g : Gateway α) (key : RuleKey) : Option (Option (LoadResult α)) :=
  (g.cache.lookup key).map g.resultOf

theorem mem_loadedKeys_iff_status {g : Gateway α} (hg : g.LoadsAgree) {key : RuleKey} :
    key ∈ g.loadedKeys ↔ ∃ handle, g.status key = some (some (.loaded handle)) := by
  rw [mem_loadedKeys_iff hg]
  simp only [status, Option.map_eq_some_iff]
  constructor
  · rintro ⟨load, handle, hlookup, hresult⟩
    exact ⟨handle, load, hlookup, hresult⟩
  · rintro ⟨handle, load, hlookup, hresult⟩
    exact ⟨load, handle, hlookup, hresult⟩

/-- Keys that only first loads are for stand in what was there before as in the whole. -/
theorem status_restrict {g : Gateway α} {n m : Nat} (hg : g.LoadsAgree)
    (hrest : (g.restrict n m).LoadsAgree) {key : RuleKey}
    (h : ∀ load, (key, load) ∈ g.cache → load < n) :
    (g.restrict n m).status key = g.status key := by
  cases hlookup : g.cache.lookup key with
  | none =>
      have hnone : (g.restrict n m).cache.lookup key = none := by
        rw [← Option.not_isSome_iff_eq_none]
        intro hsome
        obtain ⟨load, hload⟩ := Option.isSome_iff_exists.mp hsome
        have hmem := List.mem_of_mem_filter (mem_cache_of_lookup hload)
        rw [lookup_eq_of_mem hg hmem] at hlookup
        cases hlookup
      rw [status, status, hnone, hlookup]
      rfl
  | some load =>
      have hmem := mem_cache_of_lookup hlookup
      have hlt := h load hmem
      have hsome : (g.restrict n m).cache.lookup key = some load :=
        lookup_eq_of_mem hrest (List.mem_filter.mpr ⟨hmem, decide_eq_true hlt⟩)
      rw [status, status, hsome, hlookup, Option.map_some, Option.map_some,
        restrict_resultOf hlt]

/-! ## Preloading -/

/-- The keys that are asked for when the artifacts of several types are preloaded; without types,
those of all. -/
def preloadKeys (ruleset : Ruleset) (types : List DocumentType) : List RuleKey :=
  (if types.isEmpty then DocumentType.all else types).map fun type => ⟨type, ruleset⟩

/-- **What has come of asking for keys at the same time:** a gateway `g` was asked for them, which
made it `now` and brought the callers, and later events took it to rest in `after`. -/
structure Preloaded (g now after : Gateway α) (keys : List RuleKey) (callers : List Nat)
    (later : List (Event α)) : Prop where
  /-- The engine was asked for what it was owed before, and then for the keys that nothing
  served. -/
  asked : now.askedKeys later = g.owedKeys ++ g.freshKeys keys
  /-- Each of these keys was asked for, did not count as loaded, and had no load under way. -/
  fresh : (g.freshKeys keys).Nodup ∧
    (∀ key ∈ g.freshKeys keys, key ∈ keys ∧ key ∉ g.loadedKeys) ∧
    ∀ (load : Nat) (l : Load α), g.loads[load]? = some l → l.result = none →
      l.key ∉ g.freshKeys keys
  /-- There is a failure to tell exactly if the load for one of the keys failed. -/
  failed : (after.firstFailure callers).isSome = true ↔
    ∃ key ∈ keys, ∃ load, now.cache.lookup key = some load ∧ after.isFailed load = true
  /-- Each key has a load, and counts as loaded exactly if that load succeeded. -/
  loaded : ∀ key ∈ keys, ∃ load, now.cache.lookup key = some load ∧
    (key ∈ after.loadedKeys ↔ ∃ handle, after.resultOf load = some (.loaded handle))
  /-- The earlier loads and callers and all other keys are as their share of the events leaves them
  if nothing is asked for. -/
  apart : ∃ events, IsShareOf g.loads.length g.callers.length events later ∧
    (g.runFrom events).tasks = [] ∧
    (∀ load < g.loads.length, after.loads[load]? = (g.runFrom events).loads[load]?) ∧
    (∀ caller < g.callers.length, after.callers[caller]? = (g.runFrom events).callers[caller]?) ∧
    ∀ key ∉ keys, after.status key = (g.runFrom events).status key ∧
      (key ∈ after.loadedKeys ↔ key ∈ (g.runFrom events).loadedKeys)

section Preloaded

variable {g : Gateway α} {keys : List RuleKey} {later : List (Event α)}

/-- A caller of several obtains how the load that serves its key ended, when the gateway is at
rest. -/
theorem obtained_requestAll (hg : g.Sound)
    (hstay : ∀ caller ∈ (g.requestAll keys).2, ∀ e ∈ later, e ≠ .cancel caller)
    (hrest : ((g.requestAll keys).1.runFrom later).tasks = []) :
    List.Forall₂ (fun key caller => ∃ load,
      (g.requestAll keys).1.cache.lookup key = some load ∧
        ((g.requestAll keys).1.runFrom later).obtained caller =
          ((g.requestAll keys).1.runFrom later).resultOf load) keys (g.requestAll keys).2 := by
  have hnow : (g.requestAll keys).1.Sound := by
    rw [requestAll_eq]
    exact hg.runFrom _
  have hshares := g.shares_requestAll keys
  rw [List.forall₂_iff_zip] at hshares ⊢
  refine ⟨hshares.1, fun {key caller} hmem => ?_⟩
  obtain ⟨load, hlookup, hshared⟩ := hshares.2 hmem
  have hcaller : caller ∈ (g.requestAll keys).2 := (List.of_mem_zip hmem).2
  have hlater := hshared.runFrom (hstay caller hcaller)
  exact ⟨load, hlookup, hlater.obtained_eq (hnow.runFrom later).attended hrest⟩

theorem firstFailure_requestAll_iff (hg : g.Sound)
    (hstay : ∀ caller ∈ (g.requestAll keys).2, ∀ e ∈ later, e ≠ .cancel caller)
    (hrest : ((g.requestAll keys).1.runFrom later).tasks = []) :
    (((g.requestAll keys).1.runFrom later).firstFailure (g.requestAll keys).2).isSome = true ↔
      ∃ key ∈ keys, ∃ load, (g.requestAll keys).1.cache.lookup key = some load ∧
        ((g.requestAll keys).1.runFrom later).isFailed load = true := by
  have hafter : ((g.requestAll keys).1.runFrom later).Sound := by
    rw [requestAll_eq, ← runFrom_append]
    exact hg.runFrom _
  have hobtained := obtained_requestAll hg hstay hrest
  simp only [firstFailure_isSome_iff hafter.callers, isFailed_iff_isFailure]
  constructor
  · rintro ⟨caller, hcaller, result, hresult, hfails⟩
    obtain ⟨key, hkey, load, hlookup, heq⟩ := exists_of_mem_forall₂ hobtained.flip hcaller
    exact ⟨key, hkey, load, hlookup, result, heq ▸ hresult, hfails⟩
  · rintro ⟨key, hkey, load, hlookup, result, hresult, hfails⟩
    obtain ⟨caller, hcaller, load', hlookup', heq⟩ := exists_of_mem_forall₂ hobtained hkey
    rw [hlookup] at hlookup'
    cases hlookup'
    exact ⟨caller, hcaller, result, heq.trans hresult, hfails⟩

/-- A key that is not asked for gets no entry in the cache. -/
theorem mem_cache_of_requestAll {key : RuleKey} (hkey : key ∉ keys) {load : Nat}
    (h : (key, load) ∈ (g.requestAll keys).1.cache) : (key, load) ∈ g.cache := by
  induction keys generalizing g with
  | nil => exact h
  | cons first rest ih =>
      rw [List.mem_cons, not_or] at hkey
      have hfirst : (key, load) ∈ (g.request first).1.cache := ih hkey.2 h
      rcases g.request_cases first with ⟨-, hr⟩ | ⟨_, -, -, hr⟩ | ⟨_, _, -, -, hr⟩ <;>
        rw [hr] at hfirst
      · rcases List.mem_append.mp hfirst with hold | hnew
        · exact hold
        · rw [List.mem_singleton] at hnew
          cases hnew
          exact absurd rfl hkey.1
      · exact hfirst
      · exact hfirst

theorem restrict_requestAll {n m : Nat} (hn : n ≤ g.loads.length) (hm : m ≤ g.callers.length) :
    (g.requestAll keys).1.restrict n m = g.restrict n m := by
  induction keys generalizing g with
  | nil => rfl
  | cons key rest ih =>
      have hloads : n ≤ (g.request key).1.loads.length :=
        Nat.le_trans hn (g.extends_step (.request key)).length_le
      have hcallers : m ≤ (g.request key).1.callers.length := by
        have hlength : (g.request key).1.callers.length = _ :=
          Traffic.length_callers_step g (.request key)
        rw [hlength]
        exact Nat.le_add_right_of_le hm
      exact (ih hloads hcallers).trans (restrict_request hn hm key)

/-- **What was there before goes its own way.** -/
theorem apart_requestAll (hg : g.Sound) (htimely : g.Timely) (hfounded : g.Founded)
    (hlater : ∀ e ∈ later, e.key? = none) :
    ∃ events, IsShareOf g.loads.length g.callers.length events later ∧
      ((g.requestAll keys).1.runFrom later).restrict g.loads.length g.callers.length =
        g.runFrom events := by
  have hclosed : (g.requestAll keys).1.IsClosed g.loads.length g.callers.length ∧
      g.callers.length ≤ (g.requestAll keys).1.callers.length := by
    rw [requestAll_eq]
    exact runFrom_induction (p := fun g' : Gateway α => g'.IsClosed g.loads.length g.callers.length ∧
      g.callers.length ≤ g'.callers.length) ⟨hfounded.callers, Nat.le_refl _⟩
      (fun _ e h => h.1.step h.2 e) _
  have hbefore : (g.requestAll keys).1.restrict g.loads.length g.callers.length = g :=
    (restrict_requestAll (Nat.le_refl _) (Nat.le_refl _)).trans (restrict_self hg htimely hfounded)
  obtain ⟨events, hshare, hrun⟩ := restrict_runFrom hclosed.1 hclosed.2 hlater
  exact ⟨events, hshare, by rw [hrun, hbefore]⟩

/-- **Whenever the gateway comes to rest,** and none of the new callers was cancelled, this has come
of asking for the keys. -/
theorem preloaded_of_rest (hg : g.Sound) (htimely : g.Timely) (hfounded : g.Founded)
    (hlater : ∀ e ∈ later, e.key? = none)
    (hstay : ∀ caller ∈ (g.requestAll keys).2, ∀ e ∈ later, e ≠ .cancel caller)
    (hrest : ((g.requestAll keys).1.runFrom later).tasks = []) :
    Preloaded g (g.requestAll keys).1 ((g.requestAll keys).1.runFrom later) keys
      (g.requestAll keys).2 later := by
  have hnow : (g.requestAll keys).1.Sound := by
    rw [requestAll_eq]
    exact hg.runFrom _
  constructor
  case asked =>
    -- at rest nothing is owed, so all that was owed has been asked for
    have howed : ((g.requestAll keys).1.runFrom later).owedKeys = [] := by
      rw [owedKeys, pendingStarts, hrest]
      rfl
    rw [← owedKeys_requestAll hg.loads, ← askedKeys_append_owedKeys _ hlater, howed,
      List.append_nil]
  case fresh =>
    refine ⟨nodup_freshKeys g keys, fun key hkey => ⟨(mem_freshKeys_iff.mp hkey).1, fun hloaded =>
      ?_⟩, fun load l hl hnone hfresh => ?_⟩
    · obtain ⟨load, -, hlookup, -⟩ := (mem_loadedKeys_iff hg.loads).mp hloaded
      rw [(mem_freshKeys_iff.mp hkey).2] at hlookup
      cases hlookup
    · have hcached := hg.loads.cached hl (l.not_hasFailed_iff.mpr (Or.inl hnone))
      have habsent := (mem_freshKeys_iff.mp hfresh).2
      rw [lookup_eq_of_mem hg.loads hcached] at habsent
      cases habsent
  case failed => exact firstFailure_requestAll_iff hg hstay hrest
  case loaded =>
    intro key hkey
    obtain ⟨caller, -, load, hlookup, -⟩ :=
      exists_of_mem_forall₂ (g.shares_requestAll keys) hkey
    exact ⟨load, hlookup, mem_loadedKeys_runFrom_iff hnow.loads hlater hlookup⟩
  case apart =>
    -- `events` are those of the later ones that concern what was there before
    obtain ⟨events, hshare, hevents⟩ := @apart_requestAll _ _ keys _ hg htimely hfounded hlater
    have hidle : (g.runFrom events).tasks = [] := by
      rw [← hevents, restrict, hrest]
      rfl
    have hafter := hnow.runFrom later
    have halone := hg.runFrom events
    refine ⟨events, hshare, hidle, fun load hlt => ?_, fun caller hlt => ?_, fun key hkey => ?_⟩
    · rw [← hevents, restrict_loads hlt]
    · rw [← hevents, restrict_callers hlt]
    · have hstatus : ((g.requestAll keys).1.runFrom later).status key =
          (g.runFrom events).status key := by
        rw [← hevents] at halone ⊢
        refine (status_restrict hafter.loads halone.loads fun load hmem => ?_).symm
        have hold := mem_cache_of_requestAll hkey (mem_cache_of_runFrom hlater hmem)
        obtain ⟨l, hl, -⟩ := hg.loads.cached_key hold
        exact (List.getElem?_eq_some_iff.mp hl).1
      refine ⟨hstatus, ?_⟩
      rw [mem_loadedKeys_iff_status hafter.loads, mem_loadedKeys_iff_status halone.loads, hstatus]

end Preloaded

/-! ## Preloading with an engine -/

/-- The work of a task that starts no load asks for nothing. -/
theorem askedKeys_work {g : Gateway α} {task : GatewayTask} {rest : List GatewayTask}
    (tasks : g.tasks = task :: rest)
    (other : ∀ load, task = .start load → g.loads[load]? = none) : g.askedKeys [.advance] = [] := by
  rw [askedKeys, askedKeys, List.append_nil, startedBy, tasks]
  cases task with
  | start load => simp [keyOf?, other load rfl]
  | _ => rfl

theorem askedKeys_start {g : Gateway α} {load : Nat} {rest : List GatewayTask} {l : Load α}
    (tasks : g.tasks = .start load :: rest) (there : g.loads[load]? = some l) :
    g.askedKeys [.advance] = [l.key] := by
  rw [askedKeys, askedKeys, List.append_nil, startedBy, tasks]
  simp [keyOf?, there]

/-- **A turn records the keys that the engine is asked for.** -/
theorem Turn.askedKeys {engine : RuleEngine σ α} {g g' : Gateway α}
    {state state' : σ × List (EngineCall α)} (h : Turn engine.recording g state g' state') :
    ∃ events asked, (∀ e ∈ events, Event.isInner e) ∧ g' = g.runFrom events ∧
      state'.2 = state.2 ++ loadCalls asked ∧ asked.map (·.1) = g.askedKeys events := by
  cases h with
  | work tasks other =>
      refine ⟨[.advance], [], by simp [Event.isInner], rfl, by simp [loadCalls], ?_⟩
      rw [askedKeys_work tasks other]
      rfl
  | @goesOn load _ l _ tasks there answer =>
      refine ⟨[.advance], [(l.key, none)], by simp [Event.isInner], rfl,
        RuleEngine.load_recorded answer, ?_⟩
      rw [askedKeys_start tasks there]
      rfl
  | @ends load _ l result _ tasks there answer =>
      refine ⟨[.advance] ++ [.finish load result], [(l.key, some result)],
        by simp [Event.isInner], rfl, RuleEngine.load_recorded answer, ?_⟩
      rw [askedKeys_append, askedKeys_start tasks there]
      rfl

/-- **Settling records the keys that the engine is asked for.** -/
theorem settle_askedKeys (engine : RuleEngine σ α) (g : Gateway α) (state : σ)
    (calls : List (EngineCall α)) :
    ∃ later asked, (∀ e ∈ later, Event.isInner e) ∧
      (g.settle engine.recording (state, calls)).1 = g.runFrom later ∧
      (g.settle engine.recording (state, calls)).2.2 = calls ++ loadCalls asked ∧
      asked.map (·.1) = g.askedKeys later := by
  refine settleWithin_induction
    (p := fun g' (state' : σ × List (EngineCall α)) => ∃ later asked,
      (∀ e ∈ later, Event.isInner e) ∧ g' = g.runFrom later ∧
        state'.2 = calls ++ loadCalls asked ∧ asked.map (·.1) = g.askedKeys later)
    (fun hrun hturn => ?_) _ ⟨[], [], by simp, rfl, by simp [loadCalls], rfl⟩
  obtain ⟨before, asked, hbefore, rfl, hcalls, hasked⟩ := hrun
  obtain ⟨events, more, hevents, rfl, hmore, hkeys⟩ := hturn.askedKeys
  refine ⟨before ++ events, asked ++ more, fun e he => ?_, (g.runFrom_append before events).symm,
    ?_, ?_⟩
  · exact (List.mem_append.mp he).elim (hbefore e) (hevents e)
  · rw [hmore, hcalls, loadCalls, loadCalls, loadCalls, List.map_append, List.append_assoc]
  · rw [List.map_append, hasked, hkeys, askedKeys_append]

/-- **Whenever the gateway comes to rest** after it was asked for several keys and no more, with the
loads ending in any order and in any way and none of the new callers cancelled, each load that was
missing was started once, a failure is told exactly if one of the loads failed, each key counts as
loaded exactly if its load succeeded, and all else is as without the new callers. To preload is to
let the engine take the gateway there. -/
theorem preload_spec (history : List (Event α)) (ruleset : Ruleset) (types : List DocumentType) :
    let g : Gateway α := runFrom {} history
    let keys := preloadKeys ruleset types
    let now := (g.requestAll keys).1
    let callers := (g.requestAll keys).2
    (∀ later : List (Event α), (∀ e ∈ later, e.key? = none) →
      (∀ caller ∈ callers, ∀ e ∈ later, e ≠ .cancel caller) → (now.runFrom later).tasks = [] →
      Preloaded g now (now.runFrom later) keys callers later) ∧
    ∀ (engine : RuleEngine σ α) (state : σ) (calls : List (EngineCall α)), ∃ later asked,
      Preloaded g now (now.runFrom later) keys callers later ∧
      (g.preload engine state ruleset types).1 = (now.runFrom later).firstFailure callers ∧
      (g.preload engine state ruleset types).2.1 = now.runFrom later ∧
      (g.preload engine.recording (state, calls) ruleset types).2.2.2 = calls ++ loadCalls asked ∧
      asked.map (·.1) = g.owedKeys ++ g.freshKeys keys := by
  intro g keys now callers
  have hpreloaded (later : List (Event α)) (hlater : ∀ e ∈ later, e.key? = none)
      (hstay : ∀ caller ∈ callers, ∀ e ∈ later, e ≠ .cancel caller)
      (hrest : (now.runFrom later).tasks = []) :
      Preloaded g now (now.runFrom later) keys callers later :=
    preloaded_of_rest (sound_runFrom_empty history) (timely_empty.runFrom history)
      (founded_runFrom_empty history) hlater hstay hrest
  refine ⟨hpreloaded, fun engine state calls => ?_⟩
  obtain ⟨later, asked, hinner, hrun, hcalls, hasked⟩ :=
    now.settle_askedKeys engine state calls
  have hrecording := settleWithin_recording engine
    ((2 * now.callers.length + 2) * now.tasks.length) now state calls
  have hsettle : (now.settle engine state).1 = now.runFrom later := hrecording.1.symm.trans hrun
  have hrest : (now.runFrom later).tasks = [] := by
    rw [← hsettle]
    exact now.tasks_settle engine state
  have hcome := hpreloaded later (fun e he => Event.key?_eq_none (hinner e he))
    (fun caller _ e he => (hinner e he).ne_cancel caller) hrest
  refine ⟨later, asked, hcome, ?_, hsettle, hcalls, hasked.trans hcome.asked⟩
  exact congrArg (fun g' : Gateway α => g'.firstFailure callers) hsettle

/-- A load that one caller waits for. -/
def loadOfPlans : List (Event Nat) := [.request ⟨.ssp, .rev5⟩, .advance]

/-- Two loads come into being; the first one fails, the second one succeeds, and then the earlier
one does. -/
def mixedEnds : List (Event Nat) :=
  [.advance, .advance, .finish 1 (.failed (.unreadable "sap.xsl" "empty")), .finish 2 (.loaded 7),
    .finish 0 (.loaded 3)] ++ List.replicate 13 .advance

/-- Of three keys, one with a load under way and one that is asked for twice, the last one is loaded
although the other one fails. -/
theorem preload_spec_mixedEnds :
    let keys := preloadKeys .rev5 [.ssp, .sap, .sap, .sar]
    let now := ((runFrom {} loadOfPlans).requestAll keys).1
    let callers := ((runFrom {} loadOfPlans).requestAll keys).2
    now.askedKeys mixedEnds = [⟨.sap, .rev5⟩, ⟨.sar, .rev5⟩] ∧
      ((now.runFrom mixedEnds).firstFailure callers).isSome = true ∧
      ⟨.sap, .rev5⟩ ∉ (now.runFrom mixedEnds).loadedKeys ∧
      ⟨.sar, .rev5⟩ ∈ (now.runFrom mixedEnds).loadedKeys := by
  intro keys now callers
  have hcome := (@preload_spec Unit Nat loadOfPlans .rev5 [.ssp, .sap, .sap, .sar]).1 mixedEnds
    (by simp [mixedEnds, Event.key?]) (fun caller _ => by simp [mixedEnds]) (by decide +kernel)
  refine ⟨hcome.asked.trans (by decide +kernel), ?_, by decide +kernel, ?_⟩
  · exact hcome.failed.mpr ⟨⟨.sap, .rev5⟩, by decide +kernel, 1, by decide +kernel,
      by decide +kernel⟩
  · obtain ⟨load, hlookup, hloaded⟩ := hcome.loaded ⟨.sar, .rev5⟩ (by decide +kernel)
    cases hlookup.symm.trans (show now.cache.lookup ⟨.sar, .rev5⟩ = some 2 by decide +kernel)
    exact hloaded.mpr ⟨7, rfl⟩

end Gateway

end OscalValidation
