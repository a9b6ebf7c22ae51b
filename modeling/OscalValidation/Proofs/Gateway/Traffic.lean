import OscalValidation.Proofs.Gateway.Invariant

set_option autoImplicit false

/-! # Concurrent calls of the gateway

Callers load artifacts, have documents evaluated and preload artifacts, all at the same time. A
call has errands, each of which asks the gateway for one key; an errand may begin at any time
after its call, in any order, and it may be withdrawn before it begins or cancelled after. The
traffic keeps a record of what the engine is asked for: the loads, and the evaluations of those
callers that go on with a handle.
-/

namespace OscalValidation

variable {α : Type}

/-! ## Calls -/

/-- **What a caller wants from the gateway.** -/
inductive Errand
  | load (key : RuleKey)
  /-- The outcomes of the rules of a key for a document. -/
  | evaluate (key : RuleKey) (document : Xml.Document)

/-- The key that an errand asks for. -/
def Errand.key : Errand → RuleKey
  | .load key => key
  | .evaluate key _ => key

/-- **A call.** -/
inductive Call
  | load (key : RuleKey)
  | evaluate (key : RuleKey) (document : Xml.Document)
  /-- The artifacts of several types are loaded; without types, those of all. -/
  | preload (ruleset : Ruleset) (types : List DocumentType)

def Call.errands : Call → List Errand
  | .load key => [.load key]
  | .evaluate key document => [.evaluate key document]
  | .preload ruleset types =>
      (if types.isEmpty then DocumentType.all else types).map fun type => .load ⟨type, ruleset⟩

/-! ## Traffic -/

/-- An evaluation that the engine is asked for. -/
structure Evaluation (α : Type) where
  caller : Nat
  handle : α
  document : Xml.Document

/-- **A gateway and its callers.** -/
structure Traffic (α : Type) where
  gateway : Gateway α := {}
  /-- The errands that have not begun. -/
  ahead : List Errand := []
  /-- The errands of the callers, by the numbers of the callers. -/
  errands : List Errand := []
  /-- The loads that the engine was asked for. -/
  asked : List Nat := []
  /-- The evaluations that the engine was asked for. -/
  evaluations : List (Evaluation α) := []

/-- **What can happen to the traffic.** -/
inductive TrafficEvent (α : Type)
  | call (call : Call)
  /-- The errand at a place among those ahead begins. -/
  | begin (place : Nat)
  /-- The errand at a place among those ahead is given up. -/
  | withdraw (place : Nat)
  | cancel (caller : Nat)
  | finish (load : Nat) (result : LoadResult α)
  /-- The gateway does its next task. -/
  | advance

namespace Traffic

/-- The evaluation that a caller asks the engine for when it goes on: only one that has a
document evaluated does, and only with a handle. -/
def evaluationFor (gateway : Gateway α) (errands : List Errand) (caller : Nat) :
    Option (Evaluation α) :=
  match errands[caller]?, gateway.obtained caller with
  | some (.evaluate _ document), some (.loaded handle) => some ⟨caller, handle, document⟩
  | _, _ => none

/-- The traffic after something happened to the gateway: the engine is asked for the load that
is started, and for the evaluations of the callers that go on. -/
def follow (t : Traffic α) (e : Gateway.Event α) : Traffic α :=
  let gateway := t.gateway.step e
  let departing := gateway.departures.drop t.gateway.departures.length
  { t with gateway := gateway
           asked := t.asked ++ t.gateway.startedBy e
           evaluations := t.evaluations ++ departing.filterMap (evaluationFor gateway t.errands) }

/-- **The traffic after an event.** -/
def step (t : Traffic α) : TrafficEvent α → Traffic α
  | .call call => { t with ahead := t.ahead ++ call.errands }
  | .begin place =>
      match t.ahead[place]? with
      | some errand =>
          { t with ahead := t.ahead.eraseIdx place, errands := t.errands ++ [errand] }.follow
            (.request errand.key)
      | none => t
  | .withdraw place => { t with ahead := t.ahead.eraseIdx place }
  | .cancel caller => t.follow (.cancel caller)
  | .finish load result => t.follow (.finish load result)
  | .advance => t.follow .advance

/-- **The traffic after events in a row,** starting from nothing. -/
def run (events : List (TrafficEvent α)) : Traffic α := events.foldl step {}

theorem run_append (events later : List (TrafficEvent α)) :
    run (events ++ later) = later.foldl step (run events) :=
  List.foldl_append

/-! ## What the engine is asked for -/

def serves (t : Traffic α) (key : RuleKey) (load : Nat) : Bool :=
  (t.gateway.loads[load]?.map (·.key)) == some key

/-- The loads of a key that the engine was asked for. -/
def loadsFor (t : Traffic α) (key : RuleKey) : List Nat := t.asked.filter (t.serves key)

def isOpen (t : Traffic α) (load : Nat) : Bool := (t.gateway.resultOf load).isNone

/-- The load has ended with success. -/
def hasSucceeded (t : Traffic α) (load : Nat) : Bool :=
  ((t.gateway.resultOf load).bind LoadResult.handle?).isSome

/-- The handle is that of a load of the key. -/
def Holds (t : Traffic α) (key : RuleKey) (handle : α) : Prop :=
  ∃ load ∈ t.loadsFor key, t.gateway.resultOf load = some (.loaded handle)

theorem mem_loadsFor_iff (t : Traffic α) (key : RuleKey) (load : Nat) :
    load ∈ t.loadsFor key ↔
      load ∈ t.asked ∧ ∃ l, t.gateway.loads[load]? = some l ∧ l.key = key := by
  simp [loadsFor, serves]

/-! ## The invariant -/

/-- **The record of the traffic is that of its gateway.** -/
structure Agrees (t : Traffic α) : Prop where
  loads : t.gateway.LoadsAgree
  /-- Callers were told how their loads ended. -/
  callers : t.gateway.CallersAgree
  /-- The engine was asked for the loads that have begun. -/
  asked_iff (load : Nat) :
    load ∈ t.asked ↔ ∃ l, t.gateway.loads[load]? = some l ∧ l.started = true
  /-- The engine was asked for no load twice. -/
  asked_nodup : t.asked.Nodup
  errands_length : t.errands.length = t.gateway.callers.length
  /-- A caller waits for a load of the key that it asked for. -/
  errand_key {caller : Nat} {errand : Errand} {c : Caller α}
    (he : t.errands[caller]? = some errand) (hc : t.gateway.callers[caller]? = some c) :
    ∃ l, t.gateway.loads[c.load]? = some l ∧ l.key = errand.key
  /-- The evaluations are those of the callers that have departed. -/
  evaluations_eq :
    t.evaluations = t.gateway.departures.filterMap (evaluationFor t.gateway t.errands)

theorem agrees_empty : Agrees ({} : Traffic α) where
  loads := Gateway.loadsAgree_empty
  callers := Gateway.callersAgree_empty
  asked_iff load := by simp
  asked_nodup := List.nodup_nil
  errands_length := rfl
  errand_key he := by simp at he
  evaluations_eq := rfl

/-- Whoever departs in an event comes after those that have departed before. -/
theorem departures_step (g : Gateway α) (e : Gateway.Event α) :
    ∃ departing, (g.step e).departures = g.departures ++ departing := by
  cases g.callerMove e with
  | kept _ _ departures => exact ⟨[], by rw [departures, List.append_nil]⟩
  | joined _ _ _ _ _ departures => exact ⟨[], by rw [departures, List.append_nil]⟩
  | served _ _ _ _ _ _ _ departures => exact ⟨_, departures⟩
  | told _ _ _ _ _ _ _ departures => exact ⟨[], by rw [departures, List.append_nil]⟩
  | cancelled _ _ _ _ _ _ _ departures => exact ⟨[], by rw [departures, List.append_nil]⟩
  | departed _ _ _ _ _ _ _ _ departures => exact ⟨_, departures⟩

/-- Only a request brings a caller. -/
theorem length_callers_step (g : Gateway α) (e : Gateway.Event α) :
    (g.step e).callers.length = g.callers.length + e.key?.toList.length := by
  cases g.callerMove e with
  | kept event callers => rw [callers, event]; rfl
  | joined _ _ event _ callers => rw [callers, event]; simp
  | served _ _ _ event _ _ callers => rw [callers, event]; simp
  | told _ _ _ event _ _ callers => rw [callers, event]; simp
  | cancelled _ _ _ event _ _ callers =>
      rw [callers, event]
      simp [Gateway.Event.key?]
  | departed _ _ _ _ event _ _ callers => rw [callers, event]; simp

/-- A caller of the later gateway was there before and shares the same load, or it has just come
and shares the load of the key that it asked for. -/
theorem callers_step (g : Gateway α) (e : Gateway.Event α) {caller : Nat} {c' : Caller α}
    (h : (g.step e).callers[caller]? = some c') :
    (∃ c, g.callers[caller]? = some c ∧ c'.load = c.load) ∨
    (caller = g.callers.length ∧
      ∃ key, e.key? = some key ∧ (g.step e).cache.lookup key = some c'.load) := by
  have hmodify : ∀ {other : Nat} {state : CallerState α},
      (g.step e).callers = g.callers.modify other (fun c => { c with state := state }) →
      ∃ c, g.callers[caller]? = some c ∧ c'.load = c.load := by
    intro other state callers
    rw [callers] at h
    obtain ⟨c, hc, rfl⟩ := Gateway.getElem?_of_modify h
    exact ⟨c, hc, by split <;> rfl⟩
  cases g.callerMove e with
  | kept _ callers => rw [callers] at h; exact Or.inl ⟨c', h, rfl⟩
  | joined key load event serves callers =>
      rw [callers] at h
      rcases Gateway.getElem?_append_one h with h | ⟨hi, rfl⟩
      · exact Or.inl ⟨c', h, rfl⟩
      · exact Or.inr ⟨hi, key, event, serves⟩
  | served key load result event serves _ callers =>
      rw [callers] at h
      rcases Gateway.getElem?_append_one h with h | ⟨hi, rfl⟩
      · exact Or.inl ⟨c', h, rfl⟩
      · exact Or.inr ⟨hi, key, event, serves⟩
  | told _ _ _ _ _ _ callers => exact Or.inl (hmodify callers)
  | cancelled _ _ _ _ _ _ callers => exact Or.inl (hmodify callers)
  | departed _ _ _ _ _ _ _ callers => exact Or.inl (hmodify callers)

/-- The engine is asked for a load exactly when the load begins. -/
theorem started_step {g : Gateway α} (hg : g.LoadsAgree) (e : Gateway.Event α) (load : Nat) :
    (∃ l, (g.step e).loads[load]? = some l ∧ l.started = true) ↔
      (∃ l, g.loads[load]? = some l ∧ l.started = true) ∨ load ∈ g.startedBy e := by
  cases g.loadMove e with
  | kept loads _ _ asked => rw [loads, asked]; simp
  | opened key absent loads _ _ asked =>
      rw [loads, asked]
      constructor
      · rintro ⟨l, hl, hs⟩
        rcases Gateway.getElem?_append_one hl with hl | ⟨-, rfl⟩
        · exact Or.inl ⟨l, hl, hs⟩
        · cases hs
      · rintro (⟨l, hl, hs⟩ | h)
        · exact ⟨l, Gateway.getElem?_append_one_of_some hl, hs⟩
        · cases h
  | started other loads _ starts asked =>
      rw [loads, asked, List.mem_singleton]
      constructor
      · rintro ⟨l', hl', hs⟩
        obtain ⟨l, hl, rfl⟩ := Gateway.getElem?_of_modify hl'
        by_cases heq : other = load
        · exact Or.inr heq.symm
        · rw [if_neg heq] at hs
          exact Or.inl ⟨l, hl, hs⟩
      · rintro (⟨l, hl, hs⟩ | rfl)
        · exact ⟨_, Gateway.getElem?_modify_of_some hl, by split <;> simp [hs]⟩
        · obtain ⟨l, hl, -⟩ := hg.unstarted (starts ▸ List.mem_cons_self)
          exact ⟨_, Gateway.getElem?_modify_of_some hl, by rw [if_pos rfl]⟩
  | finished other result running loads _ _ asked =>
      rw [loads, asked]
      constructor
      · rintro ⟨l', hl', hs⟩
        obtain ⟨l, hl, rfl⟩ := Gateway.getElem?_of_modify hl'
        exact Or.inl ⟨l, hl, by split at hs <;> exact hs⟩
      · rintro (⟨l, hl, hs⟩ | h)
        · exact ⟨_, Gateway.getElem?_modify_of_some hl, by split <;> exact hs⟩
        · cases h
  | dropped _ _ loads _ _ asked => rw [loads, asked]; simp

/-- A load that is started now was not started before. -/
theorem not_started_of_startedBy {g : Gateway α} (hg : g.LoadsAgree) {e : Gateway.Event α}
    {load : Nat} (h : load ∈ g.startedBy e) :
    ¬ ∃ l, g.loads[load]? = some l ∧ l.started = true := by
  cases g.loadMove e with
  | started other _ _ starts asked =>
      rw [asked, List.mem_singleton] at h
      subst h
      obtain ⟨l, hl, hs⟩ := hg.unstarted (starts ▸ List.mem_cons_self)
      rintro ⟨l', hl', hs'⟩
      rw [hl] at hl'
      cases hl'
      rw [hs] at hs'
      cases hs'
  | kept _ _ _ asked => rw [asked] at h; cases h
  | opened _ _ _ _ _ asked => rw [asked] at h; cases h
  | finished _ _ _ _ _ _ asked => rw [asked] at h; cases h
  | dropped _ _ _ _ _ asked => rw [asked] at h; cases h

theorem startedBy_nodup (g : Gateway α) (e : Gateway.Event α) : (g.startedBy e).Nodup := by
  cases g.loadMove e with
  | started _ _ _ _ asked => rw [asked]; exact List.nodup_singleton _
  | kept _ _ _ asked => rw [asked]; exact List.nodup_nil
  | opened _ _ _ _ _ asked => rw [asked]; exact List.nodup_nil
  | finished _ _ _ _ _ _ asked => rw [asked]; exact List.nodup_nil
  | dropped _ _ _ _ _ asked => rw [asked]; exact List.nodup_nil

/-- What a departed caller asked the engine for stays the same. -/
theorem evaluationFor_step {t : Traffic α} (ht : t.Agrees) (e : Gateway.Event α)
    (extra : List Errand) {caller : Nat} (h : caller ∈ t.gateway.departures) :
    evaluationFor (t.gateway.step e) (t.errands ++ extra) caller =
      evaluationFor t.gateway t.errands caller := by
  obtain ⟨load, result, hc⟩ := ht.callers.left h
  have hlt : caller < t.errands.length := by
    rw [ht.errands_length]
    exact (List.getElem?_eq_some_iff.mp hc).1
  have hobtained := (t.gateway.obtained_eq_some_iff caller result).mpr ⟨load, hc⟩
  rw [evaluationFor, evaluationFor, List.getElem?_append_left hlt, hobtained,
    t.gateway.obtained_step e hobtained]

/-- Following the gateway keeps the agreement, if each request comes with its errand. -/
theorem Agrees.follow {t : Traffic α} (ht : t.Agrees) (ahead : List Errand)
    {extra : List Errand} {e : Gateway.Event α} (hextra : extra.map Errand.key = e.key?.toList) :
    Agrees ({ t with ahead := ahead, errands := t.errands ++ extra }.follow e) where
  loads := ht.loads.step e
  callers := ht.callers.step e
  asked_iff load := by
    show load ∈ t.asked ++ t.gateway.startedBy e ↔ _
    rw [List.mem_append, ht.asked_iff]
    exact (started_step ht.loads e load).symm
  asked_nodup := by
    show (t.asked ++ t.gateway.startedBy e).Nodup
    refine List.nodup_append.mpr ⟨ht.asked_nodup, startedBy_nodup _ _, ?_⟩
    rintro load hload other hother rfl
    exact not_started_of_startedBy ht.loads hother ((ht.asked_iff load).mp hload)
  errands_length := by
    show (t.errands ++ extra).length = (t.gateway.step e).callers.length
    rw [List.length_append, ht.errands_length, length_callers_step, ← hextra, List.length_map]
  errand_key {caller errand c'} he hc' := by
    have hext := t.gateway.extends_step e
    change (t.errands ++ extra)[caller]? = some errand at he
    rcases callers_step t.gateway e hc' with ⟨c, hc, hload⟩ | ⟨hnew, key, hkey, hserves⟩
    · have hlt : caller < t.errands.length := by
        rw [ht.errands_length]
        exact (List.getElem?_eq_some_iff.mp hc).1
      rw [List.getElem?_append_left hlt] at he
      obtain ⟨l, hl, hlkey⟩ := ht.errand_key he hc
      obtain ⟨l', hl', hlkey', -⟩ := hext hl
      exact ⟨l', by rw [hload]; exact hl', hlkey'.trans hlkey⟩
    · -- the new caller shares the load that the cache now has for its key
      have hlast : caller = t.errands.length := hnew.trans ht.errands_length.symm
      rw [List.getElem?_append_right (Nat.le_of_eq hlast.symm), hlast, Nat.sub_self] at he
      rw [hkey] at hextra
      obtain ⟨only, rfl, honly⟩ := List.map_eq_singleton_iff.mp hextra
      cases he
      rw [honly]
      exact (ht.loads.step e).cached_key (Gateway.mem_cache_of_lookup hserves)
  evaluations_eq := by
    obtain ⟨departing, hdep⟩ := departures_step t.gateway e
    -- the evaluations so far are of callers that departed before, and these ask for the same
    show t.evaluations ++ ((t.gateway.step e).departures.drop t.gateway.departures.length).filterMap
        (evaluationFor (t.gateway.step e) (t.errands ++ extra)) =
      (t.gateway.step e).departures.filterMap
        (evaluationFor (t.gateway.step e) (t.errands ++ extra))
    rw [hdep, List.drop_left, List.filterMap_append, ht.evaluations_eq]
    congr 1
    exact (List.filterMap_congr fun caller h => evaluationFor_step ht e extra h).symm

/-- **Every event keeps the record in agreement with the gateway.** -/
theorem Agrees.step {t : Traffic α} (ht : t.Agrees) (e : TrafficEvent α) : (t.step e).Agrees := by
  have hfollow : ∀ e : Gateway.Event α, e.key? = none → (t.follow e).Agrees := by
    intro e he
    have hkey : ([] : List Errand).map Errand.key = e.key?.toList := by rw [he]; rfl
    have hfollow := ht.follow t.ahead hkey
    rwa [List.append_nil] at hfollow
  cases e with
  | call call =>
      exact ⟨ht.loads, ht.callers, ht.asked_iff, ht.asked_nodup, ht.errands_length,
        ht.errand_key, ht.evaluations_eq⟩
  | begin place =>
      cases h : t.ahead[place]? with
      | none => simpa [Traffic.step, h] using ht
      | some errand =>
          simp only [Traffic.step, h]
          exact ht.follow _ rfl
  | withdraw place =>
      exact ⟨ht.loads, ht.callers, ht.asked_iff, ht.asked_nodup, ht.errands_length,
        ht.errand_key, ht.evaluations_eq⟩
  | cancel caller => exact hfollow _ rfl
  | finish load result => exact hfollow _ rfl
  | advance => exact hfollow _ rfl

/-- **The record of every run agrees with its gateway.** -/
theorem agrees_run (events : List (TrafficEvent α)) : (run events).Agrees := by
  have h : ∀ t : Traffic α, t.Agrees → (events.foldl step t).Agrees := by
    induction events with
    | nil => exact fun t ht => ht
    | cons e rest ih => exact fun t ht => ih _ (ht.step e)
  exact h {} agrees_empty

end Traffic

end OscalValidation
