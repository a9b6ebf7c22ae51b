import OscalValidation.Rules.Engine

set_option autoImplicit false

/-! # The rule gateway

The gateway shares loads of rule artifacts among callers. A caller asks for a key; the first
one to ask makes the gateway start a load, and those who ask later share it. A load that fails
or is given up leaves no trace, so that the next caller starts another one. A caller may be
cancelled at any time, which changes nothing for the load and for the others.

What happens is a sequence of events. Requests, cancellations and the ends of loads come from
outside; between them the gateway works off its own tasks, first come, first served.
-/

namespace OscalValidation

/-- **A load** of an artifact. -/
structure Load (α : Type) where
  key : RuleKey
  /-- The engine was asked for it. -/
  started : Bool
  /-- How it ended, if it has. -/
  result : Option (LoadResult α)

/-- Where a caller stands. -/
inductive CallerState (α : Type)
  | waiting
  /-- The end of its load has reached it and it is about to go on. -/
  | told (result : LoadResult α)
  /-- It was cancelled and is about to go on. -/
  | leaving
  | gone (result : LoadResult α)

/-- **A caller** and the load it shares. -/
structure Caller (α : Type) where
  load : Nat
  state : CallerState α

def Caller.waitsFor {α : Type} (load : Nat) (caller : Caller α) : Bool :=
  match caller.state with
  | .waiting => caller.load == load
  | _ => false

/-- What the gateway has to do next. -/
inductive GatewayTask
  /-- Ask the engine for a load. -/
  | start (load : Nat)
  /-- Drop a load from the cache if it failed. -/
  | evict (load : Nat)
  /-- Tell a caller how its load ended. -/
  | tell (caller : Nat)
  | resume (caller : Nat)
deriving DecidableEq

/-- **The gateway.** Loads and callers are known by their numbers, in the order in which they
came. -/
structure Gateway (α : Type) where
  loads : List (Load α) := []
  /-- The load that serves a key. -/
  cache : List (RuleKey × Nat) := []
  callers : List (Caller α) := []
  tasks : List GatewayTask := []
  /-- The callers that have gone on, in the order in which they did. -/
  departures : List Nat := []

namespace Gateway

variable {σ α : Type}

/-- How a load ended, if it has. -/
def resultOf (g : Gateway α) (load : Nat) : Option (LoadResult α) :=
  g.loads[load]?.bind (·.result)

/-- **The keys whose artifact is ready,** in the order of the cache. -/
def loadedKeys (g : Gateway α) : List RuleKey :=
  (g.cache.filter fun entry => ((g.resultOf entry.2).bind LoadResult.handle?).isSome).map (·.1)

/-- What a caller obtained, if it has gone on. -/
def obtained (g : Gateway α) (caller : Nat) : Option (LoadResult α) :=
  match g.callers[caller]? with
  | some ⟨_, .gone result⟩ => some result
  | _ => none

/-! ## Events from outside -/

/-- A new caller asks for a key; the result names the caller. -/
def request (g : Gateway α) (key : RuleKey) : Gateway α × Nat :=
  let caller := g.callers.length
  match g.cache.lookup key with
  | none =>
      let load := g.loads.length
      ({ g with loads := g.loads ++ [⟨key, false, none⟩], cache := g.cache ++ [(key, load)],
                callers := g.callers ++ [⟨load, .waiting⟩],
                tasks := g.tasks ++ [.start load] }, caller)
  | some load =>
      match g.resultOf load with
      | none => ({ g with callers := g.callers ++ [⟨load, .waiting⟩] }, caller)
      | some result =>
          ({ g with callers := g.callers ++ [⟨load, .gone result⟩],
                    departures := g.departures ++ [caller] }, caller)

/-- The callers that wait for a load. -/
def waiters (g : Gateway α) (load : Nat) : List Nat :=
  (g.callers.zipIdx.filter fun entry => Caller.waitsFor load entry.1).map (·.2)

/-- A load ends. Dropping it if it failed comes before telling its callers. -/
def finish (g : Gateway α) (load : Nat) (result : LoadResult α) : Gateway α :=
  { g with loads := g.loads.modify load fun l => { l with result := some result },
           tasks := g.tasks ++ .evict load :: (g.waiters load).map .tell }

def setState (g : Gateway α) (caller : Nat) (state : CallerState α) : Gateway α :=
  { g with callers := g.callers.modify caller fun c => { c with state := state } }

/-- A caller is cancelled; tells whether it was still there. -/
def cancel (g : Gateway α) (caller : Nat) : Gateway α × Bool :=
  match g.callers[caller]? with
  | some ⟨_, .waiting⟩ =>
      ({ g.setState caller .leaving with tasks := g.tasks ++ [.resume caller] }, true)
  | some ⟨_, .told _⟩ => (g.setState caller .leaving, true)
  | some ⟨_, .leaving⟩ => (g, true)
  | some ⟨_, .gone _⟩ | none => (g, false)

/-! ## Tasks -/

def isFailed (g : Gateway α) (load : Nat) : Bool :=
  match g.resultOf load with
  | some (.failed _) | some .cancelled => true
  | _ => false

/-- The gateway after dropping a failed load; another load of the same key stays. -/
def evict (g : Gateway α) (load : Nat) : Gateway α :=
  if g.isFailed load then { g with cache := g.cache.filter fun entry => entry.2 != load } else g

/-- The gateway after telling a caller how its load ended. -/
def tell (g : Gateway α) (caller : Nat) : Gateway α :=
  match g.callers[caller]? with
  | some ⟨load, .waiting⟩ =>
      match g.resultOf load with
      | some result =>
          { g.setState caller (.told result) with tasks := g.tasks ++ [.resume caller] }
      | none => g
  | _ => g

/-- The gateway after a caller went on with what it obtains. -/
def depart (g : Gateway α) (caller : Nat) (result : LoadResult α) : Gateway α :=
  { g.setState caller (.gone result) with departures := g.departures ++ [caller] }

/-- The gateway after letting a caller go on. -/
def resume (g : Gateway α) (caller : Nat) : Gateway α :=
  match g.callers[caller]? with
  | some ⟨_, .told result⟩ => g.depart caller result
  | some ⟨_, .leaving⟩ => g.depart caller .cancelled
  | _ => g

/-- The gateway after asking the engine for a load. -/
def start (g : Gateway α) (load : Nat) : Gateway α :=
  { g with loads := g.loads.modify load fun l => { l with started := true } }

def perform (g : Gateway α) : GatewayTask → Gateway α
  | .start load => g.start load
  | .evict load => g.evict load
  | .tell caller => g.tell caller
  | .resume caller => g.resume caller

/-- **What can happen to the gateway.** -/
inductive Event (α : Type)
  /-- A new caller asks for a key. -/
  | request (key : RuleKey)
  | cancel (caller : Nat)
  | finish (load : Nat) (result : LoadResult α)
  | advance

/-- The load was started and has not ended. -/
def isRunning (g : Gateway α) (load : Nat) : Bool :=
  match g.loads[load]? with
  | some ⟨_, true, none⟩ => true
  | _ => false

/-- **The gateway after an event.** Only a load that is running can end. -/
def step (g : Gateway α) : Event α → Gateway α
  | .request key => (g.request key).1
  | .cancel caller => (g.cancel caller).1
  | .finish load result => if g.isRunning load then g.finish load result else g
  | .advance =>
      match g.tasks with
      | [] => g
      | task :: rest => { g with tasks := rest }.perform task

/-! ## With an engine -/

/-- The loads that were started and have not ended. -/
def running (g : Gateway α) : List Nat := (List.range g.loads.length).filter g.isRunning

/-- The gateway after the first tasks, up to a bound; each load that is started is the engine's,
which may end it at once. -/
def settleWithin (engine : RuleEngine σ α) : Nat → Gateway α → σ → Gateway α × σ
  | 0, g, state => (g, state)
  | bound + 1, g, state =>
      match g.tasks with
      | [] => (g, state)
      | .start load :: _ =>
          let g := g.step .advance
          match g.loads[load]? with
          | none => settleWithin engine bound g state
          | some l =>
              let (result, state) := engine.load l.key state
              match result with
              | none => settleWithin engine bound g state
              | some result => settleWithin engine bound (g.step (.finish load result)) state
      | _ :: _ => settleWithin engine bound (g.step .advance) state

/-- **The gateway after all its tasks.** A task gives rise to no more than two for each caller
and one more. -/
def settle (engine : RuleEngine σ α) (g : Gateway α) (state : σ) : Gateway α × σ :=
  settleWithin engine ((2 * g.callers.length + 2) * g.tasks.length) g state

/-- The gateway after several requests, and the callers. -/
def requestAll (g : Gateway α) : List RuleKey → Gateway α × List Nat
  | [] => (g, [])
  | key :: rest =>
      let (g, caller) := g.request key
      let (g, callers) := g.requestAll rest
      (g, caller :: callers)

/-- What callers obtain that ask for keys at the same time, once the tasks are done; a caller
whose load goes on obtains nothing yet. -/
def loadAll (engine : RuleEngine σ α) (g : Gateway α) (state : σ) (keys : List RuleKey) :
    List (Option (LoadResult α)) × Gateway α × σ :=
  let (g, callers) := g.requestAll keys
  let (g, state) := g.settle engine state
  (callers.map g.obtained, g, state)

/-- **What a caller obtains** that asks for a key. -/
def load (engine : RuleEngine σ α) (g : Gateway α) (state : σ) (key : RuleKey) :
    Option (LoadResult α) × Gateway α × σ :=
  let (g, caller) := g.request key
  let (g, state) := g.settle engine state
  (g.obtained caller, g, state)

def isFailure : LoadResult α → Bool
  | .loaded _ => false
  | _ => true

/-- Loads the artifacts of several types at the same time; without types, those of all. The
failure that comes first is the result. -/
def preload (engine : RuleEngine σ α) (g : Gateway α) (state : σ) (ruleset : Ruleset)
    (types : List DocumentType) : Option (LoadResult α) × Gateway α × σ :=
  let types := if types.isEmpty then DocumentType.all else types
  let (g, callers) := g.requestAll (types.map fun type => ⟨type, ruleset⟩)
  let (g, state) := g.settle engine state
  let first := (g.departures.filter callers.contains).findSome? fun caller =>
    (g.obtained caller).bind fun result => if isFailure result then some result else none
  (first, g, state)

end Gateway

end OscalValidation
