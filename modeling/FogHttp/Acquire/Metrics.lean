import FogHttp.Acquire.Order

/-!
# The metrics of the acquire gate

Every acquire counts itself in the `OriginMetrics` of its origin: as a pending request while
it is in the pending queue, and as an active request while its permit is outstanding.  It
looks the metrics up when it is called, and holds on to them from then on.

`OriginMetricsRegistry` maps origins to their metrics.  A lookup of a new origin removes all
entries that look idle when the map is large.  `MeteredGate` runs the gate of
`FogHttp.Acquire.Gate` together with the registry.  A call has a stage besides its phase,
which says what it has counted; the stage decides whether the next step of the call is a
section of the gate or an update of its counters.

* The two lookups of `metrics_for`, under the read lock and under the write lock, are one
  step each, and so is every update of a counter.
* A waiter registers and counts itself under the lock of the queue, which is one step.
* Other lookups and the connections of an origin are events of their own.
-/

namespace FogHttp.Acquire

open Lib

/-! ## The registry -/

/-- `ORIGIN_PRESSURE_CLEANUP_THRESHOLD`. -/
def originPressureCleanupThreshold : Nat := 1024

/-- The counters of an `OriginMetrics` that `is_idle` reads. -/
structure OriginMetrics where
  activeRequests : Nat
  pendingRequests : Nat
  activeConnections : Nat
deriving DecidableEq, Repr

namespace OriginMetrics

def new : OriginMetrics := ⟨0, 0, 0⟩

def isIdle (metrics : OriginMetrics) : Bool :=
  metrics.activeRequests == 0 && metrics.pendingRequests == 0 && metrics.activeConnections == 0

def activeRequestStarted (metrics : OriginMetrics) : OriginMetrics :=
  { metrics with activeRequests := metrics.activeRequests + 1 }

def activeRequestFinished (metrics : OriginMetrics) : OriginMetrics :=
  { metrics with activeRequests := metrics.activeRequests - 1 }

def pendingRequestStarted (metrics : OriginMetrics) : OriginMetrics :=
  { metrics with pendingRequests := metrics.pendingRequests + 1 }

def pendingRequestFinished (metrics : OriginMetrics) : OriginMetrics :=
  { metrics with pendingRequests := metrics.pendingRequests - 1 }

end OriginMetrics

/-- The map from origins to metrics.  The metrics live in an arena, which keeps those that
are no longer in the map. -/
structure OriginMetricsRegistry where
  origins : List (Text × Nat)
  metrics : List OriginMetrics
deriving DecidableEq, Repr

namespace OriginMetricsRegistry

def new : OriginMetricsRegistry := ⟨[], []⟩

def isIdle (registry : OriginMetricsRegistry) (m : Nat) : Bool :=
  registry.metrics[m]?.any OriginMetrics.isIdle

/-- `metrics_for`, under the write lock. -/
def metricsFor (registry : OriginMetricsRegistry) (origin : Text) :
    Nat × OriginMetricsRegistry :=
  match registry.origins.lookup origin with
  | some m => (m, registry)
  | none =>
      let kept :=
        if registry.origins.length ≥ originPressureCleanupThreshold then
          registry.origins.filter fun entry => !registry.isIdle entry.2
        else registry.origins
      (registry.metrics.length,
        ⟨(origin, registry.metrics.length) :: kept, registry.metrics ++ [.new]⟩)

/-- A sum over the map, as in `OriginPressureTotals::from_origins`. -/
def total (registry : OriginMetricsRegistry) (counter : OriginMetrics → Nat) : Nat :=
  (registry.origins.map fun entry => (registry.metrics[entry.2]?.map counter).getD 0).sum

/-- An update of the metrics `m`. -/
def update (registry : OriginMetricsRegistry) (m : Nat)
    (change : OriginMetrics → OriginMetrics) : OriginMetricsRegistry :=
  { registry with metrics := registry.metrics.modify m change }

/-- The lookup of this origin removes the metrics `m` from the map. -/
def prunes (registry : OriginMetricsRegistry) (origin : Text) (m : Nat) : Bool :=
  (registry.origins.lookup origin).isNone &&
    decide (registry.origins.length ≥ originPressureCleanupThreshold) && registry.isIdle m

end OriginMetricsRegistry

/-! ## Calls -/

/-- What a call has done to the metrics of its origin. -/
inductive MetricsStage where
  /-- The lookup under the read lock is next. -/
  | looking
  /-- The lookup under the write lock is next. -/
  | missed
  /-- The call holds the metrics and is not counted. -/
  | found (m : Nat)
  /-- The `PendingAcquire` of the call is alive. -/
  | pending (m : Nat)
  /-- The `AcquirePermit` of the call is outstanding. -/
  | active (m : Nat)
  | done
deriving DecidableEq, Repr

namespace MetricsStage

/-- The metrics that the call will still update. -/
def handle : MetricsStage → Option Nat
  | .found m | .pending m | .active m => some m
  | .looking | .missed | .done => none

/-- The next step of the call is a section of the gate. -/
def lets : MetricsStage → Phase → Bool
  | .found _, .called | .found _, .located | .found _, .queueing _ | .found _, .registering _
  | .found _, .notifyingHead true | .found _, .notifyingOne _ true => true
  | .pending _, .looping | .pending _, .enabled | .pending _, .parked
  | .pending _, .abandoned => true
  | .done, .notifyingHead false | .done, .notifyingOne _ false | .done, .holding
  | .done, .releasedOrigin => true
  | _, _ => false

end MetricsStage

structure MeteredCall where
  origin : Text
  stage : MetricsStage
deriving DecidableEq, Repr

/-- The `AcquirePermit` of the call is outstanding: its drop has not begun. -/
def MeteredCall.outstanding (call : MeteredCall) : Bool :=
  match call.stage with
  | .active _ => true
  | _ => false

/-- The call is a waiter. -/
def MeteredCall.waiting (call : MeteredCall) : Bool :=
  match call.stage with
  | .pending _ => true
  | _ => false

/-- The gate with the registry.  `calls` goes along with the parties of the gate. -/
structure MeteredGate where
  gate : Gate
  registry : OriginMetricsRegistry
  calls : List MeteredCall
deriving DecidableEq, Repr

namespace MeteredGate

def new (config : GateConfig) : MeteredGate := ⟨.new config, .new, []⟩

/-- The state after a step that brings call `i` to this stage. -/
def setStage (metered : MeteredGate) (i : Nat) (call : MeteredCall) (stage : MetricsStage) :
    MeteredGate :=
  { metered with calls := metered.calls.set i { call with stage } }

/-- An update of the metrics `m`. -/
def update (metered : MeteredGate) (m : Nat) (change : OriginMetrics → OriginMetrics) :
    MeteredGate :=
  { metered with registry := metered.registry.update m change }

/-- The next access of call `i` to the registry or to its metrics. -/
def accessMetrics (metered : MeteredGate) (i : Nat) (call : MeteredCall) :
    Phase → Option MeteredGate
  | phase =>
    match call.stage, phase with
    | .looking, _ =>
        match metered.registry.origins.lookup call.origin with
        | some m => some (metered.setStage i call (.found m))
        | none => some (metered.setStage i call .missed)
    | .missed, _ =>
        let (m, registry) := metered.registry.metricsFor call.origin
        some ({ metered with registry }.setStage i call (.found m))
    -- The permits were granted, or the waiter was removed: the `PendingAcquire` is dropped.
    | .pending m, .notifyingHead granted =>
        some ((metered.update m .pendingRequestFinished).setStage i call
          (if granted then .found m else .done))
    | .pending m, .finished =>
        some ((metered.update m .pendingRequestFinished).setStage i call .done)
    -- `AcquirePermit::new` and the start of its drop.
    | .found m, .holding =>
        some ((metered.update m .activeRequestStarted).setStage i call (.active m))
    | .active m, .holding =>
        some ((metered.update m .activeRequestFinished).setStage i call .done)
    | _, _ => none

/-- The next section of call `i` in the gate.  A waiter that registers counts itself. -/
def advance (config : GateConfig) (metered : MeteredGate) (i : Nat) (party : Party)
    (call : MeteredCall) : Option MeteredGate :=
  if call.stage.lets party.phase then
    (metered.gate.advance config i party).map fun gate =>
      match call.stage, party.phase with
      | .found m, .registering _ =>
          if metered.gate.waiters.length ≥ config.maxPendingRequests then
            { metered with gate }.setStage i call .done
          else
            ({ metered with gate }.update m .pendingRequestStarted).setStage i call (.pending m)
      | _, _ => { metered with gate }
  else none

inductive Event where
  /-- A call of `acquire`. -/
  | call (origin : Text)
  /-- Call `i` accesses the registry or its metrics. -/
  | metrics (i : Nat)
  /-- Call `i` runs its next section in the gate. -/
  | advance (i : Nat)
  /-- The deadline of call `i` has passed before it registers. -/
  | expire (i : Nat)
  /-- The waiting future of call `i` ends. -/
  | abandon (i : Nat)
  /-- A lookup by somebody else. -/
  | metricsFor (origin : Text)
  /-- The number of connections of an origin changes. -/
  | connections (m count : Nat)
deriving DecidableEq, Repr

def step (config : GateConfig) (metered : MeteredGate) : Event → Option MeteredGate
  | .call origin => do
      let gate ← metered.gate.step config (.call origin)
      some { metered with gate, calls := metered.calls ++ [MeteredCall.mk origin .looking] }
  | .metrics i => do
      let party ← metered.gate.parties[i]?
      let call ← metered.calls[i]?
      metered.accessMetrics i call party.phase
  | .advance i => do
      let party ← metered.gate.parties[i]?
      let call ← metered.calls[i]?
      metered.advance config i party call
  | .expire i => do
      let call ← metered.calls[i]?
      let gate ← metered.gate.step config (.expire i)
      some ({ metered with gate }.setStage i call .done)
  | .abandon i => do
      let gate ← metered.gate.step config (.abandon i)
      some { metered with gate }
  | .metricsFor origin => some { metered with registry := (metered.registry.metricsFor origin).2 }
  | .connections m count =>
      some (metered.update m fun metrics => { metrics with activeConnections := count })

def system (config : GateConfig) : TransitionSystem MeteredGate Event :=
  ⟨new config, step config⟩

/-! ## Removals of metrics that are in use -/

/-- The origin of a lookup under the write lock. -/
def writeLookup (metered : MeteredGate) : Event → Option Text
  | .metricsFor origin => some origin
  | .metrics i =>
      (metered.calls[i]?.filter fun call => call.stage == .missed).map MeteredCall.origin
  | _ => none

/-- The step keeps all metrics in the map that a call has looked up and will still update. -/
def keepsHeld (metered : MeteredGate) (event : Event) : Bool :=
  (metered.writeLookup event).all fun origin =>
    metered.calls.all fun call =>
      match call.stage with
      | .found m => !metered.registry.prunes origin m
      | _ => true

/-! ## Settled states -/

/-- No call is between its lookup, or its removal from the queue, and the update of the
counter. -/
def settled (metered : MeteredGate) : Bool :=
  (metered.calls.zip metered.gate.parties).all fun pair =>
    match pair.1.stage with
    | .found _ => false
    | .pending _ => pair.2.phase.queued
    | _ => true

end MeteredGate

end FogHttp.Acquire
