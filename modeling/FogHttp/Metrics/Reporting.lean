import FogHttp.Lib.Text
import FogHttp.Lib.Transition
import FogHttp.Metrics.Counters

/-!
# The two accounts of a client, and the snapshot that compares them

A reporter is whatever counts for one origin: a request at the acquire gate, a permit, a
response body, a connection.  It looks the `OriginMetrics` of its origin up in the registry,
holds on to them, and makes reports.  The statements of its reports run in order, and those of
different reporters in any order.

The registry drops origins that look idle when it has many.  Their metrics live on in their
reporters, so the registry keeps all metrics in an arena, and `origins` says which of them it
still knows.

`transportStateSnapshot` reads all counters, adds up the origins that the registry knows, and
compares the sums with the counters of the client.

* The lookup of an origin is one step.  Its first try, under the read lock, finds what the
  second one would find at that time, or it changes nothing.
* The three loads of `is_idle` may fall into different moments, so its answers come from
  outside.
* Every reporter has an origin, as every connection of a client is opened for an absolute URL.
* The waiters of `pending_waiters` are left out, and the counters that only `Metrics` has.
-/

namespace FogHttp.Metrics

open Lib

/-! ## The registry -/

/-- `OriginMetrics`. -/
structure OriginMetrics where
  origin : Text
  account : Account

/-- `OriginMetrics::new`, with the time since the start of the registry. -/
def OriginMetrics.new (origin : Text) (now : Nat) : OriginMetrics :=
  ⟨origin, { Account.new with lastActivityAtNs := now }⟩

/-- `ORIGIN_PRESSURE_CLEANUP_THRESHOLD`. -/
def originPressureCleanupThreshold : Nat := 1024

structure OriginMetricsRegistry where
  origins : List (Text × Nat)
  metrics : List OriginMetrics
  prunedIdleOrigins : Bool

namespace OriginMetricsRegistry

/-- `OriginMetricsRegistry::default`. -/
def new : OriginMetricsRegistry := ⟨[], [], false⟩

/-- The origins after the cleanup for a new one. -/
def kept (registry : OriginMetricsRegistry) (isIdle : Nat → Bool) : List (Text × Nat) :=
  if registry.origins.length ≥ originPressureCleanupThreshold then
    registry.origins.filter fun entry => !isIdle entry.2
  else registry.origins

/-- `metrics_for`, with the answers of `is_idle` and the clock. -/
def metricsFor (registry : OriginMetricsRegistry) (isIdle : Nat → Bool) (origin : Text)
    (now : Nat) : Nat × OriginMetricsRegistry :=
  match registry.origins.lookup origin with
  | some m => (m, registry)
  | none =>
      (registry.metrics.length,
        { origins := (origin, registry.metrics.length) :: registry.kept isIdle
          metrics := registry.metrics ++ [.new origin now]
          prunedIdleOrigins := registry.prunedIdleOrigins ||
            decide ((registry.kept isIdle).length < registry.origins.length) })

/-- The counters of one origin change. -/
def setAccount (registry : OriginMetricsRegistry) (m : Nat) (account : Account) :
    OriginMetricsRegistry :=
  { registry with metrics := registry.metrics.modify m fun metrics => { metrics with account } }

end OriginMetricsRegistry

/-! ## Reporters -/

/-- A reporter.  `reports` is what it has reported, and `shares` what its statements have
recorded so far on either side. -/
structure Reporter where
  metrics : Nat
  todo : List Task
  /-- Where it stands in the first of its statements. -/
  cas : Cas Unit
  reports : List Report
  shares : Side → Tally

namespace Reporter

def new (metrics : Nat) : Reporter := ⟨metrics, [], .load, [], fun _ => 0⟩

/-- What the reports amount to. -/
def recorded (reporter : Reporter) : Tally :=
  reporter.reports.foldl (fun tally report => report.effect tally) 0

/-- A new report.  What it takes, the reporter has reported before. -/
def report (reporter : Reporter) (report : Report) : Option Reporter :=
  if reporter.todo = [] ∧ report.affordable reporter.recorded = true then
    some { reporter with
      todo := report.tasks
      cas := .load
      reports := reporter.reports ++ [report] }
  else none

/-- The reporter after an operation of its statement `task`. -/
def after (reporter : Reporter) (task : Task) (rest : List Task) : Progress → Reporter
  | .again cas => { reporter with cas }
  | .goes left => { reporter with todo := left.map (⟨task.side, ·⟩) ++ rest, cas := .load }
  | .did left =>
      { reporter with
        todo := left.map (⟨task.side, ·⟩) ++ rest
        cas := .load
        shares := Function.update reporter.shares task.side
          (task.op.record (reporter.shares task.side)) }

end Reporter

/-! ## All interleavings -/

structure State where
  metrics : Account
  registry : OriginMetricsRegistry
  reporters : List Reporter

namespace State

def new : State := ⟨.new, .new, []⟩

/-- The counters that a statement of a reporter is about. -/
def account (state : State) (reporter : Reporter) : Side → Option Account
  | .metrics => some state.metrics
  | .origin => state.registry.metrics[reporter.metrics]?.map OriginMetrics.account

/-- These counters change. -/
def setAccount (state : State) (reporter : Reporter) (account : Account) : Side → State
  | .metrics => { state with metrics := account }
  | .origin => { state with registry := state.registry.setAccount reporter.metrics account }

inductive Event where
  /-- A new reporter looks its origin up, with the clock. -/
  | enter (origin : Text) (isIdle : Nat → Bool) (now : Nat)
  | report (i : Nat) (report : Report)
  /-- The next operation of a reporter, with the clock. -/
  | advance (i : Nat) (now : Nat) (spurious : Bool)

def step (state : State) : Event → Option State
  | .enter origin isIdle now =>
      let (m, registry) := state.registry.metricsFor isIdle origin now
      some { state with registry, reporters := state.reporters ++ [.new m] }
  | .report i report => do
      let reporter ← state.reporters[i]?
      let reporter ← reporter.report report
      some { state with reporters := state.reporters.set i reporter }
  | .advance i now spurious => do
      let reporter ← state.reporters[i]?
      match reporter.todo with
      | [] => none
      | task :: rest =>
          let account ← state.account reporter task.side
          let (account, progress) ← task.op.step now spurious account reporter.cas
          some { state.setAccount reporter account task.side with
            reporters := state.reporters.set i (reporter.after task rest progress) }

/-- What a step can be. -/
inductive Moves (state : State) : State → Prop where
  | entered (origin : Text) (isIdle : Nat → Bool) (now : Nat) :
      Moves state { state with
        registry := (state.registry.metricsFor isIdle origin now).2
        reporters := state.reporters ++ [.new (state.registry.metricsFor isIdle origin now).1] }
  | reported {i : Nat} {reporter after : Reporter} {report : Report}
      (hreporter : state.reporters[i]? = some reporter)
      (hreport : reporter.report report = some after) :
      Moves state { state with reporters := state.reporters.set i after }
  | advanced {i now : Nat} {spurious : Bool} {reporter : Reporter} {task : Task}
      {rest : List Task} {account after : Account} {progress : Progress}
      (hreporter : state.reporters[i]? = some reporter) (htodo : reporter.todo = task :: rest)
      (haccount : state.account reporter task.side = some account)
      (hop : task.op.step now spurious account reporter.cas = some (after, progress)) :
      Moves state { state.setAccount reporter after task.side with
        reporters := state.reporters.set i (reporter.after task rest progress) }

theorem moves_of_step {state next : State} {event : Event} (h : state.step event = some next) :
    state.Moves next := by
  cases event with
  | enter origin isIdle now =>
      obtain rfl := Option.some.inj h
      exact .entered origin isIdle now
  | report i report =>
      obtain ⟨reporter, hreporter, h⟩ := Option.bind_eq_some_iff.mp h
      obtain ⟨after, hreport, h⟩ := Option.bind_eq_some_iff.mp h
      obtain rfl := Option.some.inj h
      exact .reported hreporter hreport
  | advance i now spurious =>
      obtain ⟨reporter, hreporter, h⟩ := Option.bind_eq_some_iff.mp h
      split at h
      · exact absurd h.symm (Option.some_ne_none _)
      · rename_i task rest htodo
        obtain ⟨account, haccount, h⟩ := Option.bind_eq_some_iff.mp h
        obtain ⟨⟨after, progress⟩, hop, h⟩ := Option.bind_eq_some_iff.mp h
        obtain rfl := Option.some.inj h
        exact .advanced hreporter htodo haccount hop

/-- No report is being made. -/
def AtRest (state : State) : Prop := ∀ reporter ∈ state.reporters, reporter.todo = []

/-- All that was reported. -/
def recorded (state : State) : Tally := (state.reporters.map Reporter.recorded).sum

/-- All that was reported for the metrics `m`. -/
def recordedFor (state : State) (m : Nat) : Tally :=
  (state.reporters.map fun reporter =>
    if reporter.metrics = m then reporter.recorded else 0).sum

end State

/-- A client and all that it counts. -/
def system : TransitionSystem State State.Event := ⟨State.new, State.step⟩

/-! ## Snapshots -/

/-- `OriginMetricsSnapshot`. -/
structure OriginMetricsSnapshot where
  origin : Text
  tally : Tally
  peakPendingRequests : Nat
  waitTimeLastNs : Wait → Nat
  lastUsedAtNs : Nat
  idleAgeNs : Nat
  lastActivityAtNs : Nat

namespace OriginMetrics

/-- `idle_state_snapshot`. -/
def idleStateSnapshot (metrics : OriginMetrics) (now : Nat) : Nat × Nat :=
  if metrics.account.tally.count .idleConnections = 0 ∨ metrics.account.idleStartedAtNs = 0 then
    (0, 0)
  else (metrics.account.tally.count .idleConnections, now - metrics.account.idleStartedAtNs)

/-- `OriginMetrics::snapshot`. -/
def snapshot (metrics : OriginMetrics) (now : Nat) : OriginMetricsSnapshot where
  origin := metrics.origin
  tally := metrics.account.tally.setCount .idleConnections (metrics.idleStateSnapshot now).1
  peakPendingRequests := metrics.account.peakPendingRequests
  waitTimeLastNs := metrics.account.waitTimeLastNs
  lastUsedAtNs := metrics.account.lastActivityAtNs
  idleAgeNs := (metrics.idleStateSnapshot now).2
  lastActivityAtNs := metrics.account.lastActivityAtNs

end OriginMetrics

/-- `OriginMetricsRegistry::snapshots`, with the clock at every origin. -/
def OriginMetricsRegistry.snapshots (registry : OriginMetricsRegistry) (clock : Nat → Nat) :
    List OriginMetricsSnapshot :=
  (registry.origins.filterMap fun entry =>
      registry.metrics[entry.2]?.map (OriginMetrics.snapshot · (clock entry.2))).mergeSort
    fun left right => !right.origin.lex left.origin

/-- `OriginPressureTotals::from_origins`: saturating sums, and the maximum of the maxima. -/
def fromOrigins (origins : List OriginMetricsSnapshot) : Tally :=
  origins.foldl (fun totals origin => (totals + origin.tally).saturated) 0

/-- `TelemetrySnapshotMetadata`. -/
structure TelemetrySnapshotMetadata where
  schemaVersion : Nat
  snapshotSequence : Nat

/-- `TransportStateSnapshot`.  Of its `MetricsSnapshot` it has what is compared. -/
structure TransportStateSnapshot where
  metadata : TelemetrySnapshotMetadata
  metrics : Tally
  origins : List OriginMetricsSnapshot
  originsIncludeAllHistoricalPressure : Bool

namespace TransportStateSnapshot

/-- `has_coherent_current_pressure`. -/
def hasCoherentCurrentPressure (snapshot : TransportStateSnapshot) (totals : Tally) : Bool :=
  snapshot.metrics.count .activeRequests == totals.count .activeRequests
    && snapshot.metrics.count .pendingRequests == totals.count .pendingRequests
    && snapshot.metrics.count .activeConnections == totals.count .activeConnections
    && snapshot.metrics.count .idleConnections == totals.count .idleConnections

/-- The numbers that `has_coherent_historical_transport_counters` compares. -/
def historicalCounts : List Count :=
  [.poolAcquireAttempts, .poolAcquireImmediate, .poolAcquireWaited, .poolAcquireTimeouts,
    .connectionAcquireAttempts, .connectionAcquireImmediate, .connectionAcquireWaited,
    .connectionAcquireTimeouts, .responseBodyReuseEligible, .responseBodyClosed,
    .responseBodyAborted, .connectionsOpened, .connectionsOpenFailed, .connectionsClosed,
    .connectionsReused, .connectionsAborted, .idleTimeoutEvictions]

/-- `has_coherent_historical_transport_counters`. -/
def hasCoherentHistoricalTransportCounters (snapshot : TransportStateSnapshot)
    (totals : Tally) : Bool :=
  (historicalCounts.all fun c => snapshot.metrics.count c == totals.count c)
    && [Wait.poolAcquire, Wait.connectionAcquire].all fun w =>
      snapshot.metrics.waitTimeTotalNs w == totals.waitTimeTotalNs w
        && snapshot.metrics.waitTimeMaxNs w == totals.waitTimeMaxNs w

/-- `has_coherent_pressure`. -/
def hasCoherentPressure (snapshot : TransportStateSnapshot) : Bool :=
  let totals := fromOrigins snapshot.origins
  snapshot.hasCoherentCurrentPressure totals
    && (!snapshot.originsIncludeAllHistoricalPressure
      || snapshot.hasCoherentHistoricalTransportCounters totals)

end TransportStateSnapshot

/-- `transport_state_snapshot_once` of a state that does not change under it. -/
def State.transportStateSnapshotOnce (state : State) (metadata : TelemetrySnapshotMetadata)
    (clock : Nat → Nat) : TransportStateSnapshot where
  metadata := metadata
  metrics := state.metrics.tally
  origins := state.registry.snapshots clock
  originsIncludeAllHistoricalPressure := !state.registry.prunedIdleOrigins

/-- `TRANSPORT_STATE_SNAPSHOT_ATTEMPTS`. -/
def transportStateSnapshotAttempts : Nat := 8

/-- The loop of `transport_state_snapshot`, with the attempts that are left. -/
def retrySnapshot (once : Nat → TransportStateSnapshot) (attempt : Nat) :
    Nat → TransportStateSnapshot
  | 0 => once attempt
  | left + 1 =>
      if (once attempt).hasCoherentPressure then once attempt
      else retrySnapshot once (attempt + 1) left

/-- `transport_state_snapshot`, with what each attempt would read. -/
def transportStateSnapshot (once : Nat → TransportStateSnapshot) : TransportStateSnapshot :=
  retrySnapshot once 0 (transportStateSnapshotAttempts - 1)

end FogHttp.Metrics
