import FogHttp.Lib.Transition
import FogHttp.Telemetry.Event

/-!
# Connection telemetry and its shutdown

A client counts its physical connections in its telemetry.  `connection_open` hands out
a handle, which is consumed by `opened`, by `failed` or by its drop; `opened` hands out
a `ConnectionEventTelemetry`, on which `closed` is called once before its last clone is
dropped.  `close_connections` seals the telemetry: it stores `closed`, collects what is
still registered, waits for the producers that have started, and records the ends of
what it collected.

This module models all of this as a transition system.  Every access to a shared atomic
is a step of its own:

* `CallPhase` is the code between `try_begin_production` and the drop of its
  `TelemetryProducer`, which is common to all recording calls.
* The sections under the locks of the two registries are one step each.  The closer
  holds both locks while it collects, so they cannot run then.
* `retain` reads flags that other parties set, so what it removes is given with the
  step: any entries that have the flag by then.
* The closer upgrades its weak references one after the other, and each of them only
  while a handle is alive.

The capacity of the journal is not reached, so `record_unchecked` appends to the log.
The type of the error that a drop reports is read from the request, and comes with the
event.
-/

namespace FogHttp.Telemetry

open Lib

/-- The next section of a call that records under a `TelemetryProducer`. -/
inductive CallPhase where
  /-- The first load of `closed` is next. -/
  | loading
  /-- The `fetch_add` of `active_producers` is next. -/
  | counting
  /-- The second load of `closed` is next. -/
  | checking
  /-- The `fetch_sub` of a call that was declined is next. -/
  | declining
  /-- The call has its `TelemetryProducer`; the exchange of its flag is next. -/
  | producing
  /-- The call has set the flag; `record_unchecked` is next. -/
  | recording
  /-- The drop of the `TelemetryProducer` is next. -/
  | releasing
deriving DecidableEq, Repr

namespace CallPhase

/-- The call is counted in `active_producers`. -/
def counted : CallPhase → Bool
  | .loading | .counting => false
  | _ => true

/-- The call may still record. -/
def writing : CallPhase → Bool
  | .producing | .recording => true
  | _ => false

end CallPhase

/-- What is left to do with a handle of `connection_open`. -/
inductive OpenCall where
  /-- `opened_connection`. -/
  | opened
  /-- `finish_before_seal` with this error. -/
  | finish (errorType : TelemetryErrorType)
deriving DecidableEq, Repr

inductive OpenStage where
  /-- The handle is alive. -/
  | held
  /-- The handle is consumed: it is in a call, and these calls follow. -/
  | calling (call : OpenCall) (rest : List OpenCall) (phase : CallPhase)
  | dropped
deriving DecidableEq, Repr

/-- A `ConnectionOpenTelemetryInner` with the party that has its handle. -/
structure ConnectionOpen where
  origin : Option Text
  /-- The call of `connection_open` came before the seal. -/
  registered : Bool
  finished : Bool
  stage : OpenStage
deriving DecidableEq, Repr

/-- The one call of `closed` on a connection. -/
inductive ClosedCall where
  | due
  | calling (phase : CallPhase)
  | returned
deriving DecidableEq, Repr

/-- A `ConnectionEventTelemetryInner`. -/
structure Connection where
  opener : Nat
  origin : Option Text
  closed : Bool
  /-- The strong references that handles hold. -/
  handles : Nat
  call : ClosedCall
deriving DecidableEq, Repr

/-- The section of `close_connections` that is next. -/
inductive Closer where
  /-- Not called, or waiting for the locks. -/
  | idle
  /-- Under both locks, after the store of `closed`: the weak references that are left
  to upgrade, and the strong ones that came of it. -/
  | collecting (rest collected : List Nat)
  /-- Waiting for the producers. -/
  | waiting (opens collected : List Nat)
  /-- `finish_after_seal` on these opens is next. -/
  | finishing (opens collected : List Nat)
  /-- The record of open `i` is next. -/
  | recordingOpen (i : Nat) (opens collected : List Nat)
  /-- `closed_after_seal` on these connections is next. -/
  | closing (collected : List Nat)
  /-- The record of connection `c` is next. -/
  | recordingClosed (c : Nat) (collected : List Nat)
  | returned
deriving DecidableEq, Repr

namespace Closer

/-- The closer holds both locks. -/
def locking : Closer → Bool
  | .collecting _ _ => true
  | _ => false

/-- The closer has seen no producer after the seal. -/
def drained : Closer → Bool
  | .idle | .collecting _ _ | .waiting _ _ => false
  | _ => true

/-- The connections that the closer holds strong references to. -/
def collected : Closer → List Nat
  | .idle | .returned => []
  | .collecting _ collected | .waiting _ collected => collected
  | .finishing _ collected | .recordingOpen _ _ collected => collected
  | .closing collected | .recordingClosed _ collected => collected

end Closer

/-- What a record is about. -/
inductive Subject where
  | ofOpen (i : Nat)
  | ofConnection (c : Nat)
deriving DecidableEq, Repr

/-- The telemetry of one client.  Opens and connections live in arenas, so that their
positions are their identities. -/
structure ClientTelemetry where
  closed : Bool
  activeProducers : Nat
  opens : List ConnectionOpen
  connections : List Connection
  /-- The weak references to connections. -/
  registered : List Nat
  /-- The strong references to opens. -/
  pendingOpens : List Nat
  closer : Closer
  log : List (Subject × TelemetryEventRecord)
deriving DecidableEq, Repr

namespace ClientTelemetry

def new : ClientTelemetry := ⟨false, 0, [], [], [], [], .idle, []⟩

/-- The state of open `i` after a section. -/
def putOpen (client : ClientTelemetry) (i : Nat) (entry : ConnectionOpen) : ClientTelemetry :=
  { client with opens := client.opens.set i entry }

/-- The state of connection `c` after a section. -/
def putConnection (client : ClientTelemetry) (c : Nat) (connection : Connection) :
    ClientTelemetry :=
  { client with connections := client.connections.set c connection }

/-- `record_unchecked` with room in the journal. -/
def record (client : ClientTelemetry) (subject : Subject) (event : TelemetryEventRecord) :
    ClientTelemetry :=
  { client with log := client.log ++ [(subject, event)] }

/-- The sections that all recording calls have in common: `try_begin_production` and the
drop of the `TelemetryProducer`.  `none` is the end of the call. -/
def produce (client : ClientTelemetry) : CallPhase → Option (ClientTelemetry × Option CallPhase)
  | .loading => some (client, if client.closed then none else some .counting)
  | .counting =>
      some ({ client with activeProducers := client.activeProducers + 1 }, some .checking)
  | .checking => some (client, some (if client.closed then .declining else .producing))
  | .declining | .releasing =>
      some ({ client with activeProducers := client.activeProducers - 1 }, none)
  | .producing | .recording => none

/-! ## Opens -/

/-- `connection_open`, from the lock of the pending opens. -/
def connectionOpen (client : ClientTelemetry) (origin : Option Text) (pruned : List Nat) :
    Option ClientTelemetry :=
  if client.closer.locking ∨
      ¬ ∀ i ∈ pruned, (client.opens[i]?.any fun entry => entry.finished) = true then none
  else
    let kept := client.pendingOpens.filter fun i => i ∉ pruned
    if client.closed then
      some { client with
        opens := client.opens ++ [ConnectionOpen.mk origin false true .held]
        pendingOpens := kept }
    else
      some { client with
        opens := client.opens ++ [ConnectionOpen.mk origin true false .held]
        pendingOpens := kept ++ [client.opens.length] }

/-- How a handle of `connection_open` is consumed. -/
inductive OpenUse where
  | opened
  | failed (errorType : TelemetryErrorType)
  | dropped
deriving DecidableEq, Repr

/-- The calls that consume a handle.  Its drop is always the last of them. -/
def OpenUse.calls (terminalErrorType : TelemetryErrorType) : OpenUse → List OpenCall
  | .opened => [.opened, .finish terminalErrorType]
  | .failed errorType => [.finish errorType, .finish terminalErrorType]
  | .dropped => [.finish terminalErrorType]

/-- The stage of a handle that goes through these calls. -/
def stageOf : List OpenCall → OpenStage
  | [] => .dropped
  | call :: rest => .calling call rest .loading

/-- The stage after a section of a call; `none` is its end. -/
def nextStage (call : OpenCall) (rest : List OpenCall) : Option CallPhase → OpenStage
  | some phase => .calling call rest phase
  | none => stageOf rest

/-- The section of `opened_connection` under the lock of the connections. -/
def openedConnection (client : ClientTelemetry) (i : Nat) (entry : ConnectionOpen)
    (rest : List OpenCall) (pruned : List Nat) : Option ClientTelemetry :=
  if client.closer.locking ∨
      ¬ ∀ c ∈ pruned, (client.connections[c]?.any fun connection => connection.handles == 0) = true
    then none
  else if client.closed || entry.finished then
    some (client.putOpen i { entry with stage := .calling .opened rest .releasing })
  else
    some ((({ client with
      connections := client.connections ++ [Connection.mk i entry.origin false 1 .due]
      registered := (client.registered.filter fun c => c ∉ pruned) ++
        [client.connections.length] }.putOpen i
          { entry with finished := true, stage := .calling .opened rest .releasing }).record
        (.ofOpen i) (.connectionOpened entry.origin)))

/-- The next section of the call that consumes open `i`. -/
def advanceOpen (client : ClientTelemetry) (i : Nat) (entry : ConnectionOpen)
    (pruned : List Nat) : Option ClientTelemetry :=
  match entry.stage with
  | .calling .opened rest .producing => client.openedConnection i entry rest pruned
  | .calling (.finish errorType) rest .producing =>
      if entry.finished then
        some (client.putOpen i
          { entry with stage := .calling (.finish errorType) rest .releasing })
      else
        some (client.putOpen i
          { entry with
            finished := true, stage := .calling (.finish errorType) rest .recording })
  | .calling (.finish errorType) rest .recording =>
      some ((client.putOpen i
        { entry with stage := .calling (.finish errorType) rest .releasing }).record (.ofOpen i)
          (.connectionOpenFailed entry.origin errorType))
  | .calling call rest phase => do
      let (after, next) ← client.produce phase
      some (after.putOpen i { entry with stage := nextStage call rest next })
  | _ => none

/-! ## Connections -/

/-- The call of `closed` after a section; `none` is its end. -/
def nextCall : Option CallPhase → ClosedCall
  | some phase => .calling phase
  | none => .returned

/-- The next section of `ConnectionEventTelemetry::closed`. -/
def advanceClosed (client : ClientTelemetry) (c : Nat) (connection : Connection) :
    Option ClientTelemetry :=
  match connection.call with
  | .calling .producing =>
      if connection.closed then
        some (client.putConnection c { connection with call := .calling .releasing })
      else
        some (client.putConnection c
          { connection with closed := true, call := .calling .recording })
  | .calling .recording =>
      some ((client.putConnection c { connection with call := .calling .releasing }).record
        (.ofConnection c) (.connectionClosed connection.origin))
  | .calling phase => do
      let (after, next) ← client.produce phase
      some (after.putConnection c { connection with call := nextCall next })
  | _ => none

/-! ## The closer -/

/-- `Weak::upgrade`. -/
def upgrade (client : ClientTelemetry) (c : Nat) : Bool :=
  client.connections[c]?.any fun connection => 0 < connection.handles

/-- The next section of `close_connections`. -/
def closeConnections (client : ClientTelemetry) (errorType : TelemetryErrorType) :
    Option ClientTelemetry :=
  match client.closer with
  | .idle => some { client with closed := true, closer := .collecting client.registered [] }
  | .collecting (c :: rest) collected =>
      some { client with
        closer := .collecting rest (if client.upgrade c then collected ++ [c] else collected) }
  | .collecting [] collected =>
      some { client with
        registered := [], pendingOpens := []
        closer := .waiting client.pendingOpens collected }
  | .waiting opens collected =>
      if client.activeProducers = 0 then some { client with closer := .finishing opens collected }
      else none
  | .finishing (i :: opens) collected => do
      let entry ← client.opens[i]?
      if entry.finished then some { client with closer := .finishing opens collected }
      else
        some ({ client with closer := .recordingOpen i opens collected }.putOpen i
          { entry with finished := true })
  | .recordingOpen i opens collected => do
      let entry ← client.opens[i]?
      some ({ client with closer := .finishing opens collected }.record (.ofOpen i)
        (.connectionOpenFailed entry.origin errorType))
  | .finishing [] collected => some { client with closer := .closing collected }
  | .closing (c :: collected) => do
      let connection ← client.connections[c]?
      if connection.closed then some { client with closer := .closing collected }
      else
        some ({ client with closer := .recordingClosed c collected }.putConnection c
          { connection with closed := true })
  | .recordingClosed c collected => do
      let connection ← client.connections[c]?
      some ({ client with closer := .closing collected }.record (.ofConnection c)
        (.connectionClosed connection.origin))
  | .closing [] => some { client with closer := .returned }
  | .returned => none

inductive Event where
  /-- A call of `connection_open`, with the finished opens that its `retain` removes. -/
  | connectionOpen (origin : Option Text) (pruned : List Nat)
  /-- The handle of open `i` is consumed.  Its drop reports this error. -/
  | consume (i : Nat) (how : OpenUse) (terminalErrorType : TelemetryErrorType)
  /-- The next section of the call that consumes open `i`, with the dead connections that
  its `retain` removes. -/
  | advanceOpen (i : Nat) (pruned : List Nat)
  /-- A handle of connection `c` is cloned. -/
  | clone (c : Nat)
  /-- The call of `closed` on connection `c`. -/
  | callClosed (c : Nat)
  /-- The next section of that call. -/
  | advanceClosed (c : Nat)
  /-- A handle of connection `c` is dropped.  The last one only after `closed` has
  returned. -/
  | dropHandle (c : Nat)
  /-- The next section of `close_connections`. -/
  | closeConnections (errorType : TelemetryErrorType)
deriving DecidableEq, Repr

/-- One step of the client's telemetry. -/
def step (client : ClientTelemetry) : Event → Option ClientTelemetry
  | .connectionOpen origin pruned => client.connectionOpen origin pruned
  | .consume i how terminalErrorType => do
      let entry ← client.opens[i]?
      if entry.stage = .held then
        some (client.putOpen i { entry with stage := stageOf (how.calls terminalErrorType) })
      else none
  | .advanceOpen i pruned => do
      let entry ← client.opens[i]?
      client.advanceOpen i entry pruned
  | .clone c => do
      let connection ← client.connections[c]?
      if 0 < connection.handles then
        some (client.putConnection c { connection with handles := connection.handles + 1 })
      else none
  | .callClosed c => do
      let connection ← client.connections[c]?
      if 0 < connection.handles ∧ connection.call = .due then
        some (client.putConnection c { connection with call := .calling .loading })
      else none
  | .advanceClosed c => do
      let connection ← client.connections[c]?
      client.advanceClosed c connection
  | .dropHandle c => do
      let connection ← client.connections[c]?
      if 1 < connection.handles ∨ connection.handles = 1 ∧ connection.call = .returned then
        some (client.putConnection c { connection with handles := connection.handles - 1 })
      else none
  | .closeConnections errorType => client.closeConnections errorType

/-- The telemetry and all its interleavings. -/
def system : TransitionSystem ClientTelemetry Event := ⟨new, step⟩

end ClientTelemetry

end FogHttp.Telemetry
