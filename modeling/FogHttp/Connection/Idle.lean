import FogHttp.Connection.Telemetry

/-!
# Idle connections

Any number of physical connections share the gauges of idle connections: one of the client
and one in every `OriginMetrics`.  A connection enters and leaves idleness under its own
idle mutex, and updates the gauges one after the other while it holds the mutex.

`FogHttp.Connection.Telemetry` follows one connection with its wakers and its write timeout.
Here only what decides idleness is left of a connection, but the section under the idle
mutex is taken apart:

* `Op` is what a call does next while it does not hold the idle mutex, up to the point
  where it has read and set everything that the mutex protects.
* `Section` is what is left to do under the mutex.

An abort swaps `aborted` and then takes `idle_since`.  That is one step here: nothing reads
`idle_since` without the mutex, and the abort holds it from before the swap until after the
take.

What the write timeout state and the telemetry of a request answer are choices of the
events, and the completion of a request body is an environment that may change at any
time.  `gauged` and `originGauged` are kept for the statements only: whether the connection
is counted in the two gauges.
-/

namespace FogHttp.IdleConnections

open Lib
open ConnectionUse (ResponseBodyLifecycleOutcome UseEnding)

/-- What is left of a `ConnectionTelemetryInner`. -/
structure Connection where
  /-- Its `OriginMetrics`. -/
  originMetrics : Option Nat
  observedUses : Nat
  /-- `idle_since` is set. -/
  idleSince : Bool
  /-- The call that holds the idle mutex. -/
  idleLock : Option Nat
  closed : Bool
  aborted : Bool
  gauged : Bool
  originGauged : Bool
deriving DecidableEq, Repr

/-- A `ConnectionUseGuard`, with the call that returns it and the way it has ended. -/
structure ConnectionUseGuard where
  startedBy : Nat
  connection : Nat
  useId : Nat
  requestBody : Option Nat
  ending : Option UseEnding
deriving DecidableEq, Repr

/-- The end of a section. -/
inductive SectionEnd where
  /-- `request_started_with_body_completion` counts the use. -/
  | countUse (requestBody : Option Nat)
  | unlock
deriving DecidableEq, Repr

/-- What is left to do under the idle mutex. -/
inductive Section where
  /-- `connection_left_idle` of the metrics, and of the origin after it. -/
  | leftIdle (rest : SectionEnd)
  | originLeftIdle (rest : SectionEnd)
  /-- `connection_became_idle` of the metrics, and of the origin after it. -/
  | becameIdle
  | originBecameIdle
  | ending (rest : SectionEnd)
deriving DecidableEq, Repr

inductive Op where
  /-- The section of `request_started_with_body_completion`. -/
  | startUse (requestBody : Option Nat)
  | beginRequestWriteTimeout
  /-- `finish`, `abort`, `superseded` or `drop` of a guard. -/
  | endUse (ending : UseEnding)
  | enterIdle
  | abortConnectionUse
  | abortCurrentConnectionUse
  /-- The swap of `connection_closed`. -/
  | connectionClosed
  /-- The section of `connection_closed`. -/
  | leaveIdle
deriving DecidableEq, Repr

inductive CallPhase where
  | next (op : Op)
  | locked (rest : Section)
  | returned
deriving DecidableEq, Repr

/-- A call on a connection. -/
structure Call where
  connection : Nat
  /-- The guard that ends, for its methods. -/
  guard : Option Nat
  /-- The guard has found its upload incomplete. -/
  incomplete : Bool
  phase : CallPhase
deriving DecidableEq, Repr

/-- The connections of one client. -/
structure Client where
  idleConnections : Nat
  /-- The gauge in every `OriginMetrics`. -/
  originIdle : Nat → Nat
  connections : List Connection
  guards : List ConnectionUseGuard
  calls : List Call
  /-- `is_complete` of the request bodies. -/
  complete : Nat → Bool

/-! ## Operations -/

namespace Connection

def isCurrentUse (connection : Connection) (useId : Nat) : Bool :=
  connection.observedUses == useId + 1

/-- `leave_idle_locked`, up to the gauges. -/
def leaveIdleLocked (connection : Connection) (call : Nat) (rest : SectionEnd) :
    Connection × CallPhase :=
  if connection.idleSince then
    ({ connection with idleSince := false, idleLock := some call }, .locked (.leftIdle rest))
  else ({ connection with idleLock := some call }, .locked (.ending rest))

/-- `enter_idle`, up to the gauges. -/
def enterIdle (connection : Connection) (call useId : Nat) : Connection × CallPhase :=
  if connection.closed || connection.aborted || !connection.isCurrentUse useId then
    (connection, .returned)
  else if connection.idleSince then (connection, .returned)
  else ({ connection with idleSince := true, idleLock := some call }, .locked .becameIdle)

/-- `abort_current_connection_use_locked`, up to the gauges. -/
def abortCurrentConnectionUseLocked (connection : Connection) (call : Nat) :
    Connection × CallPhase :=
  if connection.aborted then (connection, .returned)
  else { connection with aborted := true }.leaveIdleLocked call .unlock

/-- `abort_connection_use`, up to the gauges. -/
def abortConnectionUse (connection : Connection) (call useId : Nat) : Connection × CallPhase :=
  if connection.isCurrentUse useId then connection.abortCurrentConnectionUseLocked call
  else (connection, .returned)

end Connection

/-- `response_finished`.  `telemetryFinished` is the answer of
`RequestConnectionUseTelemetry::finish`, true when there is none. -/
def responseFinished (telemetryFinished : Bool) : ResponseBodyLifecycleOutcome → CallPhase
  | .reuseEligible => if telemetryFinished then .next .enterIdle else .next .abortConnectionUse
  | .closed => if telemetryFinished then .returned else .next .abortConnectionUse
  | .aborted => .next .abortConnectionUse

/-- What a guard does after it has looked at its upload. -/
def afterCheck (incomplete : Bool) : UseEnding → CallPhase
  | .finish outcome telemetryFinished =>
      if incomplete then .next .abortCurrentConnectionUse
      else responseFinished telemetryFinished outcome
  | .abort =>
      if incomplete then .next .abortCurrentConnectionUse else .next .abortConnectionUse
  | .drop =>
      if incomplete then .next .abortCurrentConnectionUse else responseFinished true .aborted
  | .superseded telemetryFinished => responseFinished telemetryFinished .closed

namespace Client

def new : Client := ⟨0, fun _ => 0, [], [], [], fun _ => false⟩

/-- The state after an operation of call `k` on its connection. -/
def put (client : Client) (k : Nat) (call : Call) (result : Connection × CallPhase) : Client :=
  { client with
    connections := client.connections.set call.connection result.1
    calls := client.calls.set k { call with phase := result.2 } }

/-- The use id of the guard that ends. -/
def useId (client : Client) (call : Call) : Option Nat := do
  let guard ← client.guards[← call.guard]?
  some guard.useId

/-- The upload of the guard that ends is not complete. -/
def incompleteUpload (client : Client) (call : Call) : Bool :=
  (call.guard.bind fun g => client.guards[g]?).any fun guard =>
    guard.requestBody.any fun body => !client.complete body

/-- An operation of a call that does not hold the idle mutex. -/
def exec (client : Client) (k : Nat) (call : Call) (connection : Connection)
    (previousIncomplete : Bool) : Op → Option Client
  | .startUse requestBody =>
      if connection.idleLock.isSome then none
      else some (client.put k call (connection.leaveIdleLocked k (.countUse requestBody)))
  | .beginRequestWriteTimeout =>
      some (client.put k call (connection,
        if connection.closed || connection.aborted then .returned
        else if previousIncomplete then .next .abortCurrentConnectionUse
        else .returned))
  | .endUse ending =>
      let incomplete := client.incompleteUpload call
      some (client.put k { call with incomplete }
        (connection, afterCheck incomplete ending))
  | .enterIdle =>
      if connection.idleLock.isSome then none
      else do
        let useId ← client.useId call
        some (client.put k call (connection.enterIdle k useId))
  | .abortConnectionUse =>
      if connection.idleLock.isSome then none
      else do
        let useId ← client.useId call
        some (client.put k call (connection.abortConnectionUse k useId))
  | .abortCurrentConnectionUse =>
      if connection.idleLock.isSome then none
      else some (client.put k call (connection.abortCurrentConnectionUseLocked k))
  | .connectionClosed =>
      some (client.put k call
        (if connection.closed then (connection, .returned)
        else ({ connection with closed := true }, .next .leaveIdle)))
  | .leaveIdle =>
      if connection.idleLock.isSome then none
      else some (client.put k call (connection.leaveIdleLocked k .unlock))

/-- The gauge of an origin after an update. -/
def updateOrigin (client : Client) (originMetrics : Option Nat) (update : Nat → Nat) :
    Nat → Nat :=
  match originMetrics with
  | none => client.originIdle
  | some m => Function.update client.originIdle m (update (client.originIdle m))

/-- The next part of a section under the idle mutex. -/
def execSection (client : Client) (k : Nat) (call : Call) (connection : Connection) :
    Section → Client
  | .leftIdle rest =>
      { client with idleConnections := client.idleConnections - 1 }.put k call
        ({ connection with gauged := false }, .locked (.originLeftIdle rest))
  | .originLeftIdle rest =>
      { client with
        originIdle := client.updateOrigin connection.originMetrics fun count => count - 1 }.put
          k call ({ connection with originGauged := false }, .locked (.ending rest))
  | .becameIdle =>
      { client with idleConnections := client.idleConnections + 1 }.put k call
        ({ connection with gauged := true }, .locked .originBecameIdle)
  | .originBecameIdle =>
      { client with
        originIdle := client.updateOrigin connection.originMetrics fun count => count + 1 }.put
          k call ({ connection with originGauged := true }, .locked (.ending .unlock))
  | .ending (.countUse requestBody) =>
      { client with
        guards := client.guards ++
          [ConnectionUseGuard.mk k call.connection connection.observedUses requestBody none] }.put
            k call ({ connection with
              observedUses := connection.observedUses + 1
              idleLock := none }, .next .beginRequestWriteTimeout)
  | .ending .unlock => client.put k call ({ connection with idleLock := none }, .returned)

/-- The next step of call `k`. -/
def advance (client : Client) (k : Nat) (call : Call) (connection : Connection)
    (previousIncomplete : Bool) : Option Client :=
  match call.phase with
  | .next op => client.exec k call connection previousIncomplete op
  | .locked rest => some (client.execSection k call connection rest)
  | .returned => none

/-! ## Steps -/

/-- A call begins. -/
def call (client : Client) (connection : Nat) (guard : Option Nat) (op : Op) : Client :=
  { client with calls := client.calls ++ [Call.mk connection guard false (.next op)] }

inductive Event where
  /-- A connection is opened. -/
  | connect (originMetrics : Option Nat)
  | startUse (connection : Nat) (requestBody : Option Nat)
  /-- A guard that was returned ends, which it does once. -/
  | endUse (guard : Nat) (ending : UseEnding)
  /-- A write timeout. -/
  | abort (connection : Nat)
  | close (connection : Nat)
  /-- The completion of a request body changes. -/
  | body (body : Nat) (complete : Bool)
  /-- A call goes on.  `previousIncomplete` is what `begin_request_write_timeout` finds. -/
  | advance (k : Nat) (previousIncomplete : Bool)
deriving DecidableEq, Repr

def step (client : Client) : Event → Option Client
  | .connect originMetrics =>
      some { client with
        connections := client.connections ++
          [Connection.mk originMetrics 0 false none false false false false] }
  | .startUse connection requestBody =>
      if connection < client.connections.length then
        some (client.call connection none (.startUse requestBody))
      else none
  | .endUse g ending => do
      let guard ← client.guards[g]?
      let startUse ← client.calls[guard.startedBy]?
      if guard.ending.isSome ∨ startUse.phase ≠ .returned then none
      else
        some ({ client with
          guards := client.guards.set g { guard with ending := some ending } }.call
            guard.connection (some g) (.endUse ending))
  | .abort connection =>
      if connection < client.connections.length then
        some (client.call connection none .abortCurrentConnectionUse)
      else none
  | .close connection =>
      if connection < client.connections.length then
        some (client.call connection none .connectionClosed)
      else none
  | .body body complete =>
      some { client with complete := Function.update client.complete body complete }
  | .advance k previousIncomplete => do
      let call ← client.calls[k]?
      let connection ← client.connections[call.connection]?
      client.advance k call connection previousIncomplete

/-- The connections of a client, in every interleaving of their calls. -/
def system : TransitionSystem Client Event := ⟨new, step⟩

end Client

end FogHttp.IdleConnections
