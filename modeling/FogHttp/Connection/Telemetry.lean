import Mathlib.Logic.Function.Basic
import FogHttp.Lib.Transition

/-!
# Uses of one physical connection

`ConnectionTelemetry` is shared by the task that polls the connection, by the
guards of the requests that use it and by the drop of the connection.  It has
three mutexes (`idle_since`, `io_waker`, `write_timeout`) and three atomics
(`observed_uses`, `closed`, `aborted`).

Each party is a thread with a list of operations still to do.  An operation is
one section under a mutex or one access to an atomic, and it may put further
operations in front of the rest.  The idle mutex is held over several
operations of an abort, so its holder is part of the state; the other two are
never held over more than one operation.

* An abort swaps `aborted` and then takes `idle_since`, in one step here.  It holds the
  idle mutex over both, and nothing reads `idle_since` without that mutex.
* Time is left out.  Whether a write timeout has elapsed, what the inner
  connection answers and what the telemetry of a request answers are choices
  of the events.
* The completion of a request body is an environment: its status changes by
  events of its own, in any way.
* The metrics are left out, except for the idle gauge.

`registered`, `discarded`, `wakes`, `abortWakes` and `polls` are ghosts: what
`prepare_io_poll` registered, what the drop of the connection took out of the
waker slot, the wakes, and the results of the polls.
-/

namespace FogHttp.ConnectionUse

open Lib

/-! ## The shared state -/

/-- A waker of a task; one task may be polled with several. -/
structure Waker where
  task : Nat
  handle : Nat
deriving DecidableEq, Repr

/-- What `RequestBodyCompletion` answers for a request body. -/
structure BodyStatus where
  /-- `is_complete`. -/
  complete : Bool
  /-- `is_wire_finished`. -/
  wireFinished : Bool
deriving DecidableEq, Repr

/-- A logical use of the connection. -/
structure Use where
  useId : Nat
  /-- The use has a write timeout. -/
  hasContext : Bool
  /-- The request body whose completion the use follows. -/
  requestBody : Option Nat
deriving DecidableEq, Repr

/-- `ActiveRequestWriteTimeout`. -/
structure ActiveRequestWriteTimeout where
  use : Use
  writeStarted : Bool
deriving DecidableEq, Repr

structure WriteTimeoutState where
  active : Option ActiveRequestWriteTimeout
  pendingWaker : Option Waker
deriving DecidableEq, Repr

inductive PollKind where
  | read
  | write
  | writeVectored
  | flush
  | shutdown
deriving DecidableEq, Repr

/-- What a poll of the inner connection answers; `progress` says that it wrote bytes. -/
inductive InnerPoll where
  | ready (progress : Bool)
  | error
  | pending
deriving DecidableEq, Repr

inductive PollResult where
  | ready
  | error
  | pending
deriving DecidableEq, Repr

/-- A poll of the connection with the answers that it gets on its way. -/
structure IoPoll where
  kind : PollKind
  waker : Waker
  inner : InnerPoll
  /-- The write timeout has elapsed. -/
  elapsed : Bool
deriving DecidableEq, Repr

inductive ResponseBodyLifecycleOutcome where
  | reuseEligible
  | closed
  | aborted
deriving DecidableEq, Repr

/-- How a `ConnectionUseGuard` ends.  `telemetryFinished` is the answer of
`RequestConnectionUseTelemetry::finish`, true when there is none. -/
inductive UseEnding where
  | finish (outcome : ResponseBodyLifecycleOutcome) (telemetryFinished : Bool)
  | abort
  | drop
  | superseded (telemetryFinished : Bool)
deriving DecidableEq, Repr

inductive Thread where
  | use (useId : Nat)
  | io
  | drop
deriving DecidableEq, Repr

/-- `ConnectionTelemetryInner`. -/
structure ConnectionTelemetry where
  observedUses : Nat
  /-- `idle_since` is set. -/
  idle : Bool
  /-- The holder of the idle mutex. -/
  idleLock : Option Thread
  closed : Bool
  aborted : Bool
  ioWaker : Option Waker
  writeTimeout : WriteTimeoutState
  /-- The part of this connection in the gauge of idle connections. -/
  idleGauge : Int
  bodies : Nat → BodyStatus
  registered : List Waker
  discarded : List Waker
  wakes : List Waker
  abortWakes : List Waker
  polls : List (PollKind × PollResult)

/-- One operation of a thread, named after the source function whose section it is. -/
inductive Op where
  | beginRequestWriteTimeout (use : Use)
  /-- The wakes after a use was assigned. -/
  | wakeAssigned (pending : Option Waker)
  /-- `finish`, `abort`, `superseded` or `drop` of a guard, up to its first check. -/
  | endUse (use : Use) (ending : UseEnding)
  | finishRequestWriteTimeout (useId : Nat)
  | responseFinished (useId : Nat) (outcome : ResponseBodyLifecycleOutcome)
      (telemetryFinished : Bool)
  | enterIdle (useId : Nat)
  /-- `abort_connection_use`, up to the swap of the flag. -/
  | abortConnectionUse (useId : Nat)
  /-- `abort_current_connection_use`, up to the swap of the flag. -/
  | abortCurrentConnectionUse
  /-- The waker slot is emptied by an abort. -/
  | takeIoWaker
  /-- The wake at the end of an abort. -/
  | wakeAborted (waker : Option Waker)
  | pollRequestReady (poll : IoPoll)
  | pollInner (poll : IoPoll)
  | recordWriteProgress
  | requestTransportFlushed
  | pollPendingWriteTimeout (poll : IoPoll)
  | clearRequestWriteTimeout
  /-- The poll returns. -/
  | returnPoll (kind : PollKind) (result : PollResult)
  /-- `connection_closed`, up to the swap of the flag. -/
  | connectionClosed
  /-- `connection_closed` empties the waker slot. -/
  | discardIoWaker
  | leaveIdle
deriving DecidableEq, Repr

namespace ConnectionTelemetry

/-- `ConnectionTelemetry::new_with_native_telemetry`. -/
def new (bodies : Nat → BodyStatus) : ConnectionTelemetry where
  observedUses := 0
  idle := false
  idleLock := none
  closed := false
  aborted := false
  ioWaker := none
  writeTimeout := ⟨none, none⟩
  idleGauge := 0
  bodies
  registered := []
  discarded := []
  wakes := []
  abortWakes := []
  polls := []

variable (telemetry : ConnectionTelemetry)

/-- The body, if there is one, is not complete. -/
def incomplete (requestBody : Option Nat) : Bool :=
  requestBody.any fun body => !(telemetry.bodies body).complete

/-- The registered use has a body that is not complete. -/
def activeIncomplete : Bool :=
  telemetry.writeTimeout.active.any fun active => telemetry.incomplete active.use.requestBody

/-- The registered use has a body that is complete. -/
def activeComplete : Bool :=
  telemetry.writeTimeout.active.any fun active =>
    active.use.requestBody.any fun body => (telemetry.bodies body).complete

/-- The registered use has a body that was written to its end. -/
def activeWireFinished : Bool :=
  telemetry.writeTimeout.active.any fun active =>
    active.use.requestBody.any fun body => (telemetry.bodies body).wireFinished

/-- `is_current_use`. -/
def isCurrentUse (useId : Nat) : Bool := telemetry.observedUses == useId + 1

/-- `leave_idle_locked`. -/
def leaveIdleLocked : ConnectionTelemetry :=
  if telemetry.idle then
    { telemetry with idle := false, idleGauge := telemetry.idleGauge - 1 }
  else telemetry

/-- The section of `enter_idle`. -/
def enterIdle (useId : Nat) : ConnectionTelemetry :=
  if telemetry.closed || telemetry.aborted || !telemetry.isCurrentUse useId then telemetry
  else if telemetry.idle then telemetry
  else { telemetry with idle := true, idleGauge := telemetry.idleGauge + 1 }

/-- `abort_current_connection_use_locked` up to the waker slot.  The first abort goes on
with the idle mutex in its hand. -/
def abortCurrentConnectionUseLocked (thread : Thread) : ConnectionTelemetry × List Op :=
  if telemetry.aborted then (telemetry, [])
  else ({ telemetry.leaveIdleLocked with aborted := true, idleLock := some thread },
    [.takeIoWaker])

/-- The section of `begin_request_write_timeout`. -/
def beginRequestWriteTimeout (use : Use) : ConnectionTelemetry × List Op :=
  if telemetry.closed || telemetry.aborted then (telemetry, [])
  else if telemetry.activeIncomplete then (telemetry, [.abortCurrentConnectionUse])
  else ({ telemetry with writeTimeout := ⟨some ⟨use, false⟩, none⟩ },
    [.wakeAssigned telemetry.writeTimeout.pendingWaker])

/-- The wakes after `begin_request`; a waker is not woken twice. -/
def wakeAssigned (pending : Option Waker) : ConnectionTelemetry :=
  let io := if pending = telemetry.ioWaker then none else telemetry.ioWaker
  { telemetry with wakes := telemetry.wakes ++ pending.toList ++ io.toList }

/-- The registered use is removed and a pending writer is woken. -/
def clearRequest : ConnectionTelemetry :=
  { telemetry with
    writeTimeout := ⟨none, none⟩
    wakes := telemetry.wakes ++ telemetry.writeTimeout.pendingWaker.toList }

/-- `finish_request_write_timeout`. -/
def finishRequestWriteTimeout (useId : Nat) : ConnectionTelemetry :=
  if telemetry.writeTimeout.active.any fun active => active.use.useId == useId then
    telemetry.clearRequest
  else telemetry

/-- `update_pending_waker`; two wakers that wake the same are equal here. -/
def updatePendingWaker (waker : Waker) : ConnectionTelemetry :=
  { telemetry with
    writeTimeout := { telemetry.writeTimeout with pendingWaker := some waker } }

/-- The section of `poll_request_ready`. -/
def pollRequestReady (poll : IoPoll) : ConnectionTelemetry × List Op :=
  let telemetry :=
    if telemetry.activeComplete then { telemetry with writeTimeout := ⟨none, none⟩ }
    else telemetry
  if telemetry.activeWireFinished then
    (telemetry.updatePendingWaker poll.waker, [.returnPoll poll.kind .pending])
  else if telemetry.writeTimeout.active.isSome then (telemetry, [.pollInner poll])
  else (telemetry.updatePendingWaker poll.waker, [.returnPoll poll.kind .pending])

/-- What follows the answer of the inner connection. -/
def afterInner (poll : IoPoll) : List Op :=
  match poll.kind, poll.inner with
  | .read, .ready _ | .shutdown, .ready _ => [.returnPoll poll.kind .ready]
  | .read, .pending | .shutdown, .pending => [.returnPoll poll.kind .pending]
  | .write, .ready progress | .writeVectored, .ready progress =>
      (if progress then [.recordWriteProgress] else []) ++ [.returnPoll poll.kind .ready]
  | .flush, .ready _ => [.requestTransportFlushed, .returnPoll poll.kind .ready]
  | .write, .pending | .writeVectored, .pending | .flush, .pending =>
      [.pollPendingWriteTimeout poll]
  | _, .error => [.returnPoll poll.kind .error]

/-- The section of `record_write_progress`. -/
def recordWriteProgress : ConnectionTelemetry :=
  { telemetry with
    writeTimeout :=
      ⟨telemetry.writeTimeout.active.map fun active => { active with writeStarted := true },
        none⟩ }

/-- The section of `request_transport_flushed`. -/
def requestTransportFlushed : ConnectionTelemetry :=
  match telemetry.writeTimeout.active with
  | none => telemetry
  | some active =>
      if active.writeStarted && telemetry.activeComplete then telemetry.clearRequest
      else
        { telemetry with
          writeTimeout := ⟨some active, none⟩
          wakes := telemetry.wakes ++ telemetry.writeTimeout.pendingWaker.toList }

/-- The section of `poll_pending_write_timeout`.  A timeout aborts the connection. -/
def pollPendingWriteTimeout (poll : IoPoll) : ConnectionTelemetry × List Op :=
  match telemetry.writeTimeout.active with
  | some active =>
      if !active.use.hasContext then
        (telemetry.updatePendingWaker poll.waker, [.returnPoll poll.kind .pending])
      else if poll.elapsed then
        ({ telemetry with writeTimeout := ⟨some active, none⟩ },
          [.clearRequestWriteTimeout, .abortCurrentConnectionUse, .returnPoll poll.kind .error])
      else (telemetry, [.returnPoll poll.kind .pending])
  | none => (telemetry.updatePendingWaker poll.waker, [.returnPoll poll.kind .pending])

/-- `prepare_io_poll` and the operations of the poll that follow it. -/
def prepareIoPoll (poll : IoPoll) : ConnectionTelemetry × List Op :=
  if telemetry.aborted then
    ({ telemetry with polls := telemetry.polls ++ [(poll.kind, .error)] }, [])
  else
    ({ telemetry with
       ioWaker := some poll.waker
       registered := telemetry.registered ++ [poll.waker] },
      match poll.kind with
      | .write | .writeVectored => [.pollRequestReady poll]
      | .read | .flush | .shutdown => [.pollInner poll])

end ConnectionTelemetry

/-! ## Operations -/

/-- What a guard does after its first check. -/
def UseEnding.ops (useId : Nat) (incomplete : Bool) : UseEnding → List Op
  | .superseded telemetryFinished =>
      [.finishRequestWriteTimeout useId, .responseFinished useId .closed telemetryFinished]
  | .finish outcome telemetryFinished =>
      if incomplete then [.abortCurrentConnectionUse, .finishRequestWriteTimeout useId]
      else [.finishRequestWriteTimeout useId, .responseFinished useId outcome telemetryFinished]
  | .abort =>
      if incomplete then [.abortCurrentConnectionUse, .finishRequestWriteTimeout useId]
      else [.abortConnectionUse useId, .finishRequestWriteTimeout useId]
  | .drop =>
      if incomplete then [.abortCurrentConnectionUse, .finishRequestWriteTimeout useId]
      else [.responseFinished useId .aborted true, .finishRequestWriteTimeout useId]

/-- `response_finished`. -/
def responseFinishedOps (useId : Nat) (telemetryFinished : Bool) :
    ResponseBodyLifecycleOutcome → List Op
  | .reuseEligible => if telemetryFinished then [.enterIdle useId] else [.abortConnectionUse useId]
  | .closed => if telemetryFinished then [] else [.abortConnectionUse useId]
  | .aborted => [.abortConnectionUse useId]

/-- The effect of an operation and the operations that it puts in front of the rest, or
`none` while the operation waits for the idle mutex. -/
def Op.exec (thread : Thread) (telemetry : ConnectionTelemetry) :
    Op → Option (ConnectionTelemetry × List Op)
  | .beginRequestWriteTimeout use => some (telemetry.beginRequestWriteTimeout use)
  | .wakeAssigned pending => some (telemetry.wakeAssigned pending, [])
  | .endUse use ending =>
      some (telemetry, ending.ops use.useId (telemetry.incomplete use.requestBody))
  | .finishRequestWriteTimeout useId => some (telemetry.finishRequestWriteTimeout useId, [])
  | .responseFinished useId outcome telemetryFinished =>
      some (telemetry, responseFinishedOps useId telemetryFinished outcome)
  | .enterIdle useId =>
      if telemetry.idleLock.isSome then none else some (telemetry.enterIdle useId, [])
  | .abortConnectionUse useId =>
      if telemetry.idleLock.isSome then none
      else if telemetry.isCurrentUse useId then
        some (telemetry.abortCurrentConnectionUseLocked thread)
      else some (telemetry, [])
  | .abortCurrentConnectionUse =>
      if telemetry.idleLock.isSome then none
      else some (telemetry.abortCurrentConnectionUseLocked thread)
  | .takeIoWaker => some ({ telemetry with ioWaker := none }, [.wakeAborted telemetry.ioWaker])
  | .wakeAborted waker =>
      some ({ telemetry with
        abortWakes := telemetry.abortWakes ++ waker.toList
        idleLock := none }, [])
  | .pollRequestReady poll => some (telemetry.pollRequestReady poll)
  | .pollInner poll => some (telemetry, ConnectionTelemetry.afterInner poll)
  | .recordWriteProgress => some (telemetry.recordWriteProgress, [])
  | .requestTransportFlushed => some (telemetry.requestTransportFlushed, [])
  | .pollPendingWriteTimeout poll => some (telemetry.pollPendingWriteTimeout poll)
  | .clearRequestWriteTimeout => some (telemetry.clearRequest, [])
  | .returnPoll kind result =>
      some ({ telemetry with polls := telemetry.polls ++ [(kind, result)] }, [])
  | .connectionClosed =>
      if telemetry.closed then some (telemetry, [])
      else some ({ telemetry with closed := true },
        [.clearRequestWriteTimeout, .discardIoWaker, .leaveIdle])
  | .discardIoWaker =>
      some ({ telemetry with
        ioWaker := none
        discarded := telemetry.discarded ++ telemetry.ioWaker.toList }, [])
  | .leaveIdle =>
      if telemetry.idleLock.isSome then none else some (telemetry.leaveIdleLocked, [])

/-! ## The connection and its threads -/

structure Connection where
  telemetry : ConnectionTelemetry
  ops : Thread → List Op
  /-- The guards that have not ended. -/
  guards : List Use
  /-- The connection is dropped, so nobody polls it any more. -/
  dropped : Bool

inductive Event where
  /-- `request_started_with_body_completion`, up to its first section. -/
  | start (hasContext : Bool) (requestBody : Option Nat)
  /-- A guard ends. -/
  | endUse (use : Use) (ending : UseEnding)
  /-- A poll starts. -/
  | poll (poll : IoPoll)
  /-- The connection is dropped. -/
  | dropConnection
  /-- The completion of a body changes. -/
  | body (body : Nat) (status : BodyStatus)
  /-- A thread does its next operation. -/
  | run (thread : Thread)

namespace Connection

/-- A new connection. -/
def new (bodies : Nat → BodyStatus) : Connection :=
  ⟨.new bodies, fun _ => [], [], false⟩

/-- The first section of `request_started_with_body_completion`. -/
def start (connection : Connection) (hasContext : Bool) (requestBody : Option Nat) :
    Connection :=
  let use : Use := ⟨connection.telemetry.observedUses, hasContext, requestBody⟩
  { connection with
    telemetry :=
      { connection.telemetry.leaveIdleLocked with
        observedUses := connection.telemetry.observedUses + 1 }
    ops := Function.update connection.ops (.use use.useId) [.beginRequestWriteTimeout use]
    guards := connection.guards ++ [use] }

/-- A thread does its next operation. -/
def run (connection : Connection) (thread : Thread) : Option Connection :=
  match connection.ops thread with
  | [] => none
  | op :: rest =>
      (op.exec thread connection.telemetry).map fun result =>
        { connection with
          telemetry := result.1
          ops := Function.update connection.ops thread (result.2 ++ rest) }

/-- One step.  All polls come from `task`. -/
def step (task : Nat) (connection : Connection) : Event → Option Connection
  | .start hasContext requestBody =>
      if connection.telemetry.idleLock.isSome then none
      else some (connection.start hasContext requestBody)
  | .endUse use ending =>
      if use ∈ connection.guards ∧ connection.ops (.use use.useId) = [] then
        some
          { connection with
            ops := Function.update connection.ops (.use use.useId) [.endUse use ending]
            guards := connection.guards.erase use }
      else none
  | .poll poll =>
      if poll.waker.task = task ∧ connection.ops .io = [] ∧ connection.dropped = false then
        let result := connection.telemetry.prepareIoPoll poll
        some
          { connection with
            telemetry := result.1
            ops := Function.update connection.ops .io result.2 }
      else none
  | .dropConnection =>
      if connection.ops .io = [] ∧ connection.dropped = false then
        some
          { connection with
            ops := Function.update connection.ops .drop [.connectionClosed]
            dropped := true }
      else none
  | .body body status =>
      some
        { connection with
          telemetry :=
            { connection.telemetry with
              bodies := Function.update connection.telemetry.bodies body status } }
  | .run thread => connection.run thread

/-- The uses of one connection, in every interleaving. -/
def system (task : Nat) (bodies : Nat → BodyStatus) : TransitionSystem Connection Event :=
  ⟨new bodies, step task⟩

end Connection

end FogHttp.ConnectionUse
