import FogHttp.Lib.Cas
import FogHttp.Lib.Transition
import FogHttp.Telemetry.Event

/-!
# The telemetry journal

The events of a client go through a bounded channel.  `record` reserves a slot in the
counter `queued_events` before it sends, and counts the event as dropped when there is
none.  `drain` takes events out of the channel under the lock of the journal: all of
them, or those of one request, in which case the others are retained for a later drain.
It gives the slots back after it has released the lock.

This module models any number of these calls as a transition system.  Every access to a
shared atomic, every operation on the channel and the section that partitions the
retained events is a step of its own.

The telemetry is not sealed, so `try_begin_production` never declines, and the receiver
is alive, so the channel is never disconnected.  The counters are natural numbers; the
channel refuses an event when it holds `capacity` of them.
-/

namespace FogHttp.Telemetry

open Lib

/-- An event in the journal, with the call that recorded it. -/
structure JournalEntry where
  recorder : Nat
  event : TelemetryEventRecord
deriving DecidableEq, Repr

/-! ## Recording -/

/-- The loop of `reserve_event_slot`. -/
def reserveEventSlot (capacity : Nat) : AtomicLoop Unit where
  returnsAtOnce := false
  update queued := if queued < capacity then .ok (queued + 1) else .error ()

/-- The next section of `record_unchecked`. -/
inductive RecorderPhase where
  | reserving (cas : Cas Unit)
  /-- A slot is reserved; `try_send` is next. -/
  | sending
  /-- The channel was full; `release_event_slot` is next. -/
  | unreserving
  /-- `note_dropped_event` is next. -/
  | noting
  | sent
  | dropped

namespace RecorderPhase

/-- The phase after an operation of `reserve_event_slot`. -/
def afterReserve : Cas Unit → RecorderPhase
  | .done (.ok ()) => .sending
  | .done (.error ()) => .noting
  | cas => .reserving cas

/-- The call has a slot of its own in `queued_events`. -/
def reserved : RecorderPhase → Bool
  | .sending | .unreserving => true
  | _ => false

/-- The call runs and has not sent its event. -/
def beingSent : RecorderPhase → Bool
  | .reserving _ | .sending | .unreserving | .noting => true
  | .sent | .dropped => false

def isDropped : RecorderPhase → Bool
  | .dropped => true
  | _ => false

end RecorderPhase

/-- A call of `record`. -/
structure Recorder where
  event : TelemetryEventRecord
  phase : RecorderPhase

/-! ## Draining -/

inductive DrainPhase where
  /-- `lock_journal` is next. -/
  | locking
  /-- The call holds the lock; a `try_recv` is next. -/
  | receiving
  /-- The `fetch_sub` of `queued_events` is next. -/
  | releasing
  /-- The `swap` of `dropped_events` is next. -/
  | swapping
  | returned
deriving DecidableEq, Repr

/-- A call of `drain`, with the batch that it returns. -/
structure Drain where
  requestId : Option Nat
  events : List JournalEntry
  droppedEvents : Nat
  phase : DrainPhase
deriving DecidableEq, Repr

namespace Drain

/-- The test of `drain_request`; `drain_all` takes every event. -/
def takes (drain : Drain) (requestId : Option Nat) : Bool :=
  drain.requestId.isNone || requestId.isNone || requestId == drain.requestId

/-- The events that the call has taken out and whose slots it still holds. -/
def unreleased (drain : Drain) : Nat :=
  match drain.phase with
  | .receiving | .releasing => drain.events.length
  | _ => 0

end Drain

/-- The journal of one client, with all calls on it.  `entered` and `order` are kept for
the statements only: the events that went into the channel, and the drains in the order in
which they took the lock. -/
structure Journal where
  queuedEvents : Nat
  droppedEvents : Nat
  channel : List JournalEntry
  retained : List JournalEntry
  lockedBy : Option Nat
  recorders : List Recorder
  drains : List Drain
  entered : List JournalEntry
  order : List Nat

namespace Journal

def new : Journal := ⟨0, 0, [], [], none, [], [], [], []⟩

/-- The state of recorder `i` after a section. -/
def putRecorder (journal : Journal) (i : Nat) (recorder : Recorder) : Journal :=
  { journal with recorders := journal.recorders.set i recorder }

/-- The state of drain `d` after a section. -/
def putDrain (journal : Journal) (d : Nat) (drain : Drain) : Journal :=
  { journal with drains := journal.drains.set d drain }

/-- `SyncSender::try_send`. -/
def trySend (journal : Journal) (capacity i : Nat) (recorder : Recorder) : Journal :=
  if journal.channel.length < capacity then
    { journal with
      channel := journal.channel ++ [JournalEntry.mk i recorder.event]
      entered := journal.entered ++ [JournalEntry.mk i recorder.event] }.putRecorder i
        { recorder with phase := .sent }
  else journal.putRecorder i { recorder with phase := .unreserving }

/-- The next section of `record_unchecked`. -/
def advanceRecorder (journal : Journal) (capacity i : Nat) (spurious : Bool)
    (recorder : Recorder) : Option Journal :=
  match recorder.phase with
  | .reserving cas => do
      let (queuedEvents, cas) ←
        (reserveEventSlot capacity).step spurious journal.queuedEvents cas
      some ({ journal with queuedEvents }.putRecorder i
        { recorder with phase := .afterReserve cas })
  | .sending => some (journal.trySend capacity i recorder)
  | .unreserving =>
      some ({ journal with queuedEvents := journal.queuedEvents - 1 }.putRecorder i
        { recorder with phase := .noting })
  | .noting =>
      some ({ journal with droppedEvents := journal.droppedEvents + 1 }.putRecorder i
        { recorder with phase := .dropped })
  | .sent | .dropped => none

/-- The drain takes the lock and goes through the retained events. -/
def lock (journal : Journal) (d : Nat) (drain : Drain) : Journal :=
  { journal with
    retained := journal.retained.filter fun entry => !drain.takes entry.event.requestId
    lockedBy := some d
    order := journal.order ++ [d] }.putDrain d
      { drain with
        events := journal.retained.filter fun entry => drain.takes entry.event.requestId
        phase := .receiving }

/-- One `try_recv`.  On an empty channel the drain releases the lock. -/
def tryRecv (journal : Journal) (d : Nat) (drain : Drain) : Journal :=
  match journal.channel with
  | [] => { journal with lockedBy := none }.putDrain d { drain with phase := .releasing }
  | entry :: channel =>
      if drain.takes entry.event.requestId then
        { journal with channel }.putDrain d { drain with events := drain.events ++ [entry] }
      else { journal with channel, retained := journal.retained ++ [entry] }

/-- The next section of `drain`. -/
def advanceDrain (journal : Journal) (d : Nat) (drain : Drain) : Option Journal :=
  match drain.phase with
  | .locking => if journal.lockedBy.isSome then none else some (journal.lock d drain)
  | .receiving => some (journal.tryRecv d drain)
  | .releasing =>
      some ({ journal with
        queuedEvents := journal.queuedEvents - drain.events.length }.putDrain d
          { drain with phase := if drain.requestId.isNone then .swapping else .returned })
  | .swapping =>
      some ({ journal with droppedEvents := 0 }.putDrain d
        { drain with droppedEvents := journal.droppedEvents, phase := .returned })
  | .returned => none

inductive Event where
  | record (event : TelemetryEventRecord)
  | drain (requestId : Option Nat)
  | advanceRecorder (i : Nat) (spurious : Bool)
  | advanceDrain (d : Nat)
deriving DecidableEq, Repr

def step (capacity : Nat) (journal : Journal) : Event → Option Journal
  | .record event =>
      some { journal with
        recorders := journal.recorders ++
          [Recorder.mk event (.reserving (reserveEventSlot capacity).start)] }
  | .drain requestId =>
      some { journal with drains := journal.drains ++ [Drain.mk requestId [] 0 .locking] }
  | .advanceRecorder i spurious => do
      let recorder ← journal.recorders[i]?
      journal.advanceRecorder capacity i spurious recorder
  | .advanceDrain d => do
      let drain ← journal.drains[d]?
      journal.advanceDrain d drain

/-- `ClientTelemetry::with_capacity`, and any calls on it. -/
def system (capacity : Nat) : TransitionSystem Journal Event := ⟨new, step capacity⟩

end Journal

end FogHttp.Telemetry
