import FogHttp.Lib.Text
import FogHttp.Lib.Transition

/-!
# The state of a streamed response

`StreamState` is shared by the Python object of a streamed response, the task of
its current read, the callback of that read, and the registry of the client.
All of them work on `StreamStateFields` under one mutex.  A read takes the body
and the decoder out of the fields into a `StreamReadGuard`, and gives them back
with the chunk.  A guard that is dropped before that aborts the stream.

`Stream` adds to the fields what they are shared with: the registry entry, the
`RequestCompletion` of the request, and the reads that were started.  `effects`
records, in order, what the stream releases and reports.  The body is of any
type `β` and the decoder of any type `δ`.

An event is one section under the mutex, with the code on local variables around
it.  `finish` does its last work after it gave the mutex back, and that part is
an event of its own.  The runs of `streamSystem` are all interleavings, with two
promises of the callers: the callback of a read runs once, and it delivers only
after the guard of the read is gone.
-/

namespace FogHttp.Streams

open Lib

/-! ## Errors and endings -/

/-- The error types that streams report. -/
inductive TelemetryErrorType where
  | requestError
  | readTimeout
  | writeTimeout
  | responseBodyTooLargeError
  | responseDecodingError
deriving DecidableEq, Repr

inductive ConnectionAbortReason where
  | closed
  | cancelled
  | error (errorType : Option TelemetryErrorType)
deriving DecidableEq, Repr

inductive StreamFinish where
  | success
  | abort (reason : ConnectionAbortReason)
deriving DecidableEq, Repr

/-- The finish counts as a failed request. -/
def StreamFinish.failed : StreamFinish → Bool
  | .success => false
  | .abort _ => true

/-- The exceptions that reads raise, with their messages. -/
inductive StreamError where
  | fogHttpError (message : Text)
  | lifecycleError (message : Text)
deriving DecidableEq, Repr

/-- `STREAM_RESPONSE_READ_ABORTED`. -/
def streamResponseReadAborted : Text := "stream response body read was aborted"

/-- The message of a read that starts before the last one was delivered. -/
def readAlreadyInProgress : Text := "stream response body read is already in progress"

inductive ReadyFrameCoalescing where
  | disabled
  | enabled
deriving DecidableEq, Repr

/-! ## The fields -/

/-- `StreamStateFields`.  The permit, the lifecycle and the connection use are there or
taken; a read task is named by the position of its read. -/
structure StreamStateFields (β δ : Type) where
  body : Option β
  decoded : Option δ
  decodedMode : Bool
  permit : Bool
  lifecycle : Bool
  connectionUse : Bool
  readTask : Option Nat
  readInProgress : Bool
  terminal : Option StreamFinish
  deferredBodyError : Option Text

/-- `StreamReadGuard`. -/
structure StreamReadGuard (β δ : Type) where
  body : Option β
  decoded : Option δ
  deferredBodyError : Option Text
  readyFrameCoalescing : ReadyFrameCoalescing

inductive StreamEffect where
  | permitReleased
  | connectionUseReleased (finish : StreamFinish)
  | lifecycleFinished (finish : StreamFinish)
  | readTaskAborted (read : Nat)
  | requestFinished (failed : Bool)
deriving DecidableEq, Repr

/-- One call of `next_chunk` or `next_chunk_async`. -/
structure Read (β δ : Type) where
  /-- The guard, until it is dropped or has given its body back. -/
  guard : Option (StreamReadGuard β δ)
  /-- The delivery or cancellation callback has run. -/
  notified : Bool

/-- What `finish` does after it gave the mutex back. -/
structure FinishTail where
  finishedRequest : Bool
  failed : Bool
  readTaskToCancel : Option Nat
deriving DecidableEq, Repr

structure Stream (β δ : Type) where
  fields : StreamStateFields β δ
  /-- The registry of the client has an entry for the stream. -/
  registered : Bool
  /-- The flag of `RequestCompletion`. -/
  completion : Bool
  effects : List StreamEffect
  reads : List (Read β δ)
  tail : Option FinishTail
  /-- Calls of `abort_all` that have collected the stream and not closed it yet. -/
  collected : Nat
  /-- Another party has won the completion and not recorded it yet. -/
  rival : Bool

variable {β δ : Type}

namespace StreamStateFields

/-- `finish_successful_body` and `finish_aborted_body`: the fields without the connection
use and the lifecycle, and what is released. -/
def releaseBody (fields : StreamStateFields β δ) (finish : StreamFinish) :
    StreamStateFields β δ × List StreamEffect :=
  ({ fields with connectionUse := false, lifecycle := false },
    (if fields.connectionUse then [.connectionUseReleased finish] else []) ++
      (if fields.lifecycle then [.lifecycleFinished finish] else []))

/-- `StreamStateFields::finish_successful_body`. -/
def finishSuccessfulBody (fields : StreamStateFields β δ) :
    StreamStateFields β δ × List StreamEffect :=
  fields.releaseBody .success

/-- `StreamStateFields::finish_aborted_body`. -/
def finishAbortedBody (fields : StreamStateFields β δ) (reason : ConnectionAbortReason) :
    StreamStateFields β δ × List StreamEffect :=
  fields.releaseBody (.abort reason)

/-- `StreamState::start_read` on the fields. -/
def startRead (fields : StreamStateFields β δ) (readyFrameCoalescing : ReadyFrameCoalescing) :
    Except StreamError (Option (StreamReadGuard β δ)) × StreamStateFields β δ :=
  match fields.terminal with
  | some (.abort _) =>
      if fields.decodedMode then (.error (.lifecycleError streamResponseReadAborted), fields)
      else (.ok none, fields)
  | some .success => (.ok none, fields)
  | none =>
      if fields.readInProgress then (.error (.fogHttpError readAlreadyInProgress), fields)
      else
        match fields.deferredBodyError with
        | some error =>
            (.ok (some ⟨none, none, some error, readyFrameCoalescing⟩),
              { fields with deferredBodyError := none, readInProgress := true })
        | none =>
            if fields.body.isNone && fields.decoded.isNone then
              (.ok none, { fields with body := none })
            else
              (.ok (some ⟨fields.body, fields.decoded, none, readyFrameCoalescing⟩),
                { fields with body := none, decoded := none, readInProgress := true })

/-- `StreamState::complete_read` on the fields. -/
def completeRead (fields : StreamStateFields β δ) (body : β) (deferredBodyError : Option Text) :
    StreamStateFields β δ :=
  if fields.terminal.isSome then fields
  else { fields with body := some body, deferredBodyError }

/-- `StreamState::finish_read_delivery` on the fields. -/
def finishReadDelivery (fields : StreamStateFields β δ) : StreamStateFields β δ :=
  if fields.terminal.isSome then fields
  else { fields with readTask := none, readInProgress := false }

end StreamStateFields

namespace Stream

/-- `StreamState::finish` up to the end of its section. -/
def finish (stream : Stream β δ) (finish : StreamFinish) (abortReadTask : Bool) :
    Bool × Stream β δ :=
  if stream.fields.terminal.isSome then (false, stream)
  else
    let fields := { stream.fields with
      terminal := some finish, readTask := none, body := none, decoded := none }
    let released := match finish with
      | .success => fields.finishSuccessfulBody
      | .abort reason => fields.finishAbortedBody reason
    (true,
      { stream with
        fields := { released.1 with permit := false }
        registered := false
        completion := true
        effects := stream.effects ++ released.2 ++
          (if fields.permit then [.permitReleased] else [])
        tail := some
          { finishedRequest := !stream.completion
            failed := finish.failed
            readTaskToCancel := if abortReadTask then stream.fields.readTask else none } })

/-- `StreamState::finish` after its section. -/
def finishTail (stream : Stream β δ) (tail : FinishTail) : Stream β δ :=
  { stream with
    effects := stream.effects ++
      (tail.readTaskToCancel.toList.map StreamEffect.readTaskAborted) ++
      (if tail.finishedRequest then [.requestFinished tail.failed] else [])
    tail := none }

/-- `StreamState::close`. -/
def close (stream : Stream β δ) : Stream β δ := (stream.finish (.abort .closed) true).2

/-- `StreamState::cancel`. -/
def cancel (stream : Stream β δ) : Stream β δ := (stream.finish (.abort .cancelled) true).2

/-- `StreamState::fail`. -/
def fail (stream : Stream β δ) (errorType : Option TelemetryErrorType) : Stream β δ :=
  (stream.finish (.abort (.error errorType)) true).2

/-- `PythonStreamReadCallback::cancel_read` of read `i`. -/
def cancelRead (stream : Stream β δ) (i : Nat) : Stream β δ :=
  cancel { stream with effects := stream.effects ++ [.readTaskAborted i] }

/-- `StreamState::abort_from_read`. -/
def abortFromRead (stream : Stream β δ) (reason : ConnectionAbortReason) : Stream β δ :=
  (stream.finish (.abort reason) false).2

/-- `StreamState::register_read_task`. -/
def registerReadTask (stream : Stream β δ) (read : Nat) : Stream β δ :=
  if stream.fields.terminal.isSome || !stream.fields.readInProgress then
    { stream with effects := stream.effects ++ [.readTaskAborted read] }
  else { stream with fields := { stream.fields with readTask := some read } }

/-- `StreamState::finish_transport_from_read`. -/
def finishTransportFromRead (stream : Stream β δ) : Stream β δ :=
  if stream.fields.terminal.isSome then stream
  else
    { stream with
      fields := stream.fields.finishSuccessfulBody.1
      effects := stream.effects ++ stream.fields.finishSuccessfulBody.2 }

/-- Read `i` with another guard. -/
def setGuard (stream : Stream β δ) (i : Nat) (guard : Option (StreamReadGuard β δ)) :
    Stream β δ :=
  { stream with reads := stream.reads.modify i fun read => { read with guard } }

/-- The callback of read `i` has run. -/
def setNotified (stream : Stream β δ) (i : Nat) : Stream β δ :=
  { stream with reads := stream.reads.modify i fun read => { read with notified := true } }

/-- `StreamState::start_read`: a guard starts a read. -/
def startRead (stream : Stream β δ) (readyFrameCoalescing : ReadyFrameCoalescing) :
    Except StreamError (Option (StreamReadGuard β δ)) × Stream β δ :=
  match stream.fields.startRead readyFrameCoalescing with
  | (.ok (some guard), fields) =>
      (.ok (some guard), { stream with fields, reads := stream.reads ++ [⟨some guard, false⟩] })
  | (result, fields) => (result, { stream with fields })

/-! ## The guard of a read -/

/-- `finish_chunk` and `finish_chunk_with_pending_error`. -/
def finishChunk (stream : Stream β δ) (i : Nat) (body : β) (error : Option Text) :
    Stream β δ :=
  { stream.setGuard i none with fields := stream.fields.completeRead body error }

/-- `finish_decoded_chunk`.  After the end of the stream the guard is dropped instead,
which aborts a stream that has ended. -/
def finishDecodedChunk (stream : Stream β δ) (i : Nat) (guard : StreamReadGuard β δ) :
    Stream β δ :=
  if stream.fields.terminal.isSome then stream.setGuard i none
  else
    { stream.setGuard i none with
      fields := { stream.fields with body := guard.body, decoded := guard.decoded } }

/-- `finish_decoded_transport`. -/
def finishDecodedTransport (stream : Stream β δ) (i : Nat) (guard : StreamReadGuard β δ) :
    Stream β δ :=
  (stream.setGuard i (some { guard with body := none })).finishTransportFromRead

/-- `finish_success_from_read`, and the end of `read_decoded_chunk`. -/
def finishSuccessFromRead (stream : Stream β δ) (i : Nat) : Stream β δ :=
  ((stream.setGuard i none).finish .success false).2

/-- The drop of an armed guard. -/
def dropGuard (stream : Stream β δ) (i : Nat) : Stream β δ :=
  (stream.setGuard i none).abortFromRead .cancelled

end Stream

/-! ## The system -/

inductive StreamEvent (β δ : Type) where
  | startRead (readyFrameCoalescing : ReadyFrameCoalescing)
  | registerReadTask (i : Nat)
  /-- The guard of read `i` polls its body or runs its decoder. -/
  | poll (i : Nat) (body : β) (decoded : δ)
  | finishChunk (i : Nat) (error : Option Text)
  | finishDecodedChunk (i : Nat)
  | finishDecodedTransport (i : Nat)
  | finishSuccessFromRead (i : Nat)
  | abortFromRead (i : Nat) (reason : ConnectionAbortReason)
  | dropGuard (i : Nat)
  | deliver (i : Nat)
  | cancelRead (i : Nat)
  | close
  | cancel
  | fail (errorType : Option TelemetryErrorType)
  | finishTail
  | abortAll
  | closeCollected
  | rivalFinish
  | rivalRecord (failed : Bool)

namespace Stream

/-- An event of the guard of read `i`. -/
def onGuard (stream : Stream β δ) (i : Nat)
    (event : StreamReadGuard β δ → Option (Stream β δ)) : Option (Stream β δ) := do
  let read ← stream.reads[i]?
  let guard ← read.guard
  event guard

/-- One event. -/
def step (stream : Stream β δ) : StreamEvent β δ → Option (Stream β δ)
  | .startRead readyFrameCoalescing => some (stream.startRead readyFrameCoalescing).2
  | .registerReadTask i =>
      if i < stream.reads.length then some (stream.registerReadTask i) else none
  | .poll i body decoded => stream.onGuard i fun guard =>
      some (stream.setGuard i (some { guard with
        body := guard.body.map fun _ => body
        decoded := guard.decoded.map fun _ => decoded }))
  | .finishChunk i error => stream.onGuard i fun guard =>
      match guard.decoded, guard.body with
      | none, some body => some (stream.finishChunk i body error)
      | _, _ => none
  | .finishDecodedChunk i => stream.onGuard i fun guard =>
      if guard.decoded.isSome then some (stream.finishDecodedChunk i guard) else none
  | .finishDecodedTransport i => stream.onGuard i fun guard =>
      if guard.decoded.isSome && guard.body.isSome then
        some (stream.finishDecodedTransport i guard)
      else none
  | .finishSuccessFromRead i => stream.onGuard i fun _ => some (stream.finishSuccessFromRead i)
  | .abortFromRead i reason => stream.onGuard i fun _ => some (stream.abortFromRead reason)
  | .dropGuard i => stream.onGuard i fun _ => some (stream.dropGuard i)
  | .deliver i =>
      match stream.reads[i]? with
      | some ⟨none, false⟩ =>
          some { stream.setNotified i with fields := stream.fields.finishReadDelivery }
      | _ => none
  | .cancelRead i =>
      match stream.reads[i]? with
      | some ⟨_, false⟩ => some ((stream.setNotified i).cancelRead i)
      | _ => none
  | .close => some stream.close
  | .cancel => some stream.cancel
  | .fail errorType => some (stream.fail errorType)
  | .finishTail => stream.tail.map stream.finishTail
  | .abortAll =>
      some { stream with
        registered := false
        collected := stream.collected + stream.registered.toNat }
  | .closeCollected =>
      match stream.collected with
      | collected + 1 => some (close { stream with collected })
      | 0 => none
  | .rivalFinish =>
      if stream.completion then none else some { stream with completion := true, rival := true }
  | .rivalRecord failed =>
      if stream.rival then
        some { stream with
          rival := false
          effects := stream.effects ++ [.requestFinished failed] }
      else none

/-- `StreamState::new`. -/
def new (body : β) (decoded : Option δ) (connectionUse : Bool) : Stream β δ where
  fields :=
    { body := some body
      decoded
      decodedMode := decoded.isSome
      permit := true
      lifecycle := true
      connectionUse
      readTask := none
      readInProgress := false
      terminal := none
      deferredBodyError := none }
  registered := true
  completion := false
  effects := []
  reads := []
  tail := none
  collected := 0
  rival := false

end Stream

/-- A stream with its callers. -/
def streamSystem (body : β) (decoded : Option δ) (connectionUse : Bool) :
    TransitionSystem (Stream β δ) (StreamEvent β δ) where
  init := Stream.new body decoded connectionUse
  step := Stream.step

end FogHttp.Streams
