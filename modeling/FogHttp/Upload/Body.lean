import FogHttp.Lib.Text
import FogHttp.Lib.Transition

/-!
# Streaming upload bodies

A streaming request body is a bounded channel between a producer and the
transport.  The producer sends chunks and ends the body by a final send, by
`finish`, by an error item or by `close`.  The transport polls the body, drops
the frames that it received once they are written, and flushes.
`RequestBodyCompletion` follows all of this and answers whether the request body
went out completely.

The state is modelled as a transition system with one event for each section
under the channel lock and one for each section under the completion lock.  A
poll has two such sections, the receiver and the completion, so `polling` holds
what the receiver returned until the completion has recorded it.  The producer
state and its frame counter are atomics, and each section reads or writes them
where the source does.

* `send` covers the blocking and the immediate, the plain and the final sends.
  A blocked send is not enabled.
* A poll that finds nothing may end by the write timeout.
* Wakers, the ready callback and the text of the timeout are left out.

Three components are ghosts: `accepted` lists the chunks that a send reported as
accepted, `discarded` those that an abort cleared, and `log` what the transport
observed, in order.  `ending` says what closed the channel.
-/

namespace FogHttp.RequestBody

open Lib

abbrev Chunk := List UInt8

inductive UploadBodyItem where
  | data (chunk : Chunk)
  | error (message : Text)
deriving DecidableEq, Repr

/-- The data chunk of an item. -/
def UploadBodyItem.chunk? : UploadBodyItem → Option Chunk
  | .data chunk => some chunk
  | .error _ => none

/-! ## The producer -/

inductive ProducerState where
  | open_
  | finished
  | failed
  | aborted
deriving DecidableEq, Repr

structure UploadBodyProducerCompletion where
  state : ProducerState
  outstandingDataFrames : Nat
deriving DecidableEq, Repr

namespace UploadBodyProducerCompletion

/-- `UploadBodyProducerCompletion::new`. -/
def new : UploadBodyProducerCompletion := ⟨.open_, 0⟩

/-- `compare_exchange` from the open state. -/
def close (producer : UploadBodyProducerCompletion) (state : ProducerState) :
    UploadBodyProducerCompletion :=
  if producer.state = .open_ then { producer with state } else producer

def finish (producer : UploadBodyProducerCompletion) : UploadBodyProducerCompletion :=
  producer.close .finished

def fail (producer : UploadBodyProducerCompletion) : UploadBodyProducerCompletion :=
  producer.close .failed

def abort (producer : UploadBodyProducerCompletion) : UploadBodyProducerCompletion :=
  producer.close .aborted

def recordDataFrame (producer : UploadBodyProducerCompletion) : UploadBodyProducerCompletion :=
  { producer with outstandingDataFrames := producer.outstandingDataFrames + 1 }

/-- `data_frame_consumed`: a counter at zero stays there. -/
def dataFrameConsumed (producer : UploadBodyProducerCompletion) :
    UploadBodyProducerCompletion :=
  { producer with outstandingDataFrames := producer.outstandingDataFrames - 1 }

def isFinishedAndDrained (producer : UploadBodyProducerCompletion) : Bool :=
  producer.state == .finished && producer.outstandingDataFrames == 0

end UploadBodyProducerCompletion

/-! ## The channel -/

structure UploadBodyChannel where
  queue : List UploadBodyItem
  closed : Bool
  capacity : Nat
  producer : UploadBodyProducerCompletion
deriving DecidableEq, Repr

inductive SendOutcome where
  | accepted
  | closed
  | full
deriving DecidableEq, Repr

inductive PollRecv where
  | ready (item : UploadBodyItem)
  | ended
  | pending
deriving DecidableEq, Repr

namespace UploadBodyChannel

/-- The part of the sends after their checks. -/
def push (channel : UploadBodyChannel) (item : UploadBodyItem) (final : Bool) :
    UploadBodyChannel :=
  let recorded := match item with
    | .data _ => channel.producer.recordDataFrame
    | .error _ => channel.producer.fail
  { channel with
    queue := channel.queue ++ [item]
    closed := channel.closed || final
    producer := if final then recorded.finish else recorded }

/-- `send_nowait_inner`, and `send_blocking_inner` whenever it does not wait. -/
def send (channel : UploadBodyChannel) (item : UploadBodyItem) (final : Bool) :
    SendOutcome × UploadBodyChannel :=
  if channel.closed then (.closed, channel)
  else if channel.queue.length ≥ channel.capacity then (.full, channel)
  else (.accepted, channel.push item final)

/-- `UploadBodyChannel::finish`. -/
def finish (channel : UploadBodyChannel) : UploadBodyChannel :=
  if channel.closed then channel
  else { channel with closed := true, producer := channel.producer.finish }

/-- `UploadBodyChannel::abort`. -/
def abort (channel : UploadBodyChannel) : UploadBodyChannel :=
  if channel.closed then channel
  else { channel with closed := true, queue := [], producer := channel.producer.abort }

/-- `UploadBodyReceiver::poll_recv`. -/
def pollRecv (channel : UploadBodyChannel) : PollRecv × UploadBodyChannel :=
  match channel.queue with
  | item :: rest => (.ready item, { channel with queue := rest })
  | [] => if channel.closed then (.ended, channel) else (.pending, channel)

theorem finish_closed (channel : UploadBodyChannel) :
    channel.finish.closed = true := by
  unfold finish
  split
  · assumption
  · rfl

theorem abort_closed (channel : UploadBodyChannel) :
    channel.abort.closed = true := by
  unfold abort
  split
  · assumption
  · rfl

theorem send_closed {channel : UploadBodyChannel} (h : channel.closed = true)
    (item : UploadBodyItem) (final : Bool) : channel.send item final = (.closed, channel) := by
  rw [send, if_pos h]

end UploadBodyChannel

/-! ## The completion -/

structure RequestBodyCompletionState where
  emittedBytes : Nat
  reachedEof : Bool
  failed : Bool
  inFlightFrames : Nat
  transportFlushed : Bool
  /-- A write timeout is recorded. -/
  writeTimeout : Bool
deriving DecidableEq, Repr

namespace RequestBodyCompletionState

/-- `RequestBodyCompletion::new`. -/
def new : RequestBodyCompletionState := ⟨0, false, false, 0, false, false⟩

/-- The body as the wire sees it has ended. -/
def wireBodyEnded (completion : RequestBodyCompletionState) (expectedBytes : Option Nat) :
    Bool :=
  match expectedBytes with
  | some expected => completion.emittedBytes == expected
  | none => completion.reachedEof

/-- `RequestBodyCompletion::source_complete` for a body with a producer. -/
def sourceComplete (completion : RequestBodyCompletionState) (expectedBytes : Option Nat)
    (producer : UploadBodyProducerCompletion) : Bool :=
  completion.wireBodyEnded expectedBytes && producer.isFinishedAndDrained

/-- `RequestBodyCompletion::is_complete`. -/
def isComplete (completion : RequestBodyCompletionState) (expectedBytes : Option Nat)
    (producer : UploadBodyProducerCompletion) : Bool :=
  completion.sourceComplete expectedBytes producer && !completion.failed &&
    completion.inFlightFrames == 0 && completion.transportFlushed

/-- `RequestBodyCompletion::mark_transport_flushed`. -/
def markTransportFlushed (completion : RequestBodyCompletionState)
    (expectedBytes : Option Nat) : RequestBodyCompletionState :=
  if completion.wireBodyEnded expectedBytes && completion.inFlightFrames == 0 then
    { completion with transportFlushed := true }
  else completion

/-- `RequestBodyCompletion::mark_eof`. -/
def markEof (completion : RequestBodyCompletionState) : RequestBodyCompletionState :=
  { completion with reachedEof := true }

/-- The counters of `RequestBodyCompletion::track_data`. -/
def trackData (completion : RequestBodyCompletionState) (chunk : Chunk) :
    RequestBodyCompletionState :=
  { completion with
    inFlightFrames := completion.inFlightFrames + 1
    emittedBytes := min (completion.emittedBytes + chunk.length) (2 ^ 64 - 1) }

/-- The in-flight counter of `RequestBodyCompletion::data_consumed`. -/
def dataConsumed (completion : RequestBodyCompletionState) : RequestBodyCompletionState :=
  { completion with inFlightFrames := completion.inFlightFrames - 1 }

/-- `RequestBodyCompletion::mark_failed`. -/
def markFailed (completion : RequestBodyCompletionState) : RequestBodyCompletionState :=
  { completion with failed := true }

end RequestBodyCompletionState

/-! ## The body and its events -/

/-- What `StreamingUploadBody::poll_frame` returned to the tracked body. -/
inductive BodyPoll where
  | data (chunk : Chunk)
  | error (message : Text)
  | timeout
  | ended
  /-- Nothing is available; the write timeout is polled next. -/
  | pending
deriving DecidableEq, Repr

/-- What the transport observes. -/
inductive Observation where
  /-- A poll returned a data frame. -/
  | emitted (chunk : Chunk)
  /-- A poll returned an error. -/
  | errored
  /-- A poll returned the end of the body. -/
  | ended
  /-- The transport flushed while it held this many frames. -/
  | flushed (heldFrames : Nat)
deriving DecidableEq, Repr

/-- What closed the channel. -/
inductive Ending where
  /-- `finish` or an accepted final send. -/
  | finished
  /-- `close` or the drop of the receiver. -/
  | aborted
deriving DecidableEq, Repr

structure Upload where
  /-- The declared content length when it is positive. -/
  expectedBytes : Option Nat
  /-- A write timeout is configured. -/
  hasWriteTimeout : Bool
  channel : UploadBodyChannel
  completion : RequestBodyCompletionState
  /-- `StreamingUploadBody::finished`. -/
  finished : Bool
  polling : Option BodyPoll
  /-- The frames that the transport holds. -/
  frames : List Chunk
  receiverDropped : Bool
  accepted : List Chunk
  discarded : List Chunk
  ending : Option Ending
  log : List Observation
deriving DecidableEq, Repr

namespace Upload

/-- `upload_body_channel` and `streaming_request_body`. -/
def new (capacity : Nat) (contentLength : Option Nat) (hasWriteTimeout : Bool) : Upload where
  expectedBytes := contentLength.filter fun length => 0 < length
  hasWriteTimeout
  channel := ⟨[], false, capacity, .new⟩
  completion := .new
  finished := false
  polling := none
  frames := []
  receiverDropped := false
  accepted := []
  discarded := []
  ending := none
  log := []

/-- `RequestBodyCompletion::is_complete` of this body. -/
def isComplete (upload : Upload) : Bool :=
  upload.completion.isComplete upload.expectedBytes upload.channel.producer

/-- The channel section of a send. -/
def send (upload : Upload) (item : UploadBodyItem) (final : Bool) : Upload :=
  match upload.channel.send item final with
  | (.accepted, channel) =>
      { upload with
        channel
        accepted := upload.accepted ++ item.chunk?.toList
        ending := if final then some .finished else upload.ending }
  | (_, channel) => { upload with channel }

/-- `UploadBodySender::finish`. -/
def finish (upload : Upload) : Upload :=
  { upload with
    channel := upload.channel.finish
    ending := if upload.channel.closed then upload.ending else some .finished }

/-- `UploadBodyChannel::abort`, from the sender or from the receiver. -/
def abort (upload : Upload) : Upload :=
  if upload.channel.closed then { upload with channel := upload.channel.abort }
  else
    { upload with
      channel := upload.channel.abort
      discarded := upload.channel.queue.filterMap UploadBodyItem.chunk?
      ending := some .aborted }

/-- `StreamingUploadBody::poll_frame`, without the write timeout. -/
def pollBody (upload : Upload) : Upload :=
  if upload.finished then { upload with polling := some .ended }
  else
    match upload.channel.pollRecv with
    | (.ready (.data chunk), channel) => { upload with channel, polling := some (.data chunk) }
    | (.ready (.error message), channel) =>
        { upload with channel, finished := true, polling := some (.error message) }
    | (.ended, channel) => { upload with channel, finished := true, polling := some .ended }
    | (.pending, channel) => { upload with channel, polling := some .pending }

/-- `StreamingUploadBody::poll_pending_timeout` when the time has passed. -/
def pollPendingTimeout (upload : Upload) : Upload :=
  { upload with finished := true, polling := some .timeout }

/-- `TrackedRequestBody::poll_frame` with what the inner poll returned. -/
def trackPoll (upload : Upload) : BodyPoll → Upload
  | .data chunk =>
      let completion := upload.completion.trackData chunk
      { upload with
        completion := if upload.finished then completion.markEof else completion
        polling := none
        frames := upload.frames ++ [chunk]
        log := upload.log ++ [.emitted chunk] }
  | .error _ =>
      { upload with
        completion := upload.completion.markFailed
        polling := none
        log := upload.log ++ [.errored] }
  | .timeout =>
      { upload with
        completion := { upload.completion.markFailed with writeTimeout := true }
        polling := none
        log := upload.log ++ [.errored] }
  | .ended =>
      { upload with
        completion := upload.completion.markEof
        polling := none
        log := upload.log ++ [.ended] }
  | .pending => { upload with polling := none }

/-- The drop of frame `i`. -/
def dropFrame (upload : Upload) (i : Nat) : Upload :=
  { upload with
    completion := upload.completion.dataConsumed
    channel := { upload.channel with producer := upload.channel.producer.dataFrameConsumed }
    frames := upload.frames.eraseIdx i }

/-- `RequestBodyCompletion::mark_transport_flushed` by the transport. -/
def flush (upload : Upload) : Upload :=
  { upload with
    completion := upload.completion.markTransportFlushed upload.expectedBytes
    log := upload.log ++ [.flushed upload.frames.length] }

inductive Event where
  /-- A send; `nowait` says that it does not wait for space. -/
  | send (item : UploadBodyItem) (final nowait : Bool)
  | finish
  /-- `UploadBodySender::close`. -/
  | close
  /-- The drop of the body and its receiver. -/
  | dropReceiver
  /-- The receiver section of a poll. -/
  | poll
  /-- The write timeout of a poll that found nothing has passed. -/
  | pollTimeout
  /-- The completion section of a poll. -/
  | track
  | dropFrame (i : Nat)
  | flush
deriving DecidableEq, Repr

/-- One step of an upload. -/
def step (upload : Upload) : Event → Option Upload
  | .send item final nowait =>
      if !nowait && (upload.channel.send item final).1 == .full then none
      else some (upload.send item final)
  | .finish => some upload.finish
  | .close => some upload.abort
  | .dropReceiver =>
      if upload.polling.isSome || upload.receiverDropped then none
      else some { upload.abort with receiverDropped := true }
  | .poll =>
      if upload.polling.isSome || upload.receiverDropped then none else some upload.pollBody
  | .pollTimeout =>
      if upload.polling = some .pending ∧ upload.hasWriteTimeout then
        some upload.pollPendingTimeout
      else none
  | .track => upload.polling.map upload.trackPoll
  | .dropFrame i => if i < upload.frames.length then some (upload.dropFrame i) else none
  | .flush => some upload.flush

/-- What a step can do, with the guard of each event. -/
inductive Moves (upload : Upload) : Upload → Prop where
  | send (item : UploadBodyItem) (final : Bool) : Moves upload (upload.send item final)
  | finish : Moves upload upload.finish
  | close : Moves upload upload.abort
  | dropReceiver : Moves upload { upload.abort with receiverDropped := true }
  | poll (hidle : upload.polling = none) : Moves upload upload.pollBody
  | pollTimeout (hpending : upload.polling = some .pending) :
      Moves upload upload.pollPendingTimeout
  | track (poll : BodyPoll) (hpolling : upload.polling = some poll) :
      Moves upload (upload.trackPoll poll)
  | dropFrame (i : Nat) (hi : i < upload.frames.length) : Moves upload (upload.dropFrame i)
  | flush : Moves upload upload.flush

theorem moves_of_step {upload next : Upload} {event : Event}
    (hstep : upload.step event = some next) : Moves upload next := by
  cases event with
  | send item final nowait =>
      simp only [step, Option.ite_none_left_eq_some, Option.some.injEq] at hstep
      exact hstep.2 ▸ .send item final
  | finish =>
      cases hstep
      exact .finish
  | close =>
      cases hstep
      exact .close
  | dropReceiver =>
      simp only [step, Option.ite_none_left_eq_some, Option.some.injEq] at hstep
      exact hstep.2 ▸ .dropReceiver
  | poll =>
      simp only [step, Option.ite_none_left_eq_some, Option.some.injEq, Bool.or_eq_true, not_or,
        Option.not_isSome_iff_eq_none] at hstep
      exact hstep.2 ▸ .poll hstep.1.1
  | pollTimeout =>
      simp only [step, Option.ite_none_right_eq_some, Option.some.injEq] at hstep
      exact hstep.2 ▸ .pollTimeout hstep.1.1
  | track =>
      simp only [step, Option.map_eq_some_iff] at hstep
      obtain ⟨poll, hpolling, rfl⟩ := hstep
      exact .track poll hpolling
  | dropFrame i =>
      simp only [step, Option.ite_none_right_eq_some, Option.some.injEq] at hstep
      exact hstep.2 ▸ .dropFrame i hstep.1
  | flush =>
      cases hstep
      exact .flush

/-- The upload and all its interleavings. -/
def system (capacity : Nat) (contentLength : Option Nat) (hasWriteTimeout : Bool) :
    TransitionSystem Upload Event :=
  ⟨new capacity contentLength hasWriteTimeout, step⟩

end Upload

end FogHttp.RequestBody
