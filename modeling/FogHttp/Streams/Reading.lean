import FogHttp.Streaming.Decoder
import FogHttp.Streams.State

/-!
# Reading a streamed response

A read takes the body out of the fields of the stream and polls it.  `Body` is
what the polls of a body will return, in order; past the end of the list the
body is pending for ever.  A read that waits for ever has no result.

With coalescing, a read that has a data frame takes more of them, as long as
they are ready.  It may find the end of the body or an error that way.  The end
finishes the stream at once, and the error waits in the fields for the next
read.

The reads follow each other here.  `requestWriteTimeout` is what the upload of
the request reports when an error of the body is turned into an exception, and
`isEndStream` is `Body::is_end_stream`.  Read timeouts are left out.  A panic is
a read without a result.
-/

namespace FogHttp.Streams

open Lib Streaming

variable {σ ω : Type}

/-! ## Frames -/

/-- What a poll of the body returns. -/
inductive BodyEvent where
  | data (bytes : Bytes)
  | trailers
  | pending
  | eof
  | error (message : Text)
deriving DecidableEq, Repr

abbrev Body := List BodyEvent

inductive Frame where
  | data (bytes : Bytes)
  | trailers
deriving DecidableEq, Repr

/-- What is left of a body when a frame was taken from it. -/
abbrev Rest (body : Body) := { rest : Body // rest.length < body.length }

/-- `next_stream_body_frame`, with the body behind the frame. -/
def nextStreamBodyFrame : (body : Body) → Option (Option (Except Text Frame) × Rest body)
  | [] => none
  | .pending :: body =>
      (nextStreamBodyFrame body).map fun (frame, rest) => (frame, ⟨rest, Nat.lt_succ_of_lt rest.2⟩)
  | .data bytes :: rest => some (some (.ok (.data bytes)), ⟨rest, Nat.lt_succ_self _⟩)
  | .trailers :: rest => some (some (.ok .trailers), ⟨rest, Nat.lt_succ_self _⟩)
  | .eof :: rest => some (none, ⟨rest, Nat.lt_succ_self _⟩)
  | .error message :: rest => some (some (.error message), ⟨rest, Nat.lt_succ_self _⟩)

/-! ## Coalescing -/

def readyFrameCoalesceTargetBytes : Nat := 256 * 1024
def maxReadyFrameCoalesceCount : Nat := 16

inductive ReadyFrameDrain where
  | eof
  | error (message : Text)
  | stopped
deriving DecidableEq, Repr

inductive ReadyBodyFrame where
  | data (bytes : Bytes)
  | eof
  | pending
  | error (message : Text)
deriving DecidableEq, Repr

/-- `poll_ready_body_frame`. -/
def pollReadyBodyFrame : Body → ReadyBodyFrame × Body
  | [] => (.pending, [])
  | .pending :: rest => (.pending, rest)
  | .eof :: rest => (.eof, rest)
  | .error message :: rest => (.error message, rest)
  | .trailers :: rest => pollReadyBodyFrame rest
  | .data bytes :: rest => (.data bytes, rest)

/-- The loop of `drain_ready_data_frames_with`, with the number of frames that may still be
added. -/
def drainLoop {β : Type} (poll : β → ReadyBodyFrame × β) (chunk : Bytes) :
    Nat → Option Bytes → β → ReadyFrameDrain × Option Bytes × β
  | 0, merged, body => (.stopped, merged, body)
  | frames + 1, merged, body =>
      if (merged.getD chunk).length ≥ readyFrameCoalesceTargetBytes then (.stopped, merged, body)
      else
        match poll body with
        | (.data data, body) => drainLoop poll chunk frames (some (merged.getD chunk ++ data)) body
        | (.eof, body) => (.eof, merged, body)
        | (.error error, body) => (.error error, merged, body)
        | (.pending, body) => (.stopped, merged, body)

/-- `drain_ready_data_frames_with`, with the new chunk. -/
def drainReadyDataFramesWith {β : Type} (poll : β → ReadyBodyFrame × β) (chunk : Bytes)
    (body : β) : ReadyFrameDrain × Bytes × β :=
  let (outcome, merged, body) := drainLoop poll chunk (maxReadyFrameCoalesceCount - 1) none body
  (outcome, merged.getD chunk, body)

/-- `drain_ready_data_frames`. -/
def drainReadyDataFrames (chunk : Bytes) (body : Body) : ReadyFrameDrain × Bytes × Body :=
  drainReadyDataFramesWith pollReadyBodyFrame chunk body

def ReadyFrameCoalescing.isEnabled : ReadyFrameCoalescing → Bool
  | .enabled => true
  | .disabled => false

/-! ## Errors -/

/-- The exceptions of a read. -/
inductive ReadError (ω : Type) where
  | stream (error : StreamError)
  | writeTimeoutError (timeout : ω)
  | responseBodyTooLargeError (error : StreamDecodeError)
  | responseDecodingError (error : StreamDecodeError)
deriving DecidableEq, Repr

/-- The result of `read_next_chunk`. -/
abbrev ReadResult (ω : Type) := Except (ReadError ω) (Option Bytes)

/-- `response_body_transport_error`. -/
def responseBodyTransportError (writeTimeout : Option ω) (message : Text) : ReadError ω :=
  match writeTimeout with
  | some timeout => .writeTimeoutError timeout
  | none => .stream (.fogHttpError message)

/-- `response_body_transport_error_type`. -/
def responseBodyTransportErrorType : ReadError ω → TelemetryErrorType
  | .writeTimeoutError _ => .writeTimeout
  | _ => .requestError

/-- `stream_decode_error`. -/
def streamDecodeError (error : StreamDecodeError) : ReadError ω :=
  match error with
  | .tooLarge .. | .counterOverflow => .responseBodyTooLargeError error
  | _ => .responseDecodingError error

/-- The error type with which `read_decoded_chunk` aborts. -/
def streamDecodeErrorType (error : StreamDecodeError) : TelemetryErrorType :=
  match error with
  | .tooLarge .. | .counterOverflow => .responseBodyTooLargeError
  | _ => .responseDecodingError

/-! ## Reads -/

/-- `DecodedStream`. -/
structure DecodedStream (σ : Type) where
  decoder : StreamingDecoder σ
  input : Bytes

/-- A stream with its body and its decoder. -/
abbrev BodyStream (σ : Type) := Stream Body (DecodedStream σ)

/-- The guard of a read. -/
abbrev BodyGuard (σ : Type) := StreamReadGuard Body (DecodedStream σ)

/-- What a read uses and does not own. -/
structure Transport (σ ω : Type) where
  library : CodecLibrary σ
  requestWriteTimeout : Option ω
  isEndStream : Body → Bool

variable (transport : Transport σ ω)

/-- `StreamState::request_write_timeout`. -/
def requestWriteTimeout (stream : BodyStream σ) : Option ω :=
  if stream.fields.connectionUse then transport.requestWriteTimeout else none

namespace Stream

/-- `finish` has done its last work. -/
def settle {β δ : Type} (stream : Stream β δ) : Stream β δ :=
  match stream.tail with
  | some tail => stream.finishTail tail
  | none => stream

/-- `abort_from_read`, and the drop of the guard. -/
def abortRead {β δ : Type} (stream : Stream β δ) (reason : ConnectionAbortReason) : Stream β δ :=
  ((stream.abortFromRead reason).settle.abortFromRead .cancelled).settle

/-- The drop of an armed guard. -/
def dropRead {β δ : Type} (stream : Stream β δ) : Stream β δ :=
  (stream.abortFromRead .cancelled).settle

/-- `finish_success_from_read`. -/
def finishRead {β δ : Type} (stream : Stream β δ) : Stream β δ :=
  (stream.finish .success false).2.settle

end Stream

/-- A read ends with an error of the body. -/
def failRead (stream : BodyStream σ) (message : Text) : ReadResult ω × BodyStream σ :=
  let error := responseBodyTransportError (requestWriteTimeout transport stream) message
  (.error error, stream.abortRead (.error (some (responseBodyTransportErrorType error))))

/-- The end of a read with data: the drain, and how the guard is given back. -/
def finishData (stream : BodyStream σ) (readyFrameCoalescing : ReadyFrameCoalescing) (data : Bytes)
    (body : Body) : Bytes × BodyStream σ :=
  if readyFrameCoalescing.isEnabled then
    match drainReadyDataFrames data body with
    | (.eof, chunk, _) => (chunk, stream.finishRead)
    | (.error error, chunk, body) =>
        (chunk, { stream with fields := stream.fields.completeRead body (some error) })
    | (.stopped, chunk, body) =>
        (chunk, { stream with fields := stream.fields.completeRead body none })
  else (data, { stream with fields := stream.fields.completeRead body none })

/-- The loop of `read_next_chunk`. -/
def readFrames (stream : BodyStream σ) (readyFrameCoalescing : ReadyFrameCoalescing)
    (body : Body) : Option (ReadResult ω × BodyStream σ) :=
  match nextStreamBodyFrame body with
  | none => none
  | some (frame, rest) =>
      if stream.fields.terminal.isSome then some (.ok none, stream.dropRead)
      else
        match frame with
        | none => some (.ok none, stream.finishRead)
        | some (.error message) => some (failRead transport stream message)
        | some (.ok .trailers) => readFrames stream readyFrameCoalescing rest
        | some (.ok (.data data)) =>
            let (chunk, stream) := finishData stream readyFrameCoalescing data rest
            some (.ok (some chunk), stream)
termination_by body.length
decreasing_by exact rest.2

/-- The next step of the loop of `read_decoded_chunk`. -/
inductive DecodedStep (σ ω : Type) where
  | again (stream : BodyStream σ) (body : Option Body) (decoded : DecodedStream σ)
  | done (result : ReadResult ω) (stream : BodyStream σ)
  | stuck

/-- The exception of a read of a stream that has ended. -/
def readAborted (stream : BodyStream σ) : DecodedStep σ ω :=
  .done (.error (.stream (.lifecycleError streamResponseReadAborted))) stream.dropRead

/-- `refill_decoded_input`. -/
def refillDecodedInput (stream : BodyStream σ) (body : Body) (decoded : DecodedStream σ) :
    DecodedStep σ ω :=
  match nextStreamBodyFrame body with
  | none => .stuck
  | some (frame, rest) =>
      if stream.fields.terminal.isSome then readAborted stream
      else
        match frame with
        | none => .again stream.finishTransportFromRead none decoded
        | some (.error message) =>
            .done (failRead transport stream message).1 (failRead transport stream message).2
        | some (.ok (.data data)) => .again stream (some rest) { decoded with input := data }
        | some (.ok .trailers) => .again stream (some rest) decoded

/-- One round of the loop of `read_decoded_chunk`, behind the test for a clean end. -/
def decodedStep (stream : BodyStream σ) (body : Option Body) (decoded : DecodedStream σ) :
    DecodedStep σ ω :=
  match decoded.decoder.step transport.library decoded.input body.isNone with
  | (.error error, _) =>
      .done (.error (streamDecodeError error))
        (stream.abortRead (.error (some (streamDecodeErrorType error))))
  | (.ok step, decoder) =>
      let decoded : DecodedStream σ := ⟨decoder, decoded.input.drop step.consumed⟩
      match step.output with
      | some output =>
          if stream.fields.terminal.isSome then readAborted stream
          else .done (.ok (some output))
            { stream with fields := { stream.fields with body, decoded := some decoded } }
      | none =>
          match step.status with
          | .finished =>
              if stream.fields.terminal.isSome then readAborted stream
              else .done (.ok none) stream.finishRead
          | .progress => .again stream body decoded
          | .needsInput =>
              match body with
              | some body => refillDecodedInput transport stream body decoded
              | none => .stuck

/-- `read_decoded_chunk`, for a number of rounds. -/
def readDecodedChunk : Nat → BodyStream σ → Option Body → DecodedStream σ →
    Option (ReadResult ω × BodyStream σ)
  | 0, _, _, _ => none
  | rounds + 1, stream, body, decoded =>
      let clean := body.any transport.isEndStream
      let stream' := if clean then stream.finishTransportFromRead else stream
      let step :=
        if stream.fields.terminal.isSome then readAborted stream
        else decodedStep transport stream' (if clean then none else body) decoded
      match step with
      | .again stream body decoded => readDecodedChunk rounds stream body decoded
      | .done result stream => some (result, stream)
      | .stuck => none

/-- `read_next_chunk`. -/
def readNextChunk (rounds : Nat) (stream : BodyStream σ) (guard : BodyGuard σ) :
    Option (ReadResult ω × BodyStream σ) :=
  match guard.decoded with
  | some decoded => readDecodedChunk transport rounds stream guard.body decoded
  | none =>
      match guard.deferredBodyError with
      | some error => some (failRead transport stream error)
      | none =>
          match guard.body with
          | some body => readFrames transport stream guard.readyFrameCoalescing body
          | none => none

/-- `next_chunk` and `next_chunk_async`, up to the delivery. -/
def nextChunk (rounds : Nat) (stream : BodyStream σ)
    (readyFrameCoalescing : ReadyFrameCoalescing) : Option (ReadResult ω × BodyStream σ) :=
  match stream.fields.startRead readyFrameCoalescing with
  | (.error error, fields) => some (.error (.stream error), { stream with fields })
  | (.ok none, fields) => some (.ok none, { stream with fields })
  | (.ok (some guard), fields) => do
      let started := ({ stream with fields } : BodyStream σ).registerReadTask stream.reads.length
      let (result, stream) ← readNextChunk transport rounds started guard
      some (result, { stream with fields := stream.fields.finishReadDelivery })

/-- What a reader got: the chunks, and the first result that is not a chunk. -/
structure Received (ω : Type) where
  chunks : List Bytes
  result : Option (Except (ReadError ω) Unit)

/-- Reads until the first result that is not a chunk, each with its own flag. -/
def readToEnd (rounds : Nat) :
    List ReadyFrameCoalescing → BodyStream σ → Received ω × BodyStream σ
  | [], stream => (⟨[], none⟩, stream)
  | readyFrameCoalescing :: flags, stream =>
      match nextChunk transport rounds stream readyFrameCoalescing with
      | none => (⟨[], none⟩, stream)
      | some (.ok none, stream) => (⟨[], some (.ok ())⟩, stream)
      | some (.error error, stream) => (⟨[], some (.error error)⟩, stream)
      | some (.ok (some chunk), stream) =>
          let (received, stream) := readToEnd rounds flags stream
          (⟨chunk :: received.chunks, received.result⟩, stream)

end FogHttp.Streams
