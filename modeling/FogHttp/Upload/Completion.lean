import FogHttp.Upload.Body

/-!
# Completion is sound

`RequestBodyCompletion::is_complete` is assembled from pieces that different
threads update in any order.  When it answers yes, the producer finished, every
accepted frame was yielded and dropped, the byte count or the end of the body is
reached, no error was yielded, and a flush came after the last byte.

`Sound` is the invariant.  The accepted chunks are the yielded ones, the one in
the hand of a poll, the queued ones and the discarded ones, in this order, and
the two counters count what they are named for.  The state of the producer and
the flush flag are tied to what happened: only `finish` or a final send leads to
a finished producer, and the flag is set by a flush that found no frame in
flight at the end of the body.

There is one step lemma for each event, `sound_of_reachable` is the induction
over runs, and `upload_completion_sound` is the result.
-/

namespace FogHttp.RequestBody

open Lib

/-! ## What was yielded -/

/-- The chunk of an emitted frame. -/
def Observation.chunk? : Observation → Option Chunk
  | .emitted chunk => some chunk
  | _ => none

/-- The chunks that a log shows as emitted. -/
def emittedChunks (log : List Observation) : List Chunk := log.filterMap Observation.chunk?

/-- The number of bytes in a list of chunks. -/
def byteCount (chunks : List Chunk) : Nat := (chunks.map List.length).sum

@[simp] theorem emittedChunks_append (log more : List Observation) :
    emittedChunks (log ++ more) = emittedChunks log ++ emittedChunks more :=
  List.filterMap_append

@[simp] theorem emittedChunks_emitted (chunk : Chunk) :
    emittedChunks [.emitted chunk] = [chunk] := rfl

@[simp] theorem emittedChunks_errored : emittedChunks [.errored] = [] := rfl

@[simp] theorem emittedChunks_ended : emittedChunks [.ended] = [] := rfl

@[simp] theorem emittedChunks_flushed (heldFrames : Nat) :
    emittedChunks [.flushed heldFrames] = [] := rfl

@[simp] theorem byteCount_append (chunks more : List Chunk) :
    byteCount (chunks ++ more) = byteCount chunks + byteCount more := by
  simp [byteCount]

/-- The chunk that the receiver has handed to a poll under way. -/
def BodyPoll.inHand : Option BodyPoll → List Chunk
  | some (.data chunk) => [chunk]
  | _ => []

namespace Upload

/-- The chunks that the transport received. -/
def yielded (upload : Upload) : List Chunk := emittedChunks upload.log

/-- The chunks that the receiver handed out, the last of them maybe on its way. -/
def received (upload : Upload) : List Chunk :=
  upload.yielded ++ BodyPoll.inHand upload.polling

/-- The chunks that wait in the channel. -/
def queued (upload : Upload) : List Chunk :=
  upload.channel.queue.filterMap UploadBodyItem.chunk?

end Upload

/-! ## The invariant -/

/-- The flush behind a set flush flag: the transport held no frame, and the body
had ended by its length or by its end. -/
def FlushSeen (upload : Upload) : Prop :=
  ∃ before after, upload.log = before ++ .flushed 0 :: after ∧
    match upload.expectedBytes with
    | some expected => min (byteCount (emittedChunks before)) (2 ^ 64 - 1) = expected
    | none => upload.finished = true ∧ emittedChunks after = []

structure Sound (upload : Upload) : Prop where
  order : upload.accepted = upload.yielded ++ BodyPoll.inHand upload.polling ++
    upload.queued ++ upload.discarded
  outstanding : upload.channel.producer.outstandingDataFrames = upload.frames.length +
    (BodyPoll.inHand upload.polling).length + upload.queued.length + upload.discarded.length
  inFlight : upload.completion.inFlightFrames = upload.frames.length
  closed : upload.channel.closed = upload.ending.isSome
  producer : upload.channel.producer.state = .finished → upload.ending = some .finished
  discarded : upload.discarded ≠ [] → upload.ending = some .aborted
  emitted : upload.completion.emittedBytes = min (byteCount upload.yielded) (2 ^ 64 - 1)
  eof : upload.completion.reachedEof = true → upload.finished = true ∧ .ended ∈ upload.log
  ended : upload.finished = true → BodyPoll.inHand upload.polling = []
  polled : upload.polling = some .ended → upload.finished = true
  failed : upload.completion.failed = true ↔ .errored ∈ upload.log
  flushed : upload.completion.transportFlushed = true → FlushSeen upload

theorem sound_new (capacity : Nat) (contentLength : Option Nat) (hasWriteTimeout : Bool) :
    Sound (.new capacity contentLength hasWriteTimeout) := by
  constructor <;>
    simp [Upload.new, Upload.yielded, Upload.queued, emittedChunks, BodyPoll.inHand, byteCount,
      UploadBodyProducerCompletion.new, RequestBodyCompletionState.new]

/-- A channel that is open has no ending yet. -/
theorem Sound.ending_none {upload : Upload} (h : Sound upload)
    (hopen : upload.channel.closed = false) : upload.ending = none := by
  have hclosed := h.closed
  rw [hopen] at hclosed
  simpa using hclosed.symm

/-- Only an abort discards chunks. -/
theorem Sound.discarded_nil {upload : Upload} (h : Sound upload)
    (hkept : upload.ending ≠ some .aborted) : upload.discarded = [] := by
  by_contra hne
  exact hkept (h.discarded hne)

/-- A log that only grows by observations other than frames keeps its flush. -/
theorem FlushSeen.grow {upload next : Upload} (h : FlushSeen upload)
    (hexpected : next.expectedBytes = upload.expectedBytes)
    (hfinished : upload.finished = true → next.finished = true) (more : List Observation)
    (hlog : next.log = upload.log ++ more)
    (hmore : upload.finished = true → emittedChunks more = []) : FlushSeen next := by
  obtain ⟨before, after, hsplit, hend⟩ := h
  refine ⟨before, after ++ more, by rw [hlog, hsplit]; simp, ?_⟩
  rw [hexpected]
  cases hlength : upload.expectedBytes with
  | some expected =>
      rw [hlength] at hend
      exact hend
  | none =>
      rw [hlength] at hend
      exact ⟨hfinished hend.1, by rw [emittedChunks_append, hend.2, hmore hend.1]; rfl⟩

/-- An event that logs nothing keeps the flush. -/
theorem Sound.flushed_kept {upload next : Upload} (h : Sound upload)
    (hexpected : next.expectedBytes = upload.expectedBytes) (hlog : next.log = upload.log)
    (hfinished : upload.finished = true → next.finished = true)
    (hflushed : upload.completion.transportFlushed = true) : FlushSeen next :=
  (h.flushed hflushed).grow hexpected hfinished [] (by rw [hlog, List.append_nil]) fun _ => rfl

/-! ## The producer's events -/

/-- A closed state of the producer is final. -/
theorem close_state {producer : UploadBodyProducerCompletion} {state : ProducerState}
    (h : (producer.close state).state = .finished) :
    producer.state = .finished ∨ producer.state = .open_ ∧ state = .finished := by
  unfold UploadBodyProducerCompletion.close at h
  split at h
  · rename_i hopen
    exact Or.inr ⟨hopen, h⟩
  · exact Or.inl h

@[simp] theorem close_outstanding (producer : UploadBodyProducerCompletion)
    (state : ProducerState) :
    (producer.close state).outstandingDataFrames = producer.outstandingDataFrames := by
  unfold UploadBodyProducerCompletion.close
  split <;> rfl

/-- The step lemma of the sends. -/
theorem sound_send {upload : Upload} (item : UploadBodyItem) (final : Bool) (h : Sound upload) :
    Sound (upload.send item final) := by
  unfold Upload.send UploadBodyChannel.send
  by_cases hclosed : upload.channel.closed = true
  · simpa [hclosed] using h
  by_cases hfull : upload.channel.queue.length ≥ upload.channel.capacity
  · simpa [hclosed, hfull] using h
  simp only [hclosed, hfull, if_false, Bool.false_eq_true]
  -- The channel is open, so nothing has been discarded.
  have hopen : upload.ending = none := h.ending_none (by simpa using hclosed)
  have hkept : upload.discarded = [] := h.discarded_nil (by simp [hopen])
  have horder := h.order
  have houtstanding := h.outstanding
  rw [hkept, List.append_nil] at horder
  rw [hkept] at houtstanding
  refine ⟨?_, ?_, h.inFlight, ?_, ?_, ?_, h.emitted, h.eof, h.ended, h.polled, h.failed, ?_⟩
  · show upload.accepted ++ item.chunk?.toList = _
    rw [horder]
    cases item <;>
      simp [Upload.yielded, Upload.queued, UploadBodyChannel.push, UploadBodyItem.chunk?, hkept]
  · cases final <;> cases item <;>
      simp [Upload.queued, UploadBodyChannel.push, UploadBodyItem.chunk?, hkept, houtstanding,
        UploadBodyProducerCompletion.finish, UploadBodyProducerCompletion.fail,
        UploadBodyProducerCompletion.recordDataFrame] <;> omega
  · cases final <;> simp [UploadBodyChannel.push, h.closed]
  · intro hfinished
    cases final with
    | true => rfl
    | false =>
        -- Only a final send finishes the producer.
        have hbefore : upload.channel.producer.state = .finished := by
          cases item with
          | data chunk => exact hfinished
          | error message =>
              rcases close_state hfinished with hbefore | ⟨-, habsurd⟩
              · exact hbefore
              · simp at habsurd
        simp [h.producer hbefore] at hopen
  · intro hne
    exact absurd hkept hne
  · exact h.flushed_kept rfl rfl id

/-- The step lemma of `finish`. -/
theorem sound_finish {upload : Upload} (h : Sound upload) : Sound upload.finish := by
  unfold Upload.finish UploadBodyChannel.finish
  by_cases hclosed : upload.channel.closed = true
  · simpa [hclosed] using h
  simp only [hclosed, if_false, Bool.false_eq_true]
  refine ⟨h.order, ?_, h.inFlight, rfl, fun _ => rfl, ?_, h.emitted, h.eof, h.ended, h.polled,
    h.failed, ?_⟩
  · show (upload.channel.producer.close .finished).outstandingDataFrames = _
    rw [close_outstanding]
    exact h.outstanding
  · intro hne
    have hending := h.closed
    rw [h.discarded hne] at hending
    exact absurd hending hclosed
  · exact h.flushed_kept rfl rfl id

/-- The step lemma of `abort`: the queue moves to the discarded chunks. -/
theorem sound_abort {upload : Upload} (h : Sound upload) : Sound upload.abort := by
  unfold Upload.abort UploadBodyChannel.abort
  by_cases hclosed : upload.channel.closed = true
  · simpa [hclosed] using h
  simp only [hclosed, if_false, Bool.false_eq_true]
  have hopen : upload.ending = none := h.ending_none (by simpa using hclosed)
  have hkept : upload.discarded = [] := h.discarded_nil (by simp [hopen])
  refine ⟨?_, ?_, h.inFlight, rfl, ?_, fun _ => rfl, h.emitted, h.eof, h.ended, h.polled,
    h.failed, ?_⟩
  · have horder := h.order
    rw [hkept] at horder
    simpa [Upload.yielded, Upload.queued] using horder
  · have houtstanding := h.outstanding
    rw [hkept] at houtstanding
    simpa [Upload.queued, UploadBodyProducerCompletion.abort] using houtstanding
  · intro hfinished
    rcases close_state hfinished with hbefore | ⟨-, habsurd⟩
    · simp [h.producer hbefore] at hopen
    · simp at habsurd
  · exact h.flushed_kept rfl rfl id

/-! ## The transport's events -/

/-- The step lemma of the receiver section of a poll. -/
theorem sound_pollBody {upload : Upload} (h : Sound upload) (hidle : upload.polling = none) :
    Sound upload.pollBody := by
  have horder := h.order
  have houtstanding := h.outstanding
  rw [hidle] at horder houtstanding
  unfold Upload.pollBody
  split
  · rename_i hfinished
    exact ⟨horder, houtstanding, h.inFlight, h.closed, h.producer, h.discarded, h.emitted,
      h.eof, fun _ => rfl, fun _ => hfinished, h.failed, h.flushed_kept rfl rfl id⟩
  · rename_i hfinished
    unfold UploadBodyChannel.pollRecv
    cases hqueue : upload.channel.queue with
    | nil =>
        dsimp only
        by_cases hclosed : upload.channel.closed = true
        · simp only [hclosed, if_true]
          exact ⟨horder, houtstanding, h.inFlight, hclosed ▸ h.closed, h.producer, h.discarded,
            h.emitted, fun hreached => ⟨rfl, (h.eof hreached).2⟩, fun _ => rfl, fun _ => rfl,
            h.failed, h.flushed_kept rfl rfl fun _ => rfl⟩
        · simp only [hclosed, if_false, Bool.false_eq_true]
          exact ⟨horder, houtstanding, h.inFlight, h.closed, h.producer, h.discarded,
            h.emitted, h.eof, fun _ => rfl, by simp, h.failed, h.flushed_kept rfl rfl id⟩
    | cons item rest =>
        simp only [Upload.queued, hqueue] at horder houtstanding
        cases item with
        | data chunk =>
            dsimp only
            refine ⟨?_, ?_, h.inFlight, h.closed, h.producer, h.discarded, h.emitted, h.eof,
              fun hdone => absurd hdone hfinished, by simp, h.failed, ?_⟩
            · simpa [Upload.yielded, Upload.queued, BodyPoll.inHand, UploadBodyItem.chunk?]
                using horder
            · simp only [BodyPoll.inHand, UploadBodyItem.chunk?, List.filterMap_cons,
                List.length_cons, List.length_nil, Upload.queued] at houtstanding ⊢
              omega
            · exact h.flushed_kept rfl rfl id
        | error message =>
            have hskip : (UploadBodyItem.error message :: rest).filterMap UploadBodyItem.chunk? =
                rest.filterMap UploadBodyItem.chunk? := rfl
            rw [hskip] at horder houtstanding
            dsimp only
            refine ⟨?_, ?_, h.inFlight, h.closed, h.producer, h.discarded, h.emitted,
              fun hreached => ⟨rfl, (h.eof hreached).2⟩, fun _ => rfl, fun _ => rfl, h.failed,
              ?_⟩
            · simpa [Upload.yielded, Upload.queued, BodyPoll.inHand] using horder
            · simpa [Upload.queued, BodyPoll.inHand] using houtstanding
            · exact h.flushed_kept rfl rfl fun _ => rfl

/-- The step lemma of the write timeout of a poll. -/
theorem sound_pollPendingTimeout {upload : Upload} (h : Sound upload)
    (hpending : upload.polling = some .pending) : Sound upload.pollPendingTimeout := by
  have horder := h.order
  have houtstanding := h.outstanding
  rw [hpending] at horder houtstanding
  exact ⟨horder, houtstanding, h.inFlight, h.closed, h.producer, h.discarded, h.emitted,
    fun hreached => ⟨rfl, (h.eof hreached).2⟩, fun _ => rfl, fun _ => rfl, h.failed,
    h.flushed_kept rfl rfl fun _ => rfl⟩

/-- The step lemma of a tracked frame. -/
theorem sound_trackData {upload : Upload} {chunk : Chunk} (h : Sound upload)
    (hpolling : upload.polling = some (.data chunk)) :
    Sound (upload.trackPoll (.data chunk)) := by
  have horder := h.order
  have houtstanding := h.outstanding
  rw [hpolling] at horder houtstanding
  -- A body that is finished has nothing in hand, so this frame is not its end.
  have hrunning : upload.finished = false := by
    by_contra hfinished
    have hnone := h.ended (by simpa using hfinished)
    simp [hpolling, BodyPoll.inHand] at hnone
  unfold Upload.trackPoll
  simp only [hrunning, Bool.false_eq_true, if_false]
  refine ⟨?_, ?_, ?_, h.closed, h.producer, h.discarded, ?_, ?_, ?_, by simp, ?_, ?_⟩
  · simpa [Upload.yielded, Upload.queued, BodyPoll.inHand] using horder
  · simp only [BodyPoll.inHand, List.length_cons, List.length_nil, List.length_append,
      Upload.queued] at houtstanding ⊢
    omega
  · have hinFlight := h.inFlight
    simp [RequestBodyCompletionState.trackData, hinFlight]
  · have hemitted := h.emitted
    have hbytes : byteCount (upload.yielded ++ [chunk]) =
        byteCount upload.yielded + chunk.length := by
      rw [byteCount_append]
      simp [byteCount]
    show min (upload.completion.emittedBytes + chunk.length) (2 ^ 64 - 1) =
      min (byteCount (emittedChunks (upload.log ++ [.emitted chunk]))) (2 ^ 64 - 1)
    rw [emittedChunks_append]
    show _ = min (byteCount (upload.yielded ++ [chunk])) _
    rw [hbytes, hemitted]
    omega
  · intro hreached
    have hdone := (h.eof hreached).1
    simp [hrunning] at hdone
  · intro hdone
    simp at hdone
  · rw [List.mem_append]
    simpa [RequestBodyCompletionState.trackData] using h.failed
  · intro hflushed
    have hopen : upload.finished = true → False := by simp [hrunning]
    exact (h.flushed hflushed).grow rfl (fun hdone => (hopen hdone).elim) _ rfl
      fun hdone => (hopen hdone).elim

/-- The step lemma of a poll that returned an error. -/
theorem sound_trackError {upload : Upload} {writeTimeout : Bool} (h : Sound upload)
    (hhand : BodyPoll.inHand upload.polling = []) :
    Sound { upload with
      completion := { upload.completion.markFailed with writeTimeout }
      polling := none
      log := upload.log ++ [.errored] } := by
  have horder := h.order
  have houtstanding := h.outstanding
  rw [hhand] at horder houtstanding
  refine ⟨?_, houtstanding, h.inFlight, h.closed, h.producer, h.discarded, ?_, ?_,
    fun _ => rfl, by simp, ?_, ?_⟩
  · simpa [Upload.yielded, Upload.queued, BodyPoll.inHand] using horder
  · simpa [Upload.yielded, RequestBodyCompletionState.markFailed] using h.emitted
  · intro hreached
    exact ⟨(h.eof hreached).1, List.mem_append_left _ (h.eof hreached).2⟩
  · simp [RequestBodyCompletionState.markFailed]
  · intro hflushed
    exact (h.flushed hflushed).grow rfl id [.errored] rfl fun _ => rfl

/-- The step lemma of a poll that returned the end of the body. -/
theorem sound_trackEnded {upload : Upload} (h : Sound upload)
    (hpolling : upload.polling = some .ended) : Sound (upload.trackPoll .ended) := by
  have horder := h.order
  have houtstanding := h.outstanding
  rw [hpolling] at horder houtstanding
  refine ⟨?_, houtstanding, h.inFlight, h.closed, h.producer, h.discarded, ?_, ?_,
    fun _ => rfl, by simp [Upload.trackPoll], ?_, ?_⟩
  · simpa [Upload.trackPoll, Upload.yielded, Upload.queued, BodyPoll.inHand] using horder
  · simpa [Upload.trackPoll, Upload.yielded, RequestBodyCompletionState.markEof]
      using h.emitted
  · intro _
    exact ⟨h.polled hpolling, by simp [Upload.trackPoll]⟩
  · simpa [Upload.trackPoll, RequestBodyCompletionState.markEof] using h.failed
  · intro hflushed
    exact (h.flushed hflushed).grow rfl id [.ended] rfl fun _ => rfl

/-- The step lemma of the completion section of a poll. -/
theorem sound_trackPoll {upload : Upload} {poll : BodyPoll} (h : Sound upload)
    (hpolling : upload.polling = some poll) : Sound (upload.trackPoll poll) := by
  cases poll with
  | data chunk => exact sound_trackData h hpolling
  | error message => exact sound_trackError h (by rw [hpolling]; rfl)
  | timeout => exact sound_trackError h (by rw [hpolling]; rfl)
  | ended => exact sound_trackEnded h hpolling
  | pending =>
      have horder := h.order
      have houtstanding := h.outstanding
      rw [hpolling] at horder houtstanding
      exact ⟨horder, houtstanding, h.inFlight, h.closed, h.producer, h.discarded, h.emitted,
        h.eof, fun _ => rfl, by simp [Upload.trackPoll], h.failed, h.flushed_kept rfl rfl id⟩

/-- The step lemma of a dropped frame. -/
theorem sound_dropFrame {upload : Upload} {i : Nat} (h : Sound upload)
    (hi : i < upload.frames.length) : Sound (upload.dropFrame i) := by
  have hlength : (upload.frames.eraseIdx i).length = upload.frames.length - 1 :=
    List.length_eraseIdx_of_lt hi
  have houtstanding := h.outstanding
  have hinFlight := h.inFlight
  refine ⟨h.order, ?_, ?_, h.closed, h.producer, h.discarded, h.emitted, h.eof, h.ended,
    h.polled, h.failed, ?_⟩
  · show upload.channel.producer.outstandingDataFrames - 1 =
      (upload.frames.eraseIdx i).length + (BodyPoll.inHand upload.polling).length +
        upload.queued.length + upload.discarded.length
    omega
  · show upload.completion.inFlightFrames - 1 = (upload.frames.eraseIdx i).length
    omega
  · exact h.flushed_kept rfl rfl id

/-- The step lemma of a flush: the flag is set by a flush that saw the end. -/
theorem sound_flush {upload : Upload} (h : Sound upload) : Sound upload.flush := by
  have hsame : ∀ completion : RequestBodyCompletionState,
      completion.markTransportFlushed upload.expectedBytes =
        { completion with transportFlushed :=
            (completion.markTransportFlushed upload.expectedBytes).transportFlushed } := by
    intro completion
    unfold RequestBodyCompletionState.markTransportFlushed
    split <;> rfl
  unfold Upload.flush
  rw [hsame]
  refine ⟨?_, h.outstanding, h.inFlight, h.closed, h.producer, h.discarded, ?_, ?_, h.ended,
    h.polled, ?_, ?_⟩
  · simpa [Upload.yielded, Upload.queued] using h.order
  · simpa [Upload.yielded] using h.emitted
  · intro hreached
    exact ⟨(h.eof hreached).1, List.mem_append_left _ (h.eof hreached).2⟩
  · simpa using h.failed
  · intro hflushed
    by_cases hended : (upload.completion.wireBodyEnded upload.expectedBytes &&
        upload.completion.inFlightFrames == 0) = true
    · simp only [Bool.and_eq_true, beq_iff_eq] at hended
      have hheld : upload.frames.length = 0 := h.inFlight ▸ hended.2
      refine ⟨upload.log, [], by rw [hheld], ?_⟩
      have hwire := hended.1
      dsimp only
      cases hexpected : upload.expectedBytes with
      | some expected =>
          simp only [RequestBodyCompletionState.wireBodyEnded, hexpected, beq_iff_eq] at hwire
          rw [← hwire, h.emitted]
          rfl
      | none =>
          simp only [RequestBodyCompletionState.wireBodyEnded, hexpected] at hwire
          exact ⟨(h.eof hwire).1, rfl⟩
    · have hbefore : upload.completion.transportFlushed = true := by
        simpa [RequestBodyCompletionState.markTransportFlushed, hended] using hflushed
      exact (h.flushed hbefore).grow rfl id _ rfl fun _ => rfl

/-! ## Runs -/

/-- The step lemma. -/
theorem sound_step {upload next : Upload} {event : Upload.Event} (h : Sound upload)
    (hstep : upload.step event = some next) : Sound next := by
  cases Upload.moves_of_step hstep with
  | send item final => exact sound_send item final h
  | finish => exact sound_finish h
  | close => exact sound_abort h
  | dropReceiver =>
      have habort := sound_abort h
      exact ⟨habort.order, habort.outstanding, habort.inFlight, habort.closed,
        habort.producer, habort.discarded, habort.emitted, habort.eof, habort.ended,
        habort.polled, habort.failed, habort.flushed⟩
  | poll hidle => exact sound_pollBody h hidle
  | pollTimeout hpending => exact sound_pollPendingTimeout h hpending
  | track poll hpolling => exact sound_trackPoll h hpolling
  | dropFrame i hi => exact sound_dropFrame h hi
  | flush => exact sound_flush h

/-- The run lemma. -/
theorem sound_of_reachable {capacity : Nat} {contentLength : Option Nat}
    {hasWriteTimeout : Bool} {upload : Upload}
    (h : (Upload.system capacity contentLength hasWriteTimeout).Reachable upload) :
    Sound upload :=
  h.invariant Sound (sound_new capacity contentLength hasWriteTimeout)
    fun _ hsound hstep => sound_step hsound hstep

@[simp] theorem abort_expectedBytes (upload : Upload) :
    upload.abort.expectedBytes = upload.expectedBytes := by
  unfold Upload.abort
  split <;> rfl

/-- The declared length never changes. -/
theorem step_expectedBytes {upload next : Upload} {event : Upload.Event}
    (hstep : upload.step event = some next) : next.expectedBytes = upload.expectedBytes := by
  cases Upload.moves_of_step hstep with
  | send item final =>
      unfold Upload.send
      split <;> rfl
  | close | dropReceiver => simp
  | poll =>
      unfold Upload.pollBody
      split
      · rfl
      · split <;> rfl
  | track poll => cases poll <;> rfl
  | finish | pollTimeout | dropFrame | flush => rfl

theorem expectedBytes_of_reachable {capacity : Nat} {contentLength : Option Nat}
    {hasWriteTimeout : Bool} {upload : Upload}
    (h : (Upload.system capacity contentLength hasWriteTimeout).Reachable upload) :
    upload.expectedBytes = contentLength.filter fun length => 0 < length :=
  h.invariant (fun upload => upload.expectedBytes = contentLength.filter fun length => 0 < length)
    rfl fun _ hsame hstep => (step_expectedBytes hstep).trans hsame

/-! ## The result -/

/-- The request body went out as a whole. -/
structure Delivered (contentLength : Option Nat) (upload : Upload) : Prop where
  producer : upload.channel.producer.state = .finished
  yielded : upload.yielded = upload.accepted
  dropped : upload.frames = []
  /-- A declared positive length is met, and a body without one came to its end. -/
  length : match contentLength.filter fun length => 0 < length with
    | some expected => byteCount upload.yielded = expected
    | none => .ended ∈ upload.log
  noError : .errored ∉ upload.log
  /-- A flush without a frame in flight came after the last byte. -/
  flushed : ∃ before after, upload.log = before ++ .flushed 0 :: after ∧
    ∀ chunk ∈ emittedChunks after, chunk = []

/-- Chunks without bytes are empty. -/
theorem eq_nil_of_byteCount {chunks : List Chunk} (h : byteCount chunks = 0) :
    ∀ chunk ∈ chunks, chunk = [] := by
  intro chunk hmem
  have hlengths := List.sum_eq_zero_iff_forall_eq_nat.mp h
  exact List.length_eq_zero_iff.mp (hlengths chunk.length (List.mem_map_of_mem hmem))

/-- A drained producer has nothing left in the hand of a poll, in the channel or with
the transport. -/
theorem Sound.drained {upload : Upload} (h : Sound upload)
    (hdrained : upload.channel.producer.outstandingDataFrames = 0) :
    upload.yielded = upload.accepted ∧ upload.frames = [] := by
  have houtstanding := h.outstanding
  rw [hdrained] at houtstanding
  have hframes : upload.frames = [] := List.length_eq_zero_iff.mp (by omega)
  have hhand : BodyPoll.inHand upload.polling = [] := List.length_eq_zero_iff.mp (by omega)
  have hqueued : upload.queued = [] := List.length_eq_zero_iff.mp (by omega)
  have hdiscarded : upload.discarded = [] := List.length_eq_zero_iff.mp (by omega)
  have horder := h.order
  rw [hhand, hqueued, hdiscarded] at horder
  exact ⟨by simpa using horder.symm, hframes⟩

/-- The flush behind a complete body came after the last byte. -/
theorem Sound.flush_after_last_byte {upload : Upload} (h : Sound upload)
    (hflushed : upload.completion.transportFlushed = true)
    (hlength : ∀ expected, upload.expectedBytes = some expected →
      byteCount upload.yielded = expected) :
    ∃ before after, upload.log = before ++ .flushed 0 :: after ∧
      ∀ chunk ∈ emittedChunks after, chunk = [] := by
  obtain ⟨before, after, hlog, hend⟩ := h.flushed hflushed
  refine ⟨before, after, hlog, ?_⟩
  cases hexpected : upload.expectedBytes with
  | none =>
      rw [hexpected] at hend
      simp [hend.2]
  | some expected =>
      rw [hexpected] at hend
      have hmet := hlength expected hexpected
      have hsplit : byteCount upload.yielded =
          byteCount (emittedChunks before) + byteCount (emittedChunks after) := by
        rw [Upload.yielded, hlog, ← List.singleton_append, emittedChunks_append,
          emittedChunks_append, byteCount_append, byteCount_append]
        simp [byteCount]
      apply eq_nil_of_byteCount
      dsimp only at hend
      omega

/-- For every interleaving: the receiver hands out a prefix of what the sends accepted,
a dropped frame finds both counters positive, and a body that is reported as complete
went out as a whole. -/
theorem upload_completion_sound (capacity : Nat) (contentLength : Option Nat)
    (hasWriteTimeout : Bool) (events : List Upload.Event) (upload : Upload)
    (hrun : (Upload.system capacity contentLength hasWriteTimeout).run events = some upload)
    (hbytes : byteCount upload.accepted < 2 ^ 64) :
    upload.received <+: upload.accepted ∧
    (∀ i next, upload.step (.dropFrame i) = some next →
      0 < upload.completion.inFlightFrames ∧
        0 < upload.channel.producer.outstandingDataFrames) ∧
    (upload.isComplete = true → Delivered contentLength upload) := by
  have hreachable := TransitionSystem.reachable_of_run hrun
  have h := sound_of_reachable hreachable
  refine ⟨?_, ?_, ?_⟩
  · rw [h.order, List.append_assoc]
    exact List.prefix_append _ _
  · intro i next hstep
    simp only [Upload.step, Option.ite_none_right_eq_some] at hstep
    have hi := hstep.1
    have hinFlight := h.inFlight
    have houtstanding := h.outstanding
    omega
  · intro hcomplete
    simp only [Upload.isComplete, RequestBodyCompletionState.isComplete,
      RequestBodyCompletionState.sourceComplete, UploadBodyProducerCompletion.isFinishedAndDrained,
      Bool.and_eq_true, beq_iff_eq, Bool.not_eq_true'] at hcomplete
    obtain ⟨⟨⟨⟨hwire, hfinished, hdrained⟩, hnotFailed⟩, -⟩, hflushed⟩ := hcomplete
    obtain ⟨hyielded, hframes⟩ := h.drained hdrained
    have hlength := expectedBytes_of_reachable hreachable
    rw [← hyielded] at hbytes
    have hemitted := h.emitted
    have hmet : ∀ expected, upload.expectedBytes = some expected →
        byteCount upload.yielded = expected := by
      intro expected hexpected
      simp only [RequestBodyCompletionState.wireBodyEnded, hexpected, beq_iff_eq] at hwire
      omega
    refine ⟨hfinished, hyielded, hframes, ?_, ?_, h.flush_after_last_byte hflushed hmet⟩
    · rw [← hlength]
      cases hexpected : upload.expectedBytes with
      | some expected => exact hmet expected hexpected
      | none =>
          simp only [RequestBodyCompletionState.wireBodyEnded, hexpected] at hwire
          exact (h.eof hwire).2
    · intro herrored
      rw [h.failed.mpr herrored] at hnotFailed
      simp at hnotFailed

namespace CompletionExample

/-- Two chunks, the second one by a final send while the first is in flight. -/
def events : List Upload.Event :=
  [.send (.data [1, 2]) false true, .poll, .track, .send (.data [3]) true false, .poll, .track,
    .dropFrame 0, .dropFrame 0, .poll, .track, .flush]

theorem upload_completion_sound_example :
    ∃ upload, (Upload.system 1 none false).run events = some upload ∧
      upload.isComplete = true ∧ Delivered none upload :=
  ⟨_, rfl, by decide,
    (upload_completion_sound 1 none false events _ rfl (by decide)).2.2 (by decide)⟩

end CompletionExample

end FogHttp.RequestBody
