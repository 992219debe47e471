import FogHttp.Streams.Reading

/-!
# Coalescing preserves the body

`contents` is what a body holds: the data in front of its first end or error.

* `drainReadyDataFrames_spec` and `ReadOf`: what a read can do with a body.
  A read takes some events off, and nothing is lost of them.
* `Ready` is a stream between two reads.  A stream with a deferred error has
  only that error left.
* `readToEnd_eq`: all reads together deliver the contents.

A stream with a decoder does not look at the flag.
-/

namespace FogHttp.Streams

open Lib Streaming

variable {σ ω : Type}

/-! ## Contents -/

/-- The end of the body, or an error. -/
def BodyEvent.isTerminal : BodyEvent → Bool
  | .eof => true
  | .error _ => true
  | _ => false

def BodyEvent.bytes : BodyEvent → Bytes
  | .data bytes => bytes
  | _ => []

/-- The data of some events. -/
def dataBytes (events : Body) : Bytes := events.flatMap BodyEvent.bytes

/-- Events in front of the end. -/
def Open (events : Body) : Prop := ∀ event ∈ events, event.isTerminal = false

/-- The data of a body up to its end, and the end. -/
def contents : Body → Bytes × Option (Except Text Unit)
  | [] => ([], none)
  | .data bytes :: rest => (bytes ++ (contents rest).1, (contents rest).2)
  | .trailers :: rest => contents rest
  | .pending :: rest => contents rest
  | .eof :: _ => ([], some (.ok ()))
  | .error message :: _ => ([], some (.error message))

theorem Open.cons {event : BodyEvent} {events : Body} (h : event.isTerminal = false)
    (hopen : Open events) : Open (event :: events) :=
  List.forall_mem_cons.mpr ⟨h, hopen⟩

theorem open_nil : Open [] := fun _ hmem => absurd hmem List.not_mem_nil

/-- The data of open events comes in front of the rest. -/
theorem contents_append {events : Body} (h : Open events) (rest : Body) :
    contents (events ++ rest) = (dataBytes events ++ (contents rest).1, (contents rest).2) := by
  induction events with
  | nil => rfl
  | cons event events ih =>
      obtain ⟨hevent, hevents⟩ := List.forall_mem_cons.mp h
      have hrest := ih hevents
      cases event with
      | data bytes =>
          rw [List.cons_append, contents, hrest]
          exact congrArg (·, _) (List.append_assoc _ _ _).symm
      | trailers => exact hrest
      | pending => exact hrest
      | eof => simp [BodyEvent.isTerminal] at hevent
      | error message => simp [BodyEvent.isTerminal] at hevent

theorem dataBytes_append (left right : Body) :
    dataBytes (left ++ right) = dataBytes left ++ dataBytes right := List.flatMap_append

/-! ## The drain -/

/-- The event that a poll reports. -/
def ReadyBodyFrame.events : ReadyBodyFrame → Body
  | .data bytes => [.data bytes]
  | .eof => [.eof]
  | .error message => [.error message]
  | .pending => []

/-- The event that ends a drain. -/
def ReadyFrameDrain.events : ReadyFrameDrain → Body
  | .eof => [.eof]
  | .error message => [.error message]
  | .stopped => []

/-- A poll takes off what it reports, and in front of it events without data. -/
theorem pollReadyBodyFrame_spec (body : Body) : ∃ skipped, Open skipped ∧ dataBytes skipped = [] ∧
    body = skipped ++ ((pollReadyBodyFrame body).1.events ++ (pollReadyBodyFrame body).2) := by
  induction body with
  | nil => exact ⟨[], open_nil, rfl, rfl⟩
  | cons event rest ih =>
      cases event with
      | data bytes => exact ⟨[], open_nil, rfl, rfl⟩
      | eof => exact ⟨[], open_nil, rfl, rfl⟩
      | error message => exact ⟨[], open_nil, rfl, rfl⟩
      | pending => exact ⟨[.pending], open_nil.cons rfl, rfl, rfl⟩
      | trailers =>
          obtain ⟨skipped, hopen, hdata, hbody⟩ := ih
          refine ⟨.trailers :: skipped, hopen.cons rfl, hdata, ?_⟩
          exact congrArg (BodyEvent.trailers :: ·) hbody

theorem drainLoop_spec (chunk : Bytes) (frames : Nat) (merged : Option Bytes) (body : Body) :
    ∃ taken, Open taken ∧
      (drainLoop pollReadyBodyFrame chunk frames merged body).2.1.getD chunk =
        merged.getD chunk ++ dataBytes taken ∧
      body = taken ++ ((drainLoop pollReadyBodyFrame chunk frames merged body).1.events ++
        (drainLoop pollReadyBodyFrame chunk frames merged body).2.2) := by
  induction frames generalizing merged body with
  | zero => exact ⟨[], open_nil, (List.append_nil _).symm, rfl⟩
  | succ frames ih =>
      rw [drainLoop]
      split
      · exact ⟨[], open_nil, (List.append_nil _).symm, rfl⟩
      · obtain ⟨skipped, hopen, hdata, hbody⟩ := pollReadyBodyFrame_spec body
        cases hpoll : pollReadyBodyFrame body with
        | mk frame rest =>
            rw [hpoll] at hbody
            cases frame with
            | data bytes =>
                obtain ⟨taken, htaken, hmerged, hrest⟩ :=
                  ih (some (merged.getD chunk ++ bytes)) rest
                refine ⟨skipped ++ .data bytes :: taken, ?_, ?_, ?_⟩
                · exact List.forall_mem_append.mpr ⟨hopen, htaken.cons rfl⟩
                · rw [hmerged, dataBytes_append, hdata, Option.getD_some]
                  exact List.append_assoc _ _ _
                · rw [hbody, List.append_assoc, List.cons_append, ← hrest]
                  rfl
            | eof =>
                refine ⟨skipped, hopen, ?_, hbody⟩
                rw [hdata, List.append_nil]
            | pending =>
                refine ⟨skipped, hopen, ?_, hbody⟩
                rw [hdata, List.append_nil]
            | error message =>
                refine ⟨skipped, hopen, ?_, hbody⟩
                rw [hdata, List.append_nil]

/-- The drain adds to the chunk what it takes off the body. -/
theorem drainReadyDataFrames_spec (chunk : Bytes) (body : Body) : ∃ taken, Open taken ∧
    (drainReadyDataFrames chunk body).2.1 = chunk ++ dataBytes taken ∧
      body = taken ++ ((drainReadyDataFrames chunk body).1.events ++
        (drainReadyDataFrames chunk body).2.2) :=
  drainLoop_spec chunk (maxReadyFrameCoalesceCount - 1) none body

/-! ## One read of a body -/

variable (transport : Transport σ ω)

/-- What the loop of `read_next_chunk` can do with a body that holds `taken` and then
`rest`. -/
inductive ReadOf (stream : BodyStream σ) :
    Body → Body → ReadResult ω → BodyStream σ → Prop where
  /-- A chunk, and the body goes on. -/
  | chunk {taken rest : Body} (hopen : Open taken) (hne : taken ≠ []) :
      ReadOf stream taken rest (.ok (some (dataBytes taken)))
        { stream with fields := stream.fields.completeRead rest none }
  /-- A chunk, and behind it the end. -/
  | lastChunk {taken rest : Body} (hopen : Open taken) (hne : taken ≠ []) :
      ReadOf stream (taken ++ [.eof]) rest (.ok (some (dataBytes taken))) stream.finishRead
  /-- A chunk, and behind it an error. -/
  | chunkError {taken rest : Body} {message : Text} (hopen : Open taken) (hne : taken ≠ []) :
      ReadOf stream (taken ++ [.error message]) rest (.ok (some (dataBytes taken)))
        { stream with fields := stream.fields.completeRead rest (some message) }
  /-- The end. -/
  | eof {taken rest : Body} (hopen : Open taken) (hdata : dataBytes taken = []) :
      ReadOf stream (taken ++ [.eof]) rest (.ok none) stream.finishRead
  /-- An error. -/
  | error {taken rest : Body} {message : Text} (hopen : Open taken)
      (hdata : dataBytes taken = []) :
      ReadOf stream (taken ++ [.error message]) rest (failRead transport stream message).1
        (failRead transport stream message).2

variable {stream : BodyStream σ} (readyFrameCoalescing : ReadyFrameCoalescing)
  {taken rest body : Body} {result : ReadResult ω} {next : BodyStream σ}

/-- Events without data in front change nothing. -/
theorem ReadOf.skip {event : BodyEvent} (h : ReadOf transport stream taken rest result next)
    (hevent : event.isTerminal = false) (hbytes : event.bytes = []) :
    ReadOf transport stream (event :: taken) rest result next := by
  have hdata : ∀ events, dataBytes (event :: events) = dataBytes events := by
    intro events
    rw [dataBytes, List.flatMap_cons, hbytes]
    rfl
  cases h with
  | chunk hopen hne =>
      rw [← hdata]
      exact .chunk (hopen.cons hevent) (List.cons_ne_nil _ _)
  | lastChunk hopen hne =>
      rw [← hdata]
      exact .lastChunk (hopen.cons hevent) (List.cons_ne_nil _ _)
  | chunkError hopen hne =>
      rw [← hdata]
      exact .chunkError (hopen.cons hevent) (List.cons_ne_nil _ _)
  | eof hopen hnone => exact .eof (hopen.cons hevent) ((hdata _).trans hnone)
  | error hopen hnone => exact .error (hopen.cons hevent) ((hdata _).trans hnone)

/-- A read that has data takes a chunk. -/
theorem finishData_spec (stream : BodyStream σ) (data : Bytes) (body : Body) : ∃ taken rest,
    .data data :: body = taken ++ rest ∧ ReadOf transport stream taken rest
      (.ok (some (finishData stream readyFrameCoalescing data body).1))
      (finishData stream readyFrameCoalescing data body).2 := by
  have hfirst : ∀ taken, Open taken → Open (.data data :: taken) := fun _ => Open.cons rfl
  unfold finishData
  split
  · obtain ⟨taken, hopen, hchunk, hbody⟩ := drainReadyDataFrames_spec data body
    cases hdrain : drainReadyDataFrames data body with
    | mk outcome pieces =>
        obtain ⟨chunk, rest⟩ := pieces
        rw [hdrain] at hchunk hbody
        have hbytes : chunk = dataBytes (.data data :: taken) := hchunk
        subst hbytes hbody
        cases outcome with
        | eof =>
            refine ⟨(.data data :: taken) ++ [.eof], rest, ?_, ?_⟩
            · exact congrArg (BodyEvent.data data :: ·) (List.append_assoc _ _ _).symm
            · exact .lastChunk (hfirst _ hopen) (List.cons_ne_nil _ _)
        | error message =>
            refine ⟨(.data data :: taken) ++ [.error message], rest, ?_, ?_⟩
            · exact congrArg (BodyEvent.data data :: ·) (List.append_assoc _ _ _).symm
            · exact .chunkError (hfirst _ hopen) (List.cons_ne_nil _ _)
        | stopped =>
            refine ⟨.data data :: taken, rest, rfl, ?_⟩
            exact .chunk (hfirst _ hopen) (List.cons_ne_nil _ _)
  · refine ⟨[.data data], body, rfl, ?_⟩
    have hbytes : dataBytes [.data data] = data := List.append_nil data
    have hchunk : ReadOf transport stream [.data data] body (.ok (some (dataBytes [.data data])))
        { stream with fields := stream.fields.completeRead body none } :=
      .chunk (hfirst [] open_nil) (List.cons_ne_nil _ _)
    rwa [hbytes] at hchunk

/-- A read waits at a pending body, and skips trailers. -/
theorem readFrames_skip {event : BodyEvent} (hterminal : stream.fields.terminal = none)
    (hevent : event = .pending ∨ event = .trailers) :
    readFrames transport stream readyFrameCoalescing (event :: body) =
      readFrames transport stream readyFrameCoalescing body := by
  rcases hevent with rfl | rfl
  · rw [readFrames, readFrames, nextStreamBodyFrame]
    cases nextStreamBodyFrame body with
    | none => rfl
    | some pieces => rfl
  · rw [readFrames]
    simp [nextStreamBodyFrame, hterminal]

/-- A read of an open stream takes some events off its body, or waits for ever. -/
theorem readFrames_spec (body : Body) (hterminal : stream.fields.terminal = none) :
    (readFrames transport stream readyFrameCoalescing body = none ∧ contents body = ([], none)) ∨
    ∃ taken rest result next,
      readFrames transport stream readyFrameCoalescing body = some (result, next) ∧
      body = taken ++ rest ∧ ReadOf transport stream taken rest result next := by
  induction body with
  | nil =>
      refine .inl ⟨?_, rfl⟩
      rw [readFrames]
      rfl
  | cons event body ih =>
      have hskip : event = .pending ∨ event = .trailers →
          readFrames transport stream readyFrameCoalescing (event :: body) =
            readFrames transport stream readyFrameCoalescing body :=
        readFrames_skip transport readyFrameCoalescing hterminal
      cases event with
      | pending =>
          rw [hskip (.inl rfl)]
          refine ih.imp_right ?_
          intro hread
          obtain ⟨taken, rest, result, next, hread, rfl, hof⟩ := hread
          exact ⟨.pending :: taken, rest, result, next, hread, rfl, hof.skip transport rfl rfl⟩
      | trailers =>
          rw [hskip (.inr rfl)]
          refine ih.imp_right ?_
          intro hread
          obtain ⟨taken, rest, result, next, hread, rfl, hof⟩ := hread
          exact ⟨.trailers :: taken, rest, result, next, hread, rfl, hof.skip transport rfl rfl⟩
      | eof =>
          refine .inr ⟨[.eof], body, .ok none, stream.finishRead, ?_, rfl, .eof open_nil rfl⟩
          rw [readFrames]
          simp [nextStreamBodyFrame, hterminal]
      | error message =>
          refine .inr ⟨[.error message], body, _, _, ?_, rfl, .error open_nil rfl⟩
          rw [readFrames]
          simp [nextStreamBodyFrame, hterminal]
      | data data =>
          obtain ⟨taken, rest, hbody, hof⟩ :=
            finishData_spec transport readyFrameCoalescing stream data body
          refine .inr ⟨taken, rest, _, _, ?_, hbody, hof⟩
          rw [readFrames]
          simp [nextStreamBodyFrame, hterminal]

/-! ## Streams between two reads -/

/-- An open stream without a decoder, which no read holds. -/
structure Ready (connectionUse : Bool) (body : Body) (deferred : Option Text)
    (stream : BodyStream σ) : Prop where
  terminal : stream.fields.terminal = none
  readInProgress : stream.fields.readInProgress = false
  decodedMode : stream.fields.decodedMode = false
  decoded : stream.fields.decoded.isNone = true
  body : stream.fields.body = some body
  deferredBodyError : stream.fields.deferredBodyError = deferred
  connectionUse : stream.fields.connectionUse = connectionUse

/-- A stream that has ended and was not decoded. -/
structure Ended (stream : BodyStream σ) : Prop where
  terminal : stream.fields.terminal.isSome = true
  decodedMode : stream.fields.decodedMode = false

variable {connectionUse : Bool} {deferred : Option Text} (rounds : Nat)

/-- The exception for an error of the body, while the connection is in use or after it. -/
def Transport.bodyError (connectionUse : Bool) (message : Text) : ReadError ω :=
  responseBodyTransportError (if connectionUse then transport.requestWriteTimeout else none) message

/-- A stream that has ended reads as an empty one. -/
theorem nextChunk_ended (h : Ended stream) :
    nextChunk transport rounds stream readyFrameCoalescing = some (.ok none, stream) := by
  have hterminal := h.terminal
  unfold nextChunk StreamStateFields.startRead
  rw [h.decodedMode]
  cases hfinish : stream.fields.terminal with
  | none => simp [hfinish] at hterminal
  | some finish =>
      cases finish with
      | success => rfl
      | abort reason => rfl

/-- What a reader can see of one read of a ready stream: what it took, and how the stream is
left. -/
inductive NextOf (connectionUse : Bool) :
    Body → Body → ReadResult ω → BodyStream σ → Prop where
  | chunk {taken rest : Body} {next : BodyStream σ} (hopen : Open taken) (hne : taken ≠ [])
      (hnext : Ready connectionUse rest none next) :
      NextOf connectionUse taken rest (.ok (some (dataBytes taken))) next
  | lastChunk {taken rest : Body} {next : BodyStream σ} (hopen : Open taken) (hne : taken ≠ [])
      (hnext : Ended next) (hfinish : next.fields.terminal = some .success) :
      NextOf connectionUse (taken ++ [.eof]) rest (.ok (some (dataBytes taken))) next
  | chunkError {taken rest : Body} {message : Text} {next : BodyStream σ} (hopen : Open taken)
      (hne : taken ≠ []) (hnext : Ready connectionUse rest (some message) next) :
      NextOf connectionUse (taken ++ [.error message]) rest (.ok (some (dataBytes taken))) next
  | eof {taken rest : Body} {next : BodyStream σ} (hopen : Open taken)
      (hdata : dataBytes taken = []) (hnext : Ended next)
      (hfinish : next.fields.terminal = some .success) :
      NextOf connectionUse (taken ++ [.eof]) rest (.ok none) next
  | error {taken rest : Body} {message : Text} {next : BodyStream σ} {error : ReadError ω}
      (hopen : Open taken) (hdata : dataBytes taken = [])
      (herror : error = transport.bodyError connectionUse message) (hnext : Ended next)
      (hfinish : ∃ reason, next.fields.terminal = some (.abort reason)) :
      NextOf connectionUse (taken ++ [.error message]) rest (.error error) next

theorem settle_fields (stream : BodyStream σ) : stream.settle.fields = stream.fields := by
  unfold Stream.settle
  cases stream.tail with
  | none => rfl
  | some tail => rfl

/-- An open stream that is finished has ended. -/
theorem finish_fields (finish : StreamFinish) (hterminal : stream.fields.terminal = none) :
    (stream.finish finish false).2.fields.terminal = some finish ∧
      (stream.finish finish false).2.fields.decodedMode = stream.fields.decodedMode := by
  unfold Stream.finish
  rw [hterminal]
  cases finish with
  | success => exact ⟨rfl, rfl⟩
  | abort reason => exact ⟨rfl, rfl⟩

theorem finishRead_fields (hterminal : stream.fields.terminal = none) :
    stream.finishRead.fields.terminal = some .success ∧
      stream.finishRead.fields.decodedMode = stream.fields.decodedMode := by
  rw [Stream.finishRead, settle_fields]
  exact finish_fields .success hterminal

theorem abortRead_fields (reason : ConnectionAbortReason)
    (hterminal : stream.fields.terminal = none) :
    (stream.abortRead reason).fields.terminal = some (.abort reason) ∧
      (stream.abortRead reason).fields.decodedMode = stream.fields.decodedMode := by
  have habort : (stream.abortFromRead reason).settle.fields.terminal = some (.abort reason) ∧
      (stream.abortFromRead reason).settle.fields.decodedMode = stream.fields.decodedMode := by
    rw [settle_fields]
    exact finish_fields (.abort reason) hterminal
  rw [Stream.abortRead, settle_fields]
  generalize (stream.abortFromRead reason).settle = aborted at habort
  have hdrop : aborted.abortFromRead .cancelled = aborted := by
    rw [Stream.abortFromRead, Stream.finish, habort.1]
    rfl
  rwa [hdrop]

/-- An open stream without a decoder whose body is with a read. -/
structure Held (connectionUse : Bool) (stream : BodyStream σ) : Prop where
  terminal : stream.fields.terminal = none
  decodedMode : stream.fields.decodedMode = false
  decoded : stream.fields.decoded.isNone = true
  connectionUse : stream.fields.connectionUse = connectionUse

/-- The end of a read is delivered. -/
def delivered (stream : BodyStream σ) : BodyStream σ :=
  { stream with fields := stream.fields.finishReadDelivery }

theorem ended_delivered {finish : StreamFinish} (hfinish : stream.fields.terminal = some finish)
    (hdecodedMode : stream.fields.decodedMode = false) :
    Ended (delivered stream) ∧ (delivered stream).fields.terminal = some finish := by
  have hfields : stream.fields.finishReadDelivery = stream.fields := by
    rw [StreamStateFields.finishReadDelivery, hfinish]
    rfl
  have hdelivered : (delivered stream).fields = stream.fields := hfields
  refine ⟨⟨?_, ?_⟩, ?_⟩
  · rw [hdelivered, hfinish]
    rfl
  · rw [hdelivered, hdecodedMode]
  · rw [hdelivered, hfinish]

theorem ready_delivered (h : Held connectionUse stream) (body : Body) (deferred : Option Text) :
    Ready connectionUse body deferred
      (delivered { stream with fields := stream.fields.completeRead body deferred }) := by
  have hfields : (delivered
      { stream with fields := stream.fields.completeRead body deferred }).fields =
      { stream.fields with
        body := some body, deferredBodyError := deferred, readTask := none,
        readInProgress := false } := by
    change (stream.fields.completeRead body deferred).finishReadDelivery = _
    rw [StreamStateFields.completeRead, if_neg (by simp [h.terminal]),
      StreamStateFields.finishReadDelivery, if_neg (by simp [h.terminal])]
  refine ⟨?_, ?_, ?_, ?_, ?_, ?_, ?_⟩
  · rw [hfields]; exact h.terminal
  · rw [hfields]
  · rw [hfields]; exact h.decodedMode
  · rw [hfields]; exact h.decoded
  · rw [hfields]
  · rw [hfields]
  · rw [hfields]; exact h.connectionUse

theorem failRead_held (h : Held connectionUse stream) (message : Text) :
    (failRead transport stream message).1 = .error (transport.bodyError connectionUse message) ∧
      Ended (delivered (failRead transport stream message).2) ∧
      ∃ reason, (delivered (failRead transport stream message).2).fields.terminal =
        some (.abort reason) := by
  have hwriteTimeout : requestWriteTimeout transport stream =
      if connectionUse then transport.requestWriteTimeout else none := by
    rw [requestWriteTimeout, h.connectionUse]
  obtain ⟨hterminal, hdecodedMode⟩ := abortRead_fields (.error (some
    (responseBodyTransportErrorType (responseBodyTransportError
      (requestWriteTimeout transport stream) message)))) h.terminal
  obtain ⟨hended, hfinish⟩ := ended_delivered hterminal (hdecodedMode.trans h.decodedMode)
  refine ⟨?_, hended, _, hfinish⟩
  rw [failRead, hwriteTimeout]
  rfl

/-- A read that was delivered. -/
theorem nextOf_of_readOf (h : Held connectionUse stream)
    (hof : ReadOf transport stream taken rest result next) :
    NextOf transport connectionUse taken rest result (delivered next) := by
  cases hof with
  | chunk hopen hne => exact .chunk hopen hne (ready_delivered h _ _)
  | lastChunk hopen hne =>
      obtain ⟨hterminal, hdecodedMode⟩ := finishRead_fields h.terminal
      obtain ⟨hended, hfinish⟩ := ended_delivered hterminal (hdecodedMode.trans h.decodedMode)
      exact .lastChunk hopen hne hended hfinish
  | chunkError hopen hne => exact .chunkError hopen hne (ready_delivered h _ _)
  | eof hopen hdata =>
      obtain ⟨hterminal, hdecodedMode⟩ := finishRead_fields h.terminal
      obtain ⟨hended, hfinish⟩ := ended_delivered hterminal (hdecodedMode.trans h.decodedMode)
      exact .eof hopen hdata hended hfinish
  | error hopen hdata =>
      obtain ⟨hresult, hended, hfinish⟩ := failRead_held transport h _
      rw [hresult]
      exact .error hopen hdata rfl hended hfinish

/-- The stream when a read has started. -/
theorem held_started (fields : StreamStateFields Body (DecodedStream σ)) (read : Nat)
    (hterminal : fields.terminal = none) (hinProgress : fields.readInProgress = true)
    (hdecodedMode : fields.decodedMode = false) (hdecoded : fields.decoded.isNone = true)
    (hconnectionUse : fields.connectionUse = connectionUse) :
    Held connectionUse (({ stream with fields } : BodyStream σ).registerReadTask read) := by
  unfold Stream.registerReadTask
  rw [if_neg (by simp [hterminal, hinProgress])]
  exact ⟨hterminal, hdecodedMode, hdecoded, hconnectionUse⟩

theorem startRead_deferred {fields : StreamStateFields Body (DecodedStream σ)} {message : Text}
    (hterminal : fields.terminal = none) (hinProgress : fields.readInProgress = false)
    (hdeferred : fields.deferredBodyError = some message)
    (readyFrameCoalescing : ReadyFrameCoalescing) :
    fields.startRead readyFrameCoalescing =
      (.ok (some ⟨none, none, some message, readyFrameCoalescing⟩),
        { fields with deferredBodyError := none, readInProgress := true }) := by
  obtain ⟨_, _, _, _, _, _, _, inProgress, terminal, deferred⟩ := fields
  dsimp only at hterminal hinProgress hdeferred
  subst hterminal hinProgress hdeferred
  rfl

theorem startRead_body {fields : StreamStateFields Body (DecodedStream σ)}
    (hterminal : fields.terminal = none) (hinProgress : fields.readInProgress = false)
    (hdeferred : fields.deferredBodyError = none)
    (howned : fields.body.isSome = true ∨ fields.decoded.isSome = true)
    (readyFrameCoalescing : ReadyFrameCoalescing) :
    fields.startRead readyFrameCoalescing =
      (.ok (some ⟨fields.body, fields.decoded, none, readyFrameCoalescing⟩),
        { fields with body := none, decoded := none, readInProgress := true }) := by
  obtain ⟨body, decoded, _, _, _, _, _, inProgress, terminal, deferred⟩ := fields
  dsimp only at hterminal hinProgress hdeferred howned
  subst hterminal hinProgress hdeferred
  cases body with
  | some body => rfl
  | none =>
      cases decoded with
      | some decoded => rfl
      | none => simp at howned

/-- A read of a stream with a deferred error. -/
theorem nextChunk_deferred {message : Text} (h : Ready connectionUse body (some message) stream) :
    ∃ next reason, nextChunk transport rounds stream readyFrameCoalescing =
      some (.error (transport.bodyError connectionUse message), next) ∧ Ended next ∧
        next.fields.terminal = some (.abort reason) := by
  have hstart : stream.fields.startRead readyFrameCoalescing =
      (.ok (some ⟨none, none, some message, readyFrameCoalescing⟩),
        { stream.fields with deferredBodyError := none, readInProgress := true }) :=
    startRead_deferred h.terminal h.readInProgress h.deferredBodyError readyFrameCoalescing
  have hheld : Held connectionUse (({ stream with fields := { stream.fields with
      deferredBodyError := none, readInProgress := true } } : BodyStream σ).registerReadTask
        stream.reads.length) :=
    held_started _ _ h.terminal rfl h.decodedMode h.decoded h.connectionUse
  obtain ⟨hresult, hended, reason, hfinish⟩ := failRead_held transport hheld message
  refine ⟨_, reason, ?_, hended, hfinish⟩
  rw [nextChunk, hstart, ← hresult]
  rfl

/-- A read of a stream without a deferred error. -/
theorem nextChunk_ready (h : Ready connectionUse body none stream) :
    (nextChunk transport rounds stream readyFrameCoalescing = none ∧ contents body = ([], none)) ∨
    ∃ taken rest result next,
      nextChunk transport rounds stream readyFrameCoalescing = some (result, next) ∧
      body = taken ++ rest ∧ NextOf transport connectionUse taken rest result next := by
  have hdecoded : stream.fields.decoded = none := Option.isNone_iff_eq_none.mp h.decoded
  have hstart := startRead_body h.terminal h.readInProgress h.deferredBodyError
    (.inl (by rw [h.body]; rfl)) readyFrameCoalescing
  rw [h.body, hdecoded] at hstart
  have hheld : Held connectionUse (({ stream with fields := { stream.fields with
      body := none, decoded := none, readInProgress := true } } : BodyStream σ).registerReadTask
        stream.reads.length) :=
    held_started _ _ h.terminal rfl h.decodedMode rfl h.connectionUse
  have hnext : nextChunk transport rounds stream readyFrameCoalescing =
      (readFrames transport (({ stream with fields := { stream.fields with
        body := none, decoded := none, readInProgress := true } } : BodyStream σ).registerReadTask
          stream.reads.length) readyFrameCoalescing body).map
            fun read => (read.1, delivered read.2) := by
    rw [nextChunk, hstart]
    change (readFrames transport _ readyFrameCoalescing body).bind _ = _
    rw [Option.map_eq_bind]
    rfl
  rw [hnext]
  rcases readFrames_spec transport readyFrameCoalescing body hheld.terminal with
    ⟨hnone, hcontents⟩ | ⟨taken, rest, result, next, hread, hbody, hof⟩
  · rw [hnone]
    exact .inl ⟨rfl, hcontents⟩
  · rw [hread]
    exact .inr ⟨taken, rest, result, delivered next, rfl, hbody,
      nextOf_of_readOf transport hheld hof⟩

/-! ## All reads -/

/-- What is left to read of a ready stream. -/
def remaining (body : Body) : Option Text → Bytes × Option (Except Text Unit)
  | some message => ([], some (.error message))
  | none => contents body

/-- A bound for the number of reads that give data. -/
def readsLeft (body : Body) : Option Text → Nat
  | some _ => 0
  | none => body.length

/-- The result for what ends a body. -/
def Transport.ending (connectionUse : Bool) : Except Text Unit → Except (ReadError ω) Unit :=
  Except.mapError (transport.bodyError connectionUse)

/-- A reader gets what is left of the stream, and then the stream has ended. -/
structure Delivers (connectionUse : Bool) (left : Bytes × Option (Except Text Unit))
    (received : Received ω × BodyStream σ) : Prop where
  bytes : received.1.chunks.flatten = left.1
  result : received.1.result = left.2.map (transport.ending connectionUse)
  ended : left.2.isSome = true → Ended received.2

variable {flags : List ReadyFrameCoalescing}

theorem delivers_ended (h : Ended stream) (hfinish : 0 < flags.length) :
    Delivers transport connectionUse ([], some (.ok ()))
      (readToEnd transport rounds flags stream) := by
  cases flags with
  | nil => simp at hfinish
  | cons readyFrameCoalescing flags =>
      rw [readToEnd, nextChunk_ended transport readyFrameCoalescing rounds h]
      exact ⟨rfl, rfl, fun _ => h⟩

/-- A chunk in front of what the other reads deliver. -/
theorem Delivers.cons {left : Bytes × Option (Except Text Unit)}
    {received : Received ω × BodyStream σ} (h : Delivers transport connectionUse left received)
    (chunk : Bytes) :
    Delivers transport connectionUse (chunk ++ left.1, left.2)
      (⟨chunk :: received.1.chunks, received.1.result⟩, received.2) where
  bytes := by rw [List.flatten_cons, h.bytes]
  result := h.result
  ended := h.ended

/-- Events without data in front of an end. -/
theorem contents_end {event : BodyEvent} {left : Bytes × Option (Except Text Unit)}
    (hopen : Open taken) (hevent : contents (event :: rest) = left) :
    contents (taken ++ [event] ++ rest) = (dataBytes taken ++ left.1, left.2) := by
  rw [List.append_assoc, contents_append hopen, List.singleton_append, hevent]

/-- All reads together deliver what is left. -/
theorem delivers_readToEnd (h : Ready connectionUse body deferred stream)
    (hreads : readsLeft body deferred < flags.length) :
    Delivers transport connectionUse (remaining body deferred)
      (readToEnd transport rounds flags stream) := by
  induction flags generalizing body deferred stream with
  | nil => simp at hreads
  | cons readyFrameCoalescing flags ih =>
      rw [readToEnd]
      cases deferred with
      | some message =>
          obtain ⟨next, reason, hnext, hended, -⟩ :=
            nextChunk_deferred transport readyFrameCoalescing rounds h
          rw [hnext]
          exact ⟨rfl, rfl, fun _ => hended⟩
      | none =>
          rcases nextChunk_ready transport readyFrameCoalescing rounds h with ⟨hnext, hcontents⟩ |
            ⟨taken, rest, result, next, hnext, rfl, hof⟩
          · rw [hnext, remaining, hcontents]
            exact ⟨rfl, rfl, by rintro ⟨⟩⟩
          · rw [hnext, remaining]
            rw [readsLeft, List.length_append, List.length_cons] at hreads
            cases hof with
            | chunk hopen hne hready =>
                have hlength := List.length_pos_iff.mpr hne
                have hrest := ih hready (by rw [readsLeft]; omega)
                rw [contents_append hopen]
                exact hrest.cons transport (dataBytes taken)
            | lastChunk hopen hne hended _ =>
                have hlength := List.length_pos_iff.mpr hne
                rw [List.length_append] at hreads
                have hrest : Delivers transport connectionUse ([], some (.ok ()))
                    (readToEnd transport rounds flags next) :=
                  delivers_ended transport rounds hended (by omega)
                rw [contents_end hopen rfl]
                exact hrest.cons transport _
            | chunkError hopen hne hready =>
                have hlength := List.length_pos_iff.mpr hne
                rw [List.length_append] at hreads
                have hrest := ih hready (by rw [readsLeft]; omega)
                rw [contents_end hopen rfl]
                exact hrest.cons transport _
            | eof hopen hdata hended _ =>
                rw [contents_end hopen rfl, hdata]
                exact ⟨rfl, rfl, fun _ => hended⟩
            | error hopen hdata herror hended _ =>
                rw [contents_end hopen rfl, hdata, herror]
                exact ⟨rfl, rfl, fun _ => hended⟩

/-! ## Streams with a decoder -/

/-- A stream that has ended, or has a decoder and no deferred error. -/
def Decoding (stream : BodyStream σ) : Prop :=
  stream.fields.terminal.isSome = true ∨
    (stream.fields.decoded.isSome = true ∧ stream.fields.deferredBodyError = none)

/-- What a round of `read_decoded_chunk` keeps. -/
def DecodedStep.Keeps : DecodedStep σ ω → Prop
  | .again stream _ _ => stream.fields.deferredBodyError = none
  | .done _ stream => Decoding stream
  | .stuck => True

/-- A stream that is finished has ended, whether it was open or not. -/
theorem terminal_finish (finish : StreamFinish) :
    (stream.finish finish false).2.fields.terminal.isSome = true := by
  cases hterminal : stream.fields.terminal with
  | none => rw [(finish_fields finish hterminal).1, Option.isSome_some]
  | some finished =>
      unfold Stream.finish
      rw [hterminal]
      change stream.fields.terminal.isSome = true
      rw [hterminal, Option.isSome_some]

theorem decoding_finishRead : Decoding stream.finishRead := by
  refine .inl ?_
  rw [Stream.finishRead, settle_fields]
  exact terminal_finish .success

theorem decoding_dropRead : Decoding stream.dropRead := by
  refine .inl ?_
  rw [Stream.dropRead, settle_fields]
  exact terminal_finish (.abort .cancelled)

theorem decoding_abortRead (reason : ConnectionAbortReason) :
    Decoding (stream.abortRead reason) := by
  refine .inl ?_
  rw [Stream.abortRead, settle_fields]
  exact terminal_finish (.abort .cancelled)

theorem finishTransportFromRead_deferred (h : stream.fields.deferredBodyError = none) :
    stream.finishTransportFromRead.fields.deferredBodyError = none := by
  unfold Stream.finishTransportFromRead
  split
  · exact h
  · exact h

theorem keeps_refillDecodedInput (h : stream.fields.deferredBodyError = none) (body : Body)
    (decoded : DecodedStream σ) : (refillDecodedInput transport stream body decoded).Keeps := by
  unfold refillDecodedInput
  split
  · trivial
  · split
    · exact decoding_dropRead
    · split
      · exact finishTransportFromRead_deferred h
      · exact decoding_abortRead _
      · exact h
      · exact h

theorem keeps_decodedStep (h : stream.fields.deferredBodyError = none) (body : Option Body)
    (decoded : DecodedStream σ) : (decodedStep transport stream body decoded).Keeps := by
  unfold decodedStep
  split
  · exact decoding_abortRead _
  · dsimp only
    split
    · split
      · exact decoding_dropRead
      · exact .inr ⟨rfl, h⟩
    · split
      · split
        · exact decoding_dropRead
        · exact decoding_finishRead
      · exact h
      · split
        · exact keeps_refillDecodedInput transport h _ _
        · trivial

theorem decoding_readDecodedChunk {rounds : Nat} {body : Option Body} {decoded : DecodedStream σ}
    (h : stream.fields.deferredBodyError = none)
    (hread : readDecodedChunk transport rounds stream body decoded = some (result, next)) :
    Decoding next := by
  induction rounds generalizing stream body decoded with
  | zero => simp [readDecodedChunk] at hread
  | succ rounds ih =>
      rw [readDecodedChunk] at hread
      have hkeeps : ∀ (stream' : BodyStream σ) body', stream'.fields.deferredBodyError = none →
          (if stream.fields.terminal.isSome = true then (readAborted stream : DecodedStep σ ω)
            else decodedStep transport stream' body' decoded).Keeps := by
        intro stream' body' h'
        split
        · exact decoding_dropRead
        · exact keeps_decodedStep transport h' body' decoded
      have hstep := hkeeps (if body.any transport.isEndStream = true then
        stream.finishTransportFromRead else stream)
        (if body.any transport.isEndStream = true then none else body) (by
          split
          · exact finishTransportFromRead_deferred h
          · exact h)
      generalize (if stream.fields.terminal.isSome = true then
        (readAborted stream : DecodedStep σ ω) else _) = step at hread hstep
      cases step with
      | again stream' body' decoded' => exact ih hstep hread
      | done result' stream' =>
          obtain ⟨-, rfl⟩ := Prod.mk.inj (Option.some.inj hread)
          exact hstep
      | stuck => simp at hread

theorem decoding_delivered (h : Decoding stream) : Decoding (delivered stream) := by
  unfold Decoding delivered StreamStateFields.finishReadDelivery at *
  split
  · exact h
  · exact h

/-- The end of a read, when the stream has ended or a read is in progress.  It is not a chunk. -/
theorem nextChunk_closed (h : stream.fields.terminal.isSome = true ∨
      stream.fields.readInProgress = true) : ∃ result : ReadResult ω,
    (∀ chunk, result ≠ .ok (some chunk)) ∧ ∀ readyFrameCoalescing,
      nextChunk transport rounds stream readyFrameCoalescing = some (result, stream) := by
  unfold nextChunk StreamStateFields.startRead
  cases hterminal : stream.fields.terminal with
  | some finish =>
      cases finish with
      | success => exact ⟨.ok none, by simp, fun _ => rfl⟩
      | abort reason =>
          cases stream.fields.decodedMode with
          | true => exact ⟨.error (.stream _), by simp, fun _ => rfl⟩
          | false => exact ⟨.ok none, by simp, fun _ => rfl⟩
  | none =>
      rw [hterminal] at h
      rw [h.resolve_left (by simp)]
      exact ⟨.error (.stream _), by simp, fun _ => rfl⟩

/-- The stream while a read has its body and its decoder. -/
def reading (stream : BodyStream σ) : BodyStream σ :=
  ({ stream with fields := { stream.fields with
    body := none, decoded := none, readInProgress := true } } : BodyStream σ).registerReadTask
      stream.reads.length

/-- A read of an open stream with a decoder. -/
theorem nextChunk_decoded {decoded : DecodedStream σ} (hterminal : stream.fields.terminal = none)
    (hinProgress : stream.fields.readInProgress = false)
    (hdeferred : stream.fields.deferredBodyError = none)
    (hdecoded : stream.fields.decoded = some decoded) :
    nextChunk transport rounds stream readyFrameCoalescing =
      (readDecodedChunk transport rounds (reading stream) stream.fields.body decoded).map
        fun read => (read.1, delivered read.2) := by
  have hstart := startRead_body hterminal hinProgress hdeferred
    (.inr (by rw [hdecoded, Option.isSome_some])) readyFrameCoalescing
  rw [hdecoded] at hstart
  rw [nextChunk, hstart, Option.map_eq_bind]
  rfl

/-- A read of a stream with a decoder does not look at the flag, and keeps the decoder. -/
theorem nextChunk_decoding (h : Decoding stream) : ∃ read, (∀ readyFrameCoalescing,
    nextChunk transport rounds stream readyFrameCoalescing = read) ∧
      ∀ result next, read = some (result, next) → Decoding next := by
  by_cases hclosed : stream.fields.terminal.isSome = true ∨ stream.fields.readInProgress = true
  · obtain ⟨result, -, hread⟩ := nextChunk_closed transport rounds hclosed
    refine ⟨some (result, stream), hread, fun result' next hsome => ?_⟩
    obtain ⟨-, rfl⟩ := Prod.mk.inj (Option.some.inj hsome)
    exact h
  · simp only [not_or, Bool.not_eq_true, Option.isSome_eq_false_iff, Option.isNone_iff_eq_none]
      at hclosed
    obtain ⟨hterminal, hinProgress⟩ := hclosed
    obtain ⟨hdecoded, hdeferred⟩ := h.resolve_left (by simp [hterminal])
    obtain ⟨decoded, hsome⟩ := Option.isSome_iff_exists.mp hdecoded
    refine ⟨_, fun flag => nextChunk_decoded transport flag rounds hterminal hinProgress hdeferred
      hsome, ?_⟩
    intro result next hread
    obtain ⟨⟨result', next'⟩, hdone, hpair⟩ := Option.map_eq_some_iff.mp hread
    obtain ⟨-, rfl⟩ := Prod.mk.inj hpair
    refine decoding_delivered (decoding_readDecodedChunk transport ?_ hdone)
    unfold reading Stream.registerReadTask
    split
    · exact hdeferred
    · exact hdeferred

/-- The reads of a stream with a decoder do not look at their flags. -/
theorem readToEnd_decoding {left right : List ReadyFrameCoalescing} (h : Decoding stream)
    (hlength : left.length = right.length) :
    readToEnd transport rounds left stream = readToEnd transport rounds right stream := by
  induction left generalizing right stream with
  | nil =>
      obtain rfl := List.length_eq_zero_iff.mp hlength.symm
      rfl
  | cons flag left ih =>
      obtain ⟨flag', right, rfl⟩ := List.exists_cons_of_length_eq_add_one hlength.symm
      obtain ⟨read, hread, hnext⟩ := nextChunk_decoding transport rounds h
      rw [readToEnd, readToEnd, hread, hread]
      cases read with
      | none => rfl
      | some pair =>
          obtain ⟨result, next⟩ := pair
          have hrest := ih (hnext result next rfl) (Nat.succ.inj hlength)
          cases result with
          | error error => rfl
          | ok chunk =>
              cases chunk with
              | none => rfl
              | some chunk => simp only [hrest]

/-! ## The body is preserved -/

/-- An event that a read took is in its result, or in the stream behind it. -/
def Recorded (result : ReadResult ω) (connectionUse : Bool) (next : BodyStream σ) :
    BodyEvent → Prop
  | .eof => next.fields.terminal = some .success
  | .error message => next.fields.deferredBodyError = some message ∨
      (result = .error (transport.bodyError connectionUse message) ∧
        ∃ reason, next.fields.terminal = some (.abort reason))
  | _ => True

/-- The data that a result delivers. -/
def resultBytes : ReadResult ω → Bytes
  | .ok (some chunk) => chunk
  | _ => []

/-- An open event leaves nothing to record. -/
theorem recorded_of_open (hopen : Open taken) :
    ∀ event ∈ taken, Recorded transport result connectionUse next event := by
  intro event hmem
  have hevent := hopen event hmem
  cases event with
  | eof => simp [BodyEvent.isTerminal] at hevent
  | error message => simp [BodyEvent.isTerminal] at hevent
  | _ => trivial

/-- An event behind open ones. -/
theorem recorded_append {last : BodyEvent} (hopen : Open taken)
    (hlast : Recorded transport result connectionUse next last) :
    ∀ event ∈ taken ++ [last], Recorded transport result connectionUse next event := by
  intro event hmem
  rcases List.mem_append.mp hmem with hmem | hmem
  · exact recorded_of_open transport hopen event hmem
  · rw [List.mem_singleton.mp hmem]
    exact hlast

/-- What a read took off the body is delivered or recorded, and the stream keeps the rest. -/
structure Accounts (connectionUse : Bool) (taken rest : Body) (result : ReadResult ω)
    (next : BodyStream σ) : Prop where
  bytes : resultBytes result = dataBytes taken
  recorded : ∀ event ∈ taken, Recorded transport result connectionUse next event
  rest : next.fields.terminal = none → next.fields.body = some rest

theorem accounts_of_nextOf (hof : NextOf transport connectionUse taken rest result next) :
    Accounts transport connectionUse taken rest result next := by
  cases hof with
  | chunk hopen hne hready => exact ⟨rfl, recorded_of_open transport hopen, fun _ => hready.body⟩
  | lastChunk hopen hne hended hfinish =>
      refine ⟨?_, recorded_append transport hopen hfinish, fun hnone => ?_⟩
      · rw [dataBytes_append]
        exact (List.append_nil _).symm
      · simp [hfinish] at hnone
  | chunkError hopen hne hready =>
      refine ⟨?_, recorded_append transport hopen (.inl hready.deferredBodyError),
        fun _ => hready.body⟩
      rw [dataBytes_append]
      exact (List.append_nil _).symm
  | eof hopen hdata hended hfinish =>
      refine ⟨?_, recorded_append transport hopen hfinish, fun hnone => ?_⟩
      · rw [dataBytes_append, hdata]
        rfl
      · simp [hfinish] at hnone
  | error hopen hdata herror hended hfinish =>
      refine ⟨?_, recorded_append transport hopen (.inr ⟨congrArg _ herror, hfinish⟩),
        fun hnone => ?_⟩
      · rw [dataBytes_append, hdata]
        rfl
      · obtain ⟨reason, hfinish⟩ := hfinish
        simp [hfinish] at hnone

variable {readyFrameCoalescing} in
/-- A read of a ready stream accounts for what it took, and a deferred error is delivered. -/
theorem accounts_nextChunk (h : Ready connectionUse body deferred stream)
    (hread : nextChunk transport rounds stream readyFrameCoalescing = some (result, next)) :
    (∃ taken rest, body = taken ++ rest ∧
      Accounts transport connectionUse taken rest result next) ∧
    ∀ message, deferred = some message →
      result = .error (transport.bodyError connectionUse message) ∧ Ended next := by
  cases deferred with
  | some message =>
      obtain ⟨next', reason, hnext, hended, hfinish⟩ := nextChunk_deferred transport
        readyFrameCoalescing rounds h
      rw [hnext] at hread
      obtain ⟨rfl, rfl⟩ := Prod.mk.inj (Option.some.inj hread)
      refine ⟨⟨[], body, rfl, rfl, fun _ hmem => absurd hmem List.not_mem_nil, ?_⟩, ?_⟩
      · intro hnone
        simp [hfinish] at hnone
      · intro _ hnone
        cases hnone
        exact ⟨rfl, hended⟩
  | none =>
      refine ⟨?_, by rintro _ ⟨⟩⟩
      rcases nextChunk_ready transport readyFrameCoalescing rounds h with ⟨hnone, -⟩ |
        ⟨taken, rest, result', next', hnext, hbody, hof⟩
      · rw [hnone] at hread
        simp at hread
      · rw [hnext] at hread
        obtain ⟨rfl, rfl⟩ := Prod.mk.inj (Option.some.inj hread)
        exact ⟨taken, rest, hbody, accounts_of_nextOf transport hof⟩

theorem ready_new (body : Body) (connectionUse : Bool) :
    Ready connectionUse body none
      (Stream.new body (none : Option (DecodedStream σ)) connectionUse) :=
  ⟨rfl, rfl, rfl, rfl, rfl, rfl, rfl⟩

/-- Reading with coalescing delivers the same data and the same end as reading without it.
Without a decoder these are the contents of the body, whatever the flags are, and the end comes
once.  A read of such a stream loses nothing of what it takes off the body. -/
theorem coalescing_preserves_body (rounds : Nat) (body : Body)
    (decoded : Option (DecodedStream σ)) (connectionUse : Bool) :
    (∀ more : Nat,
      let enabled := readToEnd transport rounds
        (List.replicate (body.length + 1 + more) .enabled) (.new body decoded connectionUse)
      let disabled := readToEnd transport rounds
        (List.replicate (body.length + 1 + more) .disabled) (.new body decoded connectionUse)
      enabled.1.chunks.flatten = disabled.1.chunks.flatten ∧
        enabled.1.result = disabled.1.result) ∧
    (decoded = none → ∀ flags, body.length < flags.length →
      let (received, last) := readToEnd transport rounds flags (.new body decoded connectionUse)
      received.chunks.flatten = (contents body).1 ∧
        received.result = (contents body).2.map (transport.ending connectionUse) ∧
        (received.result.isSome = true → ∀ flag,
          nextChunk transport rounds last flag = some (.ok none, last))) ∧
    ∀ (stream : BodyStream σ) (body : Body) (deferred : Option Text)
      (flag : ReadyFrameCoalescing) (result : ReadResult ω) (next : BodyStream σ),
      Ready connectionUse body deferred stream →
      nextChunk transport rounds stream flag = some (result, next) →
      (∃ taken rest, body = taken ++ rest ∧
        Accounts transport connectionUse taken rest result next) ∧
      ∀ message, deferred = some message →
        result = .error (transport.bodyError connectionUse message) ∧ Ended next := by
  refine ⟨fun more => ?_, ?_, fun stream body deferred flag result next => ?_⟩
  · cases decoded with
    | some decoded =>
        have hdecoding : Decoding (Stream.new body (some decoded) connectionUse) :=
          .inr ⟨rfl, rfl⟩
        have hreads := readToEnd_decoding transport rounds hdecoding
          (List.length_replicate.trans List.length_replicate.symm :
            (List.replicate (body.length + 1 + more) ReadyFrameCoalescing.enabled).length =
              (List.replicate (body.length + 1 + more) ReadyFrameCoalescing.disabled).length)
        rw [hreads]
        exact ⟨rfl, rfl⟩
    | none =>
        have hdelivers : ∀ flag, Delivers transport connectionUse (contents body)
            (readToEnd transport rounds (List.replicate (body.length + 1 + more) flag)
              (.new body none connectionUse)) := by
          intro flag
          refine delivers_readToEnd transport rounds (ready_new body connectionUse) ?_
          rw [readsLeft, List.length_replicate]
          omega
        have henabled := hdelivers .enabled
        have hdisabled := hdelivers .disabled
        exact ⟨henabled.bytes.trans hdisabled.bytes.symm,
          henabled.result.trans hdisabled.result.symm⟩
  · intro hsame flags hflags
    subst hsame
    have hdelivers : Delivers transport connectionUse (contents body)
        (readToEnd transport rounds flags (.new body none connectionUse)) :=
      delivers_readToEnd transport rounds (ready_new body connectionUse) hflags
    refine ⟨hdelivers.bytes, hdelivers.result, fun hsome flag => ?_⟩
    rw [hdelivers.result, Option.isSome_map] at hsome
    exact nextChunk_ended transport flag rounds (hdelivers.ended hsome)
  · exact accounts_nextChunk transport rounds

/-- A transport without codecs and without an upload. -/
def plainTransport : Transport Unit Text where
  library := ⟨fun _ => (), fun codec _ _ _ => .ok (codec, ⟨0, [], .needsInput⟩)⟩
  requestWriteTimeout := none
  isEndStream := fun body => body.head? == some .eof

/-- Data, trailers, data and an error.  With coalescing the first read takes all of it, and the
second one has the error. -/
theorem coalescing_preserves_body_error :
    (readToEnd plainTransport 0 [.enabled, .enabled, .enabled, .enabled, .enabled]
      (.new [.data [1], .trailers, .data [2], .error "reset".toList] none true)).1.result =
        some (.error (.stream (.fogHttpError "reset".toList))) ∧
    ∃ result next taken rest,
      nextChunk plainTransport 0
        (.new [.data [1], .trailers, .data [2], .error "reset".toList] none true) .enabled =
          some (result, next) ∧
      [.data [1], .trailers, .data [2], .error "reset".toList] = taken ++ rest ∧
      Accounts plainTransport true taken rest result next := by
  obtain ⟨-, hcontents, haccounts⟩ := coalescing_preserves_body plainTransport 0
    [.data [1], .trailers, .data [2], .error "reset".toList] none true
  have hread : ∃ result next, nextChunk plainTransport 0
      (.new [.data [1], .trailers, .data [2], .error "reset".toList] none true) .enabled =
        some (result, next) := by
    rw [nextChunk]
    show ∃ result next, Option.bind (readFrames _ _ _ _) _ = some (result, next)
    rw [readFrames]
    exact ⟨_, _, rfl⟩
  obtain ⟨result, next, hread⟩ := hread
  obtain ⟨⟨taken, rest, hbody, htaken⟩, -⟩ :=
    haccounts _ _ none .enabled result next (ready_new _ true) hread
  exact ⟨(hcontents rfl [.enabled, .enabled, .enabled, .enabled, .enabled] (by decide)).2.1,
    result, next, taken, rest, hread, hbody, htaken⟩

end FogHttp.Streams
