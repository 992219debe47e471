import FogHttp.Client.RequestLifecycle
import FogHttp.Lib.Transition

/-!
# The body of a streamed response

A streamed response is read through one iterator, and it may be closed in between: by its
`close`, by the end of its context, or by the iterator that is closed or fails.  While the
iterator of an asynchronous client waits for a chunk, other tasks may close the response.

`step` is one call, or the answer to a read.  What a call raises goes to its caller, and the
response stays as it is then.  `received`, `late` and `ended` are kept for the statements
only: the sizes of the chunks that came while the response was open and after that, and
whether the end of the body was read while it was open.

The iterators over text and lines are wrapped around the one here, and close the response
through `close`.
-/

namespace FogHttp.RequestEvents

open Lib Block

/-! ## The iterator -/

/-- Where the generator `_iter_bytes`, or `_aiter_bytes`, stands. -/
inductive IteratorStage where
  | absent
  /-- It has not begun to run. -/
  | created
  /-- It is in `_next_chunk`. -/
  | reading
  /-- It has yielded a chunk. -/
  | suspended
  | finished
  /-- It was closed before it ran. -/
  | discarded
deriving DecidableEq, Repr

structure StreamState where
  request : Request
  iterator : IteratorStage
  received : List Nat
  late : List Nat
  ended : Bool
deriving DecidableEq, Repr

/-- What `next_chunk` comes to. -/
inductive ReadAnswer where
  /-- A chunk with so many bytes. -/
  | chunk (size : Nat)
  | ended
  /-- A `FogHttpError`, as the public error. -/
  | failed (publicError : BaseException)
  /-- Another exception. -/
  | raised (error : BaseException)
deriving DecidableEq, Repr

inductive StreamEvent where
  /-- `close` and `aclose`. -/
  | close (nativeErrorType : Option String)
  /-- `__exit__` and `__aexit__`. -/
  | exit (error : Option BaseException) (nativeErrorType : Option String)
  /-- `iter_bytes` and `aiter_bytes`. -/
  | iterBytes
  /-- The next chunk is asked for. -/
  | next
  | answered (answer : ReadAnswer) (nativeErrorType : Option String)
  /-- The iterator is closed, or an exception is thrown into it. -/
  | leave (error : Option BaseException) (nativeErrorType : Option String)
deriving DecidableEq, Repr

section System

variable (env : Environment) (kind : ClientKind) (info : Response)

/-- `__exit__`, and `__aexit__` with `_async_exit_outcome`. -/
def exitResponse (error : Option BaseException) (nativeErrorType : Option String) :
    RequestBlock Unit :=
  if kind = .async ∧ error = some .cancelledError then
    closeResponse env info .cancelled error true nativeErrorType
  else closeResponse env info .closed none error.isSome nativeErrorType

/-- What the generator does with an exception: `except CancelledError`, and `finally`. -/
def leaveIterator (error : Option BaseException) (nativeErrorType : Option String) :
    RequestBlock Unit :=
  if kind = .async ∧ error = some .cancelledError then
    closeResponse env info .cancelled error true nativeErrorType
  else closeResponse env info .closed none true nativeErrorType

/-- The end of the body. -/
def endBody : RequestBlock Unit := do
  updateResponse fun response => { response with closed := true }
  finishObservability env info .success none none false

def StreamState.run (state : StreamState) (block : RequestBlock Unit) : StreamState :=
  { state with request := (block state.request).2 }

/-- `_start_body_iteration`, which raises when the body was started or the response is
closed. -/
def StreamState.startBodyIteration (state : StreamState) : StreamState :=
  if state.request.response.bodyStarted || state.request.response.closed then state
  else
    { state with
      request := { state.request with
        response := { state.request.response with bodyStarted := true } }
      iterator := .created }

/-- The generator goes on with an answer. -/
def StreamState.answer (state : StreamState) (nativeErrorType : Option String) :
    ReadAnswer → StreamState
  | .chunk size =>
      let counted := if state.request.response.telemetryContext then
        state.run (updateResponse fun response =>
          { response with telemetryBodyBytes := response.telemetryBodyBytes + size })
        else state
      if state.request.response.closed then
        { counted with iterator := .suspended, late := state.late ++ [size] }
      else { counted with iterator := .suspended, received := state.received ++ [size] }
  | .ended =>
      { state.run (endBody env info) with
        iterator := .finished, ended := !state.request.response.closed }
  | .failed publicError =>
      { state.run (closeResponse env info .error (some publicError) true nativeErrorType) with
        iterator := .finished }
  | .raised error =>
      { state.run (leaveIterator env kind info (some error) nativeErrorType) with
        iterator := .finished }

def StreamState.step (state : StreamState) : StreamEvent → Option StreamState
  | .close nativeErrorType =>
      some (state.run (closeResponse env info .closed none false nativeErrorType))
  | .exit error nativeErrorType =>
      some (state.run (exitResponse env kind info error nativeErrorType))
  | .iterBytes => some state.startBodyIteration
  | .next =>
      match state.iterator with
      | .created | .suspended => some { state with iterator := .reading }
      | .finished | .discarded => some state
      | .absent | .reading => none
  | .answered answer nativeErrorType =>
      if state.iterator = .reading then
        some (state.answer env kind info nativeErrorType answer)
      else none
  | .leave error nativeErrorType =>
      match state.iterator with
      | .created => some { state with iterator := .discarded }
      | .suspended =>
          some { state.run (leaveIterator env kind info error nativeErrorType) with
            iterator := .finished }
      | .finished | .discarded => some state
      | .absent | .reading => none

/-- The life of a streamed response that `_send_stream` has returned. -/
def streamSystem (opened : Request) : TransitionSystem StreamState StreamEvent :=
  ⟨⟨opened, .absent, [], [], false⟩, StreamState.step env kind info⟩

end System

/-! ## The end of the response -/

variable {env : Environment} {kind : ClientKind} {info : Response}

/-- The events at the end of a response, when it has a context. -/
def endScript (telemetryContext : Bool) (info : Response) (outcome : TelemetryRequestOutcome)
    (error : Option BaseException) (errorType : Option String) (suppressHookErrors : Bool)
    (responseBodyBytes : Nat) : List TelemetryEmission :=
  if telemetryContext then
    (streamCompletion info outcome error errorType suppressHookErrors
      responseBodyBytes).emissions
  else []

/-- What `_finish_observability` changes on an open response that reports this outcome. -/
structure Finishes (env : Environment) (info : Response) (outcome : TelemetryRequestOutcome)
    (request next : Request) : Prop where
  closed : next.response.closed = request.response.closed
  bodyStarted : next.response.bodyStarted = request.response.bodyStarted
  rawEnds : next.response.rawEnds = request.response.rawEnds
  telemetryContext : next.response.telemetryContext = request.response.telemetryContext
  lifecycleDebugFinish :
    next.response.lifecycleDebugFinish = request.response.lifecycleDebugFinish
  telemetryFinished : next.response.telemetryFinished = request.response.telemetryContext
  lifecycleDebugFinished :
    next.response.lifecycleDebugFinished = request.response.lifecycleDebugFinish
  active : next.active = (request.active && !request.response.lifecycleDebugFinish)
  events : ∃ error errorType suppressHookErrors part,
    part <+: endScript request.response.telemetryContext info outcome error errorType
        suppressHookErrors request.response.telemetryBodyBytes ∧
      (env.Quiet → part = endScript request.response.telemetryContext info outcome error
        errorType suppressHookErrors request.response.telemetryBodyBytes) ∧
        next.emissions = request.emissions ++ part

/-- The response while `_finish_telemetry` emits. -/
def Request.telemetryEnded (request : Request) : Request :=
  { request with response := { request.response with
      telemetryFinished := true, nativeTelemetryFinish := false } }

/-- The native events come before those of the end, and record none of the context. -/
theorem finishNativeTelemetry_emits (suppressHookErrors : Bool) (request : Request) :
    wp (finishNativeTelemetry env suppressHookErrors)
      (fun nativeError next => (nativeError = true → ¬ env.Quiet) ∧ ∃ drains, next =
        { request with
          drains
          response := { request.response with nativeTelemetryFinish := false } })
      (fun _ next => ¬ env.Quiet ∧ ∃ drains, next =
        { request with
          drains
          response := { request.response with nativeTelemetryFinish := false } }) request := by
  rw [finishNativeTelemetry, wp_bind, wp_read, wp_bind, updateResponse, wp_update]
  split
  · rw [wp_attempt]
    refine wp_mono (nativeTelemetryDrain_emits suppressHookErrors _) ?_ ?_
    · rintro _ _ ⟨drains, rfl⟩
      rw [wp_pure, Request.emitted, List.append_nil]
      exact ⟨fun herror => absurd herror Bool.false_ne_true, drains, rfl⟩
    · rintro error _ ⟨hraises, part, drains, hfirst, rfl⟩
      rw [List.prefix_nil.mp hfirst, Request.emitted, List.append_nil]
      split
      · rw [wp_pure]
        exact ⟨fun _ => hraises.1, drains, rfl⟩
      · rw [wp_raise]
        exact ⟨hraises.1, drains, rfl⟩
  · rw [wp_pure]
    exact ⟨fun herror => absurd herror Bool.false_ne_true, request.drains, rfl⟩

/-- The request after the events of `_finish_telemetry`. -/
def Request.completed (request : Request) (part : List TelemetryEmission) (drains : Nat) :
    Request :=
  request.telemetryEnded.emitted part drains

theorem finishTelemetry_emits (outcome : TelemetryRequestOutcome)
    (error : Option BaseException) (errorType : Option String) (suppressHookErrors : Bool)
    {request : Request} (hlive : request.response.telemetryFinished = false) :
    wp (finishTelemetry env info outcome error errorType suppressHookErrors)
      (fun _ next => ∃ suppressed drains, next = request.completed
        (streamCompletion info outcome error errorType suppressed
          request.response.telemetryBodyBytes).emissions drains)
      (fun _ next => ¬ env.Quiet ∧ ∃ suppressed part drains, part <+:
        (streamCompletion info outcome error errorType suppressed
          request.response.telemetryBodyBytes).emissions ∧
            next = request.completed part drains) request := by
  rw [finishTelemetry, wp_bind, wp_read, hlive, if_neg Bool.false_ne_true, wp_bind,
    updateResponse, wp_update, wp_bind]
  refine wp_mono (finishNativeTelemetry_emits suppressHookErrors _) ?_ ?_
  · rintro nativeError _ ⟨hquiet, drains, rfl⟩
    rw [wp_bind, wp_read]
    dsimp only
    have hemits : Emits
        (do
          emit env ((streamCompletion info outcome error errorType
            (suppressHookErrors || nativeError)
            request.response.telemetryBodyBytes).emission .responseBodyFinished)
          emit env ((streamCompletion info outcome error errorType
            (suppressHookErrors || nativeError)
            request.response.telemetryBodyBytes).emission .requestFinished)
          if nativeError then raise .telemetryHookError else pure ())
        ((streamCompletion info outcome error errorType (suppressHookErrors || nativeError)
          request.response.telemetryBodyBytes).emissions ++ [])
        (fun _ => ¬ env.Quiet) := by
      have hlast : Emits (if nativeError then raise .telemetryHookError else pure ()) []
          (fun _ => ¬ env.Quiet) := by
        split
        · rename_i hnative
          intro request
          rw [wp_raise]
          exact ⟨hquiet hnative, [], request.drains, List.prefix_rfl, request.emitted_nil.symm⟩
        · exact Emits.nothing
      exact ((emit_emits _).mono fun _ hraises => hraises.1).seq
        (((emit_emits _).mono fun _ hraises => hraises.1).seq hlast)
    rw [List.append_nil] at hemits
    refine wp_mono (hemits _) ?_ ?_
    · rintro _ _ ⟨drains', rfl⟩
      exact ⟨suppressHookErrors || nativeError, drains', rfl⟩
    · rintro _ _ ⟨hloud, part, drains', hfirst, rfl⟩
      exact ⟨hloud, suppressHookErrors || nativeError, part, drains', hfirst, rfl⟩
  · rintro _ _ ⟨hloud, drains, rfl⟩
    refine ⟨hloud, false, [], drains, List.nil_prefix, ?_⟩
    rw [Request.completed, Request.emitted, List.append_nil]
    rfl

theorem Request.debugFinished_of_live {request : Request}
    (hdebug : request.response.lifecycleDebugFinished = false) :
    request.debugFinished = { request with
      active := request.active && !request.response.lifecycleDebugFinish
      response := { request.response with
        lifecycleDebugFinished := request.response.lifecycleDebugFinish } } := by
  rw [debugFinished, hdebug, Bool.not_false, Bool.and_true]
  split
  · rename_i hbound
    rw [hbound, Bool.not_true, Bool.and_false]
  · rename_i hunbound
    have hsame : { request with response :=
        { request.response with lifecycleDebugFinished := false } } = request := by
      rw [← hdebug]
    rw [Bool.eq_false_iff.mpr hunbound, Bool.not_false, Bool.and_true]
    exact hsame.symm

theorem finishObservability_finishes (outcome : TelemetryRequestOutcome)
    (error : Option BaseException) (errorType : Option String) (suppressHookErrors : Bool)
    {request : Request} (hlive : request.response.telemetryFinished = false)
    (hdebug : request.response.lifecycleDebugFinished = false) :
    wp (finishObservability env info outcome error errorType suppressHookErrors)
      (fun _ => Finishes env info outcome request)
      (fun _ => Finishes env info outcome request) request := by
  rw [finishObservability, wp_bind, wp_read, wp_bind]
  refine wp_mono (finishLifecycleDebug_spec request) ?_ fun _ _ hfalse => hfalse.elim
  rintro _ _ rfl
  rw [Request.debugFinished_of_live hdebug]
  split
  · rename_i hcontext
    refine wp_mono (finishTelemetry_emits outcome error errorType suppressHookErrors
      (show _ = false from hlive)) ?_ ?_
    · rintro _ _ ⟨suppressed, drains, rfl⟩
      refine ⟨rfl, rfl, rfl, rfl, rfl, hcontext.symm, rfl, rfl, error, errorType, suppressed, ?_⟩
      rw [endScript, if_pos hcontext]
      exact ⟨_, List.prefix_rfl, fun _ => rfl, rfl⟩
    · rintro _ _ ⟨hloud, suppressed, part, drains, hfirst, rfl⟩
      refine ⟨rfl, rfl, rfl, rfl, rfl, hcontext.symm, rfl, rfl, error, errorType, suppressed, ?_⟩
      rw [endScript, if_pos hcontext]
      exact ⟨part, hfirst, fun hquiet => absurd hquiet hloud, rfl⟩
  · rename_i hcontext
    rw [wp_pure]
    refine ⟨rfl, rfl, rfl, rfl, rfl, hlive.trans (Bool.eq_false_iff.mpr hcontext).symm, rfl, rfl,
      none, none, false, ?_⟩
    rw [endScript, if_neg hcontext]
    exact ⟨[], List.prefix_rfl, fun _ => rfl, (List.append_nil _).symm⟩

/-- Nothing is reported twice. -/
theorem finishObservability_done (outcome : TelemetryRequestOutcome)
    (error : Option BaseException) (errorType : Option String) (suppressHookErrors : Bool)
    {request : Request}
    (htelemetry : request.response.telemetryFinished = request.response.telemetryContext)
    (hdebug : request.response.lifecycleDebugFinished = request.response.lifecycleDebugFinish) :
    wp (finishObservability env info outcome error errorType suppressHookErrors)
      (fun _ next => next = request) (fun _ next => next = request) request := by
  have hsame : request.debugFinished = request := by
    rw [Request.debugFinished, hdebug, Bool.and_not_self, if_neg Bool.false_ne_true]
  rw [finishObservability, wp_bind, wp_read, wp_bind]
  refine wp_mono (finishLifecycleDebug_spec request) ?_ fun _ _ hfalse => hfalse.elim
  rintro _ _ rfl
  rw [hsame]
  split
  · rename_i hcontext
    rw [finishTelemetry, wp_bind, wp_read, htelemetry, if_pos hcontext, wp_pure]
  · rw [wp_pure]

/-- The response is closed, and its telemetry reports no success. -/
def Closes (env : Environment) (info : Response) (request next : Request) : Prop :=
  ∃ outcome rawEnd, outcome ≠ .success ∧
    Finishes env info outcome (request.rawEnded rawEnd) next

theorem closeResponse_closes {outcome : TelemetryRequestOutcome} (houtcome : outcome ≠ .success)
    (error : Option BaseException) (suppressTelemetryErrors : Bool)
    (nativeErrorType : Option String) {request : Request}
    (hopen : request.response.closed = false)
    (hlive : request.response.telemetryFinished = false)
    (hdebug : request.response.lifecycleDebugFinished = false) :
    Closes env info request
      (closeResponse env info outcome error suppressTelemetryErrors nativeErrorType request).2 := by
  have hfinish : ∀ reported error errorType suppressHookErrors rawEnd,
      reported ≠ TelemetryRequestOutcome.success →
        wp (finishObservability env info reported error errorType suppressHookErrors)
          (fun _ => Closes env info request) (fun _ => Closes env info request)
          (request.rawEnded rawEnd) := by
    intro reported error errorType suppressHookErrors rawEnd hreported
    refine wp_mono (finishObservability_finishes _ _ _ _ ?_ ?_) ?_ ?_
    · exact hlive
    · exact hdebug
    · intro _ next hnext
      exact ⟨reported, rawEnd, hreported, hnext⟩
    · intro _ next hnext
      exact ⟨reported, rawEnd, hreported, hnext⟩
  refine state_of_wp ?_
  rw [closeResponse, wp_bind, wp_read, hopen, if_neg Bool.false_ne_true, wp_bind, updateResponse,
    wp_update]
  split
  · exact hfinish _ _ _ _ _ (by decide)
  · exact hfinish _ _ _ _ _ houtcome

/-- A second close changes nothing. -/
theorem closeResponse_closed (outcome : TelemetryRequestOutcome) (error : Option BaseException)
    (suppressTelemetryErrors : Bool) (nativeErrorType : Option String) {request : Request}
    (hclosed : request.response.closed = true) :
    (closeResponse env info outcome error suppressTelemetryErrors nativeErrorType request).2 =
      request := by
  have hsame : wp
      (closeResponse env info outcome error suppressTelemetryErrors nativeErrorType)
      (fun _ next => next = request) (fun _ next => next = request) request := by
    rw [closeResponse, wp_bind, wp_read, hclosed, if_pos rfl, wp_pure]
  exact state_of_wp hsame

/-! ## The life of the response -/

/-- A response that is open has reported nothing, and counts what it has received. -/
structure Unfinished (env : Environment) (kind : ClientKind) (opening : List TelemetryEmission)
    (state : StreamState) : Prop where
  telemetryFinished : state.request.response.telemetryFinished = false
  lifecycleDebugFinished : state.request.response.lifecycleDebugFinished = false
  rawEnds : state.request.response.rawEnds = []
  active : state.request.active = env.entrusts kind
  emissions : state.request.emissions = opening
  bytes : env.telemetry = true →
    state.request.response.telemetryBodyBytes = state.received.sum
  ended : state.ended = false
  iterator : state.iterator ≠ .finished

/-- The two events of the end, with the outcome and the bytes that came while the response
was open. -/
structure Reported (env : Environment) (info : Response) (opening : List TelemetryEmission)
    (state : StreamState) (outcome : TelemetryRequestOutcome) : Prop where
  success : outcome = .success ↔ state.ended = true
  events : ∃ error errorType suppressHookErrors part,
    part <+: endScript env.telemetry info outcome error errorType suppressHookErrors
        state.received.sum ∧
      (env.Quiet → part = endScript env.telemetry info outcome error errorType
        suppressHookErrors state.received.sum) ∧
        state.request.emissions = opening ++ part

/-- A response that is closed has reported its end. -/
structure Finished (env : Environment) (kind : ClientKind) (info : Response)
    (opening : List TelemetryEmission) (state : StreamState) : Prop where
  telemetryFinished : state.request.response.telemetryFinished = env.telemetry
  lifecycleDebugFinished : state.request.response.lifecycleDebugFinished = env.entrusts kind
  rawEnds : state.request.response.rawEnds.length = if state.ended then 0 else 1
  active : state.request.active = false
  ended : state.ended = true → state.iterator = .finished
  reported : ∃ outcome, Reported env info opening state outcome

structure Observed (env : Environment) (kind : ClientKind) (info : Response)
    (opening : List TelemetryEmission) (state : StreamState) : Prop where
  telemetryContext : state.request.response.telemetryContext = env.telemetry
  lifecycleDebugFinish : state.request.response.lifecycleDebugFinish = env.entrusts kind
  bodyStarted : state.request.response.bodyStarted = false ↔ state.iterator = .absent
  unfinished : state.request.response.closed = false → Unfinished env kind opening state
  finished : state.request.response.closed = true → Finished env kind info opening state

variable {opening : List TelemetryEmission} {state : StreamState}

/-- The response is closed, with these ends of the raw response. -/
def Request.closedWith (request : Request) (rawEnds : List RawEnd) : Request :=
  { request with response := { request.response with closed := true, rawEnds } }

/-- The end of an open response. -/
theorem Observed.finish (h : Observed env kind info opening state)
    (hopen : state.request.response.closed = false) {outcome : TelemetryRequestOutcome}
    {rawEnds : List RawEnd} {next : StreamState}
    (hfinishes : Finishes env info outcome (state.request.closedWith rawEnds) next.request)
    (hreceived : next.received = state.received)
    (hsuccess : outcome = .success ↔ next.ended = true)
    (hrawEnds : rawEnds.length = if next.ended then 0 else 1)
    (hended : next.ended = true → next.iterator = .finished)
    (habsent : next.iterator = .absent ↔ state.iterator = .absent) :
    Observed env kind info opening next := by
  have hunfinished := h.unfinished hopen
  refine ⟨hfinishes.telemetryContext.trans h.telemetryContext,
    hfinishes.lifecycleDebugFinish.trans h.lifecycleDebugFinish, ?_, ?_, ?_⟩
  · rw [hfinishes.bodyStarted, habsent]
    exact h.bodyStarted
  · intro hclosed
    rw [hfinishes.closed] at hclosed
    cases hclosed
  · intro _
    refine ⟨hfinishes.telemetryFinished.trans h.telemetryContext,
      hfinishes.lifecycleDebugFinished.trans h.lifecycleDebugFinish, ?_, ?_, hended, ?_⟩
    · rw [hfinishes.rawEnds]
      exact hrawEnds
    · rw [hfinishes.active]
      show (state.request.active && !state.request.response.lifecycleDebugFinish) = false
      rw [hunfinished.active, h.lifecycleDebugFinish, Bool.and_not_self]
    · obtain ⟨error, errorType, suppressHookErrors, part, hfirst, hquiet, hevents⟩ :=
        hfinishes.events
      have hscript : endScript state.request.response.telemetryContext info outcome error
          errorType suppressHookErrors state.request.response.telemetryBodyBytes =
            endScript env.telemetry info outcome error errorType suppressHookErrors
              state.received.sum := by
        rw [h.telemetryContext, endScript, endScript]
        split
        · rename_i htelemetry
          rw [hunfinished.bytes htelemetry]
        · rfl
      refine ⟨outcome, hsuccess, error, errorType, suppressHookErrors, part, ?_, ?_, ?_⟩
      · rw [hreceived, ← hscript]
        exact hfirst
      · intro hq
        rw [hreceived, ← hscript]
        exact hquiet hq
      · exact hevents.trans (congrArg (· ++ part) hunfinished.emissions)

/-- A close that comes too late changes nothing but the iterator. -/
theorem Observed.stay (h : Observed env kind info opening state) {iterator : IteratorStage}
    (hkept : state.iterator = .finished → iterator = .finished)
    (hearly : state.request.response.closed = false → iterator ≠ .finished)
    (habsent : iterator = .absent ↔ state.iterator = .absent) :
    Observed env kind info opening { state with iterator } := by
  refine ⟨h.telemetryContext, h.lifecycleDebugFinish, ?_, ?_, ?_⟩
  · exact h.bodyStarted.trans habsent.symm
  · intro hopen
    have hunfinished := h.unfinished hopen
    exact ⟨hunfinished.telemetryFinished, hunfinished.lifecycleDebugFinished,
      hunfinished.rawEnds, hunfinished.active, hunfinished.emissions, hunfinished.bytes,
      hunfinished.ended, hearly hopen⟩
  · intro hclosed
    have hfinished := h.finished hclosed
    obtain ⟨outcome, hreported⟩ := hfinished.reported
    exact ⟨hfinished.telemetryFinished, hfinished.lifecycleDebugFinished, hfinished.rawEnds,
      hfinished.active, fun hended => hkept (hfinished.ended hended), outcome,
      hreported.success, hreported.events⟩

/-- A close, and what becomes of the iterator. -/
theorem Observed.close (h : Observed env kind info opening state)
    (outcome : TelemetryRequestOutcome) (houtcome : outcome ≠ .success)
    (error : Option BaseException) (suppressTelemetryErrors : Bool)
    (nativeErrorType : Option String) {iterator : IteratorStage}
    (hkept : state.iterator = .finished → iterator = .finished)
    (habsent : iterator = .absent ↔ state.iterator = .absent) :
    Observed env kind info opening
      { state.run (closeResponse env info outcome error suppressTelemetryErrors
          nativeErrorType) with iterator } := by
  cases hclosed : state.request.response.closed with
  | true =>
      rw [StreamState.run, closeResponse_closed outcome error _ _ hclosed]
      refine h.stay hkept ?_ habsent
      intro hopen
      cases hclosed.symm.trans hopen
  | false =>
      have hunfinished := h.unfinished hclosed
      obtain ⟨reported, rawEnd, hreported, hfinishes⟩ :=
        @closeResponse_closes env info _ houtcome error suppressTelemetryErrors nativeErrorType _
          hclosed hunfinished.telemetryFinished hunfinished.lifecycleDebugFinished
      refine h.finish hclosed hfinishes rfl ?_ ?_ ?_ habsent
      · exact iff_of_false hreported (Bool.eq_false_iff.mp hunfinished.ended)
      · show (state.request.response.rawEnds ++ [rawEnd]).length = if state.ended then 0 else 1
        rw [hunfinished.rawEnds, hunfinished.ended]
        rfl
      · intro hended
        cases hunfinished.ended.symm.trans hended

/-- The iterator goes on with the end of the body. -/
theorem Observed.endBody (h : Observed env kind info opening state)
    (hreading : state.iterator = .reading) :
    Observed env kind info opening
      { state.run (RequestEvents.endBody env info) with
        iterator := .finished, ended := !state.request.response.closed } := by
  have habsent : IteratorStage.finished = .absent ↔ state.iterator = .absent := by
    rw [hreading]
    exact iff_of_false nofun nofun
  cases hclosed : state.request.response.closed with
  | true =>
      have hfinished := h.finished hclosed
      have hsame : ((RequestEvents.endBody env info) state.request).2 = state.request := by
        have hclose : state.request.closedWith state.request.response.rawEnds =
            state.request := by
          rw [Request.closedWith, ← hclosed]
        have hwp : wp (RequestEvents.endBody env info) (fun _ next => next = state.request)
            (fun _ next => next = state.request) state.request := by
          rw [RequestEvents.endBody, wp_bind, updateResponse, wp_update]
          show wp _ _ _ (state.request.closedWith state.request.response.rawEnds)
          rw [hclose]
          exact finishObservability_done _ _ _ _
            (hfinished.telemetryFinished.trans h.telemetryContext.symm)
            (hfinished.lifecycleDebugFinished.trans h.lifecycleDebugFinish.symm)
        exact state_of_wp hwp
      have hended : state.ended = false := by
        rw [Bool.eq_false_iff]
        intro hended
        cases hreading.symm.trans (hfinished.ended hended)
      rw [StreamState.run, hsame, Bool.not_true, ← hended]
      exact h.stay (fun _ => rfl)
        (fun hopen => absurd (hclosed.symm.trans hopen) (by decide)) habsent
  | false =>
      have hunfinished := h.unfinished hclosed
      have hfinishes : Finishes env info .success (state.request.closedWith [])
          ((RequestEvents.endBody env info) state.request).2 := by
        refine state_of_wp ?_
        rw [RequestEvents.endBody, wp_bind, updateResponse, wp_update]
        have hwp := @finishObservability_finishes env info .success none none false
          (state.request.closedWith []) hunfinished.telemetryFinished
          hunfinished.lifecycleDebugFinished
        have hclose : { state.request with response :=
            { state.request.response with closed := true } } = state.request.closedWith [] := by
          rw [Request.closedWith, ← hunfinished.rawEnds]
        rw [hclose]
        exact hwp
      exact h.finish hclosed hfinishes rfl (iff_of_true rfl rfl) rfl (fun _ => rfl) habsent

/-- The iterator goes on with a chunk. -/
theorem Observed.chunk (h : Observed env kind info opening state)
    (hreading : state.iterator = .reading) (size : Nat) (nativeErrorType : Option String) :
    Observed env kind info opening
      (state.answer env kind info nativeErrorType (.chunk size)) := by
  have habsent : IteratorStage.suspended = .absent ↔ state.iterator = .absent := by
    rw [hreading]
    exact iff_of_false nofun nofun
  have hcounted : ∃ telemetryBodyBytes,
      (env.telemetry = true → telemetryBodyBytes =
        state.request.response.telemetryBodyBytes + size) ∧
      state.answer env kind info nativeErrorType (.chunk size) =
        if state.request.response.closed then
          { state with
            request := { state.request with
              response := { state.request.response with telemetryBodyBytes } }
            iterator := .suspended
            late := state.late ++ [size] }
        else
          { state with
            request := { state.request with
              response := { state.request.response with telemetryBodyBytes } }
            iterator := .suspended
            received := state.received ++ [size] } := by
    rw [StreamState.answer]
    dsimp only
    by_cases hcontext : state.request.response.telemetryContext = true
    · rw [if_pos hcontext]
      exact ⟨_, fun _ => rfl, rfl⟩
    · rw [if_neg hcontext]
      rw [h.telemetryContext] at hcontext
      exact ⟨state.request.response.telemetryBodyBytes,
        fun htelemetry => absurd htelemetry hcontext, rfl⟩
  obtain ⟨telemetryBodyBytes, hbytes, hanswer⟩ := hcounted
  rw [hanswer]
  cases hclosed : state.request.response.closed with
  | true =>
      have hfinished := h.finished hclosed
      have hended : state.ended ≠ true := by
        intro hended
        cases hreading.symm.trans (hfinished.ended hended)
      obtain ⟨outcome, hreported⟩ := hfinished.reported
      refine ⟨h.telemetryContext, h.lifecycleDebugFinish, h.bodyStarted.trans habsent.symm,
        fun hopen => absurd (hclosed.symm.trans hopen) (by decide), fun _ => ?_⟩
      exact ⟨hfinished.telemetryFinished, hfinished.lifecycleDebugFinished, hfinished.rawEnds,
        hfinished.active, fun h => absurd h hended, outcome, hreported.success, hreported.events⟩
  | false =>
      have hunfinished := h.unfinished hclosed
      refine ⟨h.telemetryContext, h.lifecycleDebugFinish, h.bodyStarted.trans habsent.symm,
        fun _ => ?_, fun hshut => absurd (hclosed.symm.trans hshut) (by decide)⟩
      refine ⟨hunfinished.telemetryFinished, hunfinished.lifecycleDebugFinished,
        hunfinished.rawEnds, hunfinished.active, hunfinished.emissions, ?_, hunfinished.ended,
        nofun⟩
      intro htelemetry
      show telemetryBodyBytes = (state.received ++ [size]).sum
      rw [hbytes htelemetry, hunfinished.bytes htelemetry, List.sum_append, List.sum_singleton]

theorem Observed.leave (h : Observed env kind info opening state)
    (error : Option BaseException) (nativeErrorType : Option String)
    (habsent : state.iterator ≠ .absent) :
    Observed env kind info opening
      { state.run (leaveIterator env kind info error nativeErrorType) with
        iterator := .finished } := by
  rw [leaveIterator]
  split
  · exact h.close .cancelled nofun _ _ _ (fun _ => rfl) (iff_of_false nofun habsent)
  · exact h.close .closed nofun _ _ _ (fun _ => rfl) (iff_of_false nofun habsent)

theorem Observed.startBodyIteration (h : Observed env kind info opening state) :
    Observed env kind info opening state.startBodyIteration := by
  rw [StreamState.startBodyIteration]
  split
  · exact h
  · rename_i hfree
    rw [Bool.or_eq_true, not_or, Bool.not_eq_true, Bool.not_eq_true] at hfree
    refine ⟨h.telemetryContext, h.lifecycleDebugFinish, iff_of_false nofun nofun, ?_, ?_⟩
    · intro hopen
      have hunfinished := h.unfinished hopen
      exact ⟨hunfinished.telemetryFinished, hunfinished.lifecycleDebugFinished,
        hunfinished.rawEnds, hunfinished.active, hunfinished.emissions, hunfinished.bytes,
        hunfinished.ended, nofun⟩
    · intro hclosed
      cases hfree.2.symm.trans hclosed

theorem Observed.step (h : Observed env kind info opening state) {event : StreamEvent}
    {next : StreamState} (hstep : state.step env kind info event = some next) :
    Observed env kind info opening next := by
  cases event with
  | close nativeErrorType =>
      cases hstep
      exact h.close .closed nofun _ _ _ id Iff.rfl
  | exit error nativeErrorType =>
      cases hstep
      rw [exitResponse]
      split
      · exact h.close .cancelled nofun _ _ _ id Iff.rfl
      · exact h.close .closed nofun _ _ _ id Iff.rfl
  | iterBytes =>
      cases hstep
      exact h.startBodyIteration
  | next =>
      rw [StreamState.step] at hstep
      split at hstep
      · rename_i hiterator
        cases hstep
        exact h.stay (fun hf => by rw [hiterator] at hf; cases hf) (fun _ => nofun)
          (iff_of_false nofun (by rw [hiterator]; nofun))
      · rename_i hiterator
        cases hstep
        exact h.stay (fun hf => by rw [hiterator] at hf; cases hf) (fun _ => nofun)
          (iff_of_false nofun (by rw [hiterator]; nofun))
      · cases hstep
        exact h
      · cases hstep
        exact h
      · cases hstep
      · cases hstep
  | answered answer nativeErrorType =>
      rw [StreamState.step] at hstep
      split at hstep
      · rename_i hreading
        cases hstep
        have hpresent : state.iterator ≠ .absent := by
          rw [hreading]
          nofun
        cases answer with
        | chunk size => exact h.chunk hreading size nativeErrorType
        | ended => exact h.endBody hreading
        | failed publicError =>
            exact h.close .error nofun _ _ _ (fun _ => rfl) (iff_of_false nofun hpresent)
        | raised error => exact h.leave _ _ hpresent
      · cases hstep
  | leave error nativeErrorType =>
      rw [StreamState.step] at hstep
      split at hstep
      · rename_i hiterator
        cases hstep
        exact h.stay (fun hf => by rw [hiterator] at hf; cases hf) (fun _ => nofun)
          (iff_of_false nofun (by rw [hiterator]; nofun))
      · rename_i hiterator
        cases hstep
        exact h.leave _ _ (by rw [hiterator]; nofun)
      · cases hstep
        exact h
      · cases hstep
        exact h
      · cases hstep
      · cases hstep

/-- A response that was handed over has reported nothing yet. -/
theorem observed_opened {nativeErrorType : Option String} {opened : Request}
    (hsent : sendStream env kind (.ok info) nativeErrorType Request.new = (.ok info, opened)) :
    Observed env kind info (if env.telemetry then openingScript info else [])
      (streamSystem env kind info opened).init := by
  have hstreamed : Streamed env kind (.ok info) (.ok info) opened :=
    (wp_iff.mp (@sendStream_spec env kind (.ok info) nativeErrorType)).1 info opened hsent
  obtain ⟨-, hevents, hresponse, hactive⟩ := hstreamed.returned info rfl
  refine ⟨?_, ?_, iff_of_true ?_ rfl, ?_, ?_⟩
  · exact congrArg StreamResponse.telemetryContext hresponse
  · exact congrArg StreamResponse.lifecycleDebugFinish hresponse
  · exact congrArg StreamResponse.bodyStarted hresponse
  · intro _
    refine ⟨congrArg StreamResponse.telemetryFinished hresponse,
      congrArg StreamResponse.lifecycleDebugFinished hresponse,
      congrArg StreamResponse.rawEnds hresponse, hactive, hevents, ?_, rfl, nofun⟩
    intro _
    exact congrArg StreamResponse.telemetryBodyBytes hresponse
  · intro hclosed
    cases (congrArg StreamResponse.closed hresponse).symm.trans hclosed

/-- Whatever is done with a streamed response, and in whatever order, it reports its end
once.  An open response has reported nothing, and its raw response is open.  A closed one has
ended its raw response once, unless the body came to its end, and it has emitted the two
events of its end, with success exactly when the end of the body was read while it was open,
and with the bytes that came while it was open, whatever the outcome is.  They are complete
unless telemetry raises.  An iterator that has run to its end has closed the response. -/
theorem stream_response_observed_once {nativeErrorType : Option String} {opened : Request}
    {state : StreamState}
    (hsent : sendStream env kind (.ok info) nativeErrorType Request.new = (.ok info, opened))
    (h : (streamSystem env kind info opened).Reachable state) :
    (state.request.response.closed = false →
        state.request.emissions = (if env.telemetry then openingScript info else []) ∧
          state.request.response.rawEnds = [] ∧ state.request.active = env.entrusts kind) ∧
      (state.request.response.closed = true →
        state.request.response.rawEnds.length = (if state.ended then 0 else 1) ∧
          state.request.active = false ∧
            ∃ outcome, Reported env info
              (if env.telemetry then openingScript info else []) state outcome) ∧
      (state.iterator = .finished → state.request.response.closed = true) := by
  have hobserved : Observed env kind info (if env.telemetry then openingScript info else [])
      state :=
    h.invariant _ (observed_opened hsent) fun _ hinv hstep => hinv.step hstep
  refine ⟨?_, ?_, ?_⟩
  · intro hopen
    have hunfinished := hobserved.unfinished hopen
    exact ⟨hunfinished.emissions, hunfinished.rawEnds, hunfinished.active⟩
  · intro hclosed
    have hfinished := hobserved.finished hclosed
    exact ⟨hfinished.rawEnds, hfinished.active, hfinished.reported⟩
  · intro hiterator
    by_contra hopen
    exact (hobserved.unfinished (Bool.eq_false_iff.mpr hopen)).iterator hiterator

/-- Nothing is raised. -/
def quietEnvironment : Environment :=
  { loudEnvironment with sink := fun _ => none, endSpan := none }

/-- A response without a history. -/
def plainResponse : Response := ⟨⟨200, none, []⟩, [], none, 0⟩

/-- The response is closed by another task while its iterator waits for a chunk, which comes
nevertheless, and is not reported. -/
theorem stream_response_observed_once_example :
    ∃ state, state.received = [3] ∧ state.late = [4] ∧
      state.request.response.rawEnds = [.close] ∧
        ∃ outcome, Reported quietEnvironment plainResponse (openingScript plainResponse) state
          outcome := by
  have hsent : sendStream quietEnvironment .async (.ok plainResponse) none Request.new =
      (.ok plainResponse, (sendStream quietEnvironment .async (.ok plainResponse) none
        Request.new).2) := rfl
  have hrun : ∃ state,
      (streamSystem quietEnvironment .async plainResponse (sendStream quietEnvironment .async
        (.ok plainResponse) none Request.new).2).run
        [.iterBytes, .next, .answered (.chunk 3) none, .next, .close none,
          .answered (.chunk 4) none] = some state ∧
      state.received = [3] ∧ state.late = [4] ∧ state.request.response.rawEnds = [.close] ∧
        state.request.response.closed = true := ⟨_, rfl, rfl, rfl, rfl, rfl⟩
  obtain ⟨state, hrun, hreceived, hlate, hrawEnds, hclosed⟩ := hrun
  exact ⟨state, hreceived, hlate, hrawEnds, ((stream_response_observed_once hsent
    (TransitionSystem.reachable_of_run hrun)).2.1 hclosed).2.2⟩

end FogHttp.RequestEvents
