import FogHttp.Lib.Block
import FogHttp.Lib.Text
import FogHttp.Telemetry.NativeDelivery

/-!
# The events of a request

`send` and `_send_stream` wrap a request of the transport: they start its telemetry and its
span, and they end both whatever happens on the way.  Everything that is called on the way
may fail.  The sink of the user may raise, so may the SDK that traces the request, the check
of the headers and the transport.

* `Request` is what there is of one request: the events that the sink was given, the span,
  the entry of the request among the active ones, and the streamed response.
* `Environment` says what is configured and how the calls end that leave this code.  The
  answer to the `n`th event of the request is `sink n`.
* `send` is `send` of both clients.  `sendStream` is `_send_stream` of both, with the one
  difference between them: the asynchronous client hands the entry of the request to the
  response.
* `StreamResponse` has `_close`, which every path to the end of a streamed response takes
  but the one on which its body has ended.

Times are left out.  All events of a request carry its number, its mode and its method.
-/

namespace FogHttp.RequestEvents

open Lib NativeDelivery

/-! ## Exceptions and events -/

inductive TelemetryRequestOutcome where
  | success
  | error
  | closed
  | cancelled
deriving DecidableEq, Repr

inductive TelemetryRetryDecision where
  | retry
  | stop
  | blockNonReplayable
deriving DecidableEq, Repr

inductive TelemetryRetryReason where
  | status
  | networkError
  | methodNotAllowed
  | nonReplayableBody
  | retriesExhausted
deriving DecidableEq, Repr

/-- A `RetryAttempt`.  Of `decision_elapsed` only matters whether it is there. -/
structure RetryAttempt where
  attempt : Nat
  method : Text
  origin : Text
  statusCode : Option Nat
  errorType : Option String
  decision : Option TelemetryRetryDecision
  reason : Option TelemetryRetryReason
  decisionElapsed : Bool
deriving DecidableEq, Repr

/-- What is raised.  A `KeyboardInterrupt` stands for the exceptions that are neither an
`Exception` nor a cancellation. -/
inductive BaseException where
  | telemetryHookError
  | cancelledError
  | keyboardInterrupt
  | exception (className : String) (timeoutPhase : Option String)
      (retryTrace : Option (List RetryAttempt))
deriving DecidableEq, Repr

namespace BaseException

/-- `isinstance(error, Exception)`. -/
def isException : BaseException → Bool
  | .telemetryHookError | .exception _ _ _ => true
  | .cancelledError | .keyboardInterrupt => false

def className : BaseException → String
  | .telemetryHookError => "TelemetryHookError"
  | .cancelledError => "CancelledError"
  | .keyboardInterrupt => "KeyboardInterrupt"
  | .exception className _ _ => className

/-- `error.phase` of a `TimeoutError`. -/
def timeoutPhase : BaseException → Option String
  | .exception _ timeoutPhase _ => timeoutPhase
  | _ => none

/-- `public_retry_trace`. -/
def retryTrace : BaseException → Option (List RetryAttempt)
  | .exception _ _ retryTrace => retryTrace
  | _ => none

end BaseException

/-- `public_retry_decisions`. -/
def retryDecisions (trace : Option (List RetryAttempt)) : List RetryAttempt :=
  (trace.getD []).filter fun attempt => attempt.decision.isSome && attempt.reason.isSome

/-- `public_retry_attempt_count`. -/
def retryAttemptCount (trace : Option (List RetryAttempt)) : Option Nat :=
  trace.map fun attempts => attempts.length - 1

inductive TelemetryEventType where
  | requestStarted
  | responseHeadersReceived
  | redirectDecision
  | retryDecision
  | responseBodyFinished
  | requestFinished
deriving DecidableEq, Repr

structure TelemetryEmission where
  eventType : TelemetryEventType
  method : Option Text := none
  statusCode : Option Nat := none
  responseBodyBytes : Option Nat := none
  retryAttempts : Option Nat := none
  timeoutPhase : Option String := none
  redirectHop : Option Nat := none
  retryAttempt : Option Nat := none
  retryDecision : Option TelemetryRetryDecision := none
  retryReason : Option TelemetryRetryReason := none
  origin : Option Text := none
  redactedUrl : Option Text := none
  outcome : Option TelemetryRequestOutcome := none
  errorType : Option String := none
  suppressHookErrors : Bool := false
deriving DecidableEq, Repr

structure TelemetryResponseMetadata where
  statusCode : Nat
  origin : Option Text
  redactedUrl : Text
deriving DecidableEq, Repr

/-- A response of the transport, as far as its telemetry reads it.  `contentLength` is the
length of a buffered body. -/
structure Response where
  metadata : TelemetryResponseMetadata
  history : List TelemetryResponseMetadata
  retryTrace : Option (List RetryAttempt)
  contentLength : Nat
deriving DecidableEq, Repr

structure TelemetryCompletion where
  response : Option TelemetryResponseMetadata
  outcome : TelemetryRequestOutcome
  error : Option BaseException
  errorType : Option String
  suppressHookErrors : Bool
  responseBodyBytes : Option Nat
  retryAttempts : Option Nat
deriving DecidableEq, Repr

def requestStarted : TelemetryEmission := { eventType := .requestStarted }

/-- The emission of `redirect_decision`. -/
def redirectDecision (response : TelemetryResponseMetadata) (redirectHop : Nat) :
    TelemetryEmission :=
  { eventType := .redirectDecision
    statusCode := some response.statusCode
    redirectHop := some redirectHop
    origin := response.origin
    redactedUrl := some response.redactedUrl }

/-- The emission of `retry_decision`. -/
def retryDecision (retry : RetryAttempt) (suppressHookErrors : Bool) : TelemetryEmission :=
  { eventType := .retryDecision
    method := some retry.method
    statusCode := retry.statusCode
    retryAttempt := some retry.attempt
    retryDecision := retry.decision
    retryReason := retry.reason
    origin := some retry.origin
    redactedUrl := some retry.origin
    errorType := if retry.statusCode.isNone then retry.errorType else none
    suppressHookErrors }

def responseHeadersReceived (response : TelemetryResponseMetadata) : TelemetryEmission :=
  { eventType := .responseHeadersReceived
    statusCode := some response.statusCode
    origin := response.origin
    redactedUrl := some response.redactedUrl }

/-- `_completion_emission`. -/
def TelemetryCompletion.emission (completion : TelemetryCompletion)
    (eventType : TelemetryEventType) : TelemetryEmission :=
  { eventType
    statusCode := completion.response.map (·.statusCode)
    responseBodyBytes := completion.responseBodyBytes
    retryAttempts := if eventType = .requestFinished then completion.retryAttempts else none
    timeoutPhase := completion.error.bind (·.timeoutPhase)
    origin := completion.response.bind (·.origin)
    redactedUrl := completion.response.map (·.redactedUrl)
    outcome := some completion.outcome
    errorType := completion.errorType.or (completion.error.map (·.className))
    suppressHookErrors := completion.suppressHookErrors }

/-- The two events at the end of a response. -/
def TelemetryCompletion.emissions (completion : TelemetryCompletion) : List TelemetryEmission :=
  [completion.emission .responseBodyFinished, completion.emission .requestFinished]

/-! ## The state of a request -/

/-- `RequestSpan` with the calls of `span.end()`. -/
structure RequestSpan where
  held : Bool
  ends : Nat
deriving DecidableEq, Repr

inductive RawEnd where
  | close
  | cancel
deriving DecidableEq, Repr

/-- A streamed response.  `telemetryContext` and `nativeTelemetryFinish` say that
`bind_stream_telemetry` has set them, `lifecycleDebugFinish` that `bind_stream_lifecycle_debug`
has.  `rawEnds` are the calls that closed or cancelled the raw response. -/
structure StreamResponse where
  closed : Bool
  bodyStarted : Bool
  telemetryContext : Bool
  telemetryBodyBytes : Nat
  nativeTelemetryFinish : Bool
  telemetryFinished : Bool
  lifecycleDebugFinish : Bool
  lifecycleDebugFinished : Bool
  rawEnds : List RawEnd
deriving DecidableEq, Repr

def StreamResponse.new : StreamResponse := ⟨false, false, false, 0, false, false, false, false, []⟩

/-- One request.  `active` is its entry in `_active_sync_send_tokens`, or among the requests
that `AsyncLifecycleDebugTracker` has.  `drains` counts the deliveries of native events.
`transported` says that the transport has returned a response, and is kept for the
statements only. -/
structure Request where
  emissions : List TelemetryEmission
  drains : Nat
  telemetryStarted : Bool
  requestSpan : Option RequestSpan
  active : Bool
  transported : Bool
  response : StreamResponse
deriving DecidableEq, Repr

def Request.new : Request := ⟨[], 0, false, none, false, false, StreamResponse.new⟩

/-- What is configured, and how the calls end that leave this code. -/
structure Environment where
  /-- The client has a sink. -/
  telemetry : Bool
  requestId : Nat
  hookErrorPolicy : TelemetryHookErrorPolicy
  /-- What the sink raises for the `n`th event. -/
  sink : Nat → Option BaseException
  /-- The `n`th delivery of native events, unless the native client is closed. -/
  batch : Nat → Option (Batch BaseException)
  /-- What `_begin_sync_send` raises. -/
  admission : Option BaseException
  /-- The asynchronous client keeps track of its requests. -/
  lifecycleDebug : Bool
  /-- The tracer starts a span, or it raises. -/
  startSpan : Except BaseException Bool
  /-- What `_record_outcome` raises. -/
  recordOutcome : Option BaseException
  /-- What `span.end()` raises. -/
  endSpan : Option BaseException
  /-- What `validate_safe_request_headers` raises. -/
  requestHeaders : Option BaseException

/-- A block of statements of a request. -/
abbrev RequestBlock (α : Type) := Block Request BaseException α

open Block

/-- The end of a call that returns nothing. -/
def answer : Option BaseException → RequestBlock Unit
  | none => pure ()
  | some error => raise error

variable (env : Environment)

/-! ## Telemetry -/

/-- `emit` of the dispatcher. -/
def emit (emission : TelemetryEmission) : RequestBlock Unit := do
  let request ← read
  update fun request => { request with emissions := request.emissions ++ [emission] }
  match env.sink request.emissions.length with
  | none => pure ()
  | some error =>
      if error.isException then
        match handleHookError env.hookErrorPolicy emission.suppressHookErrors (.error error) with
        | .ok () => pure ()
        | .error _ => raise .telemetryHookError
      else raise error

/-- `NativeTelemetryDrain.__call__`. -/
def nativeTelemetryDrain (suppressHookErrors : Bool) : RequestBlock Unit := do
  let request ← read
  update fun request => { request with drains := request.drains + 1 }
  match env.batch request.drains with
  | none => pure ()
  | some batch =>
      let delivered := deliverNativeEvents env.hookErrorPolicy (some env.requestId)
        suppressHookErrors batch
      match delivered with
      | none => raise .keyboardInterrupt
      | some errors =>
          if errors.request.isSome then raise .telemetryHookError else pure ()

def emitNativeTelemetry (suppressHookErrors : Bool) : RequestBlock Unit :=
  if env.telemetry then nativeTelemetryDrain env suppressHookErrors else pure ()

def startRequestTelemetry : RequestBlock Unit := do
  if env.telemetry then
    emit env requestStarted
    update fun request => { request with telemetryStarted := true }
  else pure ()

/-- `retry_decision` of the context. -/
def emitRetryDecision (suppressHookErrors : Bool) (retry : RetryAttempt) : RequestBlock Unit :=
  if retry.decisionElapsed then emit env (retryDecision retry suppressHookErrors)
  else raise (.exception "RuntimeError" none none)

def emitRetryDecisions (decisions : List RetryAttempt) (suppressHookErrors : Bool) :
    RequestBlock Unit :=
  forEach decisions (emitRetryDecision env suppressHookErrors)

def requestErrorOutcome : BaseException → TelemetryRequestOutcome
  | .cancelledError => .cancelled
  | _ => .error

/-- The completion of `emit_request_error_telemetry`. -/
def errorCompletion (error : BaseException) : TelemetryCompletion :=
  ⟨none, requestErrorOutcome error, some error, none, true, none,
    retryAttemptCount error.retryTrace⟩

def emitRequestErrorTelemetry (error : BaseException) : RequestBlock Unit := do
  let request ← read
  if env.telemetry && request.telemetryStarted then
    emitRetryDecisions env (retryDecisions error.retryTrace) true
    emit env ((errorCompletion error).emission .requestFinished)
  else pure ()

def emitRedirectTelemetry (history : List TelemetryResponseMetadata) : RequestBlock Unit :=
  forEach (history.zipIdx 1) fun response => emit env (redirectDecision response.1 response.2)

def emitStreamResponseHeadersTelemetry (response : Response) : RequestBlock Unit := do
  emitRetryDecisions env (retryDecisions response.retryTrace) false
  emitRedirectTelemetry env response.history
  emit env (responseHeadersReceived response.metadata)

/-- The completion of `emit_buffered_response_telemetry`. -/
def bufferedCompletion (response : Response) : TelemetryCompletion :=
  ⟨some response.metadata, .success, none, none, false, some response.contentLength,
    retryAttemptCount response.retryTrace⟩

def emitBufferedResponseTelemetry (response : Response) : RequestBlock Unit :=
  if env.telemetry then do
    emitStreamResponseHeadersTelemetry env response
    emit env ((bufferedCompletion response).emission .responseBodyFinished)
    emit env ((bufferedCompletion response).emission .requestFinished)
  else pure ()

/-! ## Tracing -/

/-- `start_request_tracing`.  A failure of the instrumentation starts no span. -/
def startRequestTracing : RequestBlock Unit :=
  match env.startSpan with
  | .ok true => update fun request => { request with requestSpan := some ⟨true, 0⟩ }
  | .ok false => pure ()
  | .error error => if error.isException then pure () else raise error

/-- `RequestSpan._end`. -/
def endSpan (suppressInterruptions : Bool) : RequestBlock Unit := do
  update fun request =>
    { request with requestSpan := request.requestSpan.map fun span =>
        { span with ends := span.ends + 1 } }
  match env.endSpan with
  | none => pure ()
  | some error => if error.isException || suppressInterruptions then pure () else raise error

/-- `RequestSpan._finish`. -/
def finishSpan (error : Option BaseException) : RequestBlock Unit :=
  match env.recordOutcome with
  | none => endSpan env error.isSome
  | some raised =>
      if raised.isException then endSpan env error.isSome
      else ensuring (raise raised) (endSpan env true)

/-- `finish_request_tracing`, which is `RequestSpan.finish` of a span. -/
def finishRequestTracing (error : Option BaseException) : RequestBlock Unit := do
  let request ← read
  match request.requestSpan with
  | none => pure ()
  | some span =>
      update fun request => { request with requestSpan := some { span with held := false } }
      if span.held then
        attempt (finishSpan env error)
          (fun raised => if error.isNone then raise raised else pure ()) pure
      else pure ()

/-! ## A streamed response -/

/-- A change of the response. -/
def updateResponse (change : StreamResponse → StreamResponse) : RequestBlock Unit :=
  update fun request => { request with response := change request.response }

/-- `_finish_lifecycle_debug`, with the `finish_request` that was bound. -/
def finishLifecycleDebug : RequestBlock Unit := do
  let request ← read
  if request.response.lifecycleDebugFinish && !request.response.lifecycleDebugFinished then
    updateResponse fun response => { response with lifecycleDebugFinished := true }
    update fun request => { request with active := false }
  else pure ()

/-- The delivery of the native events in `_finish_telemetry`, and whether it came to a
`TelemetryHookError`. -/
def finishNativeTelemetry (suppressHookErrors : Bool) : RequestBlock Bool := do
  let request ← read
  updateResponse fun response => { response with nativeTelemetryFinish := false }
  if request.response.nativeTelemetryFinish then
    attempt (nativeTelemetryDrain env suppressHookErrors)
      (fun error => if error = .telemetryHookError then pure true else raise error)
      (fun _ => pure false)
  else pure false

/-- The completion of a streamed response. -/
def streamCompletion (info : Response) (outcome : TelemetryRequestOutcome)
    (error : Option BaseException) (errorType : Option String) (suppressHookErrors : Bool)
    (responseBodyBytes : Nat) : TelemetryCompletion :=
  ⟨some info.metadata, outcome, error, errorType, suppressHookErrors, some responseBodyBytes,
    retryAttemptCount info.retryTrace⟩

/-- `_finish_telemetry` of a response that has a context. -/
def finishTelemetry (info : Response) (outcome : TelemetryRequestOutcome)
    (error : Option BaseException) (errorType : Option String) (suppressHookErrors : Bool) :
    RequestBlock Unit := do
  let request ← read
  if request.response.telemetryFinished then pure ()
  else do
    updateResponse fun response => { response with telemetryFinished := true }
    let nativeError ← finishNativeTelemetry env suppressHookErrors
    let request ← read
    let completion := streamCompletion info outcome error errorType
      (suppressHookErrors || nativeError) request.response.telemetryBodyBytes
    emit env (completion.emission .responseBodyFinished)
    emit env (completion.emission .requestFinished)
    if nativeError then raise .telemetryHookError else pure ()

/-- `_finish_observability`. -/
def finishObservability (info : Response) (outcome : TelemetryRequestOutcome)
    (error : Option BaseException) (errorType : Option String) (suppressHookErrors : Bool) :
    RequestBlock Unit := do
  let request ← read
  finishLifecycleDebug
  if request.response.telemetryContext then
    finishTelemetry env info outcome error errorType suppressHookErrors
  else pure ()

/-- `_close`.  `nativeErrorType` is what the raw response answers. -/
def closeResponse (info : Response) (outcome : TelemetryRequestOutcome)
    (error : Option BaseException) (suppressTelemetryErrors : Bool)
    (nativeErrorType : Option String) : RequestBlock Unit := do
  let request ← read
  if request.response.closed then pure ()
  else do
    let rawEnd := if outcome = .cancelled then RawEnd.cancel else RawEnd.close
    updateResponse fun response =>
      { response with closed := true, rawEnds := response.rawEnds ++ [rawEnd] }
    if nativeErrorType.isSome then
      finishObservability env info .error error nativeErrorType true
    else finishObservability env info outcome error none suppressTelemetryErrors

/-! ## Sending -/

inductive ClientKind where
  | sync
  | async
deriving DecidableEq, Repr

/-- `_begin_sync_send`, or `_begin_async_request_lifecycle_debug`. -/
def beginSend : ClientKind → RequestBlock Unit
  | .sync => do
      answer env.admission
      update fun request => { request with active := true }
  | .async =>
      if env.lifecycleDebug then update fun request => { request with active := true }
      else pure ()

/-- `_finish_sync_send`, or `finish_request` of the lifecycle debug tracker. -/
def finishSend : RequestBlock Unit := update fun request => { request with active := false }

/-- What both ways to send do first. -/
def startRequest (kind : ClientKind) : RequestBlock Unit := do
  beginSend env kind
  startRequestTracing env
  startRequestTelemetry env
  answer env.requestHeaders

/-- The handler of both ways to send. -/
def failRequest {α : Type} (error : BaseException) : RequestBlock α := do
  finishRequestTracing env (some error)
  emitNativeTelemetry env true
  emitRequestErrorTelemetry env error
  raise error

/-- The transport returns a response, or it raises. -/
def transport {α : Type} : Except BaseException α → RequestBlock α
  | .ok response => do
      update fun request => { request with transported := true }
      pure response
  | .error error => raise error

/-- `send`. -/
def send (kind : ClientKind) (sent : Except BaseException Response) : RequestBlock Response :=
  ensuring
    (attempt
      (do
        startRequest env kind
        transport sent)
      (failRequest env)
      fun response => do
        finishRequestTracing env none
        emitNativeTelemetry env false
        emitBufferedResponseTelemetry env response
        pure response)
    finishSend

/-- `finish_stream_tracing`.  `nativeErrorType` is what the raw response answers to a close. -/
def finishStreamTracing (info : Response) (nativeErrorType : Option String) :
    RequestBlock Unit :=
  attempt (finishRequestTracing env none)
    (fun error => do
      attempt (closeResponse env info .closed none false nativeErrorType)
        (fun _ => pure ()) pure
      raise error)
    pure

/-- `bind_stream_lifecycle_debug` of a request that has an entry.  The entry of a synchronous
client stays with the call. -/
def bindStreamLifecycleDebug : ClientKind → RequestBlock Unit
  | .sync => pure ()
  | .async =>
      if env.lifecycleDebug then
        updateResponse fun response => { response with lifecycleDebugFinish := true }
      else pure ()

/-- `_bind_stream_response_telemetry`. -/
def bindStreamResponseTelemetry (info : Response) (nativeErrorType : Option String) :
    RequestBlock Unit :=
  if env.telemetry then
    attempt
      (do
        nativeTelemetryDrain env false
        emitStreamResponseHeadersTelemetry env info)
      (fun error => do
        closeResponse env info .closed none false nativeErrorType
        nativeTelemetryDrain env true
        raise error)
      fun _ => updateResponse fun response =>
        { response with telemetryContext := true, nativeTelemetryFinish := true }
  else pure ()

/-- The last block of `_send_stream`. -/
def finishSendStream : RequestBlock Unit := do
  let request ← read
  if request.response.lifecycleDebugFinish then pure () else finishSend

/-- `_send_stream`. -/
def sendStream (kind : ClientKind) (sent : Except BaseException Response)
    (nativeErrorType : Option String) : RequestBlock Response :=
  ensuring
    (attempt
      (do
        startRequest env kind
        transport sent)
      (failRequest env)
      fun response => do
        finishStreamTracing env response nativeErrorType
        bindStreamLifecycleDebug env kind
        bindStreamResponseTelemetry env response nativeErrorType
        pure response)
    finishSendStream

end FogHttp.RequestEvents
