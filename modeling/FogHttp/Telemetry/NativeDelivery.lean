import FogHttp.Lib.Monitor

/-!
# Delivery of native telemetry

A client hands the events that its native side has recorded to the sink of the user.  At
the end of a request `_emit_native_request` delivers the events of the request, and
`_emit_native_close` delivers what is left when the client is closed.  A sink may fail, and
the policy of the client says what becomes of its error.  An event without a request
belongs to the client, so its error is not raised by the request that came across it:
`finish_request` keeps the first one for the close.

* `deliverNativeEvents` is the delivery of one batch, with all its error paths.
* `Lifecycle` is `_NativeDeliveryLifecycle`, which decides who delivers.  It is a
  `Monitor` of requests and closes.

The client has a sink.  The answer of a turn is the batch that was drained together with
what the sink does with every event of it.  A call that has delivered keeps its `Delivery`,
a ghost that the code does not have.
-/

namespace FogHttp.NativeDelivery

open Lib

variable {ε : Type}

/-! ## One batch -/

inductive TelemetryHookErrorPolicy where
  | raise
  | warn
  | ignore
deriving DecidableEq, Repr

/-- An exception that stands behind a hook error. -/
inductive Cause (ε : Type) where
  | error (error : ε)
  | runtimeError (message : String)
deriving DecidableEq, Repr

/-- `TelemetryHookError`, and the error that it is raised from. -/
structure TelemetryHookError (ε : Type) where
  cause : Cause ε
deriving DecidableEq, Repr

/-- `_NATIVE_EVENTS_DROPPED_MESSAGE`. -/
def nativeEventsDroppedMessage : String := "native telemetry event buffer overflowed"

/-- `handle_hook_error`.  A warning raises nothing. -/
def handleHookError (hookErrorPolicy : TelemetryHookErrorPolicy) (suppressHookErrors : Bool)
    (error : Cause ε) : Except (TelemetryHookError ε) Unit :=
  if suppressHookErrors || hookErrorPolicy == .ignore then .ok ()
  else if hookErrorPolicy == .warn then .ok ()
  else .error ⟨error⟩

def deferredHookError (hookErrorPolicy : TelemetryHookErrorPolicy) (suppressHookErrors : Bool)
    (error : Cause ε) : Option (TelemetryHookError ε) :=
  match handleHookError hookErrorPolicy suppressHookErrors error with
  | .ok () => none
  | .error hookError => some hookError

/-- What comes of an event. -/
inductive Outcome (ε : Type) where
  | emitted
  /-- `native_emission` does not know the event. -/
  | malformed (error : ε)
  /-- The sink raises an `Exception`. -/
  | failed (error : ε)
  /-- The sink raises a `BaseException` of another kind. -/
  | interrupted
deriving DecidableEq, Repr

structure RawTelemetryEvent (ε : Type) where
  requestId : Option Nat
  outcome : Outcome ε
deriving DecidableEq, Repr

/-- `_deliver_native_record`, or `none` when an interruption passes. -/
def deliverNativeRecord (hookErrorPolicy : TelemetryHookErrorPolicy) (suppressHookErrors : Bool)
    (raw : RawTelemetryEvent ε) : Option (Option (TelemetryHookError ε)) :=
  match raw.outcome with
  | .emitted => some none
  | .malformed error => some (deferredHookError hookErrorPolicy suppressHookErrors (.error error))
  | .failed error =>
      match handleHookError hookErrorPolicy suppressHookErrors (.error error) with
      | .ok () => some none
      | .error hookError => some (some hookError)
  | .interrupted => none

/-- The errors of the requests and of the client that a delivery came across. -/
structure Errors (ε : Type) where
  request : Option (TelemetryHookError ε)
  client : Option (TelemetryHookError ε)
deriving DecidableEq, Repr

/-- The body of the loop of `_deliver_native_records`. -/
def Errors.deliver (hookErrorPolicy : TelemetryHookErrorPolicy)
    (suppressRequestErrors suppressClientErrors : Bool) (errors : Errors ε)
    (raw : RawTelemetryEvent ε) : Option (Errors ε) :=
  if raw.requestId.isNone then do
    let suppressOwnerError := suppressClientErrors || errors.client.isSome
    let eventError ← deliverNativeRecord hookErrorPolicy suppressOwnerError raw
    some { errors with client := errors.client.or eventError }
  else do
    let suppressOwnerError := suppressRequestErrors || errors.request.isSome
    let eventError ← deliverNativeRecord hookErrorPolicy suppressOwnerError raw
    some { errors with request := errors.request.or eventError }

/-- `_deliver_native_records`. -/
def deliverNativeRecords (hookErrorPolicy : TelemetryHookErrorPolicy)
    (suppressRequestErrors suppressClientErrors : Bool)
    (rawEvents : List (RawTelemetryEvent ε)) : Option (Errors ε) :=
  rawEvents.foldlM (Errors.deliver hookErrorPolicy suppressRequestErrors suppressClientErrors)
    ⟨none, none⟩

/-- What `drain_telemetry_events` returns. -/
structure Batch (ε : Type) where
  rawEvents : List (RawTelemetryEvent ε)
  droppedEvents : Nat
deriving DecidableEq, Repr

def deliverNativeEvents (hookErrorPolicy : TelemetryHookErrorPolicy) (requestId : Option Nat)
    (suppressHookErrors : Bool) (batch : Batch ε) : Option (Errors ε) := do
  let errors ← deliverNativeRecords hookErrorPolicy (suppressHookErrors || requestId.isNone)
    (suppressHookErrors && requestId.isNone) batch.rawEvents
  if batch.droppedEvents ≠ 0 then
    let overflowError := deferredHookError hookErrorPolicy
      (suppressHookErrors || errors.client.isSome) (.runtimeError nativeEventsDroppedMessage)
    some { errors with client := errors.client.or overflowError }
  else some errors

/-! ## Who delivers -/

/-- `_NativeDeliveryLifecycle`. -/
structure Lifecycle (ε : Type) where
  activeRequests : Nat
  closed : Bool
  deferredClientError : Option (TelemetryHookError ε)
deriving DecidableEq, Repr

/-- What a call raises. -/
inductive Raised (ε : Type) where
  | hookError (error : TelemetryHookError ε)
  | interruption
deriving DecidableEq, Repr

/-- What a call has delivered, and whether its hook errors were suppressed. -/
structure Delivery (ε : Type) where
  suppressHookErrors : Bool
  batch : Batch ε
deriving DecidableEq, Repr

/-- What `_emit_native_request` does next, with the local variables that it needs. -/
inductive RequestStage (ε : Type) where
  /-- `begin_request`. -/
  | entering (requestId : Nat) (suppressHookErrors : Bool)
  /-- `deliver_native_events`. -/
  | delivering (requestId : Nat) (suppressHookErrors : Bool)
  /-- `finish_request`. -/
  | finishing (delivery : Delivery ε) (clientError : Option (TelemetryHookError ε))
      (raised : Option (Raised ε))
  /-- The call returned without a delivery. -/
  | declined
  | returned (delivery : Delivery ε) (clientError : Option (TelemetryHookError ε))
      (raised : Option (Raised ε))
deriving DecidableEq, Repr

/-- What `_emit_native_close` does next. -/
inductive CloseStage (ε : Type) where
  /-- `begin_close`. -/
  | entering (suppressHookErrors : Bool)
  /-- The loop of `begin_close`. -/
  | waiting (suppressHookErrors : Bool)
  /-- `deliver_native_events`. -/
  | delivering (suppressHookErrors : Bool) (deferredClientError : Option (TelemetryHookError ε))
  /-- Another close delivers. -/
  | declined
  | returned (delivery : Delivery ε) (clientError : Option (TelemetryHookError ε))
      (raised : Option (Raised ε))
deriving DecidableEq, Repr

inductive Stage (ε : Type) where
  | request (stage : RequestStage ε)
  | close (stage : CloseStage ε)
deriving DecidableEq, Repr

inductive Call where
  | request (requestId : Nat) (suppressHookErrors : Bool)
  | close (suppressHookErrors : Bool)
deriving DecidableEq, Repr

def Call.enter : Call → Stage ε
  | .request requestId suppressHookErrors => .request (.entering requestId suppressHookErrors)
  | .close suppressHookErrors => .close (.entering suppressHookErrors)

/-- The state after a turn, the next stage, and whether the turn ends in `wait()` and whether
it calls `notify_all()`. -/
abbrev Turn (ε : Type) := Lifecycle ε × Stage ε × Bool × Bool

def RequestStage.turn (hookErrorPolicy : TelemetryHookErrorPolicy) (batch : Batch ε)
    (lifecycle : Lifecycle ε) : RequestStage ε → Option (Turn ε)
  | .entering requestId suppressHookErrors =>
      if lifecycle.closed then some (lifecycle, .request .declined, false, false)
      else some ({ lifecycle with activeRequests := lifecycle.activeRequests + 1 },
        .request (.delivering requestId suppressHookErrors), false, false)
  | .delivering requestId suppressHookErrors =>
      let delivery := ⟨suppressHookErrors, batch⟩
      match deliverNativeEvents hookErrorPolicy (some requestId) suppressHookErrors batch with
      | some errors => some (lifecycle,
          .request (.finishing delivery errors.client (errors.request.map .hookError)),
          false, false)
      | none => some (lifecycle,
          .request (.finishing delivery none (some .interruption)), false, false)
  | .finishing delivery clientError raised =>
      some ({ lifecycle with
          deferredClientError := lifecycle.deferredClientError.or clientError
          activeRequests := lifecycle.activeRequests - 1 },
        .request (.returned delivery clientError raised), false, true)
  | .declined | .returned _ _ _ => none

/-- The loop of `begin_close`, and what follows it. -/
def beginClose (suppressHookErrors : Bool) (lifecycle : Lifecycle ε) : Turn ε :=
  if lifecycle.activeRequests ≠ 0 then
    (lifecycle, .close (.waiting suppressHookErrors), true, false)
  else
    ({ lifecycle with deferredClientError := none },
      .close (.delivering suppressHookErrors lifecycle.deferredClientError), false, false)

def CloseStage.turn (hookErrorPolicy : TelemetryHookErrorPolicy) (batch : Batch ε)
    (lifecycle : Lifecycle ε) : CloseStage ε → Option (Turn ε)
  | .entering suppressHookErrors =>
      if lifecycle.closed then some (lifecycle, .close .declined, false, false)
      else some (beginClose suppressHookErrors { lifecycle with closed := true })
  | .waiting suppressHookErrors => some (beginClose suppressHookErrors lifecycle)
  | .delivering suppressHookErrors deferredClientError =>
      let delivery := ⟨suppressHookErrors, batch⟩
      match deliverNativeEvents hookErrorPolicy none suppressHookErrors batch with
      | none => some (lifecycle,
          .close (.returned delivery none (some .interruption)), false, false)
      | some errors =>
          let raised := if suppressHookErrors then none else deferredClientError.or errors.client
          some (lifecycle,
            .close (.returned delivery errors.client (raised.map .hookError)), false, false)
  | .declined | .returned _ _ _ => none

def Stage.turn (hookErrorPolicy : TelemetryHookErrorPolicy) (batch : Batch ε)
    (lifecycle : Lifecycle ε) : Stage ε → Option (Turn ε)
  | .request stage => stage.turn hookErrorPolicy batch lifecycle
  | .close stage => stage.turn hookErrorPolicy batch lifecycle

/-- All interleavings of the deliveries of a client. -/
def monitor (hookErrorPolicy : TelemetryHookErrorPolicy) :
    Monitor (Lifecycle ε) (Stage ε) Call (Batch ε) :=
  ⟨⟨0, false, none⟩, Call.enter, fun _ => Stage.turn hookErrorPolicy⟩

end FogHttp.NativeDelivery
