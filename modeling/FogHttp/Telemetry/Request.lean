import FogHttp.Lib.Transition
import FogHttp.Telemetry.Event

/-!
# Request telemetry

`RequestTelemetry` brackets what one request does: it acquires from the pool, and it uses
connections, one at a time.  A pool acquisition is ended by its result, by an error of
the request or by its cancellation.  A connection use is ended through its token, by
`abort_active_connection_use` or by the cancellation.

All methods do their work under the lock of the state, events included, so each of them is
one step.  Only `begin_pool_acquire` stores its redirect hop before it takes the lock.
The lock of the connection assignment, which `cancel` takes first, only keeps callers
apart.  An event counts as emitted when `record` of the client is called; debug assertions
are off.

A token is the number of its use: an address that no other token has while a handle of the
use is alive.
-/

namespace FogHttp.Telemetry

open Lib

inductive ActivePhaseType where
  | poolAcquire
deriving DecidableEq, Repr

structure ActivePhase where
  phaseType : ActivePhaseType
  origin : Text
  redirectHop : Nat
deriving DecidableEq, Repr

structure ActiveConnectionUse where
  token : Nat
  origin : Text
  redirectHop : Nat
deriving DecidableEq, Repr

structure RequestState where
  active : Option ActivePhase
  connectionUse : Option ActiveConnectionUse
  cancelled : Bool
  terminalErrorType : Option TelemetryErrorType
deriving DecidableEq, Repr

/-- A call of `begin_pool_acquire` that has stored its redirect hop. -/
structure BeginPoolAcquire where
  origin : Text
  redirectHop : Nat
  returned : Bool
deriving DecidableEq, Repr

/-- An event that was emitted, with the connection use that it is about. -/
structure Emission where
  connectionUse : Option Nat
  event : TelemetryEventRecord
deriving DecidableEq, Repr

/-- What has ended a connection use. -/
inductive Ender where
  | finish (token : Nat)
  | abort (token : Nat)
  | abortActive
  | cancel
deriving DecidableEq, Repr

namespace Ender

/-- The token that the use was ended through. -/
def token : Ender → Option Nat
  | .finish token | .abort token => some token
  | .abortActive | .cancel => none

/-- The end is reported as `ConnectionAborted`. -/
def aborts : Ender → Bool
  | .finish _ => false
  | .abort _ | .abortActive | .cancel => true

end Ender

/-- The end of a connection use. -/
structure UseEnd where
  token : Nat
  ender : Ender
deriving DecidableEq, Repr

/-- The telemetry of one request.  `tokens` is the number of connection uses that have
begun.  `emissions` and `ends` are kept for the statements only. -/
structure RequestTelemetry where
  requestId : Nat
  mode : TelemetryRequestMode
  method : Text
  redirectHop : Nat
  state : RequestState
  begins : List BeginPoolAcquire
  tokens : Nat
  emissions : List Emission
  ends : List UseEnd
deriving DecidableEq, Repr

namespace RequestTelemetry

/-- `ClientTelemetry::request`. -/
def new (requestId : Nat) (mode : TelemetryRequestMode) (method : Text) : RequestTelemetry :=
  ⟨requestId, mode, method, 0, ⟨none, none, false, none⟩, [], 0, [], []⟩

def event (telemetry : RequestTelemetry) (eventType : TelemetryEventType) (origin : Text)
    (redirectHop : Nat) (outcome : Option TelemetryOutcome)
    (errorType : Option TelemetryErrorType) : TelemetryEventRecord :=
  ⟨eventType, some telemetry.requestId, some telemetry.mode, some telemetry.method, some origin,
    some redirectHop, outcome, errorType⟩

/-- `record` of the client. -/
def record (telemetry : RequestTelemetry) (connectionUse : Option Nat)
    (event : TelemetryEventRecord) : RequestTelemetry :=
  { telemetry with emissions := telemetry.emissions ++ [Emission.mk connectionUse event] }

/-! ## Pool acquisitions -/

def beginPhase (telemetry : RequestTelemetry) (phaseType : ActivePhaseType) (origin : Text)
    (redirectHop : Nat) (emitStarted : Bool) : RequestTelemetry :=
  if telemetry.state.cancelled then telemetry
  else if telemetry.state.active.isSome then telemetry
  else
    let begun := { telemetry with
      state := { telemetry.state with active := some ⟨phaseType, origin, redirectHop⟩ } }
    if emitStarted then
      begun.record none (telemetry.event .poolAcquireStarted origin redirectHop none none)
    else begun

/-- `state.active.take()` of a phase that is active, and its event. -/
def takePhase (telemetry : RequestTelemetry) (phase : ActivePhase)
    (eventType : TelemetryEventType) (outcome : TelemetryOutcome)
    (errorType : Option TelemetryErrorType) : RequestTelemetry :=
  { telemetry with state := { telemetry.state with active := none } }.record none
    (telemetry.event eventType phase.origin phase.redirectHop (some outcome) errorType)

def finishPhase (telemetry : RequestTelemetry) (phaseType : ActivePhaseType)
    (eventType : TelemetryEventType) (outcome : TelemetryOutcome)
    (errorType : Option TelemetryErrorType) : RequestTelemetry × Bool :=
  match telemetry.state.active with
  | none => (telemetry, false)
  | some phase =>
      if phase.phaseType ≠ phaseType then (telemetry, false)
      else (telemetry.takePhase phase eventType outcome errorType, true)

def finishPoolAcquireSuccess (telemetry : RequestTelemetry) : RequestTelemetry :=
  (telemetry.finishPhase .poolAcquire .poolAcquireFinished .success none).1

def finishPoolAcquireError (telemetry : RequestTelemetry) (errorType : TelemetryErrorType) :
    RequestTelemetry :=
  (telemetry.finishPhase .poolAcquire .poolAcquireFinished .error (some errorType)).1

/-- The type of the event that `record_finished_phase` emits. -/
def finishedType : ActivePhaseType → TelemetryEventType
  | .poolAcquire => .poolAcquireFinished

/-- `state.active.take()` followed by `record_finished_phase` when a phase is active. -/
def takeActive (telemetry : RequestTelemetry) (outcome : TelemetryOutcome)
    (errorType : TelemetryErrorType) : RequestTelemetry :=
  match telemetry.state.active with
  | none => telemetry
  | some phase =>
      telemetry.takePhase phase (finishedType phase.phaseType) outcome (some errorType)

def finishActivePhaseError (telemetry : RequestTelemetry) (errorType : TelemetryErrorType) :
    RequestTelemetry :=
  if telemetry.state.cancelled then telemetry
  else
    { telemetry with
      state := { telemetry.state with terminalErrorType := some errorType } }.takeActive
        .error errorType

/-! ## Connection uses -/

/-- The use begins with a fresh token. -/
def beginConnectionUse (telemetry : RequestTelemetry) (origin : Text) (reused : Bool) :
    RequestTelemetry × Option Nat :=
  if telemetry.state.cancelled then (telemetry, none)
  else if telemetry.state.connectionUse.isSome then (telemetry, none)
  else
    let token := telemetry.tokens
    let reported :=
      if reused then
        telemetry.record (some token)
          (telemetry.event .connectionReused origin telemetry.redirectHop (some .success) none)
      else telemetry
    ({ reported with
        tokens := token + 1
        state := { telemetry.state with
          connectionUse := some ⟨token, origin, telemetry.redirectHop⟩ } }, some token)

/-- `state.connection_use.take()` of a use that is active. -/
def takeUse (telemetry : RequestTelemetry) (connectionUse : ActiveConnectionUse)
    (ender : Ender) : RequestTelemetry :=
  { telemetry with
    state := { telemetry.state with connectionUse := none }
    ends := telemetry.ends ++ [UseEnd.mk connectionUse.token ender] }

def connectionAborted (telemetry : RequestTelemetry) (connectionUse : ActiveConnectionUse)
    (outcome : TelemetryOutcome) (errorType : Option TelemetryErrorType) : RequestTelemetry :=
  telemetry.record (some connectionUse.token)
    (telemetry.event .connectionAborted connectionUse.origin connectionUse.redirectHop
      (some outcome) errorType)

/-- The methods `finish`, without a terminal, and `abort` of a
`RequestConnectionUseTelemetry` with this token. -/
def finishConnectionUse (telemetry : RequestTelemetry) (token : Nat)
    (terminal : Option (TelemetryOutcome × Option TelemetryErrorType)) :
    RequestTelemetry × Bool :=
  match telemetry.state.connectionUse with
  | none => (telemetry, false)
  | some connectionUse =>
      if connectionUse.token ≠ token then (telemetry, false)
      else
        match terminal with
        | none => (telemetry.takeUse connectionUse (.finish token), true)
        | some (outcome, errorType) =>
            ((telemetry.takeUse connectionUse (.abort token)).connectionAborted connectionUse
              outcome errorType, true)

def abortActiveConnectionUse (telemetry : RequestTelemetry) (outcome : TelemetryOutcome)
    (errorType : Option TelemetryErrorType) : RequestTelemetry × Bool :=
  match telemetry.state.connectionUse with
  | none => (telemetry, false)
  | some connectionUse =>
      ((telemetry.takeUse connectionUse .abortActive).connectionAborted connectionUse outcome
        errorType, true)

/-! ## The cancellation -/

/-- The end of the connection use in `cancel`. -/
def cancelUse (telemetry : RequestTelemetry) : RequestTelemetry :=
  match telemetry.state.connectionUse with
  | none => telemetry
  | some connectionUse =>
      (telemetry.takeUse connectionUse .cancel).connectionAborted connectionUse .cancelled
        (some .cancelledError)

def cancel (telemetry : RequestTelemetry) : RequestTelemetry :=
  if telemetry.state.cancelled then telemetry
  else
    ({ telemetry with
      state := { telemetry.state with
        cancelled := true
        terminalErrorType := some .cancelledError } }.takeActive .cancelled
          .cancelledError).cancelUse

/-! ## Steps -/

inductive Event where
  /-- `begin_pool_acquire` stores the redirect hop. -/
  | beginPoolAcquire (origin : Text) (redirectHop : Nat)
  /-- The section of that call under the lock. -/
  | beginPhase (i : Nat)
  | finishPoolAcquireSuccess
  | finishPoolAcquireError (errorType : TelemetryErrorType)
  | beginConnectionUse (origin : Text) (reused : Bool)
  /-- A method of a handle that a use was given. -/
  | finishConnectionUse (token : Nat)
      (terminal : Option (TelemetryOutcome × Option TelemetryErrorType))
  | abortActiveConnectionUse (outcome : TelemetryOutcome) (errorType : Option TelemetryErrorType)
  | finishActivePhaseError (errorType : TelemetryErrorType)
  | cancel
deriving DecidableEq, Repr

def step (telemetry : RequestTelemetry) : Event → Option RequestTelemetry
  | .beginPoolAcquire origin redirectHop =>
      some { telemetry with
        redirectHop
        begins := telemetry.begins ++ [BeginPoolAcquire.mk origin redirectHop false] }
  | .beginPhase i => do
      let call ← telemetry.begins[i]?
      if call.returned then none
      else
        some ({ telemetry with
          begins := telemetry.begins.set i { call with returned := true } }.beginPhase
            .poolAcquire call.origin call.redirectHop true)
  | .finishPoolAcquireSuccess => some telemetry.finishPoolAcquireSuccess
  | .finishPoolAcquireError errorType => some (telemetry.finishPoolAcquireError errorType)
  | .beginConnectionUse origin reused => some (telemetry.beginConnectionUse origin reused).1
  | .finishConnectionUse token terminal =>
      if token < telemetry.tokens then some (telemetry.finishConnectionUse token terminal).1
      else none
  | .abortActiveConnectionUse outcome errorType =>
      some (telemetry.abortActiveConnectionUse outcome errorType).1
  | .finishActivePhaseError errorType => some (telemetry.finishActivePhaseError errorType)
  | .cancel => some telemetry.cancel

/-- Any calls on the telemetry of one request. -/
def system (requestId : Nat) (mode : TelemetryRequestMode) (method : Text) :
    TransitionSystem RequestTelemetry Event :=
  ⟨new requestId mode method, step⟩

end RequestTelemetry

end FogHttp.Telemetry
