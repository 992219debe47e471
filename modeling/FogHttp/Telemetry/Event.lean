import FogHttp.Lib.Text

/-!
# Telemetry events

The records that the client writes into its telemetry journal.  Durations are left
out.
-/

namespace FogHttp.Telemetry

open Lib

inductive TelemetryEventType where
  | poolAcquireStarted
  | poolAcquireFinished
  | connectionOpened
  | connectionOpenFailed
  | connectionReused
  | connectionClosed
  | connectionAborted
deriving DecidableEq, Repr

inductive TelemetryRequestMode where
  | buffered
  | stream
deriving DecidableEq, Repr

inductive TelemetryOutcome where
  | success
  | error
  | closed
  | cancelled
deriving DecidableEq, Repr

inductive TelemetryErrorType where
  | requestError
  | networkError
  | poolTimeout
  | ssrfError
  | timeoutError
  | readTimeout
  | responseBodyBudgetExceededError
  | responseBodyTooLargeError
  | responseDecodingError
  | writeTimeout
  | cancelledError
deriving DecidableEq, Repr

structure TelemetryEventRecord where
  eventType : TelemetryEventType
  requestId : Option Nat
  mode : Option TelemetryRequestMode
  method : Option Text
  origin : Option Text
  redirectHop : Option Nat
  outcome : Option TelemetryOutcome
  errorType : Option TelemetryErrorType
deriving DecidableEq, Repr

namespace TelemetryEventRecord

/-- The record of `opened_connection`. -/
def connectionOpened (origin : Option Text) : TelemetryEventRecord :=
  ⟨.connectionOpened, none, none, none, origin, none, some .success, none⟩

/-- The record of `record_connection_open_failed_unchecked`. -/
def connectionOpenFailed (origin : Option Text) (errorType : TelemetryErrorType) :
    TelemetryEventRecord :=
  ⟨.connectionOpenFailed, none, none, none, origin, none,
    some (if errorType = .cancelledError then .cancelled else .error), some errorType⟩

/-- The record of `closed` and of `connection_closed_after_seal`. -/
def connectionClosed (origin : Option Text) : TelemetryEventRecord :=
  ⟨.connectionClosed, none, none, none, origin, none, some .closed, none⟩

end TelemetryEventRecord

end FogHttp.Telemetry
