import FogHttp.Lib.Loop
import FogHttp.Policy.Retry
import FogHttp.Transport.Chain

/-!
# The attempt loops

`send_request_attempts` and `send_stream_request_attempts` send one logical
request: each round prepares a hop, hands it to the client, and then returns,
retries, or follows a redirect.  They differ only in how the last response is
returned, so both are `attempt` with their own `terminal`.

`AttemptEnv` holds what a round learns from outside: the parties of `HopEnv`,
the acquire gate, the network, the clock, the Python hooks, and the functions
that read a response body.  A server that reacts to the client gives one
sequence of such answers, so the loop runs over an arbitrary sequence.

The `retry` field of the pipeline is an argument of its own here.  The retry
trace, which the loop only writes, stands in `FogHttp.Transport.RetryTrace`.
`trace` is a ghost: it records the hops handed to the client, the retries and the
applied redirects, in order.
-/

namespace FogHttp

open Lib

/-! ## What a hop hands over -/

/-- `RequestBodyParts`.  A streaming body is named by the reference to its
`RawUploadBody`. -/
inductive RequestBodyParts where
  | buffered (content : Option (List UInt8))
  | streaming (body : Nat) (contentLength : Option Nat)
deriving DecidableEq, Repr

/-- There is no body. -/
def RequestBodyParts.isEmpty : RequestBodyParts → Bool
  | .buffered none => true
  | _ => false

/-- `RequestParts`. -/
structure RequestParts where
  method : Text
  url : Text
  headers : HeaderPairs
  body : RequestBodyParts
deriving DecidableEq, Repr

/-- The parts of one call of the client, with the URL that they spell. -/
structure Hop where
  url : HttpUrl
  parts : RequestParts

/-- `RequestBodyState::take_body_parts`.  `takeReceiver` is the answer of
`RawUploadBody::take_receiver`. -/
def RequestBodyState.takeBodyParts (takeReceiver : Nat → Except Text (Option Nat)) :
    RequestBodyState → Except Text RequestBodyParts
  | .empty => .ok (.buffered none)
  | .buffered content => .ok (.buffered (some content))
  | .streaming body => (takeReceiver body).map (.streaming body)

/-! ## What answers from outside -/

/-- An error of the HTTP client: its message, and `is_retryable_network_error`. -/
structure HyperClientError where
  message : Text
  retryable : Bool
deriving DecidableEq, Repr

/-- The answers of one round.  `ρ` is a buffered response and `α` is what the caller of the
loop gets. -/
structure AttemptEnv (ρ α : Type) where
  hop : HopEnv
  /-- `acquire_request_slot` of origin and hop. -/
  acquireRequestSlot : Text → Nat → Except Text Unit
  /-- `RequestState::connection_limit_context`. -/
  connectionLimitContext : Except Text Unit
  takeReceiver : Nat → Except Text (Option Nat)
  /-- What fails between taking the parts and the call of the client: `build_request`, the
  choice of the client and the remaining time. -/
  buildRequest : RequestParts → Except Text Unit
  /-- `client.request` and the wait for the response headers. -/
  clientRequest : Hop → Except Text (Except HyperClientError ResponseHead)
  /-- `PythonPolicyHooks::on_response_headers`. -/
  responseHeadersHook : PolicyRequest → ResponseHead → Nat → Except Text Unit
  retryTiming : RetryTiming
  drainResponse : Except Text Unit
  waitForRetry : Nat → Except Text Unit
  rawResponse : ResponseHead → Except Text ρ
  rawStreamResponse : ResponseHead → Except Text α
  /-- `PythonPolicyHooks::after_response_body`. -/
  responseBodyHook : PolicyRequest → ResponseHead → Nat → Except Text Unit

/-! ## The steps of a round -/

namespace RequestState

/-- `RequestState::take_request_parts`. -/
def takeRequestParts (state : RequestState)
    (takeReceiver : Nat → Except Text (Option Nat)) : Except Text RequestParts := do
  let body ← state.body.takeBodyParts takeReceiver
  .ok { method := state.method, url := state.url.asStr, headers := state.headers, body }

/-- `send_current_hop` up to the call of the client. -/
def handOver {ρ α : Type} (state : RequestState) (env : AttemptEnv ρ α) : Except Text Hop := do
  env.connectionLimitContext
  let parts ← state.takeRequestParts env.takeReceiver
  env.buildRequest parts
  .ok ⟨state.url, parts⟩

/-- `RequestState::retry_on_response`. -/
def retryOnResponse (state : RequestState) (retry : Option RetryPolicy) (timing : RetryTiming)
    (response : ResponseHead) : Option RetryDecision := do
  let policy ← retry
  policy.onResponse timing state.policyRequest response state.completedRetries

/-- `RequestState::retry_on_network_error`. -/
def retryOnNetworkError (state : RequestState) (retry : Option RetryPolicy)
    (timing : RetryTiming) : Option RetryDecision := do
  let policy ← retry
  policy.onNetworkError timing state.policyRequest state.completedRetries

/-- `RequestState::after_response_body` up to the application of the mutation. -/
def afterResponseBody {ρ α : Type} (state : RequestState) (env : AttemptEnv ρ α)
    (response : ResponseHead) (action : ResponsePolicyAction) (completedRedirects : Nat) :
    Except TransportError PolicyMutation := do
  let mutation ← (state.policy.afterResponseBody state.policyRequest action
    completedRedirects).mapError TransportError.policy
  (env.responseBodyHook state.policyRequest response completedRedirects).mapError
    TransportError.python
  .ok mutation

end RequestState

/-! ## The loop -/

inductive AttemptEvent where
  | hop (hop : Hop)
  | retry
  /-- A redirect that was applied, with the URL it leaves. -/
  | redirect (source : HttpUrl) (mutation : PolicyMutation)

/-- The variables of an attempt loop. -/
structure Attempts (ρ : Type) where
  state : RequestState
  history : List ρ
  trace : List AttemptEvent

/-- What the caller of a loop gets: a response with its history, or an error. -/
abbrev AttemptResult (ρ α : Type) := Except TransportError (α × List ρ)

section Round

variable {ρ α : Type}

namespace Attempts

/-- The loop goes on with a retry. -/
def retried (attempts : Attempts ρ) : Attempts ρ :=
  { attempts with
    state := attempts.state.advanceRetryAttempt
    trace := attempts.trace ++ [.retry] }

/-- The loop goes on with a redirect. -/
def redirected (attempts : Attempts ρ) (raw : ρ) (mutation : PolicyMutation) : Attempts ρ :=
  { state := attempts.state.applyPolicyMutation mutation
    history := attempts.history ++ [raw]
    trace := attempts.trace ++ [.redirect attempts.state.url mutation] }

/-- The loop returns with a Python exception. -/
def raised (attempts : Attempts ρ) (message : Text) :
    Round (Attempts ρ) (AttemptResult ρ α) :=
  .done (.error (.python message)) attempts

/-- The client returned an error: `retry_after_network_error` and what follows it. -/
def afterNetworkError (retry : Option RetryPolicy) (env : AttemptEnv ρ α)
    (error : HyperClientError) (attempts : Attempts ρ) :
    Round (Attempts ρ) (AttemptResult ρ α) :=
  if !error.retryable then attempts.raised error.message
  else
    match attempts.state.retryOnNetworkError retry env.retryTiming with
    | some (.retry delay) =>
        match env.waitForRetry delay with
        | .error message => attempts.raised message
        | .ok () => .again attempts.retried
    | some (.stop _) | none => attempts.raised error.message

/-- `retry_after_response`. -/
def retryAfterResponse (env : AttemptEnv ρ α) (delay : Nat) (attempts : Attempts ρ) :
    Round (Attempts ρ) (AttemptResult ρ α) :=
  match env.drainResponse with
  | .error message => attempts.raised message
  | .ok () =>
      match env.waitForRetry delay with
      | .error message => attempts.raised message
      | .ok () => .again attempts.retried

/-- The response is the last one: it is returned with the history. -/
def complete (terminal : ResponseHead → Except Text α) (response : ResponseHead)
    (attempts : Attempts ρ) : Round (Attempts ρ) (AttemptResult ρ α) :=
  match terminal response with
  | .error message => attempts.raised message
  | .ok result => .done (.ok (result, attempts.history)) { attempts with history := [] }

/-- The response is a redirect. -/
def follow (env : AttemptEnv ρ α) (response : ResponseHead) (action : ResponsePolicyAction)
    (attempts : Attempts ρ) : Round (Attempts ρ) (AttemptResult ρ α) :=
  match env.rawResponse response with
  | .error message => attempts.raised message
  | .ok raw =>
      match attempts.state.afterResponseBody env response action attempts.history.length with
      | .error error => .done (.error error) attempts
      | .ok mutation => .again (attempts.redirected raw mutation)

/-- The client returned a response. -/
def afterResponse (crate : UrlCrate) (retry : Option RetryPolicy)
    (terminal : ResponseHead → Except Text α) (env : AttemptEnv ρ α) (response : ResponseHead)
    (attempts : Attempts ρ) : Round (Attempts ρ) (AttemptResult ρ α) :=
  let state := attempts.state
  let responseAction := state.policy.onResponseHeaders crate state.policyRequest response
  match env.responseHeadersHook state.policyRequest response attempts.history.length with
  | .error message => attempts.raised message
  | .ok () =>
      match responseAction with
      | some action => attempts.follow env response action
      | none =>
          match state.retryOnResponse retry env.retryTiming response with
          | some (.retry delay) => attempts.retryAfterResponse env delay
          | some (.stop _) | none => attempts.complete terminal response

/-- `client.request` on the hop that was handed over, and what follows. -/
def sendHop (crate : UrlCrate) (retry : Option RetryPolicy)
    (terminal : ResponseHead → Except Text α) (env : AttemptEnv ρ α) (hop : Hop)
    (attempts : Attempts ρ) : Round (Attempts ρ) (AttemptResult ρ α) :=
  let attempts := { attempts with trace := attempts.trace ++ [AttemptEvent.hop hop] }
  match env.clientRequest hop with
  | .error message => attempts.raised message
  | .ok (.error error) => attempts.afterNetworkError retry env error
  | .ok (.ok response) => attempts.afterResponse crate retry terminal env response

/-- One round of an attempt loop. -/
def attempt (crate : UrlCrate) (retry : Option RetryPolicy)
    (terminal : AttemptEnv ρ α → ResponseHead → Except Text α) (env : AttemptEnv ρ α)
    (attempts : Attempts ρ) : Round (Attempts ρ) (AttemptResult ρ α) :=
  let redirectHop := attempts.history.length
  let routed := attempts.state.transportRoute env.hop redirectHop
  let attempts := { attempts with state := routed.2 }
  match routed.1 with
  | .error error => .done (.error error) attempts
  | .ok _ =>
      match env.acquireRequestSlot attempts.state.url.origin redirectHop with
      | .error message => attempts.raised message
      | .ok () =>
          match attempts.state.handOver env with
          | .error message => attempts.raised message
          | .ok hop => attempts.sendHop crate retry (terminal env) env hop

end Attempts

/-- An attempt loop with at most `fuel` rounds. -/
def sendAttempts (crate : UrlCrate) (retry : Option RetryPolicy)
    (terminal : AttemptEnv ρ α → ResponseHead → Except Text α) (fuel : Nat)
    (envs : Nat → AttemptEnv ρ α) (state : RequestState) :
    Option (AttemptResult ρ α) × Attempts ρ :=
  loop (Attempts.attempt crate retry terminal) fuel envs ⟨state, [], []⟩

end Round

/-- `send_request_attempts`. -/
def sendRequestAttempts {ρ : Type} (crate : UrlCrate) (retry : Option RetryPolicy) (fuel : Nat)
    (envs : Nat → AttemptEnv ρ ρ) (state : RequestState) :
    Option (AttemptResult ρ ρ) × Attempts ρ :=
  sendAttempts crate retry AttemptEnv.rawResponse fuel envs state

/-- `send_stream_request_attempts`. -/
def sendStreamRequestAttempts {ρ α : Type} (crate : UrlCrate) (retry : Option RetryPolicy)
    (fuel : Nat) (envs : Nat → AttemptEnv ρ α) (state : RequestState) :
    Option (AttemptResult ρ α) × Attempts ρ :=
  sendAttempts crate retry AttemptEnv.rawStreamResponse fuel envs state

/-- `send_request` and `send_stream_request`: the request state is built, and `attempts`
runs.  The second component is what the loop did. -/
def sendParts {ρ α : Type} (crate : UrlCrate) (toUppercase : Text → Text)
    (attempts : RequestState → Option (AttemptResult ρ α) × Attempts ρ)
    (parts : TransportRequest) : Option (AttemptResult ρ α) × List AttemptEvent :=
  match RequestState.tryFrom crate toUppercase parts with
  | .error error => (some (.error error), [])
  | .ok state => ((attempts state).1, (attempts state).2.trace)

/-- `send_request`. -/
def sendRequest {ρ : Type} (crate : UrlCrate) (toUppercase : Text → Text)
    (retry : Option RetryPolicy) (fuel : Nat) (envs : Nat → AttemptEnv ρ ρ)
    (parts : TransportRequest) : Option (AttemptResult ρ ρ) × List AttemptEvent :=
  sendParts crate toUppercase (sendRequestAttempts crate retry fuel envs) parts

/-- `send_stream_request`. -/
def sendStreamRequest {ρ α : Type} (crate : UrlCrate) (toUppercase : Text → Text)
    (retry : Option RetryPolicy) (fuel : Nat) (envs : Nat → AttemptEnv ρ α)
    (parts : TransportRequest) : Option (AttemptResult ρ α) × List AttemptEvent :=
  sendParts crate toUppercase (sendStreamRequestAttempts crate retry fuel envs) parts

end FogHttp
