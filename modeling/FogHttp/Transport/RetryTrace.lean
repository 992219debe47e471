import FogHttp.Transport.Attempts

/-!
# The retry trace

A request with a retry policy keeps a trace of its attempts.  `RetryTraceRecorder`
collects one `RawRetryAttempt` for each retry decision, and `finish` adds or
completes the last one.

`Traced` is the state of an attempt loop together with its recorder, and
`Traced.attempt` is one round of it: the round of `Attempts.attempt`, with the
calls of the recorder where the source makes them.  The two loops differ in the
completion of a decision to stop.  `sendRequest` completes the attempt when the
body has been read, and `sendStreamRequest` at once.

Times come from `Instant::elapsed`, and `asSecsF64` is `Duration::as_secs_f64`.
`TracedEnv.decisionElapsed` is the elapsed time at the decision of a round.

The recorder carries a ghost field.  `asserted` is true as long as every debug
assertion of `record` and `finish` has held.
-/

namespace FogHttp

open Lib

/-! ## The recorder -/

inductive RetryAttemptCompletion where
  | pending
  | complete
deriving DecidableEq, Repr

structure RawRetryAttempt (τ : Type) where
  attempt : Nat
  method : Text
  origin : Text
  redirectHop : Nat
  statusCode : Option Nat
  errorType : Option Text
  decision : Option Text
  reason : Option Text
  backoff : τ
  decisionElapsed : Option τ
  completedElapsed : τ
  completion : RetryAttemptCompletion
deriving DecidableEq, Repr

inductive RetryTraceOutcome where
  | response
  | error
deriving DecidableEq, Repr

/-- `RetryTraceOutcome::as_str`. -/
def RetryTraceOutcome.asStr : RetryTraceOutcome → Text
  | .response => "response"
  | .error => "error"

/-- The outcome matches `RetryTraceOutcome::Error`. -/
def RetryTraceOutcome.isError : RetryTraceOutcome → Bool
  | .response => false
  | .error => true

structure RawRetryTrace (τ : Type) where
  attempts : List (RawRetryAttempt τ)
  outcome : Text
  statusCode : Option Nat
  elapsed : τ
  terminalErrorOnLastAttempt : Bool
deriving DecidableEq, Repr

structure RetryResponseObservation where
  statusCode : Nat
  redirectHop : Nat
deriving DecidableEq, Repr

structure RetryTraceRecorder (τ : Type) where
  attempts : Option (List (RawRetryAttempt τ))
  observedResponse : Option RetryResponseObservation
  asserted : Bool
deriving DecidableEq, Repr

section Recorder

variable {τ : Type} [LE τ] [DecidableLE τ]

/-- `RawRetryAttempt::has_valid_decision_state`. -/
def RawRetryAttempt.hasValidDecisionState (attempt : RawRetryAttempt τ) : Bool :=
  attempt.decision.isSome == attempt.reason.isSome &&
    attempt.decision.isSome == attempt.decisionElapsed.isSome &&
    attempt.decisionElapsed.all (fun elapsed => decide (elapsed ≤ attempt.completedElapsed)) &&
    (attempt.completion == .complete || attempt.decision.isSome)

omit [LE τ] [DecidableLE τ] in
/-- A pending attempt after its completion in `RetryTraceRecorder::finish`. -/
def RawRetryAttempt.completedBy (attempt terminalAttempt : RawRetryAttempt τ) :
    RawRetryAttempt τ :=
  { attempt with
    statusCode := terminalAttempt.statusCode.or attempt.statusCode
    redirectHop := terminalAttempt.redirectHop
    completedElapsed := terminalAttempt.completedElapsed
    completion := .complete }

namespace RetryTraceRecorder

omit [LE τ] [DecidableLE τ] in
/-- `RetryTraceRecorder::disabled` and `RetryTraceRecorder::enabled`. -/
def new (enabled : Bool) : RetryTraceRecorder τ :=
  ⟨if enabled then some [] else none, none, true⟩

omit [LE τ] [DecidableLE τ] in
/-- `RetryTraceRecorder::begin_transport_hop`. -/
def beginTransportHop (recorder : RetryTraceRecorder τ) : RetryTraceRecorder τ :=
  if recorder.attempts.isSome then { recorder with observedResponse := none } else recorder

omit [LE τ] [DecidableLE τ] in
/-- `RetryTraceRecorder::observe_response`. -/
def observeResponse (recorder : RetryTraceRecorder τ) (statusCode redirectHop : Nat) :
    RetryTraceRecorder τ :=
  if recorder.attempts.isSome then
    { recorder with observedResponse := some ⟨statusCode, redirectHop⟩ }
  else recorder

/-- `RetryTraceRecorder::record`. -/
def record (recorder : RetryTraceRecorder τ) (attempt : RawRetryAttempt τ) :
    RetryTraceRecorder τ :=
  match recorder.attempts with
  | none => recorder
  | some attempts =>
      { recorder with
        attempts := some (attempts ++ [attempt])
        asserted := recorder.asserted && attempt.hasValidDecisionState &&
          attempts.getLast?.all fun recorded => recorded.attempt < attempt.attempt }

/-- The attempts of `RetryTraceRecorder::finish`, and `terminal_error_on_last_attempt`. -/
def finishAttempts (attempts : List (RawRetryAttempt τ)) (terminalAttempt : RawRetryAttempt τ)
    (outcome : RetryTraceOutcome) : List (RawRetryAttempt τ) × Bool :=
  match attempts.getLast? with
  | some last =>
      if last.attempt = terminalAttempt.attempt then
        if last.completion = .complete then (attempts, false)
        else
          (attempts.dropLast ++ [last.completedBy terminalAttempt], outcome.isError)
      else (attempts ++ [terminalAttempt], outcome.isError)
  | none => (attempts ++ [terminalAttempt], outcome.isError)

/-- `RetryTraceRecorder::finish`. -/
def finish (recorder : RetryTraceRecorder τ) (terminalAttempt : RawRetryAttempt τ)
    (outcome : RetryTraceOutcome) (statusCode : Option Nat) (elapsed : τ) :
    Option (RawRetryTrace τ) × RetryTraceRecorder τ :=
  let asserted := recorder.asserted && terminalAttempt.completion == .complete &&
    terminalAttempt.hasValidDecisionState
  match recorder.attempts with
  | none => (none, { recorder with asserted })
  | some attempts =>
      let (attempts, terminalErrorOnLastAttempt) :=
        finishAttempts attempts terminalAttempt outcome
      (some ⟨attempts, outcome.asStr, statusCode, elapsed, terminalErrorOnLastAttempt⟩,
        { recorder with
          attempts := none
          asserted := asserted && attempts.all RawRetryAttempt.hasValidDecisionState })

end RetryTraceRecorder

end Recorder

/-! ## The decisions -/

inductive RetryTrigger where
  | networkError
  | status (statusCode : Nat)
deriving DecidableEq, Repr

namespace RetryTrigger

/-- `RetryTrigger::status_code`. -/
def statusCode : RetryTrigger → Option Nat
  | .status statusCode => some statusCode
  | .networkError => none

/-- `RetryTrigger::error_type`. -/
def errorType : RetryTrigger → Option Text
  | .networkError => some "NetworkError"
  | .status _ => none

/-- `RetryTrigger::reason`. -/
def reason : RetryTrigger → Text
  | .status _ => "status"
  | .networkError => "network_error"

end RetryTrigger

structure PendingRetryDecision where
  decision : RetryDecision
  trigger : RetryTrigger
deriving DecidableEq, Repr

/-- The `decision` of an attempt that is followed by a retry. -/
def retryLabel : Text := "retry"

namespace PendingRetryDecision

variable {τ : Type} (asSecsF64 : Nat → τ)

/-- The decision, the reason and the backoff of `PendingRetryDecision::raw_attempt`. -/
def labels (pending : PendingRetryDecision) : Text × Text × Nat :=
  match pending.decision with
  | .retry delay => (retryLabel, pending.trigger.reason, delay)
  | .stop .nonReplayableBody => ("block_non_replayable", "non_replayable_body", 0)
  | .stop .methodNotAllowed => ("stop", "method_not_allowed", 0)
  | .stop .retriesExhausted => ("stop", "retries_exhausted", 0)

/-- `PendingRetryDecision::raw_attempt`. -/
def rawAttempt (pending : PendingRetryDecision) (attempt : Nat) (method origin : Text)
    (redirectHop decisionElapsed : Nat) (completion : RetryAttemptCompletion) :
    RawRetryAttempt τ where
  attempt
  method
  origin
  redirectHop
  statusCode := pending.trigger.statusCode
  errorType := pending.trigger.errorType
  decision := some pending.labels.1
  reason := some pending.labels.2.1
  backoff := asSecsF64 pending.labels.2.2
  decisionElapsed := some (asSecsF64 decisionElapsed)
  completedElapsed := asSecsF64 decisionElapsed
  completion

end PendingRetryDecision

/-! ## The traced loop -/

/-- The answers of one round, with the elapsed time at its decision. -/
structure TracedEnv (ρ α : Type) extends AttemptEnv ρ α where
  decisionElapsed : Nat

/-- An attempt loop with its recorder. -/
structure Traced (ρ τ : Type) where
  attempts : Attempts ρ
  recorder : RetryTraceRecorder τ

section Rounds

variable {ρ α τ : Type} [LE τ] [DecidableLE τ] (asSecsF64 : Nat → τ)

namespace Traced

omit [LE τ] [DecidableLE τ] in
/-- The loop returns with a Python exception. -/
def raised (traced : Traced ρ τ) (message : Text) : Round (Traced ρ τ) (AttemptResult ρ α) :=
  .done (.error (.python message)) traced

/-- `RequestState::commit_retry_decision`. -/
def commitRetryDecision (traced : Traced ρ τ) (pending : PendingRetryDecision)
    (decisionElapsed : Nat) (completion : RetryAttemptCompletion) : Traced ρ τ :=
  { traced with
    recorder := traced.recorder.record (pending.rawAttempt asSecsF64
      traced.attempts.state.retryAttempt traced.attempts.state.method
      traced.attempts.state.url.origin traced.attempts.history.length decisionElapsed
      completion) }

omit [LE τ] [DecidableLE τ] in
/-- `wait_for_retry` and `advance_retry_attempt`, after a decision to retry. -/
def waitForRetry (env : TracedEnv ρ α) (delay : Nat) (traced : Traced ρ τ) :
    Round (Traced ρ τ) (AttemptResult ρ α) :=
  match env.waitForRetry delay with
  | .error message => traced.raised message
  | .ok () => .again { traced with attempts := traced.attempts.retried }

/-- `retry_after_network_error` and what follows it. -/
def afterNetworkError (retry : Option RetryPolicy) (env : TracedEnv ρ α)
    (error : HyperClientError) (traced : Traced ρ τ) :
    Round (Traced ρ τ) (AttemptResult ρ α) :=
  if !error.retryable then traced.raised error.message
  else
    match traced.attempts.state.retryOnNetworkError retry env.retryTiming with
    | none => traced.raised error.message
    | some decision =>
        let traced := traced.commitRetryDecision asSecsF64 ⟨decision, .networkError⟩
          env.decisionElapsed .complete
        match decision with
        | .retry delay => traced.waitForRetry env delay
        | .stop _ => traced.raised error.message

/-- `retry_after_response`. -/
def retryAfterResponse (env : TracedEnv ρ α) (pending : PendingRetryDecision) (delay : Nat)
    (traced : Traced ρ τ) : Round (Traced ρ τ) (AttemptResult ρ α) :=
  match env.drainResponse with
  | .error message => traced.raised message
  | .ok () =>
      (traced.commitRetryDecision asSecsF64 pending env.decisionElapsed .complete).waitForRetry
        env delay

omit [LE τ] [DecidableLE τ] in
/-- The rest of a round, which does not touch the recorder. -/
def proceed (traced : Traced ρ τ)
    (rest : Attempts ρ → Round (Attempts ρ) (AttemptResult ρ α)) :
    Round (Traced ρ τ) (AttemptResult ρ α) :=
  (rest traced.attempts).map fun attempts => { traced with attempts }

/-- The client returned a response.  `stopCompletion` is the completion of a decision to stop. -/
def afterResponse (crate : UrlCrate) (retry : Option RetryPolicy)
    (terminal : ResponseHead → Except Text α) (stopCompletion : RetryAttemptCompletion)
    (env : TracedEnv ρ α) (response : ResponseHead) (traced : Traced ρ τ) :
    Round (Traced ρ τ) (AttemptResult ρ α) :=
  let state := traced.attempts.state
  let traced := { traced with recorder :=
    traced.recorder.observeResponse response.statusCode traced.attempts.history.length }
  let responseAction := state.policy.onResponseHeaders crate state.policyRequest response
  match env.responseHeadersHook state.policyRequest response traced.attempts.history.length with
  | .error message => traced.raised message
  | .ok () =>
      match responseAction with
      | some action => traced.proceed fun attempts =>
          attempts.follow env.toAttemptEnv response action
      | none =>
          match state.retryOnResponse retry env.retryTiming response with
          | some (.retry delay) => traced.retryAfterResponse asSecsF64 env
              ⟨.retry delay, .status response.statusCode⟩ delay
          | some (.stop reason) =>
              (traced.commitRetryDecision asSecsF64 ⟨.stop reason, .status response.statusCode⟩
                env.decisionElapsed stopCompletion).proceed fun attempts =>
                  attempts.complete terminal response
          | none => traced.proceed fun attempts => attempts.complete terminal response

/-- `client.request` on the hop that was handed over, and what follows. -/
def sendHop (crate : UrlCrate) (retry : Option RetryPolicy)
    (terminal : ResponseHead → Except Text α) (stopCompletion : RetryAttemptCompletion)
    (env : TracedEnv ρ α) (hop : Hop) (traced : Traced ρ τ) :
    Round (Traced ρ τ) (AttemptResult ρ α) :=
  let traced := { traced with attempts :=
    { traced.attempts with trace := traced.attempts.trace ++ [AttemptEvent.hop hop] } }
  match env.clientRequest hop with
  | .error message => traced.raised message
  | .ok (.error error) => traced.afterNetworkError asSecsF64 retry env error
  | .ok (.ok response) =>
      traced.afterResponse asSecsF64 crate retry terminal stopCompletion env response

/-- One round of a traced attempt loop. -/
def attempt (crate : UrlCrate) (retry : Option RetryPolicy)
    (terminal : AttemptEnv ρ α → ResponseHead → Except Text α)
    (stopCompletion : RetryAttemptCompletion) (env : TracedEnv ρ α) (traced : Traced ρ τ) :
    Round (Traced ρ τ) (AttemptResult ρ α) :=
  let recorder := traced.recorder.beginTransportHop
  let redirectHop := traced.attempts.history.length
  let routed := traced.attempts.state.transportRoute env.hop redirectHop
  let traced : Traced ρ τ := ⟨{ traced.attempts with state := routed.2 }, recorder⟩
  match routed.1 with
  | .error error => .done (.error error) traced
  | .ok _ =>
      match env.acquireRequestSlot traced.attempts.state.url.origin redirectHop with
      | .error message => traced.raised message
      | .ok () =>
          match traced.attempts.state.handOver env.toAttemptEnv with
          | .error message => traced.raised message
          | .ok hop => traced.sendHop asSecsF64 crate retry (terminal env.toAttemptEnv)
              stopCompletion env hop

/-- The terminal attempt of `RequestState::finish_retry_trace`. -/
def terminalAttempt (traced : Traced ρ τ) (statusCode : Option Nat) (redirectHop elapsed : Nat) :
    RawRetryAttempt τ where
  attempt := traced.attempts.state.retryAttempt
  method := traced.attempts.state.method
  origin := traced.attempts.state.url.origin
  redirectHop := traced.recorder.observedResponse.elim redirectHop
    RetryResponseObservation.redirectHop
  statusCode := statusCode.or
    (traced.recorder.observedResponse.map RetryResponseObservation.statusCode)
  errorType := none
  decision := none
  reason := none
  backoff := asSecsF64 0
  decisionElapsed := none
  completedElapsed := asSecsF64 elapsed
  completion := .complete

/-- `RequestState::finish_retry_trace`. -/
def finishRetryTrace (traced : Traced ρ τ) (outcome : RetryTraceOutcome)
    (statusCode : Option Nat) (redirectHop elapsed : Nat) :
    Option (RawRetryTrace τ) × Traced ρ τ :=
  if traced.recorder.attempts.isSome then
    let (trace, recorder) := traced.recorder.finish
      (traced.terminalAttempt asSecsF64 statusCode redirectHop elapsed) outcome statusCode
      (asSecsF64 elapsed)
    (trace, { traced with recorder })
  else (none, traced)

/-- The end of `send_request` and `send_stream_request`.  `terminalStatusCode` is the method of
the response. -/
def finishResult (terminalStatusCode : α → Nat) (elapsed : Nat) (traced : Traced ρ τ) :
    AttemptResult ρ α → Option (RawRetryTrace τ) × Traced ρ τ
  | .ok (response, history) => traced.finishRetryTrace asSecsF64 .response
      (some (terminalStatusCode response)) history.length elapsed
  | .error _ => traced.finishRetryTrace asSecsF64 .error none traced.attempts.history.length
      elapsed

end Traced

/-- What a traced request returns, with the loop that is left. -/
structure TracedResult (ρ α τ : Type) where
  result : AttemptResult ρ α
  trace : Option (RawRetryTrace τ)
  final : Traced ρ τ

/-- A traced loop with at most `fuel` rounds, and the end of its trace. -/
def sendTraced (crate : UrlCrate) (retry : Option RetryPolicy)
    (terminal : AttemptEnv ρ α → ResponseHead → Except Text α)
    (stopCompletion : RetryAttemptCompletion) (terminalStatusCode : α → Nat) (fuel : Nat)
    (envs : Nat → TracedEnv ρ α) (elapsed : Nat) (state : RequestState) :
    Option (TracedResult ρ α τ) :=
  match loop (Traced.attempt asSecsF64 crate retry terminal stopCompletion) fuel envs
      ⟨⟨state, [], []⟩, .new retry.isSome⟩ with
  | (none, _) => none
  | (some result, traced) =>
      let (trace, final) := traced.finishResult asSecsF64 terminalStatusCode elapsed result
      some ⟨result, trace, final⟩

/-- `send_request` behind `RequestState::try_from`. -/
def sendTracedRequest (crate : UrlCrate) (retry : Option RetryPolicy)
    (terminalStatusCode : ρ → Nat) (fuel : Nat) (envs : Nat → TracedEnv ρ ρ) (elapsed : Nat)
    (state : RequestState) : Option (TracedResult ρ ρ τ) :=
  sendTraced asSecsF64 crate retry AttemptEnv.rawResponse .pending terminalStatusCode fuel envs
    elapsed state

/-- `send_stream_request` behind `RequestState::try_from`. -/
def sendTracedStreamRequest (crate : UrlCrate) (retry : Option RetryPolicy)
    (terminalStatusCode : α → Nat) (fuel : Nat) (envs : Nat → TracedEnv ρ α) (elapsed : Nat)
    (state : RequestState) : Option (TracedResult ρ α τ) :=
  sendTraced asSecsF64 crate retry AttemptEnv.rawStreamResponse .complete terminalStatusCode fuel
    envs elapsed state

/-! ## Without the recorder -/

omit [LE τ] [DecidableLE τ] in
theorem erase_proceed (traced : Traced ρ τ)
    (rest : Attempts ρ → Round (Attempts ρ) (AttemptResult ρ α)) :
    (traced.proceed rest).map Traced.attempts = rest traced.attempts := by
  unfold Traced.proceed
  cases rest traced.attempts with
  | done result attempts => rfl
  | again attempts => rfl

theorem erase_afterNetworkError (retry : Option RetryPolicy) (env : TracedEnv ρ α)
    (error : HyperClientError) (traced : Traced ρ τ) :
    (traced.afterNetworkError asSecsF64 retry env error).map Traced.attempts =
      traced.attempts.afterNetworkError retry env.toAttemptEnv error := by
  unfold Traced.afterNetworkError Attempts.afterNetworkError
  split
  · rfl
  · cases traced.attempts.state.retryOnNetworkError retry env.retryTiming with
    | none => rfl
    | some decision =>
        cases decision with
        | stop reason => rfl
        | retry delay =>
            simp only [Traced.waitForRetry]
            cases env.waitForRetry delay with
            | error message => rfl
            | ok done => rfl

theorem erase_retryAfterResponse (env : TracedEnv ρ α) (pending : PendingRetryDecision)
    (delay : Nat) (traced : Traced ρ τ) :
    (traced.retryAfterResponse asSecsF64 env pending delay).map Traced.attempts =
      traced.attempts.retryAfterResponse env.toAttemptEnv delay := by
  unfold Traced.retryAfterResponse Attempts.retryAfterResponse Traced.waitForRetry
  cases env.drainResponse with
  | error message => rfl
  | ok drained =>
      simp only
      cases env.waitForRetry delay with
      | error message => rfl
      | ok done => rfl

theorem erase_afterResponse (crate : UrlCrate) (retry : Option RetryPolicy)
    (terminal : ResponseHead → Except Text α) (stopCompletion : RetryAttemptCompletion)
    (env : TracedEnv ρ α) (response : ResponseHead) (traced : Traced ρ τ) :
    (traced.afterResponse asSecsF64 crate retry terminal stopCompletion env response).map
        Traced.attempts =
      traced.attempts.afterResponse crate retry terminal env.toAttemptEnv response := by
  unfold Traced.afterResponse Attempts.afterResponse
  dsimp only
  cases env.responseHeadersHook traced.attempts.state.policyRequest response
      traced.attempts.history.length with
  | error message => rfl
  | ok hooked =>
      dsimp only
      cases traced.attempts.state.policy.onResponseHeaders crate
          traced.attempts.state.policyRequest response with
      | some action => exact erase_proceed _ _
      | none =>
          dsimp only
          cases traced.attempts.state.retryOnResponse retry env.retryTiming response with
          | none => exact erase_proceed _ _
          | some decision =>
              cases decision with
              | retry delay => exact erase_retryAfterResponse asSecsF64 _ _ _ _
              | stop reason => exact erase_proceed _ _

theorem erase_sendHop (crate : UrlCrate) (retry : Option RetryPolicy)
    (terminal : ResponseHead → Except Text α) (stopCompletion : RetryAttemptCompletion)
    (env : TracedEnv ρ α) (hop : Hop) (traced : Traced ρ τ) :
    (traced.sendHop asSecsF64 crate retry terminal stopCompletion env hop).map Traced.attempts =
      traced.attempts.sendHop crate retry terminal env.toAttemptEnv hop := by
  unfold Traced.sendHop Attempts.sendHop
  dsimp only
  cases env.clientRequest hop with
  | error message => rfl
  | ok answer =>
      cases answer with
      | error error => exact erase_afterNetworkError asSecsF64 retry env error _
      | ok response =>
          exact erase_afterResponse asSecsF64 crate retry terminal stopCompletion env response _

/-- A traced round without its recorder is a round of the attempt loop. -/
theorem erase_attempt (crate : UrlCrate) (retry : Option RetryPolicy)
    (terminal : AttemptEnv ρ α → ResponseHead → Except Text α)
    (stopCompletion : RetryAttemptCompletion) (env : TracedEnv ρ α) (traced : Traced ρ τ) :
    (traced.attempt asSecsF64 crate retry terminal stopCompletion env).map Traced.attempts =
      traced.attempts.attempt crate retry terminal env.toAttemptEnv := by
  unfold Traced.attempt Attempts.attempt
  dsimp only
  generalize traced.attempts.state.transportRoute env.hop traced.attempts.history.length = routed
  cases routed.1 with
  | error error => rfl
  | ok route =>
      dsimp only
      cases env.acquireRequestSlot routed.2.url.origin traced.attempts.history.length with
      | error message => rfl
      | ok permit =>
          dsimp only
          cases routed.2.handOver env.toAttemptEnv with
          | error message => rfl
          | ok hop => exact erase_sendHop asSecsF64 crate retry _ stopCompletion env hop _

/-- A traced loop returns what the attempt loop returns. -/
theorem erase_loop (crate : UrlCrate) (retry : Option RetryPolicy)
    (terminal : AttemptEnv ρ α → ResponseHead → Except Text α)
    (stopCompletion : RetryAttemptCompletion) (fuel : Nat) (envs : Nat → TracedEnv ρ α)
    (state : RequestState) (recorder : RetryTraceRecorder τ) :
    (loop (Traced.attempt asSecsF64 crate retry terminal stopCompletion) fuel envs
      ⟨⟨state, [], []⟩, recorder⟩).1 =
        (sendAttempts crate retry terminal fuel (fun n => (envs n).toAttemptEnv) state).1 := by
  have hround := fun (env : TracedEnv ρ α) (traced : Traced ρ τ) =>
    erase_attempt asSecsF64 crate retry terminal stopCompletion env traced
  have hsame := loop_map Traced.attempts TracedEnv.toAttemptEnv hround fuel envs
    ⟨⟨state, [], []⟩, recorder⟩
  exact (congrArg Prod.fst hsame).symm

end Rounds

end FogHttp
