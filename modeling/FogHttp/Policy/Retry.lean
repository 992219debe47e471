import FogHttp.Policy.Redirect

/-!
# Retries

`RetryPolicy` decides after a response with a listed status, or after a network
error, whether the request is sent again.  A body that cannot be replayed stops
it first, then a method that is not listed, then the number of retries.

The delay before a retry comes out of floating-point arithmetic on a random
sample, and `Retry-After` is read against the clock.  Both are answers of
`RetryTiming`.  Only the bound `MAX_RETRY_DELAY` and the maximum of the two
delays are arithmetic of the model.
-/

namespace FogHttp

open Lib

/-- `MAX_RETRY_DELAY`, in nanoseconds. -/
def maxRetryDelay : Nat := (2 ^ 31 - 1) * 10 ^ 9

/-- What a retry decision takes from the clock and from floating-point arithmetic. -/
structure RetryTiming where
  /-- `RetryPolicy::delay` after so many completed retries. -/
  configuredDelay : Nat → Nat
  /-- `parse_retry_after`. -/
  parseRetryAfter : Text → Option Nat

structure RetryPolicy where
  retries : Nat
  statuses : List Nat
  methods : List Text
  networkErrors : Bool
deriving DecidableEq, Repr

inductive RetryStopReason where
  | methodNotAllowed
  | nonReplayableBody
  | retriesExhausted
deriving DecidableEq, Repr

inductive RetryDecision where
  | retry (delay : Nat)
  | stop (reason : RetryStopReason)
deriving DecidableEq, Repr

/-- `retry_after`: the first `Retry-After` header that reads as a delay. -/
def retryAfter (timing : RetryTiming) (headers : HeaderPairs) : Option Nat :=
  (headers.filter fun header => eqIgnoreAsciiCase header.1 "retry-after").findSome?
    fun header => timing.parseRetryAfter (trim header.2)

namespace RetryPolicy

/-- `RetryPolicy::decision`. -/
def decision (policy : RetryPolicy) (timing : RetryTiming) (request : PolicyRequest)
    (completedRetries : Nat) (minimumDelay : Option Nat) : RetryDecision :=
  if !request.body.canReplay then .stop .nonReplayableBody
  else if !policy.methods.contains request.method then .stop .methodNotAllowed
  else if completedRetries ≥ policy.retries then .stop .retriesExhausted
  else
    let configuredDelay := timing.configuredDelay completedRetries
    .retry (min (minimumDelay.elim configuredDelay fun delay => max delay configuredDelay)
      maxRetryDelay)

/-- `RetryPolicy::on_response`. -/
def onResponse (policy : RetryPolicy) (timing : RetryTiming) (request : PolicyRequest)
    (response : ResponseHead) (completedRetries : Nat) : Option RetryDecision :=
  if policy.statuses.contains response.statusCode then
    some (policy.decision timing request completedRetries (retryAfter timing response.headers))
  else none

/-- `RetryPolicy::on_network_error`. -/
def onNetworkError (policy : RetryPolicy) (timing : RetryTiming) (request : PolicyRequest)
    (completedRetries : Nat) : Option RetryDecision :=
  if policy.networkErrors then some (policy.decision timing request completedRetries none)
  else none

/-- A decision to retry respects the body, the method and the number of retries, and its
delay is bounded. -/
theorem decision_eq_retry {policy : RetryPolicy} {timing : RetryTiming}
    {request : PolicyRequest} {completedRetries : Nat} {minimumDelay : Option Nat} {delay : Nat}
    (h : policy.decision timing request completedRetries minimumDelay = .retry delay) :
    request.body.canReplay = true ∧ request.method ∈ policy.methods ∧
      completedRetries < policy.retries ∧ delay ≤ maxRetryDelay := by
  unfold decision at h
  split at h
  · simp at h
  · rename_i hreplay
    split at h
    · simp at h
    · rename_i hmethod
      split at h
      · simp at h
      · rename_i hbudget
        simp only [RetryDecision.retry.injEq] at h
        simp only [Bool.not_eq_true', Bool.not_eq_false] at hreplay hmethod
        refine ⟨hreplay, List.contains_iff_mem.mp hmethod, by omega, ?_⟩
        rw [← h]
        exact Nat.min_le_right _ _

end RetryPolicy

end FogHttp
