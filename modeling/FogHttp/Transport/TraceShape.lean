import FogHttp.Transport.Monotone
import FogHttp.Transport.RetryTrace

/-!
# The shape of a retry trace

Between two rounds the recorder holds one attempt for each completed retry, numbered
from one.  A decision adds the attempt that is under way.  A decision to retry is
followed by `advance_retry_attempt` or by a failed wait, and a decision to stop by
the end of the loop, so the attempt under way is never recorded twice.

`Recording` is this invariant, `meets_attempt` is its step lemma, and `Ended` lists
how a loop can leave the recorder.  `finish` then adds the attempt under way, completes
it, or leaves it alone, and in each case the trace is one closing attempt behind the
retried ones.

Without its recorder the traced loop is the attempt loop, so it returns within the
same number of rounds.
-/

namespace FogHttp

open Lib

/-! ## Retried attempts -/

section Shape

variable {τ : Type}

/-- Attempts numbered from one, each of which was followed by a retry. -/
structure Retried [LE τ] [DecidableLE τ] (attempts : List (RawRetryAttempt τ)) : Prop where
  numbered : attempts.map RawRetryAttempt.attempt = List.range' 1 attempts.length
  retry : ∀ attempt ∈ attempts, attempt.decision = some retryLabel
  valid : ∀ attempt ∈ attempts, attempt.hasValidDecisionState = true

variable [LE τ] [DecidableLE τ] {attempts : List (RawRetryAttempt τ)} {last : RawRetryAttempt τ}

theorem Retried.nil : Retried ([] : List (RawRetryAttempt τ)) where
  numbered := rfl
  retry := by simp
  valid := by simp

omit [LE τ] [DecidableLE τ] in
theorem numbered_append
    (hnumbered : attempts.map RawRetryAttempt.attempt = List.range' 1 attempts.length)
    (hlast : last.attempt = attempts.length + 1) :
    (attempts ++ [last]).map RawRetryAttempt.attempt =
      List.range' 1 (attempts ++ [last]).length := by
  rw [List.map_append, List.length_append, List.length_singleton, List.range'_concat, hnumbered,
    List.map_singleton, hlast, Nat.one_mul, Nat.add_comm 1]

theorem Retried.append (h : Retried attempts) (hlast : last.attempt = attempts.length + 1)
    (hretry : last.decision = some retryLabel) (hvalid : last.hasValidDecisionState = true) :
    Retried (attempts ++ [last]) where
  numbered := numbered_append h.numbered hlast
  retry attempt hmem := by
    rcases List.mem_append.mp hmem with hmem | hmem
    · exact h.retry attempt hmem
    · rw [List.mem_singleton.mp hmem]
      exact hretry
  valid attempt hmem := by
    rcases List.mem_append.mp hmem with hmem | hmem
    · exact h.valid attempt hmem
    · rw [List.mem_singleton.mp hmem]
      exact hvalid

/-- The last of the retried attempts has their number. -/
theorem Retried.last_attempt (h : Retried attempts) (hlast : attempts.getLast? = some last) :
    last.attempt = attempts.length := by
  have hnumber : (attempts.map RawRetryAttempt.attempt).getLast? = some last.attempt := by
    rw [List.getLast?_map, hlast]
    rfl
  rw [h.numbered, List.getLast?_range'] at hnumber
  split at hnumber
  · simp at hnumber
  · simp only [Option.some.injEq] at hnumber
    omega

end Shape

/-! ## The recorder between two steps -/

section Invariant

variable {ρ α τ : Type}

/-- The recorder holds the retried attempts, and perhaps the attempt under way. -/
structure Recording [LE τ] [DecidableLE τ] (policy : RetryPolicy) (traced : Traced ρ τ)
    (recorded : List (RawRetryAttempt τ)) (underWay : Option (RawRetryAttempt τ)) : Prop where
  attempts : traced.recorder.attempts = some (recorded ++ underWay.toList)
  asserted : traced.recorder.asserted = true
  retried : Retried recorded
  completed : traced.attempts.state.completedRetries = recorded.length
  current : traced.attempts.state.retryAttempt = recorded.length + 1
  budget : recorded.length ≤ policy.retries
  number : ∀ attempt ∈ underWay, attempt.attempt = recorded.length + 1
  valid : ∀ attempt ∈ underWay, attempt.hasValidDecisionState = true

/-- How a loop leaves the recorder. -/
inductive Ended [LE τ] [DecidableLE τ] (asSecsF64 : Nat → τ) (policy : RetryPolicy)
    (envs : Nat → TracedEnv ρ α) (result : AttemptResult ρ α) (traced : Traced ρ τ) : Prop where
  /-- There was no decision about the attempt under way. -/
  | undecided (recorded : List (RawRetryAttempt τ))
      (recording : Recording policy traced recorded none)
  /-- The decision was to stop. -/
  | stopped (recorded : List (RawRetryAttempt τ)) (last : RawRetryAttempt τ) (n : Nat)
      (recording : Recording policy traced recorded (some last))
      (decision : last.decision ≠ some retryLabel)
      (elapsed : last.decisionElapsed = some (asSecsF64 (envs n).decisionElapsed))
  /-- The decision was to retry, and the wait before the retry failed. -/
  | interrupted (recorded : List (RawRetryAttempt τ)) (last : RawRetryAttempt τ) (n : Nat)
      (delay : Nat) (message : Text)
      (recording : Recording policy traced recorded (some last))
      (completion : last.completion = .complete)
      (backoff : last.backoff = asSecsF64 delay)
      (elapsed : last.decisionElapsed = some (asSecsF64 (envs n).decisionElapsed))
      (wait : (envs n).waitForRetry delay = .error message)
      (raised : result = .error (.python message))

variable [Preorder τ] [DecidableLE τ] {asSecsF64 : Nat → τ} {policy : RetryPolicy}
  {envs : Nat → TracedEnv ρ α} {traced next : Traced ρ τ}
  {recorded : List (RawRetryAttempt τ)} {underWay : Option (RawRetryAttempt τ)}
  {last : RawRetryAttempt τ}

/-- The round goes on with every recorded attempt retried. -/
def Retrying (policy : RetryPolicy) (next : Traced ρ τ) : Prop :=
  ∃ recorded, Recording policy next recorded none

/-- What one round does to the recorder. -/
abbrev RecordingSpec (asSecsF64 : Nat → τ) (policy : RetryPolicy)
    (envs : Nat → TracedEnv ρ α) (round : Round (Traced ρ τ) (AttemptResult ρ α)) : Prop :=
  round.Meets (Ended asSecsF64 policy envs) (Retrying policy)

theorem Recording.congr (h : Recording policy traced recorded underWay)
    (hattempts : next.recorder.attempts = traced.recorder.attempts)
    (hasserted : next.recorder.asserted = traced.recorder.asserted)
    (hcompleted : next.attempts.state.completedRetries =
      traced.attempts.state.completedRetries)
    (hcurrent : next.attempts.state.retryAttempt = traced.attempts.state.retryAttempt) :
    Recording policy next recorded underWay where
  attempts := hattempts.trans h.attempts
  asserted := hasserted.trans h.asserted
  retried := h.retried
  completed := hcompleted.trans h.completed
  current := hcurrent.trans h.current
  budget := h.budget
  number := h.number
  valid := h.valid

/-- An attempt with a decision is valid when it is made. -/
theorem hasValidDecisionState_rawAttempt (asSecsF64 : Nat → τ)
    (pending : PendingRetryDecision) (attempt : Nat) (method origin : Text)
    (redirectHop decisionElapsed : Nat) (completion : RetryAttemptCompletion) :
    (pending.rawAttempt asSecsF64 attempt method origin redirectHop decisionElapsed
      completion).hasValidDecisionState = true := by
  simp [RawRetryAttempt.hasValidDecisionState, PendingRetryDecision.rawAttempt]

/-- A decision records the attempt under way. -/
theorem Recording.commit (h : Recording policy traced recorded none) (asSecsF64 : Nat → τ)
    (pending : PendingRetryDecision) (decisionElapsed : Nat)
    (completion : RetryAttemptCompletion) :
    ∃ last, Recording policy
        (traced.commitRetryDecision asSecsF64 pending decisionElapsed completion) recorded
        (some last) ∧
      last.decision = some pending.labels.1 ∧ last.completion = completion ∧
      last.backoff = asSecsF64 pending.labels.2.2 ∧
      last.decisionElapsed = some (asSecsF64 decisionElapsed) := by
  refine ⟨pending.rawAttempt asSecsF64 traced.attempts.state.retryAttempt
    traced.attempts.state.method traced.attempts.state.url.origin traced.attempts.history.length
    decisionElapsed completion, ?_, rfl, rfl, rfl, rfl⟩
  have hattempts : traced.recorder.attempts = some recorded := by simpa using h.attempts
  have hvalid := hasValidDecisionState_rawAttempt asSecsF64 pending
    traced.attempts.state.retryAttempt traced.attempts.state.method
    traced.attempts.state.url.origin traced.attempts.history.length decisionElapsed completion
  constructor
  · simp [Traced.commitRetryDecision, RetryTraceRecorder.record, hattempts]
  · have hlater : recorded.getLast?.all fun last =>
        decide (last.attempt < traced.attempts.state.retryAttempt) := by
      cases hlast : recorded.getLast? with
      | none => rfl
      | some last =>
          have hnumber := h.retried.last_attempt hlast
          simp only [Option.all_some, decide_eq_true_eq, h.current]
          omega
    simp only [Traced.commitRetryDecision, RetryTraceRecorder.record, hattempts, h.asserted,
      hvalid, Bool.and_self, Bool.true_and]
    exact hlater
  · exact h.retried
  · exact h.completed
  · exact h.current
  · exact h.budget
  · rintro attempt ⟨⟩
    exact h.current
  · rintro attempt ⟨⟩
    exact hvalid

/-- `advance_retry_attempt` after a decision to retry. -/
theorem Recording.retried_next (h : Recording policy traced recorded (some last))
    (hretry : last.decision = some retryLabel) (hbudget : recorded.length < policy.retries) :
    Recording policy { traced with attempts := traced.attempts.retried } (recorded ++ [last])
      none where
  attempts := by simpa using h.attempts
  asserted := h.asserted
  retried := h.retried.append (h.number last rfl) hretry (h.valid last rfl)
  completed := by
    rw [List.length_append, List.length_singleton, ← h.completed]
    rfl
  current := by
    rw [List.length_append, List.length_singleton, ← h.current]
    rfl
  budget := by
    rw [List.length_append, List.length_singleton]
    omega
  number := by simp
  valid := by simp

/-! ## One round -/

theorem decision_of_retryOnResponse {state : RequestState} {timing : RetryTiming}
    {response : ResponseHead} {delay : Nat}
    (h : state.retryOnResponse (some policy) timing response = some (.retry delay)) :
    state.completedRetries < policy.retries := by
  simp only [RequestState.retryOnResponse, RetryPolicy.onResponse, Option.bind_eq_bind,
    Option.bind_some, Option.ite_none_right_eq_some, Option.some.injEq] at h
  exact (RetryPolicy.decision_eq_retry h.2).2.2.1

theorem decision_of_retryOnNetworkError {state : RequestState} {timing : RetryTiming}
    {delay : Nat}
    (h : state.retryOnNetworkError (some policy) timing = some (.retry delay)) :
    state.completedRetries < policy.retries := by
  simp only [RequestState.retryOnNetworkError, RetryPolicy.onNetworkError, Option.bind_eq_bind,
    Option.bind_some, Option.ite_none_right_eq_some, Option.some.injEq] at h
  exact (RetryPolicy.decision_eq_retry h.2).2.2.1

/-- Only a decision to retry has the label of one. -/
theorem labels_stop_ne (reason : RetryStopReason) (trigger : RetryTrigger) :
    (⟨.stop reason, trigger⟩ : PendingRetryDecision).labels.1 ≠ retryLabel := by
  cases reason with
  | nonReplayableBody =>
      show ("block_non_replayable" : Text) ≠ "retry"
      decide
  | methodNotAllowed =>
      show ("stop" : Text) ≠ "retry"
      decide
  | retriesExhausted =>
      show ("stop" : Text) ≠ "retry"
      decide

theorem Recording.meets_raised (h : Recording policy traced recorded none) (message : Text) :
    RecordingSpec asSecsF64 policy envs (traced.raised message) :=
  .undecided recorded h

/-- The decision to retry is made and the wait follows. -/
theorem Recording.meets_retry (h : Recording policy traced recorded none)
    (trigger : RetryTrigger) (delay n : Nat)
    (hbudget : traced.attempts.state.completedRetries < policy.retries) :
    RecordingSpec asSecsF64 policy envs
      ((traced.commitRetryDecision asSecsF64 ⟨.retry delay, trigger⟩ (envs n).decisionElapsed
        .complete).waitForRetry (envs n) delay) := by
  obtain ⟨last, hrecording, hdecision, hcomplete, hbackoff, helapsed⟩ :=
    h.commit asSecsF64 ⟨.retry delay, trigger⟩ (envs n).decisionElapsed .complete
  rw [h.completed] at hbudget
  unfold Traced.waitForRetry
  split
  · rename_i message hwait
    exact .interrupted recorded last n delay message hrecording hcomplete hbackoff helapsed hwait
      rfl
  · exact ⟨recorded ++ [last], hrecording.retried_next hdecision hbudget⟩

/-- The decision to stop is made and the loop ends. -/
theorem Recording.ended_stop (h : Recording policy traced recorded none)
    (reason : RetryStopReason) (trigger : RetryTrigger) (n : Nat)
    (completion : RetryAttemptCompletion) (result : AttemptResult ρ α) (attempts : Attempts ρ)
    (hstate : attempts.state = traced.attempts.state) :
    Ended asSecsF64 policy envs result
      { traced.commitRetryDecision asSecsF64 ⟨.stop reason, trigger⟩ (envs n).decisionElapsed
        completion with attempts } := by
  obtain ⟨last, hrecording, hdecision, -, -, helapsed⟩ :=
    h.commit asSecsF64 ⟨.stop reason, trigger⟩ (envs n).decisionElapsed completion
  refine .stopped recorded last n
    (hrecording.congr rfl rfl (congrArg _ hstate) (congrArg _ hstate)) ?_ helapsed
  rw [hdecision]
  exact fun heq => labels_stop_ne reason trigger (Option.some.inj heq)

theorem Recording.meets_afterNetworkError (h : Recording policy traced recorded none) (n : Nat)
    (error : HyperClientError) :
    RecordingSpec asSecsF64 policy envs
      (traced.afterNetworkError asSecsF64 (some policy) (envs n) error) := by
  unfold Traced.afterNetworkError
  split
  · exact h.meets_raised _
  · split
    · exact h.meets_raised _
    · rename_i decision hdecision
      cases decision with
      | retry delay =>
          exact h.meets_retry .networkError delay n (decision_of_retryOnNetworkError hdecision)
      | stop reason => exact h.ended_stop reason .networkError n .complete _ _ rfl

theorem Recording.meets_retryAfterResponse (h : Recording policy traced recorded none) (n : Nat)
    (trigger : RetryTrigger) (delay : Nat)
    (hbudget : traced.attempts.state.completedRetries < policy.retries) :
    RecordingSpec asSecsF64 policy envs
      (traced.retryAfterResponse asSecsF64 (envs n) ⟨.retry delay, trigger⟩ delay) := by
  unfold Traced.retryAfterResponse
  split
  · exact h.meets_raised _
  · exact h.meets_retry trigger delay n hbudget

/-- Returning the response leaves the request as it is. -/
theorem complete_state (terminal : ResponseHead → Except Text α) (response : ResponseHead)
    (attempts : Attempts ρ) :
    (attempts.complete terminal response).Meets (fun _ next => next.state = attempts.state)
      fun _ => False := by
  unfold Attempts.complete
  split
  · rfl
  · rfl

/-- Following a redirect keeps the two counters. -/
theorem follow_counters (env : AttemptEnv ρ α) (response : ResponseHead)
    (action : ResponsePolicyAction) (attempts : Attempts ρ) :
    (attempts.follow env response action).Meets (fun _ next => next.state = attempts.state)
      fun next => next.state.completedRetries = attempts.state.completedRetries ∧
        next.state.retryAttempt = attempts.state.retryAttempt := by
  unfold Attempts.follow
  split
  · rfl
  · split
    · rfl
    · have hsame := attempts.state.removeManagedHeader_same
      exact ⟨hsame.completedRetries_eq, hsame.retryAttempt_eq⟩

theorem Recording.meets_complete (h : Recording policy traced recorded none)
    (terminal : ResponseHead → Except Text α) (response : ResponseHead) :
    RecordingSpec asSecsF64 policy envs
      (traced.proceed fun attempts => attempts.complete terminal response) := by
  have hstate := complete_state terminal response traced.attempts
  rw [RecordingSpec, Traced.proceed, Round.meets_map]
  refine hstate.imp (fun result next hnext => ?_) fun next hnext => hnext.elim
  exact .undecided recorded (h.congr rfl rfl (congrArg _ hnext) (congrArg _ hnext))

theorem Recording.meets_follow (h : Recording policy traced recorded none)
    (env : AttemptEnv ρ α) (response : ResponseHead) (action : ResponsePolicyAction) :
    RecordingSpec asSecsF64 policy envs
      (traced.proceed fun attempts => attempts.follow env response action) := by
  have hcounters := follow_counters env response action traced.attempts
  rw [RecordingSpec, Traced.proceed, Round.meets_map]
  refine hcounters.imp (fun result next hnext => ?_) fun next hnext => ?_
  · exact .undecided recorded (h.congr rfl rfl (congrArg _ hnext) (congrArg _ hnext))
  · exact ⟨recorded, h.congr rfl rfl hnext.1 hnext.2⟩

theorem Recording.meets_stop (h : Recording policy traced recorded none) (n : Nat)
    (reason : RetryStopReason) (trigger : RetryTrigger) (completion : RetryAttemptCompletion)
    (terminal : ResponseHead → Except Text α) (response : ResponseHead) :
    RecordingSpec asSecsF64 policy envs
      ((traced.commitRetryDecision asSecsF64 ⟨.stop reason, trigger⟩ (envs n).decisionElapsed
        completion).proceed fun attempts => attempts.complete terminal response) := by
  have hstate := complete_state terminal response traced.attempts
  rw [RecordingSpec, Traced.proceed, Round.meets_map]
  refine hstate.imp (fun result next hnext => ?_) fun next hnext => hnext.elim
  exact h.ended_stop reason trigger n completion result next hnext

theorem Recording.meets_afterResponse (h : Recording policy traced recorded none) (n : Nat)
    (crate : UrlCrate) (terminal : ResponseHead → Except Text α)
    (stopCompletion : RetryAttemptCompletion) (response : ResponseHead) :
    RecordingSpec asSecsF64 policy envs
      (traced.afterResponse asSecsF64 crate (some policy) terminal stopCompletion (envs n)
        response) := by
  have hobserved : Recording policy
      { traced with recorder :=
        traced.recorder.observeResponse response.statusCode traced.attempts.history.length }
      recorded none := by
    refine h.congr ?_ ?_ rfl rfl
    · unfold RetryTraceRecorder.observeResponse
      split <;> rfl
    · unfold RetryTraceRecorder.observeResponse
      split <;> rfl
  unfold Traced.afterResponse
  dsimp only
  split
  · exact hobserved.meets_raised _
  · split
    · exact hobserved.meets_follow _ _ _
    · split
      · rename_i delay hdecision
        exact hobserved.meets_retryAfterResponse n _ delay
          (decision_of_retryOnResponse hdecision)
      · exact hobserved.meets_stop n _ _ stopCompletion terminal response
      · exact hobserved.meets_complete terminal response

/-- One round keeps the invariant or ends in one of the three ways. -/
theorem Recording.meets_attempt (h : Recording policy traced recorded none) (n : Nat)
    (crate : UrlCrate) (terminal : AttemptEnv ρ α → ResponseHead → Except Text α)
    (stopCompletion : RetryAttemptCompletion) :
    RecordingSpec asSecsF64 policy envs
      (traced.attempt asSecsF64 crate (some policy) terminal stopCompletion (envs n)) := by
  have hsame := traced.attempts.state.transportRoute_same (envs n).hop
    traced.attempts.history.length
  have hrouted : Recording policy
      ⟨{ traced.attempts with
        state := (traced.attempts.state.transportRoute (envs n).hop
          traced.attempts.history.length).2 }, traced.recorder.beginTransportHop⟩
      recorded none := by
    refine h.congr ?_ ?_ hsame.completedRetries_eq hsame.retryAttempt_eq
    · unfold RetryTraceRecorder.beginTransportHop
      split <;> rfl
    · unfold RetryTraceRecorder.beginTransportHop
      split <;> rfl
  unfold Traced.attempt
  dsimp only
  split
  · exact .undecided recorded hrouted
  · split
    · exact hrouted.meets_raised _
    · split
      · exact hrouted.meets_raised _
      · rename_i hop hhop
        have hsent : Recording policy
            ⟨{ traced.attempts with
              state := (traced.attempts.state.transportRoute (envs n).hop
                traced.attempts.history.length).2
              trace := traced.attempts.trace ++ [AttemptEvent.hop hop] },
              traced.recorder.beginTransportHop⟩
            recorded none := hrouted.congr rfl rfl rfl rfl
        unfold Traced.sendHop
        dsimp only
        split
        · exact hsent.meets_raised _
        · exact hsent.meets_afterNetworkError n _
        · exact hsent.meets_afterResponse n crate _ stopCompletion _

/-! ## The end of the trace -/

section Finish

open RetryTraceRecorder

variable {attempts : List (RawRetryAttempt τ)} {terminal : RawRetryAttempt τ}
  {outcome : RetryTraceOutcome}

omit [Preorder τ] [DecidableLE τ] in
theorem finishAttempts_new
    (h : ∀ last, attempts.getLast? = some last → last.attempt ≠ terminal.attempt) :
    finishAttempts attempts terminal outcome = (attempts ++ [terminal], outcome.isError) := by
  unfold finishAttempts
  split
  · rename_i last hlast
    rw [if_neg (h last hlast)]
  · rfl

omit [Preorder τ] [DecidableLE τ] in
theorem finishAttempts_complete (hnumber : last.attempt = terminal.attempt)
    (hcomplete : last.completion = .complete) :
    finishAttempts (attempts ++ [last]) terminal outcome = (attempts ++ [last], false) := by
  simp [finishAttempts, hnumber, hcomplete]

omit [Preorder τ] [DecidableLE τ] in
theorem finishAttempts_pending (hnumber : last.attempt = terminal.attempt)
    (hpending : last.completion = .pending) :
    finishAttempts (attempts ++ [last]) terminal outcome =
      (attempts ++ [last.completedBy terminal], outcome.isError) := by
  simp [finishAttempts, hnumber, hpending]

/-- A stop decision that is completed later stays valid while time does not go back. -/
theorem hasValidDecisionState_completedBy (hvalid : last.hasValidDecisionState = true)
    (hclock : ∀ elapsed ∈ last.decisionElapsed, elapsed ≤ terminal.completedElapsed) :
    (last.completedBy terminal).hasValidDecisionState = true := by
  simp only [RawRetryAttempt.hasValidDecisionState, Bool.and_eq_true, Option.all_eq_true,
    decide_eq_true_eq] at hvalid ⊢
  exact ⟨⟨hvalid.1.1, hclock⟩, rfl⟩

/-- The wait before a retry was the last thing that the loop did. -/
def FailedWait (asSecsF64 : Nat → τ) (envs : Nat → TracedEnv ρ α)
    (result : AttemptResult ρ α) (last : RawRetryAttempt τ) : Prop :=
  ∃ n delay message, last.decisionElapsed = some (asSecsF64 (envs n).decisionElapsed) ∧
    last.backoff = asSecsF64 delay ∧ (envs n).waitForRetry delay = .error message ∧
    result = .error (.python message)

/-- `finish` leaves the retried attempts and one more. -/
structure Closing (asSecsF64 : Nat → τ) (policy : RetryPolicy) (envs : Nat → TracedEnv ρ α)
    (elapsed : Nat) (result : AttemptResult ρ α) (traced : Traced ρ τ)
    (recorded : List (RawRetryAttempt τ)) (closing : RawRetryAttempt τ)
    (terminalError : Bool) : Prop where
  retried : Retried recorded
  completed : traced.attempts.state.completedRetries = recorded.length
  budget : recorded.length ≤ policy.retries
  number : closing.attempt = recorded.length + 1
  retry : closing.decision = some retryLabel →
    terminalError = false ∧ FailedWait asSecsF64 envs result closing
  valid : (∀ n, asSecsF64 (envs n).decisionElapsed ≤ asSecsF64 elapsed) →
    closing.hasValidDecisionState = true

theorem Recording.closing {elapsed : Nat} {result : AttemptResult ρ α} {terminalError : Bool}
    {closing : RawRetryAttempt τ} (h : Recording policy traced recorded underWay)
    (hnumber : closing.attempt = recorded.length + 1)
    (hretry : closing.decision = some retryLabel →
      terminalError = false ∧ FailedWait asSecsF64 envs result closing)
    (hvalid : (∀ n, asSecsF64 (envs n).decisionElapsed ≤ asSecsF64 elapsed) →
      closing.hasValidDecisionState = true) :
    Closing asSecsF64 policy envs elapsed result traced recorded closing terminalError :=
  ⟨h.retried, h.completed, h.budget, hnumber, hretry, hvalid⟩

/-- The terminal attempt has no decision. -/
theorem hasValidDecisionState_terminalAttempt (asSecsF64 : Nat → τ) (traced : Traced ρ τ)
    (statusCode : Option Nat) (redirectHop elapsed : Nat) :
    (traced.terminalAttempt asSecsF64 statusCode redirectHop
      elapsed).hasValidDecisionState = true := rfl

theorem Ended.finishAttempts {result : AttemptResult ρ α}
    (h : Ended asSecsF64 policy envs result traced) (outcome : RetryTraceOutcome)
    (statusCode : Option Nat) (redirectHop elapsed : Nat) :
    ∃ attempts recorded closing terminalError, traced.recorder.attempts = some attempts ∧
      traced.recorder.asserted = true ∧
      RetryTraceRecorder.finishAttempts attempts
        (traced.terminalAttempt asSecsF64 statusCode redirectHop elapsed) outcome =
          (recorded ++ [closing], terminalError) ∧
      Closing asSecsF64 policy envs elapsed result traced recorded closing terminalError := by
  cases h with
  | undecided recorded recording =>
      refine ⟨recorded, recorded, _, _, by simpa using recording.attempts, recording.asserted,
        finishAttempts_new fun last hlast => ?_, recording.closing recording.current
          (fun h : none = some retryLabel => nomatch h)
          fun _ => hasValidDecisionState_terminalAttempt ..⟩
      have hnumber := recording.retried.last_attempt hlast
      have hcurrent := recording.current
      show last.attempt ≠ traced.attempts.state.retryAttempt
      omega
  | stopped recorded last n recording decision elapsedEq =>
      have hnumber : last.attempt = (traced.terminalAttempt asSecsF64 statusCode redirectHop
          elapsed).attempt := (recording.number last rfl).trans recording.current.symm
      cases hcompletion : last.completion with
      | complete =>
          exact ⟨recorded ++ [last], recorded, last, _, recording.attempts, recording.asserted,
            finishAttempts_complete hnumber hcompletion,
            recording.closing (recording.number last rfl) (fun h => absurd h decision)
              fun _ => recording.valid last rfl⟩
      | pending =>
          refine ⟨recorded ++ [last], recorded, _, _, recording.attempts, recording.asserted,
            finishAttempts_pending hnumber hcompletion,
            recording.closing (recording.number last rfl) (fun h => absurd h decision)
              fun hclock => ?_⟩
          refine hasValidDecisionState_completedBy (recording.valid last rfl) fun time htime => ?_
          rw [elapsedEq, Option.mem_some_iff] at htime
          rw [← htime]
          exact hclock n
  | interrupted recorded last n delay message recording completion backoff elapsedEq wait
      raised =>
      have hnumber : last.attempt = (traced.terminalAttempt asSecsF64 statusCode redirectHop
          elapsed).attempt := (recording.number last rfl).trans recording.current.symm
      exact ⟨recorded ++ [last], recorded, last, _, recording.attempts, recording.asserted,
        finishAttempts_complete hnumber completion,
        recording.closing (recording.number last rfl)
          (fun _ => ⟨rfl, n, delay, message, elapsedEq, backoff, wait, raised⟩)
          fun _ => recording.valid last rfl⟩

/-- `finish_retry_trace` of a loop that has ended. -/
theorem Ended.finishRetryTrace {result : AttemptResult ρ α}
    (h : Ended asSecsF64 policy envs result traced) (outcome : RetryTraceOutcome)
    (statusCode : Option Nat) (redirectHop elapsed : Nat) :
    ∃ recorded closing terminalError,
      (traced.finishRetryTrace asSecsF64 outcome statusCode redirectHop elapsed).1 =
        some ⟨recorded ++ [closing], outcome.asStr, statusCode, asSecsF64 elapsed,
          terminalError⟩ ∧
      (traced.finishRetryTrace asSecsF64 outcome statusCode redirectHop elapsed).2.attempts =
        traced.attempts ∧
      (traced.finishRetryTrace asSecsF64 outcome statusCode redirectHop
        elapsed).2.recorder.asserted =
          (recorded ++ [closing]).all RawRetryAttempt.hasValidDecisionState ∧
      Closing asSecsF64 policy envs elapsed result traced recorded closing terminalError := by
  obtain ⟨attempts, recorded, closing, terminalError, hattempts, hasserted, hfinish, hclosing⟩ :=
    h.finishAttempts outcome statusCode redirectHop elapsed
  refine ⟨recorded, closing, terminalError, ?_, ?_, ?_, hclosing⟩
  · simp only [Traced.finishRetryTrace, finish, hattempts, hfinish, Option.isSome_some, if_true]
  · simp only [Traced.finishRetryTrace, finish, hattempts, hfinish, Option.isSome_some, if_true]
  · have hvalid := hasValidDecisionState_terminalAttempt asSecsF64 traced statusCode redirectHop
      elapsed
    simp only [Traced.finishRetryTrace, finish, hattempts, hfinish, Option.isSome_some, if_true,
      hasserted, hvalid, Bool.true_and, Bool.and_true]
    rfl

/-- The trace of a request with a retry policy.  `completedRetries` is the counter of the
request at the end. -/
structure WellFormedTrace (asSecsF64 : Nat → τ) (policy : RetryPolicy)
    (envs : Nat → TracedEnv ρ α) (result : AttemptResult ρ α) (completedRetries : Nat)
    (trace : RawRetryTrace τ) : Prop where
  numbered : trace.attempts.map RawRetryAttempt.attempt =
    List.range' 1 trace.attempts.length
  nonempty : 1 ≤ trace.attempts.length
  bounded : trace.attempts.length ≤ policy.retries + 1
  retried : ∀ attempt ∈ trace.attempts.dropLast, attempt.decision = some retryLabel
  last : ∀ last, trace.attempts.getLast? = some last → last.decision = some retryLabel →
    trace.outcome = RetryTraceOutcome.error.asStr ∧
      trace.terminalErrorOnLastAttempt = false ∧ FailedWait asSecsF64 envs result last
  counted : (trace.attempts.countP fun attempt => attempt.decision = some retryLabel) =
      completedRetries ∨
    (trace.attempts.countP fun attempt => attempt.decision = some retryLabel) =
      completedRetries + 1

theorem Closing.wellFormed {elapsed : Nat} {result : AttemptResult ρ α} {terminalError : Bool}
    {closing : RawRetryAttempt τ}
    (h : Closing asSecsF64 policy envs elapsed result traced recorded closing terminalError)
    (houtcome : ∀ error, result = .error error → outcome = .error) (statusCode : Option Nat) :
    WellFormedTrace asSecsF64 policy envs result traced.attempts.state.completedRetries
      ⟨recorded ++ [closing], outcome.asStr, statusCode, asSecsF64 elapsed, terminalError⟩ where
  numbered := numbered_append h.retried.numbered h.number
  nonempty := by simp
  bounded := by
    have hbudget := h.budget
    simp only [List.length_append, List.length_singleton]
    omega
  retried attempt hmem := by
    rw [List.dropLast_concat] at hmem
    exact h.retried.retry attempt hmem
  last last hlast hretry := by
    rw [List.getLast?_concat, Option.some.injEq] at hlast
    subst hlast
    obtain ⟨hterminal, hwait⟩ := h.retry hretry
    have hraised : ∃ message, result = .error (.python message) := by
      obtain ⟨n, delay, message, -, -, -, hraised⟩ := hwait
      exact ⟨message, hraised⟩
    obtain ⟨message, hraised⟩ := hraised
    exact ⟨by rw [houtcome _ hraised], hterminal, hwait⟩
  counted := by
    have hall : (recorded.countP fun attempt => attempt.decision = some retryLabel) =
        recorded.length := List.countP_eq_length.mpr fun attempt hmem =>
      decide_eq_true (h.retried.retry attempt hmem)
    rw [List.countP_append, hall, h.completed, List.countP_singleton]
    split
    · exact Or.inr rfl
    · exact Or.inl rfl

/-- An error ends the trace with the outcome of an error. -/
theorem finishResult_eq (asSecsF64 : Nat → τ) (terminalStatusCode : α → Nat) (elapsed : Nat)
    (traced : Traced ρ τ) (result : AttemptResult ρ α) :
    ∃ outcome statusCode redirectHop, (∀ error, result = .error error → outcome = .error) ∧
      traced.finishResult asSecsF64 terminalStatusCode elapsed result =
        traced.finishRetryTrace asSecsF64 outcome statusCode redirectHop elapsed := by
  cases result with
  | ok done => exact ⟨.response, _, _, nofun, rfl⟩
  | error error => exact ⟨.error, _, _, fun _ _ => rfl, rfl⟩

/-- The end of `send_request` and `send_stream_request`, after a loop that has ended. -/
theorem Ended.finishResult {result : AttemptResult ρ α}
    (h : Ended asSecsF64 policy envs result traced) (terminalStatusCode : α → Nat)
    (elapsed : Nat) :
    (∃ trace, (traced.finishResult asSecsF64 terminalStatusCode elapsed result).1 = some trace ∧
      WellFormedTrace asSecsF64 policy envs result
        (traced.finishResult asSecsF64 terminalStatusCode elapsed
          result).2.attempts.state.completedRetries trace) ∧
      ((∀ n, asSecsF64 (envs n).decisionElapsed ≤ asSecsF64 elapsed) →
        (traced.finishResult asSecsF64 terminalStatusCode elapsed
          result).2.recorder.asserted = true) := by
  obtain ⟨outcome, statusCode, redirectHop, houtcome, hsame⟩ :=
    finishResult_eq asSecsF64 terminalStatusCode elapsed traced result
  obtain ⟨recorded, closing, terminalError, htrace, hattempts, hasserted, hclosing⟩ :=
    h.finishRetryTrace outcome statusCode redirectHop elapsed
  rw [hsame, htrace, hattempts, hasserted]
  refine ⟨⟨_, rfl, hclosing.wellFormed houtcome statusCode⟩, fun hclock => ?_⟩
  rw [List.all_append, List.all_eq_true.mpr hclosing.retried.valid]
  simpa using hclosing.valid hclock

end Finish

/-! ## Whole runs -/

/-- The recorder of a request that was just built. -/
theorem recording_new {state : RequestState} (hcompleted : state.completedRetries = 0)
    (hcurrent : state.retryAttempt = 1) :
    Recording policy (⟨⟨state, [], []⟩, .new true⟩ : Traced ρ τ) [] none where
  attempts := rfl
  asserted := rfl
  retried := Retried.nil
  completed := hcompleted
  current := hcurrent
  budget := Nat.zero_le _
  number := by simp
  valid := by simp

/-- What a request with a retry policy guarantees about its trace. -/
structure Traces (asSecsF64 : Nat → τ) (policy : RetryPolicy) (parts : TransportRequest)
    (fuel : Nat) (envs : Nat → TracedEnv ρ α) (elapsed : Nat)
    (sent : Option (TracedResult ρ α τ)) : Prop where
  /-- Enough rounds let the loop return. -/
  returns : maxTransportHops parts (some policy) ≤ fuel → sent.isSome = true
  wellFormed : ∀ done, sent = some done → ∃ trace, done.trace = some trace ∧
    WellFormedTrace asSecsF64 policy envs done.result
      done.final.attempts.state.completedRetries trace
  /-- No debug assertion fails while time does not go back. -/
  asserted : ∀ done, sent = some done →
    (∀ n, asSecsF64 (envs n).decisionElapsed ≤ asSecsF64 elapsed) →
      done.final.recorder.asserted = true

theorem traces_sendTraced (asSecsF64 : Nat → τ) (crate : UrlCrate) (policy : RetryPolicy)
    (terminal : AttemptEnv ρ α → ResponseHead → Except Text α)
    (stopCompletion : RetryAttemptCompletion) (terminalStatusCode : α → Nat) (fuel : Nat)
    (envs : Nat → TracedEnv ρ α) (elapsed : Nat) {toUppercase : Text → Text}
    {parts : TransportRequest} {state : RequestState}
    (hstate : RequestState.tryFrom crate toUppercase parts = .ok state) :
    Traces asSecsF64 policy parts fuel envs elapsed
      (sendTraced asSecsF64 crate (some policy) terminal stopCompletion terminalStatusCode fuel
        envs elapsed state) := by
  obtain ⟨hredirects, hcompleted, hcurrent, -⟩ := tryFrom_eq_ok hstate
  have herased := erase_loop asSecsF64 crate (some policy) terminal stopCompletion fuel envs
    state (.new (some policy).isSome)
  have hstart : Retrying policy
      (⟨⟨state, [], []⟩, .new (some policy).isSome⟩ : Traced ρ τ) :=
    ⟨[], recording_new hcompleted hcurrent⟩
  unfold sendTraced
  split
  · rename_i traced hrun
    rw [hrun] at herased
    refine ⟨fun hfuel => ?_, fun _ hdone => (by simp at hdone), fun _ hdone => (by simp at hdone)⟩
    rw [maxTransportHops, ← hredirects] at hfuel
    have hreturns := returns_sendAttempts crate (some policy) terminal fuel
      (fun n => (envs n).toAttemptEnv) hcompleted hfuel
    rw [← herased] at hreturns
    exact absurd hreturns (by simp)
  · rename_i result traced hrun
    have hended : Ended asSecsF64 policy envs result traced := by
      refine loop_partial (Retrying policy) (Ended asSecsF64 policy envs) envs
        (fun n _ hretrying => ?_) fuel _ hstart hrun
      obtain ⟨_, h⟩ := hretrying
      exact h.meets_attempt n crate terminal stopCompletion
    obtain ⟨htrace, hasserted⟩ := hended.finishResult terminalStatusCode elapsed
    refine ⟨fun _ => rfl, fun done hdone => ?_, fun done hdone => ?_⟩
    · rw [← Option.some.inj hdone]
      exact htrace
    · rw [← Option.some.inj hdone]
      exact hasserted

end Invariant

/-- Whatever the server, the network, the clock, the hooks and the policies answer, the trace
of a buffered or streaming request with a retry policy is well formed. -/
theorem retry_trace_well_formed {ρ α τ : Type} [Preorder τ] [DecidableLE τ]
    (asSecsF64 : Nat → τ) (crate : UrlCrate) (toUppercase : Text → Text) (policy : RetryPolicy)
    (parts : TransportRequest) (state : RequestState)
    (hstate : RequestState.tryFrom crate toUppercase parts = .ok state) (fuel elapsed : Nat) :
    (∀ (terminalStatusCode : ρ → Nat) (envs : Nat → TracedEnv ρ ρ),
      Traces asSecsF64 policy parts fuel envs elapsed
        (sendTracedRequest asSecsF64 crate (some policy) terminalStatusCode fuel envs elapsed
          state)) ∧
    (∀ (terminalStatusCode : α → Nat) (envs : Nat → TracedEnv ρ α),
      Traces asSecsF64 policy parts fuel envs elapsed
        (sendTracedStreamRequest asSecsF64 crate (some policy) terminalStatusCode fuel envs
          elapsed state)) :=
  ⟨fun terminalStatusCode envs => traces_sendTraced asSecsF64 crate policy _ _ terminalStatusCode
      fuel envs elapsed hstate,
    fun terminalStatusCode envs => traces_sendTraced asSecsF64 crate policy _ _
      terminalStatusCode fuel envs elapsed hstate⟩

/-! A `GET` whose first attempt meets a network error and whose second one is answered. -/

namespace TraceExample

/-- The `url` crate on the URL of the example. -/
def crate : UrlCrate where
  parse _ := .ok ⟨"https", [], none, some "a.test", none, "/", none, none⟩
  join _ _ := .error "relative URL without a base"

def parts : TransportRequest where
  method := "GET"
  url := "https://a.test/"
  headers := []
  authOverrideHeaders := none
  authRemovedHeaders := []
  body := none
  bodyStream := none
  bodyReplayable := true
  useProxyTransport := false
  proxyPolicy := "direct"
  followRedirects := true
  maxRedirects := 20
  ssrfPolicy := none
  hasCookieJar := false
  hasAuth := false

def policy : RetryPolicy := ⟨1, [503], ["GET"], true⟩

/-- The answers of the round with this number.  A response is its status code. -/
def envs (n : Nat) : TracedEnv Nat Nat where
  hop := ⟨fun _ _ _ _ => .ok [], fun _ => none, fun _ _ => .ok ()⟩
  acquireRequestSlot _ _ := .ok ()
  connectionLimitContext := .ok ()
  takeReceiver _ := .ok none
  buildRequest _ := .ok ()
  clientRequest _ := .ok (if n = 0 then .error ⟨"connection reset", true⟩ else .ok ⟨200, []⟩)
  responseHeadersHook _ _ _ := .ok ()
  retryTiming := ⟨fun _ => 5, fun _ => none⟩
  drainResponse := .ok ()
  waitForRetry _ := .ok ()
  rawResponse response := .ok response.statusCode
  rawStreamResponse response := .ok response.statusCode
  responseBodyHook _ _ _ := .ok ()
  decisionElapsed := if n = 0 then 3 else 8

theorem retry_trace_well_formed_example :
    ∃ state done trace, RequestState.tryFrom crate id parts = .ok state ∧
      sendTracedRequest id crate (some policy) id 22 envs 9 state = some done ∧
      done.trace = some trace ∧
      trace.attempts.map RawRetryAttempt.decision = [some retryLabel, none] ∧
      WellFormedTrace id policy envs done.result
        done.final.attempts.state.completedRetries trace ∧
      done.final.recorder.asserted = true := by
  obtain ⟨state, hstate⟩ : ∃ state, RequestState.tryFrom crate id parts = .ok state := ⟨_, rfl⟩
  have h := (@retry_trace_well_formed Nat Nat Nat _ _ id crate id policy parts state hstate 22
    9).1 id envs
  obtain ⟨done, hdone⟩ := Option.isSome_iff_exists.mp (h.returns (by decide))
  obtain ⟨trace, htrace, hshape⟩ := h.wellFormed done hdone
  have hasserted := h.asserted done hdone fun n => by
    show (if n = 0 then 3 else 8) ≤ 9
    split <;> omega
  refine ⟨state, done, trace, hstate, hdone, htrace, ?_, hshape, hasserted⟩
  obtain rfl := Except.ok.inj hstate
  obtain rfl := Option.some.inj hdone
  obtain rfl := Option.some.inj htrace
  rfl

end TraceExample

end FogHttp
