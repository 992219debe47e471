import FogHttp.Telemetry.Request

/-!
# Acquisitions and connection uses are bracketed

`Bracketed` is the invariant of a `RequestTelemetry`.  Every method only begins or ends a
phase or a use, so there is one lemma for each of the four, and the methods are put
together from them.  A cancelled telemetry is at rest: no method changes it any more.

Nothing here needs that `begin_pool_acquire` is called only without an active acquisition:
otherwise the call changes nothing.
-/

namespace FogHttp.Telemetry

open Lib

namespace Emission

def isType (eventType : TelemetryEventType) (emission : Emission) : Bool :=
  emission.event.eventType == eventType

/-- The report that the use with this token was aborted. -/
def abortsUse (token : Nat) (emission : Emission) : Bool :=
  emission.isType .connectionAborted && emission.connectionUse == some token

end Emission

namespace UseEnd

def ofUse (token : Nat) (entry : UseEnd) : Bool := entry.token == token

def abortsUse (token : Nat) (entry : UseEnd) : Bool := entry.token == token && entry.ender.aborts

end UseEnd

namespace RequestTelemetry

/-- The use with this token is active. -/
def isActive (telemetry : RequestTelemetry) (token : Nat) : Bool :=
  telemetry.state.connectionUse.any fun connectionUse => connectionUse.token == token

/-- What holds of the telemetry of a request between any two calls. -/
structure Bracketed (telemetry : RequestTelemetry) : Prop where
  /-- Every acquisition that has started has finished, except for the active one. -/
  phases : telemetry.emissions.countP (Emission.isType .poolAcquireStarted) =
    telemetry.emissions.countP (Emission.isType .poolAcquireFinished) +
      telemetry.state.active.isSome.toNat
  /-- Every use that has begun has ended once, except for the active one. -/
  uses : ∀ token, telemetry.ends.countP (UseEnd.ofUse token) + (telemetry.isActive token).toNat =
    if token < telemetry.tokens then 1 else 0
  /-- Every abort of a use is reported once. -/
  aborts : ∀ token, telemetry.emissions.countP (Emission.abortsUse token) =
    telemetry.ends.countP (UseEnd.abortsUse token)
  reported : ∀ emission ∈ telemetry.emissions, emission.isType .connectionAborted = true →
    ∃ token, emission.connectionUse = some token ∧ token < telemetry.tokens
  /-- A token has only ended its own use. -/
  own : ∀ entry ∈ telemetry.ends, ∀ token, entry.ender.token = some token → entry.token = token

theorem bracketed_new (requestId : Nat) (mode : TelemetryRequestMode) (method : Text) :
    Bracketed (new requestId mode method) where
  phases := rfl
  uses _ := rfl
  aborts _ := rfl
  reported := by simp [new]
  own := by simp [new]

section Methods

variable {telemetry : RequestTelemetry}

/-- A call that changes nothing but the parts that no statement is about. -/
theorem Bracketed.idle (h : Bracketed telemetry) {redirectHop : Nat}
    {begins : List BeginPoolAcquire} {cancelled : Bool}
    {terminalErrorType : Option TelemetryErrorType} :
    Bracketed { telemetry with
      redirectHop, begins, state := { telemetry.state with cancelled, terminalErrorType } } :=
  ⟨h.phases, h.uses, h.aborts, h.reported, h.own⟩

/-- An event that is not about the end of a use. -/
theorem Bracketed.reported_push (h : Bracketed telemetry) {event : TelemetryEventRecord}
    {connectionUse : Option Nat} {tokens : Nat} (hle : telemetry.tokens ≤ tokens)
    (hevent : event.eventType = .connectionAborted →
      ∃ token, connectionUse = some token ∧ token < tokens) :
    ∀ emission ∈ telemetry.emissions ++ [Emission.mk connectionUse event],
      emission.isType .connectionAborted = true →
        ∃ token, emission.connectionUse = some token ∧ token < tokens := by
  intro emission hmem htype
  rcases List.mem_append.mp hmem with hmem | hnew
  · obtain ⟨token, huse, hlt⟩ := h.reported emission hmem htype
    exact ⟨token, huse, Nat.lt_of_lt_of_le hlt hle⟩
  · obtain rfl := List.mem_singleton.mp hnew
    exact hevent (by simpa [Emission.isType] using htype)

theorem Bracketed.beginPhase (h : Bracketed telemetry) (origin : Text) (redirectHop : Nat) :
    Bracketed (telemetry.beginPhase .poolAcquire origin redirectHop true) := by
  unfold RequestTelemetry.beginPhase
  split
  · exact h
  · split
    · exact h
    · rename_i hidle
      have hphases := h.phases
      constructor
      case phases =>
        simp only [Bool.not_eq_true, Option.isSome_eq_false_iff, Option.isNone_iff_eq_none] at hidle
        rw [hidle] at hphases
        simp only [if_true, record, List.countP_append, List.countP_singleton]
        simpa [Emission.isType, event] using hphases
      case uses => exact h.uses
      case aborts =>
        intro token
        simp only [if_true, record, List.countP_append, List.countP_singleton]
        simpa [Emission.abortsUse, Emission.isType, event] using h.aborts token
      case reported => exact h.reported_push (Nat.le_refl _) (by simp [event])
      case own => exact h.own

/-- The active phase finishes. -/
theorem Bracketed.takePhase (h : Bracketed telemetry) {phase : ActivePhase}
    {outcome : TelemetryOutcome} {errorType : Option TelemetryErrorType}
    (hactive : telemetry.state.active = some phase) :
    Bracketed (telemetry.takePhase phase .poolAcquireFinished outcome errorType) where
  phases := by
    have hphases := h.phases
    rw [hactive] at hphases
    simp only [RequestTelemetry.takePhase, record, List.countP_append, List.countP_singleton]
    simpa [Emission.isType, event] using hphases
  uses := h.uses
  aborts token := by
    simp only [RequestTelemetry.takePhase, record, List.countP_append, List.countP_singleton]
    simpa [Emission.abortsUse, Emission.isType, event] using h.aborts token
  reported := h.reported_push (Nat.le_refl _) (by simp [event])
  own := h.own

theorem Bracketed.takeActive (h : Bracketed telemetry) (outcome : TelemetryOutcome)
    (errorType : TelemetryErrorType) : Bracketed (telemetry.takeActive outcome errorType) := by
  unfold RequestTelemetry.takeActive
  split
  · exact h
  · rename_i phase hactive
    exact h.takePhase hactive

theorem Bracketed.finishPhase (h : Bracketed telemetry) {outcome : TelemetryOutcome}
    {errorType : Option TelemetryErrorType} :
    Bracketed (telemetry.finishPhase .poolAcquire .poolAcquireFinished outcome errorType).1 := by
  unfold RequestTelemetry.finishPhase
  split
  · exact h
  · rename_i phase hactive
    split
    · exact h
    · exact h.takePhase hactive

theorem Bracketed.beginConnectionUse (h : Bracketed telemetry) (origin : Text) (reused : Bool) :
    Bracketed (telemetry.beginConnectionUse origin reused).1 := by
  unfold RequestTelemetry.beginConnectionUse
  split
  · exact h
  · split
    · exact h
    · rename_i hidle
      simp only [Bool.not_eq_true, Option.isSome_eq_false_iff, Option.isNone_iff_eq_none] at hidle
      have huses : ∀ token, telemetry.ends.countP (UseEnd.ofUse token) +
          (telemetry.tokens == token).toNat = if token < telemetry.tokens + 1 then 1 else 0 := by
        intro token
        have hbefore := h.uses token
        rw [isActive, hidle] at hbefore
        rcases Nat.lt_trichotomy token telemetry.tokens with hlt | rfl | hgt
        · rw [if_pos hlt] at hbefore
          rw [if_pos (by omega), beq_false_of_ne (by omega)]
          exact hbefore
        · rw [if_neg (by omega)] at hbefore
          rw [if_pos (by omega), beq_self_eq_true]
          simpa using hbefore
        · rw [if_neg (by omega)] at hbefore
          rw [if_neg (by omega), beq_false_of_ne (by omega)]
          exact hbefore
      constructor
      case phases =>
        cases reused
        · exact h.phases
        · simp only [if_true, record, List.countP_append, List.countP_singleton]
          simpa [Emission.isType, event] using h.phases
      case uses =>
        cases reused
        · exact huses
        · exact huses
      case aborts =>
        intro token
        cases reused
        · exact h.aborts token
        · simp only [if_true, record, List.countP_append, List.countP_singleton]
          simpa [Emission.abortsUse, Emission.isType, event] using h.aborts token
      case reported =>
        cases reused
        · intro emission hmem htype
          obtain ⟨token, huse, hlt⟩ := h.reported emission hmem htype
          exact ⟨token, huse, Nat.lt_succ_of_lt hlt⟩
        · exact h.reported_push (Nat.le_succ _) (by simp [event])
      case own =>
        cases reused
        · exact h.own
        · exact h.own

/-- The active use ends. -/
theorem Bracketed.takeUse (h : Bracketed telemetry) {connectionUse : ActiveConnectionUse}
    {ender : Ender} (hactive : telemetry.state.connectionUse = some connectionUse)
    (hown : ∀ token, ender.token = some token → connectionUse.token = token)
    {emissions : List Emission}
    (hphases : emissions.countP (Emission.isType .poolAcquireStarted) +
        telemetry.emissions.countP (Emission.isType .poolAcquireFinished) =
      telemetry.emissions.countP (Emission.isType .poolAcquireStarted) +
        emissions.countP (Emission.isType .poolAcquireFinished))
    (haborts : ∀ token, emissions.countP (Emission.abortsUse token) =
      telemetry.emissions.countP (Emission.abortsUse token) +
        (UseEnd.abortsUse token ⟨connectionUse.token, ender⟩).toNat)
    (hreported : ∀ emission ∈ emissions, emission.isType .connectionAborted = true →
      ∃ token, emission.connectionUse = some token ∧ token < telemetry.tokens) :
    Bracketed { telemetry.takeUse connectionUse ender with emissions } where
  phases := by
    have hbefore := h.phases
    show emissions.countP _ = emissions.countP _ + telemetry.state.active.isSome.toNat
    omega
  uses token := by
    have hbefore := h.uses token
    rw [isActive, hactive, Option.any_some] at hbefore
    show (telemetry.ends ++ [UseEnd.mk connectionUse.token ender]).countP
      (UseEnd.ofUse token) + 0 = if token < telemetry.tokens then 1 else 0
    rw [List.countP_append, List.countP_singleton, ← hbefore]
    by_cases htoken : connectionUse.token = token
    · simp [UseEnd.ofUse, htoken]
    · simp [UseEnd.ofUse, htoken]
  aborts token := by
    have hbefore := h.aborts token
    rw [haborts, hbefore]
    show _ = (telemetry.ends ++ [UseEnd.mk connectionUse.token ender]).countP _
    rw [List.countP_append, List.countP_singleton]
    cases UseEnd.abortsUse token ⟨connectionUse.token, ender⟩
    · rfl
    · rfl
  reported := hreported
  own entry hmem token htoken := by
    rcases List.mem_append.mp hmem with hmem | hnew
    · exact h.own entry hmem token htoken
    · obtain rfl := List.mem_singleton.mp hnew
      exact hown token htoken

/-- The active use has begun. -/
theorem Bracketed.token_lt (h : Bracketed telemetry) {connectionUse : ActiveConnectionUse}
    (hactive : telemetry.state.connectionUse = some connectionUse) :
    connectionUse.token < telemetry.tokens := by
  have hbefore := h.uses connectionUse.token
  rw [isActive, hactive, Option.any_some, beq_self_eq_true] at hbefore
  split at hbefore
  · assumption
  · simp at hbefore

/-- A use ends without a report. -/
theorem Bracketed.takeUse_silent (h : Bracketed telemetry) {connectionUse : ActiveConnectionUse}
    (hactive : telemetry.state.connectionUse = some connectionUse) {token : Nat}
    (hown : connectionUse.token = token) :
    Bracketed (telemetry.takeUse connectionUse (.finish token)) := by
  refine @Bracketed.takeUse telemetry h connectionUse (.finish token) hactive ?_
    telemetry.emissions (by omega) ?_ h.reported
  · intro other hother
    rw [Ender.token, Option.some.injEq] at hother
    rw [hown, hother]
  · intro other
    simp [UseEnd.abortsUse, Ender.aborts]

/-- A use ends, and its abort is reported. -/
theorem Bracketed.connectionAborted (h : Bracketed telemetry)
    {connectionUse : ActiveConnectionUse} {ender : Ender} {outcome : TelemetryOutcome}
    {errorType : Option TelemetryErrorType}
    (hactive : telemetry.state.connectionUse = some connectionUse)
    (hown : ∀ token, ender.token = some token → connectionUse.token = token)
    (haborts : ender.aborts = true) :
    Bracketed ((telemetry.takeUse connectionUse ender).connectionAborted connectionUse outcome
      errorType) := by
  refine h.takeUse hactive hown ?_ ?_ (h.reported_push (Nat.le_refl _) ?_)
  · simp [RequestTelemetry.takeUse, Emission.isType, event]
  · intro token
    simp only [RequestTelemetry.takeUse, List.countP_append, List.countP_singleton]
    by_cases htoken : connectionUse.token = token
    · simp [Emission.abortsUse, UseEnd.abortsUse, Emission.isType, event, haborts, htoken]
    · simp [Emission.abortsUse, UseEnd.abortsUse, Emission.isType, event, htoken]
  · intro _
    exact ⟨connectionUse.token, rfl, h.token_lt hactive⟩

theorem Bracketed.finishConnectionUse (h : Bracketed telemetry) (token : Nat)
    (terminal : Option (TelemetryOutcome × Option TelemetryErrorType)) :
    Bracketed (telemetry.finishConnectionUse token terminal).1 := by
  unfold RequestTelemetry.finishConnectionUse
  split
  · exact h
  · rename_i connectionUse hactive
    split
    · exact h
    · rename_i hown
      rw [Decidable.not_not] at hown
      split
      · exact h.takeUse_silent hactive hown
      · refine h.connectionAborted hactive ?_ rfl
        intro other hother
        rw [Ender.token, Option.some.injEq] at hother
        rw [hown, hother]

theorem Bracketed.abortActiveConnectionUse (h : Bracketed telemetry)
    (outcome : TelemetryOutcome) (errorType : Option TelemetryErrorType) :
    Bracketed (telemetry.abortActiveConnectionUse outcome errorType).1 := by
  unfold RequestTelemetry.abortActiveConnectionUse
  split
  · exact h
  · rename_i connectionUse hactive
    exact h.connectionAborted hactive (by simp [Ender.token]) rfl

theorem Bracketed.finishActivePhaseError (h : Bracketed telemetry)
    (errorType : TelemetryErrorType) : Bracketed (telemetry.finishActivePhaseError errorType) := by
  unfold RequestTelemetry.finishActivePhaseError
  split
  · exact h
  · exact h.idle.takeActive .error errorType

theorem Bracketed.cancel (h : Bracketed telemetry) : Bracketed telemetry.cancel := by
  unfold RequestTelemetry.cancel
  split
  · exact h
  · have hphase := (h.idle : Bracketed { telemetry with
      state := { telemetry.state with
        cancelled := true
        terminalErrorType := some .cancelledError } }).takeActive .cancelled .cancelledError
    unfold cancelUse
    split
    · exact hphase
    · rename_i connectionUse hactive
      exact hphase.connectionAborted hactive (by simp [Ender.token]) rfl

theorem Bracketed.step (h : Bracketed telemetry) {next : RequestTelemetry} {event : Event}
    (hstep : telemetry.step event = some next) : Bracketed next := by
  cases event with
  | beginPoolAcquire origin redirectHop => exact Option.some.inj hstep ▸ h.idle
  | beginPhase i =>
      simp only [RequestTelemetry.step, Option.bind_eq_bind, Option.bind_eq_some_iff] at hstep
      obtain ⟨call, -, hstep⟩ := hstep
      split at hstep
      · simp at hstep
      · exact Option.some.inj hstep ▸ h.idle.beginPhase call.origin call.redirectHop
  | finishPoolAcquireSuccess => exact Option.some.inj hstep ▸ h.finishPhase
  | finishPoolAcquireError errorType => exact Option.some.inj hstep ▸ h.finishPhase
  | beginConnectionUse origin reused =>
      exact Option.some.inj hstep ▸ h.beginConnectionUse origin reused
  | finishConnectionUse token terminal =>
      simp only [RequestTelemetry.step] at hstep
      split at hstep
      · exact Option.some.inj hstep ▸ h.finishConnectionUse token terminal
      · simp at hstep
  | abortActiveConnectionUse outcome errorType =>
      exact Option.some.inj hstep ▸ h.abortActiveConnectionUse outcome errorType
  | finishActivePhaseError errorType =>
      exact Option.some.inj hstep ▸ h.finishActivePhaseError errorType
  | cancel => exact Option.some.inj hstep ▸ h.cancel

end Methods

/-! ## After the cancellation -/

/-- The request is cancelled, and nothing is active. -/
structure AtRest (telemetry : RequestTelemetry) : Prop where
  cancelled : telemetry.state.cancelled = true
  active : telemetry.state.active = none
  connectionUse : telemetry.state.connectionUse = none

/-- What the statements are about is the same. -/
structure Unchanged (telemetry next : RequestTelemetry) : Prop where
  state : next.state = telemetry.state
  tokens : next.tokens = telemetry.tokens
  emissions : next.emissions = telemetry.emissions
  ends : next.ends = telemetry.ends

section AtRest

variable {telemetry next : RequestTelemetry}

theorem takeActive_state (telemetry : RequestTelemetry) (outcome : TelemetryOutcome)
    (errorType : TelemetryErrorType) :
    (telemetry.takeActive outcome errorType).state =
      { telemetry.state with active := none } := by
  unfold takeActive
  split
  · rename_i hnone
    rw [← hnone]
  · rfl

theorem cancelUse_state (telemetry : RequestTelemetry) :
    telemetry.cancelUse.state = { telemetry.state with connectionUse := none } := by
  unfold cancelUse
  split
  · rename_i hnone
    rw [← hnone]
  · rfl

theorem atRest_cancel (hlive : telemetry.state.cancelled = false) :
    AtRest telemetry.cancel := by
  have hstate : telemetry.cancel.state = ⟨none, none, true, some .cancelledError⟩ := by
    rw [cancel, hlive, if_neg Bool.false_ne_true, cancelUse_state, takeActive_state]
  exact ⟨by rw [hstate], by rw [hstate], by rw [hstate]⟩

theorem AtRest.of_unchanged (h : AtRest telemetry) (hsame : Unchanged telemetry next) :
    AtRest next := by
  constructor <;> rw [hsame.state]
  · exact h.cancelled
  · exact h.active
  · exact h.connectionUse

/-- A telemetry at rest stays as it is. -/
theorem AtRest.step (h : AtRest telemetry) {event : Event}
    (hstep : telemetry.step event = some next) : Unchanged telemetry next := by
  have hsame : ∀ {other : RequestTelemetry}, other = telemetry → Unchanged telemetry other := by
    rintro other rfl
    exact ⟨rfl, rfl, rfl, rfl⟩
  cases event with
  | beginPoolAcquire origin redirectHop =>
      obtain rfl := Option.some.inj hstep
      exact ⟨rfl, rfl, rfl, rfl⟩
  | beginPhase i =>
      simp only [RequestTelemetry.step, Option.bind_eq_bind, Option.bind_eq_some_iff] at hstep
      obtain ⟨call, -, hstep⟩ := hstep
      split at hstep
      · simp at hstep
      · obtain rfl := Option.some.inj hstep
        rw [beginPhase, if_pos h.cancelled]
        exact ⟨rfl, rfl, rfl, rfl⟩
  | finishPoolAcquireSuccess =>
      obtain rfl := Option.some.inj hstep
      apply hsame
      simp [finishPoolAcquireSuccess, finishPhase, h.active]
  | finishPoolAcquireError errorType =>
      obtain rfl := Option.some.inj hstep
      apply hsame
      simp [finishPoolAcquireError, finishPhase, h.active]
  | beginConnectionUse origin reused =>
      obtain rfl := Option.some.inj hstep
      apply hsame
      simp [beginConnectionUse, h.cancelled]
  | finishConnectionUse token terminal =>
      simp only [RequestTelemetry.step] at hstep
      split at hstep
      · obtain rfl := Option.some.inj hstep
        apply hsame
        simp [finishConnectionUse, h.connectionUse]
      · simp at hstep
  | abortActiveConnectionUse outcome errorType =>
      obtain rfl := Option.some.inj hstep
      apply hsame
      simp [abortActiveConnectionUse, h.connectionUse]
  | finishActivePhaseError errorType =>
      obtain rfl := Option.some.inj hstep
      exact hsame (by rw [finishActivePhaseError, if_pos h.cancelled])
  | cancel =>
      obtain rfl := Option.some.inj hstep
      exact hsame (by rw [cancel, if_pos h.cancelled])

theorem beginPhase_cancelled (telemetry : RequestTelemetry) (phaseType : ActivePhaseType)
    (origin : Text) (redirectHop : Nat) (emitStarted : Bool) :
    (telemetry.beginPhase phaseType origin redirectHop emitStarted).state.cancelled =
      telemetry.state.cancelled := by
  unfold beginPhase
  split
  · rfl
  · split
    · rfl
    · cases emitStarted
      · rfl
      · rfl

theorem finishPhase_cancelled (telemetry : RequestTelemetry) (phaseType : ActivePhaseType)
    (eventType : TelemetryEventType) (outcome : TelemetryOutcome)
    (errorType : Option TelemetryErrorType) :
    (telemetry.finishPhase phaseType eventType outcome errorType).1.state.cancelled =
      telemetry.state.cancelled := by
  unfold finishPhase
  split
  · rfl
  · split
    · rfl
    · rfl

theorem beginConnectionUse_cancelled (telemetry : RequestTelemetry) (origin : Text)
    (reused : Bool) :
    (telemetry.beginConnectionUse origin reused).1.state.cancelled =
      telemetry.state.cancelled := by
  unfold beginConnectionUse
  split
  · rfl
  · split
    · rfl
    · rfl

theorem finishConnectionUse_cancelled (telemetry : RequestTelemetry) (token : Nat)
    (terminal : Option (TelemetryOutcome × Option TelemetryErrorType)) :
    (telemetry.finishConnectionUse token terminal).1.state.cancelled =
      telemetry.state.cancelled := by
  unfold finishConnectionUse
  split
  · rfl
  · split
    · rfl
    · cases terminal
      · rfl
      · rfl

theorem abortActiveConnectionUse_cancelled (telemetry : RequestTelemetry)
    (outcome : TelemetryOutcome) (errorType : Option TelemetryErrorType) :
    (telemetry.abortActiveConnectionUse outcome errorType).1.state.cancelled =
      telemetry.state.cancelled := by
  unfold abortActiveConnectionUse
  split
  · rfl
  · rfl

theorem finishActivePhaseError_cancelled (telemetry : RequestTelemetry)
    (errorType : TelemetryErrorType) :
    (telemetry.finishActivePhaseError errorType).state.cancelled =
      telemetry.state.cancelled := by
  unfold finishActivePhaseError
  split
  · rfl
  · rw [takeActive_state]

/-- Only the cancellation cancels. -/
theorem cancelled_step {event : Event} (hevent : event ≠ .cancel)
    (hstep : telemetry.step event = some next) :
    next.state.cancelled = telemetry.state.cancelled := by
  cases event with
  | cancel => exact absurd rfl hevent
  | beginPoolAcquire origin redirectHop => exact Option.some.inj hstep ▸ rfl
  | beginPhase i =>
      simp only [RequestTelemetry.step, Option.bind_eq_bind, Option.bind_eq_some_iff] at hstep
      obtain ⟨call, -, hstep⟩ := hstep
      split at hstep
      · simp at hstep
      · exact Option.some.inj hstep ▸ beginPhase_cancelled _ _ _ _ _
  | finishPoolAcquireSuccess => exact Option.some.inj hstep ▸ finishPhase_cancelled _ _ _ _ _
  | finishPoolAcquireError errorType =>
      exact Option.some.inj hstep ▸ finishPhase_cancelled _ _ _ _ _
  | beginConnectionUse origin reused =>
      exact Option.some.inj hstep ▸ beginConnectionUse_cancelled _ _ _
  | finishConnectionUse token terminal =>
      simp only [RequestTelemetry.step] at hstep
      split at hstep
      · exact Option.some.inj hstep ▸ finishConnectionUse_cancelled _ _ _
      · simp at hstep
  | abortActiveConnectionUse outcome errorType =>
      exact Option.some.inj hstep ▸ abortActiveConnectionUse_cancelled _ _ _
  | finishActivePhaseError errorType =>
      exact Option.some.inj hstep ▸ finishActivePhaseError_cancelled _ _

/-- The cancellation puts the telemetry at rest, the first one and any other. -/
theorem atRest_of_cancel (h : telemetry.state.cancelled = true → AtRest telemetry) :
    AtRest telemetry.cancel := by
  cases hbefore : telemetry.state.cancelled with
  | true =>
      rw [cancel, if_pos hbefore]
      exact h hbefore
  | false => exact atRest_cancel hbefore

/-- A step keeps a cancelled telemetry at rest, and the cancellation puts it there. -/
theorem atRest_step {event : Event}
    (h : telemetry.state.cancelled = true → AtRest telemetry)
    (hstep : telemetry.step event = some next) (hcancelled : next.state.cancelled = true) :
    AtRest next := by
  by_cases hevent : event = .cancel
  · subst hevent
    obtain rfl := Option.some.inj hstep
    exact atRest_of_cancel h
  · rw [cancelled_step hevent hstep] at hcancelled
    exact (h hcancelled).of_unchanged ((h hcancelled).step hstep)

end AtRest

/-! ## Runs -/

section Runs

variable {requestId : Nat} {mode : TelemetryRequestMode} {method : Text}
  {telemetry later : RequestTelemetry}

theorem bracketed_of_reachable (h : (system requestId mode method).Reachable telemetry) :
    Bracketed telemetry :=
  h.invariant Bracketed (bracketed_new requestId mode method) fun _ hbefore hstep =>
    hbefore.step hstep

theorem atRest_of_reachable (h : (system requestId mode method).Reachable telemetry) :
    telemetry.state.cancelled = true → AtRest telemetry :=
  h.invariant (fun telemetry => telemetry.state.cancelled = true → AtRest telemetry)
    (fun hcancelled => absurd hcancelled Bool.false_ne_true)
    fun _ hbefore hstep => atRest_step hbefore hstep

/-- Nothing changes after a rest. -/
theorem unchanged_of_later (hreachable : (system requestId mode method).Reachable telemetry)
    (hlater : (system requestId mode method).Later telemetry later) (h : AtRest telemetry) :
    Unchanged telemetry later := by
  have hrest : AtRest later ∧ Unchanged telemetry later := by
    refine hlater.stable (fun other => AtRest other ∧ Unchanged telemetry other) ?_ hreachable
      ⟨h, rfl, rfl, rfl, rfl⟩
    rintro other next event - ⟨hother, hsame⟩ hstep
    have hnext := hother.step hstep
    exact ⟨hother.of_unchanged hnext, hnext.state.trans hsame.state,
      hnext.tokens.trans hsame.tokens, hnext.emissions.trans hsame.emissions,
      hnext.ends.trans hsame.ends⟩
  exact hrest.2

/-- A use ends at most once, and its abort is reported at most once. -/
theorem Bracketed.once (h : Bracketed telemetry) (token : Nat) :
    telemetry.ends.countP (UseEnd.ofUse token) ≤ 1 ∧
      telemetry.emissions.countP (Emission.abortsUse token) ≤ 1 := by
  have huses := h.uses token
  have haborts := h.aborts token
  have hle : telemetry.ends.countP (UseEnd.abortsUse token) ≤
      telemetry.ends.countP (UseEnd.ofUse token) := by
    apply List.countP_mono_left
    intro entry _ habort
    exact (Bool.and_eq_true_iff.mp habort).1
  split at huses
  · omega
  · omega

end Runs

/-- The telemetry of a request is bracketed.  For every interleaving of the calls on it, an
acquisition is open exactly while its phase is active; every connection use ends at most
once, by its own token or without one, and is reported as aborted at most once; `cancel` can
come at any time and cancels the request; and once the request is cancelled nothing is active,
and no call begins, ends or emits anything. -/
theorem request_telemetry_brackets (requestId : Nat) (mode : TelemetryRequestMode)
    (method : Text) (events : List Event) (telemetry : RequestTelemetry)
    (hrun : (system requestId mode method).run events = some telemetry) :
    Bracketed telemetry ∧
      (∀ token, telemetry.ends.countP (UseEnd.ofUse token) ≤ 1 ∧
        telemetry.emissions.countP (Emission.abortsUse token) ≤ 1) ∧
      (∃ next, telemetry.step .cancel = some next ∧ AtRest next) ∧
      (telemetry.state.cancelled = true →
        AtRest telemetry ∧
          ∀ later, (system requestId mode method).Later telemetry later →
            Unchanged telemetry later) := by
  have hreachable := TransitionSystem.reachable_of_run hrun
  have hbracketed := bracketed_of_reachable hreachable
  have hatRest := atRest_of_reachable hreachable
  refine ⟨hbracketed, hbracketed.once, ⟨_, rfl, atRest_of_cancel hatRest⟩, fun hcancelled => ?_⟩
  have hrest := hatRest hcancelled
  exact ⟨hrest, fun later hlater => unchanged_of_later hreachable hlater hrest⟩

/-- A use is finished through its token, and a second one is active when the request is
cancelled; the first token has no effect on it. -/
def exampleCalls : List Event :=
  [.beginPoolAcquire "a".toList 0, .beginPhase 0, .finishPoolAcquireSuccess,
    .beginConnectionUse "a".toList true, .finishConnectionUse 0 none,
    .beginConnectionUse "a".toList false, .finishConnectionUse 0 (some (.error, none)), .cancel,
    .finishConnectionUse 1 (some (.error, none))]

theorem request_telemetry_brackets_example :
    ∃ telemetry, (system 1 .buffered "GET".toList).run exampleCalls = some telemetry ∧
      telemetry.emissions.map (fun emission => emission.event.eventType) =
        [.poolAcquireStarted, .poolAcquireFinished, .connectionReused, .connectionAborted] ∧
      telemetry.ends = [⟨0, .finish 0⟩, ⟨1, .cancel⟩] ∧ AtRest telemetry := by
  have hrest := fun telemetry hrun =>
    (request_telemetry_brackets 1 .buffered "GET".toList exampleCalls telemetry hrun).2.2.2
  exact ⟨_, rfl, rfl, rfl, (hrest _ rfl rfl).1⟩

end RequestTelemetry

end FogHttp.Telemetry
