import FogHttp.Telemetry.NativeDelivery
import Mathlib.Data.List.Induction

/-!
# The last delivery of native telemetry

`Holds` is the invariant of the deliveries of a client.  A request counts itself while it
delivers, and the one close that delivers has found nobody counted, so it delivers alone
and after all requests.  `Collected` says of an error that it stands for the client errors
of all requests that have finished: it is one of them, and there is none only if they have
none.  That is how the error which `finish_request` keeps reaches the close.

`deliverNativeRecords_eq` is the delivery of a batch without the loop, and
`deliverNativeEvents_eq` says by the failures of the batch what a delivery returns.  In
every state the calls that have delivered have these errors (`Stage.Delivered`), so what
the close raises is said by the batches alone.
-/

namespace FogHttp.NativeDelivery

open Lib

variable {ε : Type} {hookErrorPolicy : TelemetryHookErrorPolicy}

/-! ## One batch -/

/-- What goes wrong with an event, when an `Exception` is raised. -/
def RawTelemetryEvent.failure (raw : RawTelemetryEvent ε) : Option (Cause ε) :=
  match raw.outcome with
  | .malformed error | .failed error => some (.error error)
  | .emitted | .interrupted => none

def RawTelemetryEvent.interrupts (raw : RawTelemetryEvent ε) : Bool :=
  match raw.outcome with
  | .interrupted => true
  | _ => false

/-- The hook error of the first failure. -/
def firstError (hookErrorPolicy : TelemetryHookErrorPolicy) (suppressHookErrors : Bool)
    (failures : List (Cause ε)) : Option (TelemetryHookError ε) :=
  if suppressHookErrors || hookErrorPolicy != .raise then none else failures.head?.map .mk

theorem deferredHookError_eq (suppressHookErrors : Bool) (error : Cause ε) :
    deferredHookError hookErrorPolicy suppressHookErrors error =
      if suppressHookErrors || hookErrorPolicy != .raise then none else some ⟨error⟩ := by
  cases suppressHookErrors <;> cases hookErrorPolicy <;> rfl

/-- The hook error of one event. -/
def RawTelemetryEvent.hookError (hookErrorPolicy : TelemetryHookErrorPolicy)
    (suppressHookErrors : Bool) (raw : RawTelemetryEvent ε) : Option (TelemetryHookError ε) :=
  if suppressHookErrors || hookErrorPolicy != .raise then none else raw.failure.map .mk

theorem deliverNativeRecord_eq (suppressHookErrors : Bool) (raw : RawTelemetryEvent ε) :
    deliverNativeRecord hookErrorPolicy suppressHookErrors raw =
      if raw.interrupts then none else some (raw.hookError hookErrorPolicy suppressHookErrors) := by
  obtain ⟨requestId, outcome⟩ := raw
  unfold deliverNativeRecord RawTelemetryEvent.interrupts RawTelemetryEvent.hookError
    RawTelemetryEvent.failure
  cases outcome with
  | emitted => cases suppressHookErrors <;> cases hookErrorPolicy <;> rfl
  | malformed error => cases suppressHookErrors <;> cases hookErrorPolicy <;> rfl
  | failed error => cases suppressHookErrors <;> cases hookErrorPolicy <;> rfl
  | interrupted => rfl

theorem firstError_isSome {suppressHookErrors : Bool} {failures : List (Cause ε)} :
    (firstError hookErrorPolicy suppressHookErrors failures).isSome = true ↔
      suppressHookErrors = false ∧ hookErrorPolicy = .raise ∧ failures ≠ [] := by
  unfold firstError
  cases suppressHookErrors with
  | true => simp
  | false => cases hookErrorPolicy <;> simp

/-- An error that is there makes the next one void, so it does not matter that the next one
is suppressed. -/
theorem or_hookError (error : Option (TelemetryHookError ε)) (suppressHookErrors : Bool)
    (raw : RawTelemetryEvent ε) :
    error.or (raw.hookError hookErrorPolicy (suppressHookErrors || error.isSome)) =
      error.or (raw.hookError hookErrorPolicy suppressHookErrors) := by
  cases error with
  | none => rw [Option.isSome_none, Bool.or_false]
  | some error => rfl

/-- The failures of the events of requests. -/
def requestFailures (rawEvents : List (RawTelemetryEvent ε)) : List (Cause ε) :=
  (rawEvents.filter fun raw => raw.requestId.isSome).filterMap RawTelemetryEvent.failure

/-- The failures of the events of the client. -/
def clientFailures (rawEvents : List (RawTelemetryEvent ε)) : List (Cause ε) :=
  (rawEvents.filter fun raw => raw.requestId.isNone).filterMap RawTelemetryEvent.failure

theorem mem_of_requestFailures {rawEvents : List (RawTelemetryEvent ε)}
    (h : requestFailures rawEvents ≠ []) :
    ∃ raw ∈ rawEvents, raw.requestId.isSome = true ∧ raw.failure.isSome = true := by
  obtain ⟨error, herror⟩ := List.exists_mem_of_ne_nil _ h
  obtain ⟨raw, hraw, hfailure⟩ := List.mem_filterMap.mp herror
  obtain ⟨hmem, hrequest⟩ := List.mem_filter.mp hraw
  exact ⟨raw, hmem, hrequest, hfailure ▸ rfl⟩

theorem firstError_nil (suppressHookErrors : Bool) :
    firstError hookErrorPolicy suppressHookErrors ([] : List (Cause ε)) = none := by
  unfold firstError
  rw [List.head?_nil, Option.map_none, ite_self]

theorem firstError_append (suppressHookErrors : Bool) (failures more : List (Cause ε)) :
    firstError hookErrorPolicy suppressHookErrors (failures ++ more) =
      (firstError hookErrorPolicy suppressHookErrors failures).or
        (firstError hookErrorPolicy suppressHookErrors more) := by
  unfold firstError
  split
  · rfl
  · cases failures with
    | nil => rfl
    | cons failure failures => rfl

theorem firstError_failure (suppressHookErrors : Bool) (raw : RawTelemetryEvent ε) :
    firstError hookErrorPolicy suppressHookErrors raw.failure.toList =
      raw.hookError hookErrorPolicy suppressHookErrors := by
  unfold firstError RawTelemetryEvent.hookError
  cases raw.failure with
  | none => rfl
  | some error => rfl

/-- The failures of a request's events do not tell of an event of the client. -/
theorem failures_concat (rawEvents : List (RawTelemetryEvent ε)) (raw : RawTelemetryEvent ε) :
    requestFailures (rawEvents ++ [raw]) =
        requestFailures rawEvents ++ (if raw.requestId.isNone then [] else raw.failure.toList) ∧
      clientFailures (rawEvents ++ [raw]) =
        clientFailures rawEvents ++ (if raw.requestId.isNone then raw.failure.toList else []) := by
  unfold requestFailures clientFailures
  rw [List.filter_append, List.filter_append, List.filterMap_append, List.filterMap_append]
  cases hrequest : raw.requestId with
  | none => cases hfailure : raw.failure <;> simp [hrequest, hfailure]
  | some requestId => cases hfailure : raw.failure <;> simp [hrequest, hfailure]

/-- The delivery of a batch goes on after an error, and keeps the first one of either
kind. -/
theorem deliverNativeRecords_eq (suppressRequestErrors suppressClientErrors : Bool)
    (rawEvents : List (RawTelemetryEvent ε)) :
    deliverNativeRecords hookErrorPolicy suppressRequestErrors suppressClientErrors rawEvents =
      if rawEvents.any RawTelemetryEvent.interrupts then none
      else some
        ⟨firstError hookErrorPolicy suppressRequestErrors (requestFailures rawEvents),
          firstError hookErrorPolicy suppressClientErrors (clientFailures rawEvents)⟩ := by
  unfold deliverNativeRecords
  induction rawEvents using List.reverseRecOn with
  | nil =>
      unfold firstError requestFailures clientFailures
      simp
  | append_singleton rawEvents raw ih =>
      rw [List.foldlM_append, ih, List.any_append]
      cases hinterrupts : rawEvents.any RawTelemetryEvent.interrupts with
      | true => rfl
      | false =>
          obtain ⟨hrequests, hclients⟩ := failures_concat rawEvents raw
          rw [if_neg Bool.false_ne_true, Bool.false_or, List.any_cons, List.any_nil,
            Bool.or_false, Option.bind_eq_bind, Option.bind_some, List.foldlM_cons, hrequests,
            hclients]
          unfold Errors.deliver
          dsimp only
          rw [deliverNativeRecord_eq, deliverNativeRecord_eq]
          cases raw.interrupts with
          | true => split <;> rfl
          | false =>
              cases hrequest : raw.requestId with
              | none =>
                  simp only [Option.isNone_none, if_true, List.append_nil]
                  rw [firstError_append, firstError_failure, ← or_hookError]
                  rfl
              | some requestId =>
                  simp only [Option.isNone_some, Bool.false_eq_true, if_false, List.append_nil]
                  rw [firstError_append, firstError_failure, ← or_hookError]
                  rfl

namespace Delivery

def interrupted (delivery : Delivery ε) : Bool :=
  delivery.batch.rawEvents.any RawTelemetryEvent.interrupts

/-- What went wrong with the events of requests. -/
def requestFailures (delivery : Delivery ε) : List (Cause ε) :=
  NativeDelivery.requestFailures delivery.batch.rawEvents

/-- What went wrong for the client: its events that failed, and after them the events that
the native side had to drop. -/
def clientFailures (delivery : Delivery ε) : List (Cause ε) :=
  NativeDelivery.clientFailures delivery.batch.rawEvents ++
    if delivery.suppressHookErrors || delivery.batch.droppedEvents == 0 then []
    else [.runtimeError nativeEventsDroppedMessage]

end Delivery

/-- What `deliver_native_events` returns. -/
theorem deliverNativeEvents_eq (requestId : Option Nat) (suppressHookErrors : Bool)
    (batch : Batch ε) :
    deliverNativeEvents hookErrorPolicy requestId suppressHookErrors batch =
      if (Delivery.mk suppressHookErrors batch).interrupted then none
      else some
        ⟨firstError hookErrorPolicy (suppressHookErrors || requestId.isNone)
            (Delivery.mk suppressHookErrors batch).requestFailures,
          firstError hookErrorPolicy (suppressHookErrors && requestId.isNone)
            (Delivery.mk suppressHookErrors batch).clientFailures⟩ := by
  rw [deliverNativeEvents, deliverNativeRecords_eq]
  unfold Delivery.interrupted Delivery.clientFailures
  dsimp only
  split
  · rfl
  · rw [Option.bind_eq_bind, Option.bind_some, firstError_append]
    by_cases hdropped : batch.droppedEvents = 0
    · rw [if_neg (not_not.mpr hdropped), hdropped, beq_self_eq_true, Bool.or_true, if_pos rfl]
      unfold firstError Delivery.requestFailures
      simp
    · rw [if_pos hdropped, beq_eq_false_iff_ne.mpr hdropped, Bool.or_false, deferredHookError_eq]
      dsimp only
      congr 2
      cases suppressHookErrors with
      | true =>
          rw [if_pos rfl]
          unfold firstError
          simp
      | false =>
          rw [if_neg Bool.false_ne_true, Bool.false_or, Bool.false_and]
          cases hfirst : firstError hookErrorPolicy false
              (NativeDelivery.clientFailures batch.rawEvents) with
          | some error => rfl
          | none => cases hookErrorPolicy <;> rfl

theorem interrupted_of_deliverNativeEvents {requestId : Option Nat} {suppressHookErrors : Bool}
    {batch : Batch ε}
    (h : deliverNativeEvents hookErrorPolicy requestId suppressHookErrors batch = none) :
    (Delivery.mk suppressHookErrors batch).interrupted = true := by
  rw [deliverNativeEvents_eq] at h
  split at h
  · assumption
  · cases h

theorem errors_of_deliverNativeEvents {requestId : Option Nat} {suppressHookErrors : Bool}
    {batch : Batch ε} {errors : Errors ε}
    (h : deliverNativeEvents hookErrorPolicy requestId suppressHookErrors batch = some errors) :
    (Delivery.mk suppressHookErrors batch).interrupted = false ∧
      errors.request = firstError hookErrorPolicy (suppressHookErrors || requestId.isNone)
        (Delivery.mk suppressHookErrors batch).requestFailures ∧
      errors.client = firstError hookErrorPolicy (suppressHookErrors && requestId.isNone)
        (Delivery.mk suppressHookErrors batch).clientFailures := by
  rw [deliverNativeEvents_eq] at h
  split at h
  · cases h
  · rename_i hwhole
    obtain rfl := Option.some.inj h
    exact ⟨Bool.eq_false_iff.mpr hwhole, rfl, rfl⟩

/-! ## The invariant -/

namespace Stage

/-- The request is counted. -/
def active : Stage ε → Bool
  | .request (.delivering _ _) | .request (.finishing _ _ _) => true
  | _ => false

/-- The close has closed the lifecycle, so it delivers. -/
def winner : Stage ε → Bool
  | .close (.waiting _) | .close (.delivering _ _) | .close (.returned _ _ _) => true
  | _ => false

/-- The close has found no request that delivers. -/
def drained : Stage ε → Bool
  | .close (.delivering _ _) | .close (.returned _ _ _) => true
  | _ => false

/-- The client error of a request that has finished. -/
def finished : Stage ε → Option (Option (TelemetryHookError ε))
  | .request (.returned _ clientError _) => some clientError
  | _ => none

end Stage

variable {lifecycle lifecycle' : Lifecycle ε} {stages : List (Stage ε)} {i : Nat}
  {stage old new : Stage ε}

/-- The error stands for the client errors of the requests that have finished. -/
def Collected (error : Option (TelemetryHookError ε)) (stages : List (Stage ε)) : Prop :=
  match error with
  | some error => ∃ stage ∈ stages, stage.finished = some (some error)
  | none => ∀ stage ∈ stages, ∀ clientError, stage.finished = some clientError → clientError = none

/-- What a close raises at its end, when no exception passes. -/
def closeError (suppressHookErrors : Bool)
    (deferredClientError clientError : Option (TelemetryHookError ε)) : Option (Raised ε) :=
  (if suppressHookErrors then none else deferredClientError.or clientError).map .hookError

/-- What a close that found no request knows. -/
def Stage.Knows (stages : List (Stage ε)) : Stage ε → Prop
  | .close (.delivering _ deferredClientError) => Collected deferredClientError stages
  | .close (.returned delivery clientError raised) =>
      delivery.interrupted = true ∧ raised = some .interruption ∨
        delivery.interrupted = false ∧
          ∃ deferredClientError, Collected deferredClientError stages ∧
            raised = closeError delivery.suppressHookErrors deferredClientError clientError
  | _ => True

/-- What the errors of a delivery are. -/
def Stage.Delivered (hookErrorPolicy : TelemetryHookErrorPolicy) : Stage ε → Prop
  | .request (.finishing delivery clientError raised)
  | .request (.returned delivery clientError raised) =>
      delivery.interrupted = true ∧ clientError = none ∧ raised = some .interruption ∨
        delivery.interrupted = false ∧
          clientError = firstError hookErrorPolicy false delivery.clientFailures ∧
          raised = (firstError hookErrorPolicy delivery.suppressHookErrors
            delivery.requestFailures).map .hookError
  | .close (.returned delivery clientError _) =>
      delivery.interrupted = false → clientError =
        firstError hookErrorPolicy delivery.suppressHookErrors delivery.clientFailures
  | _ => True

structure Holds (hookErrorPolicy : TelemetryHookErrorPolicy) (lifecycle : Lifecycle ε)
    (stages : List (Stage ε)) : Prop where
  counted : lifecycle.activeRequests = stages.countP Stage.active
  winners : stages.countP Stage.winner = lifecycle.closed.toNat
  alone : ∀ stage ∈ stages, stage.drained = true → lifecycle.activeRequests = 0
  knows : ∀ stage ∈ stages, stage.Knows stages
  deferred : stages.countP Stage.drained = 0 → Collected lifecycle.deferredClientError stages
  delivered : ∀ stage ∈ stages, stage.Delivered hookErrorPolicy

theorem holds_init : Holds (ε := ε) hookErrorPolicy ⟨0, false, none⟩ [] :=
  ⟨rfl, rfl, nofun, nofun, fun _ => nofun, nofun⟩

/-- The end of a request that is not the last one. -/
theorem Collected.set {error : Option (TelemetryHookError ε)} (h : Collected error stages)
    (hold : stages[i]? = some old) (hunfinished : old.finished = none)
    (hnew : new.finished = none) :
    Collected error (stages.set i new) := by
  cases error with
  | some error =>
      refine exists_mem_set hold ?_ h
      rw [hunfinished]
      nofun
  | none =>
      refine forall_mem_set h ?_
      rw [hnew]
      nofun

/-- A request that finishes adds its error, if it is the first one. -/
theorem Collected.finish {error clientError : Option (TelemetryHookError ε)}
    (h : Collected error stages) (hold : stages[i]? = some old) (hunfinished : old.finished = none)
    (hnew : new.finished = some clientError) :
    Collected (error.or clientError) (stages.set i new) := by
  cases error with
  | some error =>
      refine exists_mem_set hold ?_ h
      rw [hunfinished]
      nofun
  | none =>
      rw [Option.none_or]
      cases clientError with
      | some clientError => exact ⟨new, mem_set_self hold, hnew⟩
      | none =>
          refine forall_mem_set h ?_
          intro clientError hfinished
          exact Option.some.inj (hfinished.symm.trans hnew)

theorem Collected.append {error : Option (TelemetryHookError ε)} (h : Collected error stages)
    (hnew : new.finished = none) : Collected error (stages ++ [new]) := by
  cases error with
  | some error =>
      obtain ⟨stage, hmem, hfinished⟩ := h
      exact ⟨stage, List.mem_append_left _ hmem, hfinished⟩
  | none =>
      intro stage hmem clientError hfinished
      rcases List.mem_append.mp hmem with hmem | hmem
      · exact h stage hmem clientError hfinished
      · rw [List.mem_singleton.mp hmem, hnew] at hfinished
        cases hfinished

theorem Stage.Knows.mono (h : stage.Knows stages) {stages' : List (Stage ε)}
    (hcollected : ∀ error, Collected error stages → Collected error stages') :
    stage.Knows stages' := by
  cases stage with
  | request stage => trivial
  | close stage =>
      cases stage with
      | delivering suppressHookErrors deferredClientError => exact hcollected _ h
      | returned delivery clientError raised =>
          rcases h with hinterrupted | ⟨hwhole, deferredClientError, hdeferred, hraised⟩
          · exact Or.inl hinterrupted
          · exact Or.inr ⟨hwhole, deferredClientError, hcollected _ hdeferred, hraised⟩
      | _ => trivial

theorem Holds.start (h : Holds hookErrorPolicy lifecycle stages) (call : Call) :
    Holds hookErrorPolicy lifecycle (stages ++ [call.enter]) := by
  obtain ⟨hactive, hwinner, hdrained, hfinished, hknows, hdelivered⟩ :
      (call.enter : Stage ε).active = false ∧ (call.enter : Stage ε).winner = false ∧
        (call.enter : Stage ε).drained = false ∧ (call.enter : Stage ε).finished = none ∧
          (∀ stages, (call.enter : Stage ε).Knows stages) ∧
            (call.enter : Stage ε).Delivered hookErrorPolicy := by
    cases call with
    | request => exact ⟨rfl, rfl, rfl, rfl, fun _ => trivial, trivial⟩
    | close => exact ⟨rfl, rfl, rfl, rfl, fun _ => trivial, trivial⟩
  refine ⟨?_, ?_, ?_, ?_, ?_, ?_⟩
  · rw [List.countP_append, List.countP_singleton, hactive]
    exact h.counted
  · rw [List.countP_append, List.countP_singleton, hwinner]
    exact h.winners
  · intro stage hmem hstage
    rcases List.mem_append.mp hmem with hmem | hmem
    · exact h.alone stage hmem hstage
    · rw [List.mem_singleton.mp hmem, hdrained] at hstage
      cases hstage
  · intro stage hmem
    rcases List.mem_append.mp hmem with hmem | hmem
    · exact (h.knows stage hmem).mono fun error hcollected => hcollected.append hfinished
    · rw [List.mem_singleton.mp hmem]
      exact hknows _
  · intro hnone
    rw [List.countP_append] at hnone
    exact (h.deferred (Nat.eq_zero_of_add_eq_zero_right hnone)).append hfinished
  · intro stage hmem
    rcases List.mem_append.mp hmem with hmem | hmem
    · exact h.delivered stage hmem
    · rw [List.mem_singleton.mp hmem]
      exact hdelivered

/-! ## What a turn can do -/

/-- A close gets to the loop of `begin_close`, for the first time or after a wait. -/
inductive Begins (lifecycle : Lifecycle ε) (suppressHookErrors : Bool) :
    Stage ε → Lifecycle ε → Prop where
  | entering (hopen : lifecycle.closed = false) :
      Begins lifecycle suppressHookErrors (.close (.entering suppressHookErrors))
        { lifecycle with closed := true }
  | waiting :
      Begins lifecycle suppressHookErrors (.close (.waiting suppressHookErrors)) lifecycle

/-- The inversion of a turn. -/
inductive Turns (hookErrorPolicy : TelemetryHookErrorPolicy) (batch : Batch ε)
    (lifecycle : Lifecycle ε) : Stage ε → Turn ε → Prop where
  | requestDeclined {requestId : Nat} {suppressHookErrors : Bool} :
      Turns hookErrorPolicy batch lifecycle (.request (.entering requestId suppressHookErrors))
        (lifecycle, .request .declined, false, false)
  | requestBegins {requestId : Nat} {suppressHookErrors : Bool}
      (hopen : lifecycle.closed = false) :
      Turns hookErrorPolicy batch lifecycle (.request (.entering requestId suppressHookErrors))
        ({ lifecycle with activeRequests := lifecycle.activeRequests + 1 },
          .request (.delivering requestId suppressHookErrors), false, false)
  | requestDelivers {requestId : Nat} {suppressHookErrors : Bool}
      {clientError : Option (TelemetryHookError ε)} {raised : Option (Raised ε)}
      (hdelivered : (Stage.request (.finishing ⟨suppressHookErrors, batch⟩ clientError
        raised)).Delivered hookErrorPolicy) :
      Turns hookErrorPolicy batch lifecycle (.request (.delivering requestId suppressHookErrors))
        (lifecycle, .request (.finishing ⟨suppressHookErrors, batch⟩ clientError raised),
          false, false)
  | requestFinishes {delivery : Delivery ε} {clientError : Option (TelemetryHookError ε)}
      {raised : Option (Raised ε)} :
      Turns hookErrorPolicy batch lifecycle (.request (.finishing delivery clientError raised))
        ({ lifecycle with
            deferredClientError := lifecycle.deferredClientError.or clientError
            activeRequests := lifecycle.activeRequests - 1 },
          .request (.returned delivery clientError raised), false, true)
  | closeDeclined {suppressHookErrors : Bool} :
      Turns hookErrorPolicy batch lifecycle (.close (.entering suppressHookErrors))
        (lifecycle, .close .declined, false, false)
  | closeWaits {old : Stage ε} {began : Lifecycle ε} {suppressHookErrors : Bool}
      (hbegins : Begins lifecycle suppressHookErrors old began)
      (hactive : began.activeRequests ≠ 0) :
      Turns hookErrorPolicy batch lifecycle old
        (began, .close (.waiting suppressHookErrors), true, false)
  | closeBegins {old : Stage ε} {began : Lifecycle ε} {suppressHookErrors : Bool}
      (hbegins : Begins lifecycle suppressHookErrors old began)
      (hidle : began.activeRequests = 0) :
      Turns hookErrorPolicy batch lifecycle old
        ({ began with deferredClientError := none },
          .close (.delivering suppressHookErrors began.deferredClientError), false, false)
  | closeReturns {suppressHookErrors : Bool}
      {deferredClientError clientError : Option (TelemetryHookError ε)}
      {raised : Option (Raised ε)}
      (hraised : (Delivery.mk suppressHookErrors batch).interrupted = true ∧
          raised = some .interruption ∨
        (Delivery.mk suppressHookErrors batch).interrupted = false ∧
          raised = closeError suppressHookErrors deferredClientError clientError)
      (hdelivered : (Stage.close (.returned ⟨suppressHookErrors, batch⟩ clientError
        raised)).Delivered hookErrorPolicy) :
      Turns hookErrorPolicy batch lifecycle
        (.close (.delivering suppressHookErrors deferredClientError))
        (lifecycle, .close (.returned ⟨suppressHookErrors, batch⟩ clientError raised),
          false, false)

theorem turns_of_beginClose {began : Lifecycle ε} {suppressHookErrors : Bool} {batch : Batch ε}
    (hbegins : Begins lifecycle suppressHookErrors old began) :
    Turns hookErrorPolicy batch lifecycle old (beginClose suppressHookErrors began) := by
  unfold beginClose
  split
  · rename_i hactive
    exact .closeWaits hbegins hactive
  · rename_i hidle
    exact .closeBegins hbegins (not_not.mp hidle)

theorem turns_of_requestTurn {stage : RequestStage ε} {batch : Batch ε} {turn : Turn ε}
    (hturn : stage.turn hookErrorPolicy batch lifecycle = some turn) :
    Turns hookErrorPolicy batch lifecycle (.request stage) turn := by
  cases stage with
  | entering requestId suppressHookErrors =>
      rw [RequestStage.turn] at hturn
      split at hturn
      · cases hturn
        exact .requestDeclined
      · rename_i hopen
        cases hturn
        exact .requestBegins (Bool.eq_false_iff.mpr hopen)
  | delivering requestId suppressHookErrors =>
      rw [RequestStage.turn] at hturn
      split at hturn
      · rename_i errors hdeliver
        cases hturn
        obtain ⟨hwhole, hrequest, hclient⟩ := errors_of_deliverNativeEvents hdeliver
        rw [Option.isNone_some, Bool.or_false] at hrequest
        rw [Option.isNone_some, Bool.and_false] at hclient
        exact .requestDelivers
          (Or.inr ⟨hwhole, hclient, congrArg (Option.map Raised.hookError) hrequest⟩)
      · rename_i hdeliver
        cases hturn
        exact .requestDelivers
          (Or.inl ⟨interrupted_of_deliverNativeEvents hdeliver, rfl, rfl⟩)
  | finishing delivery clientError raised =>
      cases hturn
      exact .requestFinishes
  | declined => cases hturn
  | returned => cases hturn

theorem turns_of_closeTurn {stage : CloseStage ε} {batch : Batch ε} {turn : Turn ε}
    (hturn : stage.turn hookErrorPolicy batch lifecycle = some turn) :
    Turns hookErrorPolicy batch lifecycle (.close stage) turn := by
  cases stage with
  | entering suppressHookErrors =>
      rw [CloseStage.turn] at hturn
      split at hturn
      · cases hturn
        exact .closeDeclined
      · rename_i hopen
        obtain rfl := Option.some.inj hturn
        exact turns_of_beginClose (.entering (Bool.eq_false_iff.mpr hopen))
  | waiting suppressHookErrors =>
      obtain rfl := Option.some.inj hturn
      exact turns_of_beginClose .waiting
  | delivering suppressHookErrors deferredClientError =>
      rw [CloseStage.turn] at hturn
      dsimp only at hturn
      split at hturn
      · rename_i hdeliver
        cases hturn
        have hinterrupted := interrupted_of_deliverNativeEvents hdeliver
        refine .closeReturns (Or.inl ⟨hinterrupted, rfl⟩) fun hwhole => ?_
        exact absurd (hwhole.symm.trans hinterrupted) Bool.false_ne_true
      · rename_i errors hdeliver
        cases hturn
        obtain ⟨hwhole, -, hclient⟩ := errors_of_deliverNativeEvents hdeliver
        rw [Option.isNone_none, Bool.and_true] at hclient
        exact .closeReturns (Or.inr ⟨hwhole, rfl⟩) fun _ => hclient
  | declined => cases hturn
  | returned => cases hturn

theorem turns_of_turn {batch : Batch ε} {turn : Turn ε}
    (hturn : old.turn hookErrorPolicy batch lifecycle = some turn) :
    Turns hookErrorPolicy batch lifecycle old turn := by
  cases old with
  | request stage => exact turns_of_requestTurn hturn
  | close stage => exact turns_of_closeTurn hturn

/-! ## The turns -/

/-- A turn that leaves the lifecycle and its place in it alone. -/
theorem Holds.stay (h : Holds hookErrorPolicy lifecycle stages) (hold : stages[i]? = some old)
    (hactive : new.active = old.active) (hwinner : new.winner = old.winner)
    (hdrained : new.drained = old.drained) (hunfinished : old.finished = none)
    (hnew : new.finished = none) (hknows : new.Knows stages)
    (hdelivered : new.Delivered hookErrorPolicy) :
    Holds hookErrorPolicy lifecycle (stages.set i new) where
  counted := by
    have hcount := countP_set_add Stage.active new hold
    rw [hactive] at hcount
    rw [h.counted]
    omega
  winners := by
    have hcount := countP_set_add Stage.winner new hold
    rw [hwinner] at hcount
    rw [← h.winners]
    omega
  alone := by
    refine forall_mem_set h.alone fun hstage => ?_
    rw [hdrained] at hstage
    exact h.alone old (List.mem_of_getElem? hold) hstage
  knows := by
    refine forall_mem_set (fun stage hmem => ?_) ?_
    · exact (h.knows stage hmem).mono fun error hcollected => hcollected.set hold hunfinished hnew
    · exact hknows.mono fun error hcollected => hcollected.set hold hunfinished hnew
  deferred := fun hnone => by
    have hcount := countP_set_add Stage.drained new hold
    rw [hdrained] at hcount
    exact (h.deferred (by omega)).set hold hunfinished hnew
  delivered := forall_mem_set h.delivered hdelivered

theorem Stage.winner_of_drained (h : stage.drained = true) : stage.winner = true := by
  cases stage with
  | request stage => cases h
  | close stage =>
      cases stage with
      | delivering => rfl
      | returned => rfl
      | _ => cases h

/-- The close that delivers has closed the lifecycle. -/
theorem Holds.closed_of_winner (h : Holds hookErrorPolicy lifecycle stages)
    (hmem : stage ∈ stages) (hwinner : stage.winner = true) : lifecycle.closed = true := by
  have hpos : 0 < stages.countP Stage.winner := List.countP_pos_iff.mpr ⟨stage, hmem, hwinner⟩
  rw [h.winners] at hpos
  by_contra hopen
  rw [Bool.eq_false_iff.mpr hopen] at hpos
  exact Nat.lt_irrefl 0 hpos

theorem Stage.knows_of_not_drained (h : stage.drained = false) (stages : List (Stage ε)) :
    stage.Knows stages := by
  cases stage with
  | request stage => trivial
  | close stage =>
      cases stage with
      | delivering => cases h
      | returned => cases h
      | _ => trivial

theorem countP_drained_le (stages : List (Stage ε)) :
    stages.countP Stage.drained ≤ stages.countP Stage.winner :=
  List.countP_mono_left fun _ _ => Stage.winner_of_drained

/-- Nobody has drained before the close that delivers has. -/
theorem Holds.countP_drained_eq_zero (h : Holds hookErrorPolicy lifecycle stages)
    (hold : stages[i]? = some old) (hlead : old.winner = lifecycle.closed)
    (hwaits : old.drained = false) :
    stages.countP Stage.drained = 0 := by
  have hle := countP_drained_le (stages.set i (.request .declined))
  have hdrained := countP_set_add Stage.drained (.request .declined) hold
  have hwinner := countP_set_add Stage.winner (.request .declined) hold
  rw [h.winners, hlead] at hwinner
  rw [hwaits] at hdrained
  have hzero : (Stage.request (ε := ε) .declined).drained.toNat = 0 := rfl
  have hzero' : (Stage.request (ε := ε) .declined).winner.toNat = 0 := rfl
  rw [hzero, Bool.toNat_false] at hdrained
  omega

theorem not_drained_of_countP (h : stages.countP Stage.drained = 0) (hmem : stage ∈ stages) :
    stage.drained = false := by
  rw [List.countP_eq_zero] at h
  exact Bool.eq_false_iff.mpr (h stage hmem)

theorem Holds.beginRequest (h : Holds hookErrorPolicy lifecycle stages) {requestId : Nat}
    {suppressHookErrors : Bool} (hopen : lifecycle.closed = false)
    (hold : stages[i]? = some (.request (.entering requestId suppressHookErrors))) :
    Holds hookErrorPolicy { lifecycle with activeRequests := lifecycle.activeRequests + 1 }
      (stages.set i (.request (.delivering requestId suppressHookErrors))) := by
  have hnone : stages.countP Stage.drained = 0 :=
    h.countP_drained_eq_zero hold hopen.symm rfl
  have hrest : ∀ stage ∈ stages.set i (.request (.delivering requestId suppressHookErrors)),
      stage.drained = false :=
    forall_mem_set (fun stage hmem => not_drained_of_countP hnone hmem) rfl
  refine ⟨?_, ?_, ?_, fun stage hmem => Stage.knows_of_not_drained (hrest stage hmem) _, ?_,
    forall_mem_set h.delivered trivial⟩
  · have hcount := countP_set_add Stage.active
      (.request (.delivering requestId suppressHookErrors)) hold
    dsimp only [Stage.active, Bool.toNat_true, Bool.toNat_false] at hcount
    dsimp only
    rw [h.counted]
    omega
  · have hcount := countP_set_add Stage.winner
      (.request (.delivering requestId suppressHookErrors)) hold
    rw [h.winners] at hcount
    exact hcount
  · intro stage hmem hstage
    rw [hrest stage hmem] at hstage
    cases hstage
  · exact fun _ => (h.deferred hnone).set hold rfl rfl

theorem Holds.finishRequest (h : Holds hookErrorPolicy lifecycle stages)
    {delivery : Delivery ε} {clientError : Option (TelemetryHookError ε)}
    {raised : Option (Raised ε)}
    (hold : stages[i]? = some (.request (.finishing delivery clientError raised))) :
    Holds hookErrorPolicy { lifecycle with
        deferredClientError := lifecycle.deferredClientError.or clientError
        activeRequests := lifecycle.activeRequests - 1 }
      (stages.set i (.request (.returned delivery clientError raised))) := by
  have hcount := countP_set_add Stage.active (.request (.returned delivery clientError raised)) hold
  dsimp only [Stage.active, Bool.toNat_true, Bool.toNat_false] at hcount
  rw [← h.counted] at hcount
  have hdelivered : (Stage.request (.finishing delivery clientError raised)).Delivered
      hookErrorPolicy := h.delivered _ (List.mem_of_getElem? hold)
  -- The request is counted, so no close has drained.
  have hnone : stages.countP Stage.drained = 0 := by
    rw [List.countP_eq_zero]
    intro stage hmem hstage
    have hzero := h.alone stage hmem hstage
    omega
  have hrest : ∀ stage ∈ stages.set i (.request (.returned delivery clientError raised)),
      stage.drained = false :=
    forall_mem_set (fun stage hmem => not_drained_of_countP hnone hmem) rfl
  refine ⟨?_, ?_, ?_, fun stage hmem => Stage.knows_of_not_drained (hrest stage hmem) _, ?_,
    forall_mem_set h.delivered hdelivered⟩
  · dsimp only
    omega
  · have hcount := countP_set_add Stage.winner
      (.request (.returned delivery clientError raised)) hold
    rw [h.winners] at hcount
    exact hcount
  · intro stage hmem hstage
    rw [hrest stage hmem] at hstage
    cases hstage
  · exact fun _ => (h.deferred hnone).finish hold rfl rfl

/-- The close that delivers goes on or waits. -/
theorem Holds.beginClose (h : Holds hookErrorPolicy lifecycle stages) (hold : stages[i]? = some old)
    {began : Lifecycle ε} {suppressHookErrors : Bool}
    (hbegins : Begins lifecycle suppressHookErrors old began) :
    (began.activeRequests ≠ 0 → Holds hookErrorPolicy began
        (stages.set i (.close (.waiting suppressHookErrors)))) ∧
      (began.activeRequests = 0 → Holds hookErrorPolicy { began with deferredClientError := none }
        (stages.set i (.close (.delivering suppressHookErrors began.deferredClientError)))) := by
  obtain ⟨hlead, hwaits, hactive, hunfinished, rfl⟩ : old.winner = lifecycle.closed ∧
      old.drained = false ∧ old.active = false ∧ old.finished = none ∧
        began = { lifecycle with closed := true } := by
    cases hbegins with
    | entering hopen => exact ⟨hopen.symm, rfl, rfl, rfl, rfl⟩
    | waiting =>
        have hclosed := h.closed_of_winner (List.mem_of_getElem? hold) rfl
        refine ⟨hclosed.symm, rfl, rfl, rfl, ?_⟩
        rw [← hclosed]
  have hnone := h.countP_drained_eq_zero hold hlead hwaits
  have hcollected := h.deferred hnone
  have hcounted : ∀ {new : Stage ε}, new.active = false →
      lifecycle.activeRequests = (stages.set i new).countP Stage.active := by
    intro new hnew
    have hcount := countP_set_add Stage.active new hold
    rw [hactive, hnew] at hcount
    exact h.counted.trans hcount.symm
  have hwinners : ∀ {new : Stage ε}, new.winner = true →
      (stages.set i new).countP Stage.winner = true.toNat := by
    intro new hnew
    have hcount := countP_set_add Stage.winner new hold
    rw [hnew, h.winners, hlead] at hcount
    omega
  refine ⟨fun _ => ?_, fun hidle => ?_⟩
  · have hrest : ∀ stage ∈ stages.set i (.close (.waiting suppressHookErrors)),
        stage.drained = false :=
      forall_mem_set (fun stage hmem => not_drained_of_countP hnone hmem) rfl
    refine ⟨hcounted rfl, hwinners rfl, ?_,
      fun stage hmem => Stage.knows_of_not_drained (hrest stage hmem) _,
      fun _ => hcollected.set hold hunfinished rfl, forall_mem_set h.delivered trivial⟩
    intro stage hmem hstage
    rw [hrest stage hmem] at hstage
    cases hstage
  · refine ⟨hcounted rfl, hwinners rfl, fun _ _ _ => hidle, ?_, ?_,
      forall_mem_set h.delivered trivial⟩
    · refine forall_mem_set (fun stage hmem => ?_) (hcollected.set hold hunfinished rfl)
      exact Stage.knows_of_not_drained (not_drained_of_countP hnone hmem) _
    · intro hempty
      rw [List.countP_eq_zero] at hempty
      exact absurd rfl (hempty _ (mem_set_self hold))

theorem Holds.turn (h : Holds hookErrorPolicy lifecycle stages) (hold : stages[i]? = some old)
    {batch : Batch ε} {waits notifies : Bool}
    (hturns : Turns hookErrorPolicy batch lifecycle old (lifecycle', new, waits, notifies)) :
    Holds hookErrorPolicy lifecycle' (stages.set i new) := by
  cases hturns with
  | requestDeclined => exact h.stay hold rfl rfl rfl rfl rfl trivial trivial
  | requestBegins hopen => exact h.beginRequest hopen hold
  | requestDelivers hdelivered => exact h.stay hold rfl rfl rfl rfl rfl trivial hdelivered
  | requestFinishes => exact h.finishRequest hold
  | closeDeclined => exact h.stay hold rfl rfl rfl rfl rfl trivial trivial
  | closeWaits hbegins hactive => exact (h.beginClose hold hbegins).1 hactive
  | closeBegins hbegins hidle => exact (h.beginClose hold hbegins).2 hidle
  | @closeReturns _ deferredClientError _ _ hraised hdelivered =>
      have hcollected : Collected deferredClientError stages :=
        h.knows _ (List.mem_of_getElem? hold)
      refine h.stay hold rfl rfl rfl rfl rfl ?_ hdelivered
      rcases hraised with hinterrupted | ⟨hwhole, hraised⟩
      · exact Or.inl hinterrupted
      · exact Or.inr ⟨hwhole, deferredClientError, hcollected, hraised⟩

theorem holds_of_reachable {state : Monitor.State (Lifecycle ε) (Stage ε)}
    (h : (monitor hookErrorPolicy).system.Reachable state) :
    Holds hookErrorPolicy state.shared state.stages := by
  refine Monitor.invariant_of_reachable (Holds hookErrorPolicy) holds_init
    (fun call hinv => hinv.start call) ?_ h
  intro lifecycle lifecycle' stages i batch old new waits notifies hinv hold hturn
  exact hinv.turn hold (turns_of_turn hturn)

/-! ## Nobody waits forever -/

/-- The condition of the loop of `begin_close`. -/
def mustWait (lifecycle : Lifecycle ε) : Stage ε → Prop
  | .close (.waiting _) => lifecycle.activeRequests ≠ 0
  | _ => False

/-- Only the end of a request counts down, and it notifies. -/
theorem Turns.activeRequests_le {batch : Batch ε} {waits : Bool}
    (h : Turns hookErrorPolicy batch lifecycle old (lifecycle', new, waits, false)) :
    lifecycle.activeRequests ≤ lifecycle'.activeRequests := by
  have hbegun : ∀ {began : Lifecycle ε} {suppressHookErrors : Bool},
      Begins lifecycle suppressHookErrors old began →
        lifecycle.activeRequests ≤ began.activeRequests := by
    intro began suppressHookErrors hbegins
    cases hbegins with
    | entering => exact Nat.le_refl _
    | waiting => exact Nat.le_refl _
  cases h with
  | requestDeclined => exact Nat.le_refl _
  | requestBegins => exact Nat.le_succ _
  | requestDelivers => exact Nat.le_refl _
  | closeDeclined => exact Nat.le_refl _
  | closeWaits hbegins => exact hbegun hbegins
  | closeBegins hbegins =>
      have hle := hbegun hbegins
      exact hle
  | closeReturns => exact Nat.le_refl _

theorem attentive : Monitor.Attentive (monitor (ε := ε) hookErrorPolicy) mustWait where
  waits := by
    intro i batch lifecycle lifecycle' old new notifies hturn
    have hturns : Turns hookErrorPolicy batch lifecycle old (lifecycle', new, true, notifies) :=
      turns_of_turn hturn
    cases hturns with
    | closeWaits hbegins hactive => exact hactive
  keeps := by
    intro i batch lifecycle lifecycle' old new waits hturn other hwait
    have hturns : Turns hookErrorPolicy batch lifecycle old (lifecycle', new, waits, false) :=
      turns_of_turn hturn
    cases other with
    | request stage => exact hwait
    | close stage =>
        cases stage with
        | waiting =>
            have hpos : 0 < lifecycle.activeRequests := Nat.pos_of_ne_zero hwait
            exact Nat.ne_of_gt (Nat.lt_of_lt_of_le hpos hturns.activeRequests_le)
        | _ => exact hwait

/-- How far a call is from its end. -/
def Stage.rank : Stage ε → Nat
  | .request (.entering _ _) => 3
  | .request (.delivering _ _) => 2
  | .request (.finishing _ _ _) => 1
  | .request .declined | .request (.returned _ _ _) => 0
  | .close (.entering _) => 3
  | .close (.waiting _) => 2
  | .close (.delivering _ _) => 1
  | .close .declined | .close (.returned _ _ _) => 0

theorem descends : Monitor.Descends (monitor (ε := ε) hookErrorPolicy) Stage.rank := by
  intro i batch lifecycle lifecycle' old new waits notifies hturn
  have hturns : Turns hookErrorPolicy batch lifecycle old (lifecycle', new, waits, notifies) :=
    turns_of_turn hturn
  cases hturns with
  | requestDeclined => exact Or.inl (Nat.succ_pos 2)
  | requestBegins => exact Or.inl (Nat.lt_succ_self 2)
  | requestDelivers => exact Or.inl (Nat.lt_succ_self 1)
  | requestFinishes => exact Or.inl (Nat.lt_succ_self 0)
  | closeDeclined => exact Or.inl (Nat.succ_pos 2)
  | closeWaits hbegins =>
      cases hbegins with
      | entering => exact Or.inl (Nat.lt_succ_self 2)
      | waiting => exact Or.inr ⟨rfl, rfl, rfl⟩
  | closeBegins hbegins =>
      cases hbegins with
      | entering => exact Or.inl (Nat.lt_of_lt_of_le (Nat.lt_succ_self 1) (Nat.le_succ 2))
      | waiting => exact Or.inl (Nat.lt_succ_self 1)
  | closeReturns => exact Or.inl (Nat.lt_succ_self 0)

/-- The call has returned. -/
def Stage.over : Stage ε → Bool
  | .request .declined | .request (.returned _ _ _) => true
  | .close .declined | .close (.returned _ _ _) => true
  | _ => false

theorem turn_isSome (h : stage.over = false) (batch : Batch ε) (lifecycle : Lifecycle ε) :
    (stage.turn hookErrorPolicy batch lifecycle).isSome = true := by
  cases stage with
  | request stage =>
      rw [Stage.turn]
      cases stage with
      | entering => rw [RequestStage.turn]; split <;> rfl
      | delivering => rw [RequestStage.turn]; split <;> rfl
      | finishing => rfl
      | declined => cases h
      | returned => cases h
  | close stage =>
      rw [Stage.turn]
      cases stage with
      | entering => rw [CloseStage.turn]; split <;> rfl
      | waiting => rfl
      | delivering => rw [CloseStage.turn]; split <;> rfl
      | declined => cases h
      | returned => cases h

/-- When some call is not over, somebody is awake who can go on. -/
theorem exists_awake {state : Monitor.State (Lifecycle ε) (Stage ε)}
    (h : (monitor hookErrorPolicy).system.Reachable state) (hmem : stage ∈ state.stages)
    (hover : stage.over = false) :
    ∃ thread ∈ state.threads, thread.asleep = false ∧ thread.stage.over = false := by
  have hguarded := Monitor.guarded_of_reachable attentive h
  have hawake : ∀ {stage : Stage ε}, stage ∈ state.stages → stage.over = false →
      ¬ mustWait state.shared stage →
        ∃ thread ∈ state.threads, thread.asleep = false ∧ thread.stage.over = false := by
    intro stage hmem hover hnot
    obtain ⟨thread, hthread, rfl⟩ := List.mem_map.mp hmem
    refine ⟨thread, hthread, Bool.eq_false_iff.mpr fun hasleep => ?_, hover⟩
    exact hnot (hguarded thread hthread hasleep)
  by_cases hwait : mustWait state.shared stage
  · -- A request that delivers keeps the close waiting.
    have hpos : 0 < state.stages.countP Stage.active := by
      rw [← (holds_of_reachable h).counted]
      cases stage with
      | request stage => exact hwait.elim
      | close stage =>
          cases stage with
          | waiting => exact Nat.pos_of_ne_zero hwait
          | _ => exact hwait.elim
    obtain ⟨other, hother, hactive⟩ := List.countP_pos_iff.mp hpos
    cases other with
    | close other => cases hactive
    | request other =>
        refine hawake hother ?_ id
        cases other with
        | delivering => rfl
        | finishing => rfl
        | _ => cases hactive
  · exact hawake hmem hover hwait

/-! ## The last delivery -/

/-- The client failures that a request which has finished hands on to the close.  An
interruption hands nothing on. -/
def Stage.handedOn : Stage ε → List (Cause ε)
  | .request (.returned delivery _ _) =>
      if delivery.interrupted then [] else delivery.clientFailures
  | _ => []

theorem Stage.Delivered.finished_eq (h : stage.Delivered hookErrorPolicy)
    {clientError : Option (TelemetryHookError ε)} (hfinished : stage.finished = some clientError) :
    clientError = firstError hookErrorPolicy false stage.handedOn := by
  cases stage with
  | close stage => cases hfinished
  | request stage =>
      cases stage with
      | returned delivery error raised =>
          obtain rfl : error = clientError := Option.some.inj hfinished
          have hhanded : (Stage.request (.returned delivery error raised)).handedOn =
              if delivery.interrupted then [] else delivery.clientFailures := rfl
          rw [hhanded]
          rcases h with ⟨hinterrupted, hnone, -⟩ | ⟨hwhole, hclient, -⟩
          · rw [if_pos hinterrupted, firstError_nil]
            exact hnone
          · rw [hwhole, if_neg Bool.false_ne_true]
            exact hclient
      | _ => cases hfinished

theorem Stage.finished_of_handedOn (h : stage.handedOn ≠ []) :
    ∃ clientError, stage.finished = some clientError := by
  cases stage with
  | close stage => exact absurd rfl h
  | request stage =>
      cases stage with
      | returned delivery clientError raised => exact ⟨clientError, rfl⟩
      | _ => exact absurd rfl h

/-- What the requests have left to the close: nothing if none of them hands anything on, and
what one of them hands on otherwise. -/
def Left (left : List (Cause ε)) (stages : List (Stage ε)) : Prop :=
  left = [] ∧ (∀ stage ∈ stages, stage.handedOn = []) ∨
    left ≠ [] ∧ ∃ stage ∈ stages, stage.handedOn = left

theorem exists_left (stages : List (Stage ε)) : ∃ left, Left left stages := by
  by_cases hall : ∀ stage ∈ stages, stage.handedOn = []
  · exact ⟨[], Or.inl ⟨rfl, hall⟩⟩
  · simp only [not_forall] at hall
    obtain ⟨stage, hmem, hne⟩ := hall
    exact ⟨stage.handedOn, Or.inr ⟨hne, stage, hmem, rfl⟩⟩

theorem Collected.left {error : Option (TelemetryHookError ε)} (h : Collected error stages)
    (hdelivered : ∀ stage ∈ stages, stage.Delivered hookErrorPolicy) :
    ∃ left, Left left stages ∧ error = firstError hookErrorPolicy false left := by
  cases error with
  | some error =>
      obtain ⟨stage, hmem, hfinished⟩ := h
      have herror := (hdelivered stage hmem).finished_eq hfinished
      refine ⟨stage.handedOn, Or.inr ⟨?_, stage, hmem, rfl⟩, herror⟩
      intro hempty
      rw [hempty, firstError_nil] at herror
      cases herror
  | none =>
      obtain ⟨left, hleft⟩ := exists_left stages
      refine ⟨left, hleft, ?_⟩
      rcases hleft with ⟨rfl, -⟩ | ⟨hne, stage, hmem, rfl⟩
      · exact (firstError_nil false).symm
      · obtain ⟨clientError, hfinished⟩ := Stage.finished_of_handedOn hne
        obtain rfl := h stage hmem clientError hfinished
        exact (hdelivered stage hmem).finished_eq hfinished

end FogHttp.NativeDelivery
