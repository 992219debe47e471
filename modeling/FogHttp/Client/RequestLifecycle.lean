import FogHttp.Client.RequestEvents
import FogHttp.Telemetry.DeliveryClose

/-!
# A request ends what it started

`Emits` says of a block that it hands the events of a script to the sink, in order, and
that it has handed over a first part of them when it raises.  The rules follow the
statements, so the script of a function is read off its body.

The scripts of a request are `bufferedScript` and `openingScript` with a response, and
`errorScript` without one.  `send_spec` and `sendStream_spec` take both functions apart at
their `try` statements: `Begun` is what holds when the body ends, `Failed` what the handler
makes of it.
-/

namespace FogHttp.RequestEvents

open Lib NativeDelivery Block

variable {env : Environment}

/-! ## What may be raised -/

/-- Nothing passes that the sink or the tracer raises. -/
structure Environment.Quiet (env : Environment) : Prop where
  sink : ∀ n error, env.sink n = some error →
    error.isException = true ∧ env.hookErrorPolicy ≠ .raise
  batch : ∀ n batch, env.batch n = some batch → ∀ raw ∈ batch.rawEvents,
    raw.interrupts = false ∧
      (raw.requestId.isSome = true → raw.failure.isSome = true → env.hookErrorPolicy ≠ .raise)
  recordOutcome : ∀ error, env.recordOutcome = some error → error.isException = true
  endSpan : ∀ error, env.endSpan = some error → error.isException = true

/-- No interruption comes out of the sink.  It may raise an `Exception`, under any policy. -/
structure Environment.Uninterrupted (env : Environment) : Prop where
  sink : ∀ n error, env.sink n = some error → error.isException = true
  batch : ∀ n batch, env.batch n = some batch → ∀ raw ∈ batch.rawEvents, raw.interrupts = false

/-- Telemetry may raise this.  Only an interruption passes when the errors of hooks are
suppressed. -/
def Environment.Raises (env : Environment) (suppressHookErrors : Bool)
    (error : BaseException) : Prop :=
  ¬ env.Quiet ∧
    (suppressHookErrors = true → ¬ env.Uninterrupted ∧ error.isException = false)

/-- A retry decision of the trace has no time. -/
def Torn (trace : Option (List RetryAttempt)) : Prop :=
  ∃ retry ∈ retryDecisions trace, retry.decisionElapsed = false

/-! ## Scripts -/

/-- The request after some more events and deliveries. -/
def Request.emitted (request : Request) (script : List TelemetryEmission) (drains : Nat) :
    Request :=
  { request with emissions := request.emissions ++ script, drains }

/-- The block hands the events of the script to the sink. -/
def Emits (block : RequestBlock Unit) (script : List TelemetryEmission)
    (raises : BaseException → Prop) : Prop :=
  ∀ request, wp block
    (fun _ next => ∃ drains, next = request.emitted script drains)
    (fun error next => raises error ∧
      ∃ part drains, part <+: script ∧ next = request.emitted part drains) request

theorem Request.emitted_nil (request : Request) : request.emitted [] request.drains = request := by
  rw [emitted, List.append_nil]

theorem Request.emitted_emitted (request : Request) (first second : List TelemetryEmission)
    (drains drains' : Nat) :
    (request.emitted first drains).emitted second drains' =
      request.emitted (first ++ second) drains' := by
  rw [emitted, emitted, emitted, List.append_assoc]

namespace Emits

variable {block next : RequestBlock Unit} {script rest : List TelemetryEmission}
  {raises raises' : BaseException → Prop}

theorem mono (h : Emits block script raises) (himp : ∀ error, raises error → raises' error) :
    Emits block script raises' := by
  intro request
  refine wp_mono (h request) (fun _ _ hvalue => hvalue) ?_
  intro error next hraised
  exact ⟨himp error hraised.1, hraised.2⟩

theorem nothing : Emits (pure ()) [] raises := by
  intro request
  rw [wp_pure]
  exact ⟨request.drains, request.emitted_nil.symm⟩

theorem seq (h : Emits block script raises) (hnext : Emits next rest raises) :
    Emits (do block; next) (script ++ rest) raises := by
  intro request
  rw [wp_bind]
  refine wp_mono (h request) ?_ ?_
  · rintro _ _ ⟨drains, rfl⟩
    refine wp_mono (hnext _) ?_ ?_
    · rintro _ _ ⟨drains', rfl⟩
      exact ⟨drains', request.emitted_emitted _ _ _ _⟩
    · rintro error _ ⟨hraises, part, drains', hpart, rfl⟩
      exact ⟨hraises, script ++ part, drains', (List.prefix_append_right_inj script).mpr hpart,
        request.emitted_emitted _ _ _ _⟩
  · rintro error _ ⟨hraises, part, drains, hpart, rfl⟩
    exact ⟨hraises, part, drains, hpart.trans (List.prefix_append _ _), rfl⟩

theorem forEach {ι : Type} {items : List ι} {body : ι → RequestBlock Unit}
    {emission : ι → TelemetryEmission}
    (hbody : ∀ item ∈ items, Emits (body item) [emission item] raises) :
    Emits (Block.forEach items body) (items.map emission) raises := by
  induction items with
  | nil => exact nothing
  | cons item items ih =>
      exact (hbody item List.mem_cons_self).seq
        (ih fun other hmem => hbody other (List.mem_cons_of_mem _ hmem))

end Emits

/-- An event is recorded before the sink answers. -/
theorem emit_emits (emission : TelemetryEmission) :
    Emits (emit env emission) [emission] (env.Raises emission.suppressHookErrors) := by
  intro request
  rw [emit, wp_bind, wp_read, wp_bind, wp_update]
  cases hsink : env.sink request.emissions.length with
  | none =>
      dsimp only
      rw [wp_pure]
      exact ⟨request.drains, rfl⟩
  | some error =>
      have hpart : ∃ part drains, part <+: [emission] ∧
          { request with emissions := request.emissions ++ [emission] } =
            request.emitted part drains :=
        ⟨[emission], request.drains, List.prefix_rfl, rfl⟩
      dsimp only
      split
      · rename_i hexception
        split
        · rw [wp_pure]
          exact ⟨request.drains, rfl⟩
        · rename_i hhandled
          rw [wp_raise]
          refine ⟨⟨?_, ?_⟩, hpart⟩
          · intro hquiet
            have hpolicy := (hquiet.sink _ _ hsink).2
            unfold handleHookError at hhandled
            cases hp : env.hookErrorPolicy with
            | raise => exact hpolicy hp
            | warn => simp [hp] at hhandled
            | ignore => simp [hp] at hhandled
          · intro hsuppress
            rw [handleHookError, hsuppress] at hhandled
            cases hhandled
      · rename_i hexception
        rw [wp_raise]
        refine ⟨⟨?_, fun _ => ⟨?_, Bool.eq_false_iff.mpr hexception⟩⟩, hpart⟩
        · intro hquiet
          exact hexception (hquiet.sink _ _ hsink).1
        · intro huninterrupted
          exact hexception (huninterrupted.sink _ _ hsink)

/-- A delivery of native events records none of the context. -/
theorem nativeTelemetryDrain_emits (suppressHookErrors : Bool) :
    Emits (nativeTelemetryDrain env suppressHookErrors) [] (env.Raises suppressHookErrors) := by
  intro request
  have hdrained : { request with drains := request.drains + 1 } =
      request.emitted [] (request.drains + 1) := by
    rw [Request.emitted, List.append_nil]
  rw [nativeTelemetryDrain, wp_bind, wp_read, wp_bind, wp_update]
  cases hbatch : env.batch request.drains with
  | none =>
      dsimp only
      rw [wp_pure]
      exact ⟨_, hdrained⟩
  | some batch =>
      dsimp only
      split
      · rename_i hnone
        rw [wp_raise]
        have hinterrupted := interrupted_of_deliverNativeEvents hnone
        obtain ⟨raw, hmem, hinterrupts⟩ := List.any_eq_true.mp hinterrupted
        refine ⟨⟨?_, fun _ => ⟨?_, rfl⟩⟩, [], _, List.prefix_rfl, hdrained⟩
        · intro hquiet
          rw [(hquiet.batch _ _ hbatch raw hmem).1] at hinterrupts
          cases hinterrupts
        · intro huninterrupted
          rw [huninterrupted.batch _ _ hbatch raw hmem] at hinterrupts
          cases hinterrupts
      · rename_i errors hsome
        split
        · rename_i herror
          rw [wp_raise]
          rw [(errors_of_deliverNativeEvents hsome).2.1, Option.isNone_some, Bool.or_false,
            firstError_isSome] at herror
          obtain ⟨hloud, hpolicy, hfailures⟩ := herror
          obtain ⟨raw, hmem, hrequest, hfailure⟩ := mem_of_requestFailures hfailures
          refine ⟨⟨?_, ?_⟩, [], _, List.prefix_rfl, hdrained⟩
          · intro hquiet
            exact (hquiet.batch _ _ hbatch raw hmem).2 hrequest hfailure hpolicy
          · intro hsuppress
            rw [hsuppress] at hloud
            cases hloud
        · rw [wp_pure]
          exact ⟨_, hdrained⟩

/-- A retry decision without a time raises before its event. -/
theorem emitRetryDecisions_emits (trace : Option (List RetryAttempt)) (suppressHookErrors : Bool) :
    Emits (emitRetryDecisions env (retryDecisions trace) suppressHookErrors)
      ((retryDecisions trace).map (retryDecision · suppressHookErrors))
      (fun error => env.Raises suppressHookErrors error ∨ Torn trace) := by
  refine Emits.forEach ?_
  intro retry hmem
  rw [emitRetryDecision]
  split
  · exact (emit_emits _).mono fun _ => Or.inl
  · rename_i helapsed
    intro request
    rw [wp_raise]
    exact ⟨Or.inr ⟨retry, hmem, Bool.eq_false_iff.mpr helapsed⟩, [], request.drains,
      List.nil_prefix, request.emitted_nil.symm⟩

/-- The events of a response up to its headers. -/
def headersScript (response : Response) : List TelemetryEmission :=
  (retryDecisions response.retryTrace).map (retryDecision · false) ++
    ((response.history.zipIdx 1).map (fun hop => redirectDecision hop.1 hop.2) ++
      [responseHeadersReceived response.metadata])

/-- The events of a request whose response is streamed, until it is returned. -/
def openingScript (response : Response) : List TelemetryEmission :=
  requestStarted :: headersScript response

/-- The events of a request with a buffered response. -/
def bufferedScript (response : Response) : List TelemetryEmission :=
  openingScript response ++ (bufferedCompletion response).emissions

/-- The events of the handler of a request that fails. -/
def handlerScript (error : BaseException) : List TelemetryEmission :=
  (retryDecisions error.retryTrace).map (retryDecision · true) ++
    [(errorCompletion error).emission .requestFinished]

/-- The events of a request that fails. -/
def errorScript (error : BaseException) : List TelemetryEmission :=
  requestStarted :: handlerScript error

theorem emitStreamResponseHeadersTelemetry_emits (response : Response) :
    Emits (emitStreamResponseHeadersTelemetry env response) (headersScript response)
      (fun error => env.Raises false error ∨ Torn response.retryTrace) := by
  refine (emitRetryDecisions_emits _ _).seq (Emits.seq ?_ ?_)
  · refine Emits.forEach ?_
    intro hop _
    exact (emit_emits _).mono fun _ => Or.inl
  · exact (emit_emits _).mono fun _ => Or.inl

theorem emissions_emits (completion : TelemetryCompletion) :
    Emits
      (do
        emit env (completion.emission .responseBodyFinished)
        emit env (completion.emission .requestFinished))
      completion.emissions (env.Raises completion.suppressHookErrors) :=
  (emit_emits _).seq (emit_emits _)

/-! ## The span -/

/-- The request when its span has ended. -/
def Request.traced (request : Request) : Request :=
  { request with requestSpan := request.requestSpan.map fun span =>
      if span.held then ⟨false, span.ends + 1⟩ else ⟨false, span.ends⟩ }

/-- The request after a call of `span.end()`. -/
def Request.spanEnded (request : Request) : Request :=
  { request with requestSpan := request.requestSpan.map fun span =>
      { span with ends := span.ends + 1 } }

theorem endSpan_spec (suppressInterruptions : Bool) (request : Request) :
    wp (endSpan env suppressInterruptions)
      (fun _ next => next = request.spanEnded)
      (fun raised next => (¬ env.Quiet ∧ raised.isException = false) ∧
        next = request.spanEnded) request := by
  rw [endSpan, wp_bind, wp_update]
  cases hend : env.endSpan with
  | none => exact rfl
  | some raised =>
      dsimp only
      split
      · exact rfl
      · rename_i hraised
        rw [Bool.or_eq_true, not_or, Bool.not_eq_true, Bool.not_eq_true] at hraised
        rw [wp_raise]
        refine ⟨⟨?_, hraised.1⟩, rfl⟩
        intro hquiet
        rw [hquiet.endSpan _ hend] at hraised
        cases hraised.1

/-- The span is ended although the outcome could not be recorded. -/
theorem finishSpan_spec (error : Option BaseException) (request : Request) :
    wp (finishSpan env error)
      (fun _ next => next = request.spanEnded)
      (fun raised next => (¬ env.Quiet ∧ raised.isException = false) ∧
        next = request.spanEnded) request := by
  rw [finishSpan]
  split
  · exact endSpan_spec _ _
  · rename_i raised hrecord
    split
    · exact endSpan_spec _ _
    · rename_i hexception
      rw [wp_ensuring, wp_raise]
      refine wp_mono (endSpan_spec true request) ?_ fun _ _ hraised => hraised
      intro _ next hnext
      refine ⟨⟨?_, Bool.eq_false_iff.mpr hexception⟩, hnext⟩
      intro hquiet
      exact hexception (hquiet.recordOutcome _ hrecord)

/-- A span ends once, whatever is raised on the way.  With an error of the request nothing
else is raised. -/
theorem finishRequestTracing_spec (error : Option BaseException) (request : Request) :
    wp (finishRequestTracing env error)
      (fun _ next => next = request.traced)
      (fun raised next => (error = none ∧ ¬ env.Quiet ∧ raised.isException = false) ∧
        next = request.traced) request := by
  rw [finishRequestTracing, wp_bind, wp_read]
  cases hspan : request.requestSpan with
  | none =>
      dsimp only
      rw [wp_pure, Request.traced, hspan, Option.map_none, ← hspan]
  | some span =>
      dsimp only
      rw [wp_bind, wp_update]
      cases hheld : span.held with
      | false =>
          rw [if_neg Bool.false_ne_true, wp_pure, Request.traced, hspan, Option.map_some, hheld]
          rfl
      | true =>
          have htraced : request.traced =
              { request with requestSpan := some { span with held := false } }.spanEnded := by
            rw [Request.traced, hspan, Option.map_some, hheld]
            rfl
          rw [if_pos rfl, wp_attempt, htraced]
          refine wp_mono (finishSpan_spec error _) (fun _ _ hnext => hnext) ?_
          rintro raised next ⟨hraised, hnext⟩
          split
          · rename_i hnone
            exact ⟨⟨Option.isNone_iff_eq_none.mp hnone, hraised⟩, hnext⟩
          · exact hnext

/-! ## The body and the handler -/

/-- The client has an entry for each of its requests. -/
def Environment.tracks (env : Environment) : ClientKind → Bool
  | .sync => true
  | .async => env.lifecycleDebug

/-- The entry is left to the streamed response. -/
def Environment.entrusts (env : Environment) : ClientKind → Bool
  | .sync => false
  | .async => env.lifecycleDebug

/-- What a request fails from before it has a response. -/
inductive Causes (env : Environment) (sent : Except BaseException Response) :
    BaseException → Prop where
  | admission {cause : BaseException} (h : env.admission = some cause) : Causes env sent cause
  | tracer {cause : BaseException} (h : env.startSpan = .error cause) : Causes env sent cause
  | sink {cause : BaseException} (h : (env.sink 0).isSome = true) (hloud : ¬ env.Quiet) :
      Causes env sent cause
  | requestHeaders {cause : BaseException} (h : env.requestHeaders = some cause) :
      Causes env sent cause
  | transport {cause : BaseException} (h : sent = .error cause) : Causes env sent cause

/-- The request before its handler.  The sink may have raised for the first event, which
then does not count. -/
structure Begun (env : Environment) (request : Request) : Prop where
  events : request.emissions = (if request.telemetryStarted then [requestStarted] else []) ∨
    request.telemetryStarted = false ∧ request.emissions = [requestStarted]
  started : request.telemetryStarted = true → env.telemetry = true
  requestSpan : request.requestSpan = none ∨ request.requestSpan = some ⟨true, 0⟩
  response : request.response = StreamResponse.new

/-- The request when the transport is called. -/
structure Ready (env : Environment) (kind : ClientKind) (request : Request) : Prop
    extends Begun env request where
  emissions : request.emissions = if env.telemetry then [requestStarted] else []
  telemetryStarted : request.telemetryStarted = env.telemetry
  active : request.active = env.tracks kind

theorem beginSend_spec (kind : ClientKind) :
    wp (beginSend env kind)
      (fun _ next => next = { Request.new with active := env.tracks kind })
      (fun cause next => env.admission = some cause ∧ next = Request.new) Request.new := by
  cases kind with
  | sync =>
      rw [beginSend, wp_bind]
      cases hadmission : env.admission with
      | none => exact rfl
      | some cause => exact ⟨rfl, rfl⟩
  | async =>
      rw [beginSend]
      split
      · rename_i hdebug
        rw [wp_update, Environment.tracks, hdebug]
      · rename_i hdebug
        rw [wp_pure, Environment.tracks, Bool.eq_false_iff.mpr hdebug]
        rfl

theorem startRequestTracing_spec (request : Request) :
    wp (startRequestTracing env)
      (fun _ next => next = request ∨ next = { request with requestSpan := some ⟨true, 0⟩ })
      (fun cause next => env.startSpan = .error cause ∧ next = request) request := by
  rw [startRequestTracing]
  split
  · exact Or.inr rfl
  · exact Or.inl rfl
  · rename_i cause hspan
    split
    · exact Or.inl rfl
    · exact ⟨hspan, rfl⟩

/-- The first event starts the telemetry, unless the sink raises for it. -/
theorem startRequestTelemetry_spec {request : Request} (hnone : request.emissions = [])
    (hstarted : request.telemetryStarted = false) :
    wp (startRequestTelemetry env)
      (fun _ next => ∃ drains, next =
        { request.emitted (if env.telemetry then [requestStarted] else []) drains with
          telemetryStarted := env.telemetry })
      (fun _ next => ((env.sink 0).isSome = true ∧ ¬ env.Quiet) ∧ ∃ part drains,
        part <+: [requestStarted] ∧ next = request.emitted part drains) request := by
  rw [startRequestTelemetry]
  split
  · rename_i htelemetry
    rw [wp_bind]
    cases hsink : env.sink 0 with
    | none =>
        rw [emit, wp_bind, wp_read, wp_bind, wp_update, hnone, List.length_nil, hsink]
        refine ⟨request.drains, ?_⟩
        rw [htelemetry, Request.emitted, hnone]
    | some error =>
        refine wp_mono (emit_emits requestStarted request) ?_ ?_
        · rintro _ _ ⟨drains, rfl⟩
          rw [wp_update]
          exact ⟨drains, by simp [htelemetry]⟩
        · rintro error _ ⟨hraises, hnext⟩
          exact ⟨⟨rfl, hraises.1⟩, hnext⟩
  · rename_i htelemetry
    rw [Bool.not_eq_true] at htelemetry
    rw [wp_pure]
    have hsame : { request.emitted [] request.drains with telemetryStarted := false } =
        request := by
      rw [request.emitted_nil, ← hstarted]
    refine ⟨request.drains, ?_⟩
    rw [htelemetry]
    exact hsame.symm

theorem startRequest_spec (kind : ClientKind) (sent : Except BaseException Response) :
    wp (startRequest env kind) (fun _ next => Ready env kind next ∧ next.transported = false)
      (fun cause next => Causes env sent cause ∧ Begun env next ∧ next.transported = false)
      Request.new := by
  rw [startRequest, wp_bind]
  refine wp_mono (beginSend_spec kind) ?_ ?_
  · rintro _ _ rfl
    rw [wp_bind]
    refine wp_mono (startRequestTracing_spec _) ?_ ?_
    · intro _ traced htraced
      have hfresh : traced.emissions = [] ∧ traced.telemetryStarted = false ∧
          (traced.requestSpan = none ∨ traced.requestSpan = some ⟨true, 0⟩) ∧
          traced.response = StreamResponse.new ∧ traced.active = env.tracks kind ∧
          traced.transported = false := by
        rcases htraced with rfl | rfl
        · exact ⟨rfl, rfl, Or.inl rfl, rfl, rfl, rfl⟩
        · exact ⟨rfl, rfl, Or.inr rfl, rfl, rfl, rfl⟩
      obtain ⟨hnone, hstarted, hspan, hresponse, hactive, htransported⟩ := hfresh
      rw [wp_bind]
      refine wp_mono (startRequestTelemetry_spec hnone hstarted) ?_ ?_
      · rintro _ _ ⟨drains, rfl⟩
        have hready : Ready env kind
            { traced.emitted (if env.telemetry then [requestStarted] else []) drains with
              telemetryStarted := env.telemetry } := by
          have hevents : traced.emissions ++ (if env.telemetry then [requestStarted] else []) =
              if env.telemetry then [requestStarted] else [] := by
            rw [hnone, List.nil_append]
          exact ⟨⟨Or.inl hevents, id, hspan, hresponse⟩, hevents, rfl, hactive⟩
        cases hheaders : env.requestHeaders with
        | none => exact ⟨hready, htransported⟩
        | some cause => exact ⟨.requestHeaders hheaders, hready.toBegun, htransported⟩
      · rintro cause _ ⟨⟨hsink, hloud⟩, part, drains, hpart, rfl⟩
        refine ⟨.sink hsink hloud, ⟨?_, ?_, hspan, hresponse⟩, htransported⟩
        · rw [Request.emitted, hnone, hstarted, List.nil_append, if_neg Bool.false_ne_true]
          rcases List.prefix_cons_iff.mp hpart with hpart | ⟨rest, hpart, hrest⟩
          · exact Or.inl hpart
          · rw [List.prefix_nil.mp hrest] at hpart
            exact Or.inr ⟨rfl, hpart⟩
        · intro h
          exact absurd (hstarted.symm.trans h) Bool.false_ne_true
    · rintro cause _ ⟨hspan, rfl⟩
      exact ⟨.tracer hspan, ⟨Or.inl rfl, nofun, Or.inl rfl, rfl⟩, rfl⟩
  · rintro cause _ ⟨hadmission, rfl⟩
    exact ⟨.admission hadmission, ⟨Or.inl rfl, nofun, Or.inl rfl, rfl⟩, rfl⟩

/-- How a request ends that has failed before it had a response.  The error of the request is
raised, and its events are complete, unless the sink is interrupted. -/
structure Failed (env : Environment) (cause error : BaseException) (final : Request) :
    Prop where
  events : final.emissions <+: errorScript cause
  complete : env.Uninterrupted → ¬ Torn cause.retryTrace → final.telemetryStarted = true →
    final.emissions = errorScript cause
  raised : error = cause ∨ ¬ env.Uninterrupted ∧ error.isException = false ∨
    Torn cause.retryTrace

theorem emitNativeTelemetry_emits (suppressHookErrors : Bool) :
    Emits (emitNativeTelemetry env suppressHookErrors) [] (env.Raises suppressHookErrors) := by
  rw [emitNativeTelemetry]
  split
  · exact nativeTelemetryDrain_emits _
  · exact Emits.nothing

theorem emitRequestErrorTelemetry_emits (error : BaseException) (request : Request)
    (hstarted : request.telemetryStarted = true → env.telemetry = true) :
    wp (emitRequestErrorTelemetry env error)
      (fun _ next => ∃ drains, next = request.emitted
        (if request.telemetryStarted then handlerScript error else []) drains)
      (fun raised next => (env.Raises true raised ∨ Torn error.retryTrace) ∧
        request.telemetryStarted = true ∧
          ∃ part drains, part <+: handlerScript error ∧ next = request.emitted part drains)
      request := by
  rw [emitRequestErrorTelemetry, wp_bind, wp_read]
  cases hbegun : request.telemetryStarted with
  | true =>
      rw [hstarted hbegun, Bool.and_self, if_pos rfl]
      have hemits : Emits
          (do
            emitRetryDecisions env (retryDecisions error.retryTrace) true
            emit env ((errorCompletion error).emission .requestFinished))
          (handlerScript error)
          (fun raised => env.Raises true raised ∨ Torn error.retryTrace) :=
        (emitRetryDecisions_emits _ _).seq ((emit_emits _).mono fun _ => Or.inl)
      refine wp_mono (hemits request) (fun _ _ hnext => hnext) ?_
      rintro raised next ⟨hraises, hnext⟩
      exact ⟨hraises, rfl, hnext⟩
  | false =>
      rw [Bool.and_false, if_neg Bool.false_ne_true, wp_pure, if_neg Bool.false_ne_true]
      exact ⟨request.drains, request.emitted_nil.symm⟩

/-- The handler ends the span and the telemetry, and leaves the rest of the request alone. -/
theorem failRequest_spec {α : Type} {request : Request} (hbegun : Begun env request)
    (cause : BaseException) :
    wp (failRequest env cause : RequestBlock α) (fun _ _ => False)
      (fun error next => Failed env cause error next ∧
        next.requestSpan = request.traced.requestSpan ∧ next.response = request.response ∧
          next.transported = request.transported) request := by
  have hpart : ∀ {part : List TelemetryEmission},
      (request.telemetryStarted = true → part <+: handlerScript cause) →
        (request.telemetryStarted = false → part = []) →
          request.emissions ++ part <+: errorScript cause := by
    intro part hstarted hnever
    rcases hbegun.events with hevents | ⟨hnot, hevents⟩
    · rw [hevents]
      split
      · rename_i hbegun
        exact (List.prefix_append_right_inj [requestStarted]).mpr (hstarted hbegun)
      · rename_i hbegun
        rw [hnever (Bool.eq_false_iff.mpr hbegun)]
        exact List.nil_prefix
    · rw [hevents, hnever hnot]
      exact ⟨_, rfl⟩
  have hnothing := hpart (fun _ => List.nil_prefix) fun _ => rfl
  rw [failRequest, wp_bind]
  refine wp_mono (finishRequestTracing_spec (some cause) request) ?_ ?_
  · rintro _ _ rfl
    rw [wp_bind]
    refine wp_mono (emitNativeTelemetry_emits true _) ?_ ?_
    · rintro _ _ ⟨drains, rfl⟩
      rw [wp_bind]
      refine wp_mono (emitRequestErrorTelemetry_emits cause _ hbegun.started) ?_ ?_
      · rintro _ _ ⟨drains', rfl⟩
        rw [wp_raise, Request.emitted_emitted, List.nil_append]
        refine ⟨⟨?_, ?_, Or.inl rfl⟩, rfl, rfl, rfl⟩
        · refine hpart ?_ ?_
          · intro hstarted
            exact (if_pos hstarted).symm ▸ List.prefix_rfl
          · intro hnot
            exact if_neg (Bool.eq_false_iff.mp hnot)
        · intro _ _ hfinal
          have hstarted : request.telemetryStarted = true := hfinal
          have hevents : request.emissions = [requestStarted] := by
            rcases hbegun.events with hevents | ⟨-, hevents⟩
            · rw [hevents, if_pos hstarted]
            · exact hevents
          show request.emissions ++ (if request.telemetryStarted then handlerScript cause
            else []) = errorScript cause
          rw [hevents, if_pos hstarted]
          rfl
      · rintro error _ ⟨hraises, hstarted, part, drains', hfirst, rfl⟩
        rw [Request.emitted_emitted, List.nil_append]
        refine ⟨⟨?_, ?_, ?_⟩, rfl, rfl, rfl⟩
        · refine hpart (fun _ => hfirst) ?_
          intro hnot
          exact absurd (hnot.symm.trans hstarted) Bool.false_ne_true
        · intro huninterrupted hwhole
          rcases hraises with hraises | htorn
          · exact absurd huninterrupted (hraises.2 rfl).1
          · exact absurd htorn hwhole
        · exact Or.inr (hraises.imp_left fun h => h.2 rfl)
    · rintro error _ ⟨hraises, part, drains, hfirst, rfl⟩
      rw [List.prefix_nil.mp hfirst]
      refine ⟨⟨hnothing, ?_, Or.inr (Or.inl (hraises.2 rfl))⟩, rfl, rfl, rfl⟩
      intro huninterrupted
      exact absurd huninterrupted (hraises.2 rfl).1
  · rintro error _ ⟨⟨hnone, -⟩, -⟩
    cases hnone

/-! ## Both ways to send -/

/-- What a request leaves behind: no entry, and no span that has not ended. -/
structure Left (final : Request) : Prop where
  inactive : final.active = false
  requestSpan : ∀ span, final.requestSpan = some span → span = ⟨false, 1⟩

theorem Begun.traced_requestSpan {request : Request} (h : Begun env request) {span : RequestSpan}
    (hspan : request.traced.requestSpan = some span) : span = ⟨false, 1⟩ := by
  rw [Request.traced] at hspan
  rcases h.requestSpan with hnone | hsome
  · rw [hnone] at hspan
    cases hspan
  · rw [hsome] at hspan
    exact (Option.some.inj hspan).symm

/-- How `send` ends. -/
structure Sent (env : Environment) (sent : Except BaseException Response)
    (result : Except BaseException Response) (final : Request) : Prop extends Left final where
  returned : ∀ response, result = .ok response → sent = .ok response ∧
    final.emissions = if env.telemetry then bufferedScript response else []
  raised : ∀ error, result = .error error →
    (∃ cause, Causes env sent cause ∧ Failed env cause error final) ∨
      ∃ response, sent = .ok response ∧ (¬ env.Quiet ∨ Torn response.retryTrace) ∧
        final.emissions <+: bufferedScript response

theorem emitBufferedResponseTelemetry_emits (response : Response) :
    Emits (emitBufferedResponseTelemetry env response)
      (if env.telemetry then headersScript response ++ (bufferedCompletion response).emissions
        else [])
      (fun error => env.Raises false error ∨ Torn response.retryTrace) := by
  rw [emitBufferedResponseTelemetry]
  split
  · exact (emitStreamResponseHeadersTelemetry_emits response).seq
      ((emissions_emits (bufferedCompletion response)).mono fun _ => Or.inl)
  · exact Emits.nothing

/-- What a buffered response adds to the first event. -/
theorem bufferedScript_eq (response : Response) :
    bufferedScript response =
      [requestStarted] ++ (headersScript response ++ (bufferedCompletion response).emissions) := by
  rw [bufferedScript, openingScript, List.cons_append, List.singleton_append]

theorem finishBuffered_spec {kind : ClientKind} {request : Request}
    (hready : Ready env kind request) (response : Response) :
    wp
      (do
        finishRequestTracing env none
        emitNativeTelemetry env false
        emitBufferedResponseTelemetry env response
        pure response)
      (fun result next => result = response ∧ next.requestSpan = request.traced.requestSpan ∧
        next.emissions = if env.telemetry then bufferedScript response else [])
      (fun _ next => next.requestSpan = request.traced.requestSpan ∧
        (¬ env.Quiet ∨ Torn response.retryTrace) ∧ next.emissions <+: bufferedScript response)
      request := by
  have hpart : ∀ {part : List TelemetryEmission},
      (part <+: if env.telemetry then
        headersScript response ++ (bufferedCompletion response).emissions else []) →
      request.emissions ++ part <+: bufferedScript response := by
    intro part hfirst
    rw [hready.emissions, bufferedScript_eq]
    split at hfirst
    · rename_i htelemetry
      rw [if_pos htelemetry]
      exact (List.prefix_append_right_inj _).mpr hfirst
    · rename_i htelemetry
      rw [if_neg htelemetry, List.prefix_nil.mp hfirst]
      exact List.nil_prefix
  have hnothing := hpart List.nil_prefix
  rw [List.append_nil] at hnothing
  rw [wp_bind]
  refine wp_mono (finishRequestTracing_spec none request) ?_ ?_
  · rintro _ _ rfl
    rw [wp_bind]
    refine wp_mono (emitNativeTelemetry_emits false _) ?_ ?_
    · rintro _ _ ⟨drains, rfl⟩
      rw [wp_bind]
      refine wp_mono (emitBufferedResponseTelemetry_emits response _) ?_ ?_
      · rintro _ _ ⟨drains', rfl⟩
        rw [wp_pure, Request.emitted_emitted, List.nil_append]
        refine ⟨rfl, rfl, ?_⟩
        show request.emissions ++ _ = _
        rw [hready.emissions, bufferedScript_eq]
        split <;> rfl
      · rintro error _ ⟨hraises, part, drains', hfirst, rfl⟩
        rw [Request.emitted_emitted, List.nil_append]
        exact ⟨rfl, hraises.imp_left And.left, hpart hfirst⟩
    · rintro error _ ⟨hraises, part, drains, hfirst, rfl⟩
      rw [List.prefix_nil.mp hfirst, Request.emitted, List.append_nil]
      exact ⟨rfl, Or.inl hraises.1, hnothing⟩
  · rintro error _ ⟨⟨-, hloud, -⟩, rfl⟩
    exact ⟨rfl, Or.inl hloud, hnothing⟩

/-- The response that the transport returns changes nothing that the branches look at. -/
theorem Ready.received {kind : ClientKind} {request : Request} (h : Ready env kind request) :
    Ready env kind { request with transported := true } :=
  ⟨⟨h.events, h.started, h.requestSpan, h.response⟩, h.emissions, h.telemetryStarted, h.active⟩

theorem Begun.left {request next : Request} (h : Begun env request)
    (hspan : next.requestSpan = request.traced.requestSpan) :
    Left { next with active := false } := by
  refine ⟨rfl, ?_⟩
  intro span hsome
  exact h.traced_requestSpan (hspan.symm.trans hsome)

/-- The handler, and the entry of the request after it. -/
theorem Begun.failed {request : Request} (h : Begun env request) {α : Type}
    {sent : Except BaseException Response} {cause : BaseException}
    (hcause : Causes env sent cause) {value : α → Request → Prop} :
    wp (failRequest env cause) (fun result => wp finishSend (fun _ => value result)
        fun error => Sent env sent (.error error))
      (fun error => wp finishSend (fun _ => Sent env sent (.error error))
        fun error => Sent env sent (.error error)) request := by
  refine wp_mono (failRequest_spec h cause) (fun _ _ hfalse => hfalse.elim) ?_
  rintro error next ⟨hfailed, hspan, -, -⟩
  rw [finishSend, wp_update]
  refine ⟨h.left hspan, nofun, ?_⟩
  intro raised hraised
  obtain rfl := Except.error.inj hraised
  exact Or.inl ⟨cause, hcause, hfailed.events, hfailed.complete, hfailed.raised⟩

theorem send_spec (kind : ClientKind) (sent : Except BaseException Response) :
    wp (send env kind sent) (fun response => Sent env sent (.ok response))
      (fun error => Sent env sent (.error error)) Request.new := by
  rw [send, wp_ensuring, wp_attempt, wp_bind]
  refine wp_mono (startRequest_spec kind sent) ?_ ?_
  · rintro _ request ⟨hready, -⟩
    cases sent with
    | ok response =>
        rw [transport, wp_bind, wp_update, wp_pure]
        refine wp_mono (finishBuffered_spec hready.received response) ?_ ?_
        · rintro _ next ⟨rfl, hspan, hevents⟩
          rw [finishSend, wp_update]
          refine ⟨hready.received.toBegun.left hspan, ?_, nofun⟩
          rintro _ ⟨⟩
          exact ⟨rfl, hevents⟩
        · rintro error next ⟨hspan, hbroken, hevents⟩
          rw [finishSend, wp_update]
          refine ⟨hready.received.toBegun.left hspan, nofun, ?_⟩
          intro _ _
          exact Or.inr ⟨response, rfl, hbroken, hevents⟩
    | error cause =>
        rw [transport, wp_raise]
        exact hready.toBegun.failed (.transport rfl)
  · rintro cause request ⟨hcause, hbegun, -⟩
    exact hbegun.failed hcause

/-! ## The handover of a streamed response -/

/-- The request after `_finish_lifecycle_debug`. -/
def Request.debugFinished (request : Request) : Request :=
  if request.response.lifecycleDebugFinish && !request.response.lifecycleDebugFinished then
    { request with
      active := false
      response := { request.response with lifecycleDebugFinished := true } }
  else request

theorem finishLifecycleDebug_spec (request : Request) :
    wp finishLifecycleDebug (fun _ next => next = request.debugFinished) (fun _ _ => False)
      request := by
  rw [finishLifecycleDebug, wp_bind, wp_read, Request.debugFinished]
  split
  · exact rfl
  · exact rfl

/-- The response is closed with a call of the raw response. -/
def Request.rawEnded (request : Request) (rawEnd : RawEnd) : Request :=
  { request with response := { request.response with
      closed := true, rawEnds := request.response.rawEnds ++ [rawEnd] } }

/-- A response without telemetry is closed quietly. -/
theorem closeResponse_unbound (info : Response) {request : Request}
    (hopen : request.response.closed = false) (hcontext : request.response.telemetryContext = false)
    (suppressTelemetryErrors : Bool) (nativeErrorType : Option String) :
    wp (closeResponse env info .closed none suppressTelemetryErrors nativeErrorType)
      (fun _ next => next = (request.rawEnded .close).debugFinished) (fun _ _ => False)
      request := by
  have hfinish : ∀ outcome errorType suppress,
      wp (finishObservability env info outcome none errorType suppress)
        (fun _ next => next = (request.rawEnded .close).debugFinished) (fun _ _ => False)
        (request.rawEnded .close) := by
    intro outcome errorType suppress
    rw [finishObservability, wp_bind, wp_read, wp_bind]
    refine wp_mono (finishLifecycleDebug_spec _) ?_ fun _ _ hfalse => hfalse
    rintro _ _ rfl
    rw [Request.rawEnded, hcontext, if_neg Bool.false_ne_true]
    exact rfl
  rw [closeResponse, wp_bind, wp_read, hopen, if_neg Bool.false_ne_true, wp_bind, updateResponse,
    wp_update]
  split
  · exact hfinish _ _ _
  · exact hfinish _ _ _

/-- The request after a failed handover. -/
structure Dropped (request next : Request) : Prop where
  closed : next.response.closed = true
  rawEnds : next.response.rawEnds = [.close]
  active : next.response.lifecycleDebugFinish = true → next.active = false
  requestSpan : next.requestSpan = request.requestSpan

theorem Request.dropped {request : Request} (hrawEnds : request.response.rawEnds = [])
    (hlive : request.response.lifecycleDebugFinished = false) :
    Dropped request (request.rawEnded .close).debugFinished := by
  have hends : request.response.rawEnds ++ [.close] = [.close] := by
    rw [hrawEnds, List.nil_append]
  rw [Request.debugFinished]
  split
  · exact ⟨rfl, hends, fun _ => rfl, rfl⟩
  · rename_i hunbound
    refine ⟨rfl, hends, ?_, rfl⟩
    intro hbound
    refine absurd ?_ hunbound
    show (request.response.lifecycleDebugFinish && !request.response.lifecycleDebugFinished) = true
    have hfinish : request.response.lifecycleDebugFinish = true := hbound
    rw [hfinish, hlive]
    rfl

theorem Request.debugFinished_emissions (request : Request) :
    request.debugFinished.emissions = request.emissions := by
  rw [debugFinished]
  split <;> rfl

theorem finishStreamTracing_spec (info : Response) (nativeErrorType : Option String)
    {request : Request} (hresponse : request.response = StreamResponse.new) :
    wp (finishStreamTracing env info nativeErrorType)
      (fun _ next => next = request.traced)
      (fun _ next => ¬ env.Quiet ∧ Dropped request.traced next ∧
        next.emissions = request.emissions) request := by
  rw [finishStreamTracing, wp_attempt]
  refine wp_mono (finishRequestTracing_spec none request) (fun _ _ hnext => hnext) ?_
  rintro error _ ⟨⟨-, hloud, -⟩, rfl⟩
  have hfresh : request.traced.response = StreamResponse.new := hresponse
  rw [wp_bind, wp_attempt]
  refine wp_mono (closeResponse_unbound info ?_ ?_ _ _) ?_ fun _ _ hfalse => hfalse.elim
  · rw [hfresh]
    rfl
  · rw [hfresh]
    rfl
  · rintro _ _ rfl
    refine ⟨hloud, Request.dropped ?_ ?_, Request.debugFinished_emissions _⟩
    · rw [hfresh]
      rfl
    · rw [hfresh]
      rfl

/-- The response that a caller is given. -/
def handedOver (env : Environment) (kind : ClientKind) : StreamResponse :=
  { StreamResponse.new with
    telemetryContext := env.telemetry
    nativeTelemetryFinish := env.telemetry
    lifecycleDebugFinish := env.entrusts kind }

theorem bindStreamLifecycleDebug_spec (kind : ClientKind) {request : Request}
    (hresponse : request.response = StreamResponse.new) :
    wp (bindStreamLifecycleDebug env kind)
      (fun _ next => next = { request with response :=
        { StreamResponse.new with
          lifecycleDebugFinish := env.entrusts kind } })
      (fun _ _ => False) request := by
  cases kind with
  | sync =>
      have hsame : { request with response := StreamResponse.new } = request := by
        rw [← hresponse]
      rw [bindStreamLifecycleDebug, wp_pure]
      exact hsame.symm
  | async =>
      have hentrusts : env.entrusts .async = env.lifecycleDebug := rfl
      rw [bindStreamLifecycleDebug, hentrusts]
      split
      · rename_i hdebug
        rw [updateResponse, wp_update, hresponse, hdebug]
      · rename_i hdebug
        have hsame : { request with response := StreamResponse.new } = request := by
          rw [← hresponse]
        rw [wp_pure, Bool.eq_false_iff.mpr hdebug]
        exact hsame.symm

theorem bindStreamResponseTelemetry_spec (info : Response) (nativeErrorType : Option String)
    (kind : ClientKind) {request : Request}
    (hresponse : request.response =
      { StreamResponse.new with lifecycleDebugFinish := env.entrusts kind }) :
    wp (bindStreamResponseTelemetry env info nativeErrorType)
      (fun _ next => ∃ drains, next =
        { request.emitted (if env.telemetry then headersScript info else []) drains with
          response := handedOver env kind })
      (fun _ next => (¬ env.Quiet ∨ Torn info.retryTrace) ∧ Dropped request next ∧
        env.telemetry = true ∧ ∃ part, part <+: headersScript info ∧
          next.emissions = request.emissions ++ part) request := by
  rw [bindStreamResponseTelemetry]
  split
  · rename_i htelemetry
    have hemits : Emits
        (do
          nativeTelemetryDrain env false
          emitStreamResponseHeadersTelemetry env info)
        (headersScript info) (fun error => env.Raises false error ∨ Torn info.retryTrace) :=
      ((nativeTelemetryDrain_emits false).mono fun _ => Or.inl).seq
        (emitStreamResponseHeadersTelemetry_emits info)
    rw [wp_attempt]
    refine wp_mono (hemits request) ?_ ?_
    · rintro _ _ ⟨drains, rfl⟩
      rw [updateResponse, wp_update]
      exact ⟨drains, by simp [Request.emitted, hresponse, handedOver, htelemetry]⟩
    · rintro error _ ⟨hraises, part, drains, hfirst, rfl⟩
      have hfresh : (request.emitted part drains).response = { StreamResponse.new with
          lifecycleDebugFinish := env.entrusts kind } := hresponse
      rw [wp_bind]
      refine wp_mono (closeResponse_unbound info ?_ ?_ _ _) ?_ fun _ _ hfalse => hfalse.elim
      · rw [hfresh]
        rfl
      · rw [hfresh]
        rfl
      · rintro _ _ rfl
        have hdropped := @Request.dropped (request.emitted part drains)
          (by rw [hfresh]; rfl) (by rw [hfresh]; rfl)
        have hevents := ((request.emitted part drains).rawEnded .close).debugFinished_emissions
        rw [wp_bind]
        refine wp_mono (nativeTelemetryDrain_emits true _) ?_ ?_
        · rintro _ _ ⟨drains', rfl⟩
          refine ⟨hraises.imp_left And.left,
            ⟨hdropped.closed, hdropped.rawEnds, hdropped.active, hdropped.requestSpan⟩,
            htelemetry, part, hfirst, ?_⟩
          rw [Request.emitted, List.append_nil]
          exact hevents
        · rintro _ _ ⟨hraises', rest, drains', hrest, rfl⟩
          rw [List.prefix_nil.mp hrest]
          refine ⟨Or.inl hraises'.1,
            ⟨hdropped.closed, hdropped.rawEnds, hdropped.active, hdropped.requestSpan⟩,
            htelemetry, part, hfirst, ?_⟩
          rw [Request.emitted, List.append_nil]
          exact hevents
  · rename_i htelemetry
    rw [wp_pure]
    refine ⟨request.drains, ?_⟩
    have hhanded : handedOver env kind = request.response := by
      simp [handedOver, hresponse, htelemetry, StreamResponse.new]
    have hsame : { request.emitted [] request.drains with response := request.response } =
        request := by
      rw [request.emitted_nil]
    rw [hhanded]
    exact hsame.symm

/-- How `_send_stream` ends. -/
structure Streamed (env : Environment) (kind : ClientKind)
    (sent : Except BaseException Response) (result : Except BaseException Response)
    (final : Request) : Prop where
  requestSpan : ∀ span, final.requestSpan = some span → span = ⟨false, 1⟩
  returned : ∀ response, result = .ok response → sent = .ok response ∧
    final.emissions = (if env.telemetry then openingScript response else []) ∧
      final.response = handedOver env kind ∧
        final.active = env.entrusts kind
  raised : ∀ error, result = .error error → final.active = false ∧
    ((∃ cause, Causes env sent cause ∧ Failed env cause error final ∧
        final.transported = false) ∨
      ∃ response, sent = .ok response ∧ (¬ env.Quiet ∨ Torn response.retryTrace) ∧
        final.emissions <+: openingScript response ∧
          final.response.closed = true ∧ final.response.rawEnds = [.close])

/-- The entry after the last block. -/
theorem finishSendStream_spec (request : Request) :
    wp finishSendStream
      (fun _ next => next = { request with
        active := request.active && request.response.lifecycleDebugFinish })
      (fun _ _ => False) request := by
  rw [finishSendStream, wp_bind, wp_read]
  split
  · rename_i hbound
    rw [wp_pure, hbound, Bool.and_true]
  · rename_i hunbound
    rw [finishSend, wp_update, Bool.eq_false_iff.mpr hunbound, Bool.and_false]

theorem Begun.failedStream {request : Request} (h : Begun env request)
    (htransported : request.transported = false) {kind : ClientKind} {α : Type}
    {sent : Except BaseException Response} {cause : BaseException}
    (hcause : Causes env sent cause) {value : α → Request → Prop} :
    wp (failRequest env cause) (fun result => wp finishSendStream (fun _ => value result)
        fun error => Streamed env kind sent (.error error))
      (fun error => wp finishSendStream (fun _ => Streamed env kind sent (.error error))
        fun error => Streamed env kind sent (.error error)) request := by
  refine wp_mono (failRequest_spec h cause) (fun _ _ hfalse => hfalse.elim) ?_
  rintro error next ⟨hfailed, hspan, hresponse, hsame⟩
  refine wp_mono (finishSendStream_spec next) ?_ fun _ _ hfalse => hfalse.elim
  rintro _ _ rfl
  refine ⟨?_, nofun, ?_⟩
  · intro span hsome
    exact h.traced_requestSpan (hspan.symm.trans hsome)
  · intro raised hraised
    obtain rfl := Except.error.inj hraised
    refine ⟨?_, Or.inl ⟨cause, hcause, ⟨hfailed.events, hfailed.complete, hfailed.raised⟩,
      hsame.trans htransported⟩⟩
    show (next.active && next.response.lifecycleDebugFinish) = false
    rw [hresponse, h.response]
    exact Bool.and_false _

/-- The end of a failed handover. -/
theorem Dropped.streamed {request next : Request} (h : Dropped request next)
    (hspan : ∀ span, request.requestSpan = some span → span = ⟨false, 1⟩) {kind : ClientKind}
    {response : Response} {error : BaseException}
    (hbroken : ¬ env.Quiet ∨ Torn response.retryTrace)
    (hevents : next.emissions <+: openingScript response) :
    wp finishSendStream (fun _ => Streamed env kind (.ok response) (.error error))
      (fun error => Streamed env kind (.ok response) (.error error)) next := by
  refine wp_mono (finishSendStream_spec next) ?_ fun _ _ hfalse => hfalse.elim
  rintro _ _ rfl
  refine ⟨?_, nofun, ?_⟩
  · intro span hsome
    exact hspan span (h.requestSpan.symm.trans hsome)
  · intro _ _
    refine ⟨?_, Or.inr ⟨response, rfl, hbroken, hevents, h.closed, h.rawEnds⟩⟩
    show (next.active && next.response.lifecycleDebugFinish) = false
    cases hbound : next.response.lifecycleDebugFinish with
    | false => exact Bool.and_false _
    | true => rw [h.active hbound, Bool.false_and]

theorem sendStream_spec (kind : ClientKind) (sent : Except BaseException Response)
    (nativeErrorType : Option String) :
    wp (sendStream env kind sent nativeErrorType)
      (fun response => Streamed env kind sent (.ok response))
      (fun error => Streamed env kind sent (.error error)) Request.new := by
  rw [sendStream, wp_ensuring, wp_attempt, wp_bind]
  refine wp_mono (startRequest_spec kind sent) ?_ ?_
  · rintro _ request ⟨hready, htransported⟩
    cases sent with
    | ok response =>
        have hreceived := hready.received
        have hspan : ∀ span, { request with transported := true }.traced.requestSpan =
            some span → span = ⟨false, 1⟩ := by
          intro span hsome
          exact hreceived.toBegun.traced_requestSpan hsome
        have hopening : ∀ {part : List TelemetryEmission},
            (part <+: if env.telemetry then headersScript response else []) →
              request.emissions ++ part <+: openingScript response := by
          intro part hfirst
          rw [hready.emissions]
          split at hfirst
          · rename_i htelemetry
            rw [if_pos htelemetry]
            exact (List.prefix_append_right_inj [requestStarted]).mpr hfirst
          · rename_i htelemetry
            rw [if_neg htelemetry, List.prefix_nil.mp hfirst]
            exact List.nil_prefix
        have hnothing := hopening List.nil_prefix
        rw [List.append_nil] at hnothing
        rw [transport, wp_bind, wp_update, wp_pure, wp_bind]
        refine wp_mono (finishStreamTracing_spec response nativeErrorType
          hreceived.toBegun.response) ?_ ?_
        · rintro _ _ rfl
          rw [wp_bind]
          refine wp_mono (bindStreamLifecycleDebug_spec kind
            (show Request.response _ = _ from hreceived.toBegun.response)) ?_
            fun _ _ hfalse => hfalse.elim
          rintro _ _ rfl
          rw [wp_bind]
          refine wp_mono (bindStreamResponseTelemetry_spec response nativeErrorType kind rfl) ?_ ?_
          · rintro _ _ ⟨drains, rfl⟩
            rw [wp_pure]
            refine wp_mono (finishSendStream_spec _) ?_ fun _ _ hfalse => hfalse.elim
            rintro _ _ rfl
            refine ⟨hspan, ?_, nofun⟩
            rintro _ ⟨⟩
            refine ⟨rfl, ?_, rfl, ?_⟩
            · show request.emissions ++ _ = _
              rw [hready.emissions]
              split <;> rfl
            · show (request.active && env.entrusts kind) = env.entrusts kind
              rw [hready.active]
              cases kind with
              | sync => rfl
              | async => exact Bool.and_self _
          · rintro error next ⟨hbroken, hdropped, htelemetry, part, hfirst, hevents⟩
            refine Dropped.streamed hdropped hspan hbroken ?_
            rw [hevents]
            exact hopening (by rw [if_pos htelemetry]; exact hfirst)
        · rintro error next ⟨hloud, hdropped, hevents⟩
          refine Dropped.streamed hdropped hspan (Or.inl hloud) ?_
          rw [hevents]
          exact hnothing
    | error cause =>
        rw [transport, wp_raise]
        exact hready.toBegun.failedStream htransported (.transport rfl)
  · rintro cause request ⟨hcause, hbegun, htransported⟩
    exact hbegun.failedStream htransported hcause

/-- A request ends what it started, whatever the sink, the tracer and the transport raise.  No
open span is left behind, and no entry, but for the one that a streamed response of the
asynchronous client takes over when it is returned.  A response that is returned has all of
its events.  A request that fails without a response raises its own error, with all of its
events once its telemetry has started, unless the sink is interrupted: an `Exception` of the
sink does no harm there.  A streamed response that is not returned is closed. -/
theorem request_ends_what_it_started (env : Environment) (kind : ClientKind)
    (sent : Except BaseException Response) (nativeErrorType : Option String) :
    Sent env sent (send env kind sent Request.new).1 (send env kind sent Request.new).2 ∧
      Streamed env kind sent (sendStream env kind sent nativeErrorType Request.new).1
        (sendStream env kind sent nativeErrorType Request.new).2 := by
  refine ⟨?_, ?_⟩
  · have hspec := wp_iff.mp (@send_spec env kind sent)
    cases hrun : send env kind sent Request.new with
    | mk result final =>
        cases result with
        | ok response => exact hspec.1 response final hrun
        | error error => exact hspec.2 error final hrun
  · have hspec := wp_iff.mp (@sendStream_spec env kind sent nativeErrorType)
    cases hrun : sendStream env kind sent nativeErrorType Request.new with
    | mk result final =>
        cases result with
        | ok response => exact hspec.1 response final hrun
        | error error => exact hspec.2 error final hrun

/-- A sink that raises from the second event on. -/
def loudEnvironment : Environment :=
  { telemetry := true
    requestId := 1
    hookErrorPolicy := .raise
    sink := fun n => if n = 0 then none else some (.exception "ValueError" none none)
    batch := fun _ => none
    admission := none
    lifecycleDebug := true
    startSpan := .ok true
    recordOutcome := none
    endSpan := some .keyboardInterrupt
    requestHeaders := none }

/-- The transport fails.  Its error is raised with all events, although the sink raises for
the second one. -/
theorem request_ends_what_it_started_example :
    (send loudEnvironment .sync (.error (.exception "NetworkError" none none)) Request.new).1 =
        .error (.exception "NetworkError" none none) ∧
      Left (send loudEnvironment .sync (.error (.exception "NetworkError" none none))
        Request.new).2 ∧
      (send loudEnvironment .sync (.error (.exception "NetworkError" none none))
        Request.new).2.emissions = errorScript (.exception "NetworkError" none none) :=
  ⟨rfl, (request_ends_what_it_started loudEnvironment .sync
    (.error (.exception "NetworkError" none none)) none).1.toLeft, rfl⟩

end FogHttp.RequestEvents
