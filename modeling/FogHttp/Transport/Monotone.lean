import FogHttp.Transport.Attempts

/-!
# The attempt loops are bounded and monotone

The redirects of a request are bounded by its history, the retries by
`completedRetries`, and every hop but the first one belongs to one or the other.
`Budget` is that count.

What the hops of one request have in common is an order.  `HopFace` is what a
server sees of a hop, and `Precedes` says what a later hop inherits from an
earlier one: `https`, the method `GET`, an empty body, and no body once the
origin was another.  It is reflexive and transitive, and a round moves the
request up along it, so it holds between any two hops.  `MonotoneTrace` is that
invariant, with the applied redirects among the hops.

`Spent` follows a body that cannot be replayed: it is either still unsent or
gone.
-/

namespace FogHttp

open Lib

/-! ## What a later hop inherits -/

/-- Method, URL and presence of a body. -/
structure HopFace where
  method : Text
  url : HttpUrl
  hasBody : Bool

/-- The face of a hop. -/
def Hop.face (hop : Hop) : HopFace := ⟨hop.parts.method, hop.url, !hop.parts.body.isEmpty⟩

/-- The face of the hop that a request would hand over. -/
def RequestState.face (state : RequestState) : HopFace :=
  ⟨state.method, state.url, state.body.hasRequestBody⟩

/-- What holds between a hop and a later one. -/
structure HopFace.Precedes (earlier later : HopFace) : Prop where
  scheme : earlier.url.scheme = ("https" : Text) → later.url.scheme = ("https" : Text)
  method : earlier.method = ("GET" : Text) → later.method = ("GET" : Text)
  body : earlier.hasBody = false → later.hasBody = false
  origin : earlier.url.isSameOrigin later.url = false → later.hasBody = false

theorem HttpUrl.isSameOrigin_iff {url other : HttpUrl} :
    url.isSameOrigin other = true ↔
      url.scheme = other.scheme ∧ url.inner.hostStr = other.inner.hostStr ∧
        url.port = other.port := by
  simp [HttpUrl.isSameOrigin, and_assoc]

theorem HttpUrl.isSameOrigin_refl (url : HttpUrl) : url.isSameOrigin url = true :=
  isSameOrigin_iff.mpr ⟨rfl, rfl, rfl⟩

theorem HttpUrl.isSameOrigin_trans {url middle other : HttpUrl}
    (h : url.isSameOrigin middle = true) (hother : middle.isSameOrigin other = true) :
    url.isSameOrigin other = true := by
  obtain ⟨hscheme, hhost, hport⟩ := isSameOrigin_iff.mp h
  obtain ⟨hscheme', hhost', hport'⟩ := isSameOrigin_iff.mp hother
  exact isSameOrigin_iff.mpr
    ⟨hscheme.trans hscheme', hhost.trans hhost', hport.trans hport'⟩

namespace HopFace

variable {earlier middle later : HopFace}

theorem Precedes.refl (face : HopFace) : face.Precedes face where
  scheme := id
  method := id
  body := id
  origin h := by
    rw [HttpUrl.isSameOrigin_refl] at h
    exact absurd h (by decide)

theorem Precedes.trans (h : earlier.Precedes middle) (hlater : middle.Precedes later) :
    earlier.Precedes later where
  scheme := hlater.scheme ∘ h.scheme
  method := hlater.method ∘ h.method
  body := hlater.body ∘ h.body
  origin hother := by
    -- One of the two steps leaves the origin, and the body is gone from there on.
    cases hfirst : earlier.url.isSameOrigin middle.url with
    | false => exact hlater.body (h.origin hfirst)
    | true =>
        apply hlater.origin
        rw [← Bool.not_eq_true] at hother ⊢
        exact fun hsecond => hother (HttpUrl.isSameOrigin_trans hfirst hsecond)

end HopFace

/-! ## What a redirect changes -/

/-- What the policy guarantees of a mutation. -/
structure PolicyMutation.Guarded (mutation : PolicyMutation) (request : PolicyRequest) :
    Prop where
  scheme : request.url.scheme = ("https" : Text) → mutation.url.scheme = ("https" : Text)
  method : request.method = ("GET" : Text) → mutation.method = ("GET" : Text)
  origin : request.url.isSameOrigin mutation.url = false → mutation.body = .drop
  replay : mutation.body = .drop ∨ request.body.canReplay = true

theorem HttpUrl.scheme_cases (url : HttpUrl) :
    url.scheme = ("http" : Text) ∨ url.scheme = ("https" : Text) := by
  have h := url.supported
  simpa [isSupported, HttpUrl.scheme] using h

/-- A followed redirect never leaves `https`, never leaves `GET`, and drops the body when
the origin changes. -/
theorem redirectDecision_guarded {crate : UrlCrate} {request : PolicyRequest}
    {response : ResponseHead} {action : RedirectAction}
    (h : redirectDecision crate request response = some (.follow action)) :
    (request.url.scheme = ("https" : Text) → action.url.scheme = ("https" : Text)) ∧
      (request.method = ("GET" : Text) → action.method = ("GET" : Text)) ∧
      (request.url.isSameOrigin action.url = false → action.body = .drop) := by
  simp only [redirectDecision, Option.bind_eq_bind, Option.bind_eq_some_iff] at h
  obtain ⟨status, -, location, -, ⟨method, body⟩, hmethod, nextUrl, -, h⟩ := h
  dsimp only at h
  split at h
  · simp at h
  · rename_i hallowed
    simp only [Option.pure_def, Option.some.injEq, RedirectDecision.follow.injEq] at h
    subst h
    refine ⟨?_, ?_, ?_⟩
    · intro hsecure
      rcases HttpUrl.scheme_cases nextUrl with hplain | hnext
      · simp [redirectSecurityPolicy, isHttpsToHttpRedirect, hsecure, hplain] at hallowed
      · exact hnext
    · intro hget
      rw [redirectMethod.eq_def, if_pos hget, Option.some.injEq, Prod.mk.injEq] at hmethod
      exact hmethod.1.symm
    · intro hcross
      simp only [redirectSecurityPolicy, hcross]
      cases body <;> rfl

/-- The budget and the guarantees of a mutation that the pipeline returned. -/
theorem guarded_of_afterResponseBody {crate : UrlCrate} {pipeline : PolicyPipeline}
    {request : PolicyRequest} {response : ResponseHead} {action : ResponsePolicyAction}
    {completedRedirects : Nat} {mutation : PolicyMutation}
    (haction : pipeline.onResponseHeaders crate request response = some action)
    (h : pipeline.afterResponseBody request action completedRedirects = .ok mutation) :
    mutation.Guarded request ∧
      ∃ redirect, pipeline.redirect = some redirect ∧
        completedRedirects < redirect.maxRedirects := by
  simp only [PolicyPipeline.onResponseHeaders, Option.bind_eq_bind, Option.bind_eq_some_iff,
    Option.map_eq_some_iff] at haction
  obtain ⟨redirect, hredirect, decision, hdecision, rfl⟩ := haction
  rw [PolicyPipeline.afterResponseBody] at h
  split at h
  · simp at h
  · rename_i hbudget
    refine ⟨?_, redirect, hredirect, by simpa using hbudget⟩
    cases decision with
    | block error => simp [PolicyPipeline.redirectMutation] at h
    | follow followed =>
        obtain ⟨hscheme, hmethod, horigin⟩ := redirectDecision_guarded hdecision
        rw [PolicyPipeline.redirectMutation] at h
        split at h
        · simp at h
        · rename_i hreplay
          rw [bind_eq_ok] at h
          obtain ⟨_, -, h⟩ := h
          simp only [Except.ok.injEq] at h
          subst h
          refine ⟨hscheme, hmethod, horigin, ?_⟩
          cases hbody : followed.body with
          | drop => exact Or.inl rfl
          | preserve => exact Or.inr (by simpa [hbody] using hreplay)

/-! ## What a hop leaves alone -/

/-- The part of the request state that the attempt loop reads. -/
structure RequestCore where
  face : HopFace
  bodyPolicy : RequestBodyPolicy
  policy : PolicyPipeline
  completedRetries : Nat

def RequestState.core (state : RequestState) : RequestCore :=
  ⟨state.face, state.bodyPolicy, state.policy, state.completedRetries⟩

namespace RequestState

theorem SameRequest.core_eq {state next : RequestState} (h : SameRequest state next) :
    next.core = state.core := by
  obtain ⟨_, _, _, rfl⟩ := h
  rfl

/-- The hop that is handed over has the face of the request. -/
theorem handOver_eq_ok {ρ α : Type} {state : RequestState} {env : AttemptEnv ρ α} {hop : Hop}
    (h : state.handOver env = .ok hop) : hop.face = state.face := by
  simp only [handOver, takeRequestParts, bind_eq_ok] at h
  obtain ⟨_, -, parts, ⟨body, hbody, hparts⟩, _, -, h⟩ := h
  simp only [Except.ok.injEq] at h hparts
  subst h hparts
  simp only [Hop.face, face, HopFace.mk.injEq, true_and]
  cases hstate : state.body with
  | empty =>
      simp only [hstate, RequestBodyState.takeBodyParts, Except.ok.injEq] at hbody
      subst hbody
      rfl
  | buffered content =>
      simp only [hstate, RequestBodyState.takeBodyParts, Except.ok.injEq] at hbody
      subst hbody
      rfl
  | streaming stream =>
      rw [hstate, RequestBodyState.takeBodyParts] at hbody
      cases hreceiver : env.takeReceiver stream with
      | error message => simp [hreceiver, Except.map] at hbody
      | ok contentLength =>
          simp only [hreceiver, Except.map, Except.ok.injEq] at hbody
          subst hbody
          rfl

/-- A mutation sets method and URL, and may drop the body. -/
theorem applyPolicyMutation_core (state : RequestState) (mutation : PolicyMutation) :
    (state.applyPolicyMutation mutation).core =
      { state.core with
        face := ⟨mutation.method, mutation.url,
          if mutation.body = .drop then false else state.body.hasRequestBody⟩
        bodyPolicy := if mutation.body = .drop then .empty else state.bodyPolicy } := by
  have hcore := state.removeManagedHeader_same.core_eq
  simp only [core, face, RequestCore.mk.injEq, HopFace.mk.injEq] at hcore
  obtain ⟨⟨-, -, hbody⟩, hbodyPolicy, hpolicy, hretries⟩ := hcore
  simp only [core, face, applyPolicyMutation, hbodyPolicy, hpolicy, hretries]
  cases mutation.body with
  | drop => rfl
  | preserve => simp [hbody]

end RequestState

/-! ## One round -/

section Rounds

variable {ρ α : Type} {crate : UrlCrate} {retry : Option RetryPolicy} {env : AttemptEnv ρ α}

/-- Why a round goes on, after its hop was handed over. -/
inductive Proceeds (retry : Option RetryPolicy) (attempts : Attempts ρ) :
    Attempts ρ → Prop where
  | retried (replay : attempts.state.bodyPolicy.canReplay = true)
      (budget : ∃ policy, retry = some policy ∧
        attempts.state.completedRetries < policy.retries) :
      Proceeds retry attempts attempts.retried
  | redirected (raw : ρ) (mutation : PolicyMutation)
      (guarded : mutation.Guarded attempts.state.policyRequest)
      (budget : ∃ redirect, attempts.state.policy.redirect = some redirect ∧
        attempts.history.length < redirect.maxRedirects) :
      Proceeds retry attempts (attempts.redirected raw mutation)

/-- The round returns without another event, or goes on. -/
abbrev RoundSpec (retry : Option RetryPolicy) (attempts : Attempts ρ)
    (round : Round (Attempts ρ) (AttemptResult ρ α)) : Prop :=
  round.Ends (fun next => next.trace = attempts.trace) (Proceeds retry attempts)

/-- A decision to retry is within the budget. -/
theorem proceeds_retried {timing : RetryTiming} {policy : RetryPolicy} {attempts : Attempts ρ}
    {minimumDelay : Option Nat} {delay : Nat} (hpolicy : retry = some policy)
    (h : policy.decision timing attempts.state.policyRequest attempts.state.completedRetries
      minimumDelay = .retry delay) : Proceeds retry attempts attempts.retried := by
  obtain ⟨hreplay, -, hbudget, -⟩ := RetryPolicy.decision_eq_retry h
  exact .retried hreplay ⟨policy, hpolicy, hbudget⟩

theorem afterNetworkError_spec (error : HyperClientError) (attempts : Attempts ρ) :
    RoundSpec retry attempts (attempts.afterNetworkError retry env error) := by
  unfold Attempts.afterNetworkError
  split
  · rfl
  · split
    · rename_i delay hdecision
      split
      · rfl
      · simp only [RequestState.retryOnNetworkError, RetryPolicy.onNetworkError,
          Option.bind_eq_bind, Option.bind_eq_some_iff, Option.ite_none_right_eq_some,
          Option.some.injEq] at hdecision
        obtain ⟨policy, hpolicy, -, hdecision⟩ := hdecision
        exact proceeds_retried hpolicy hdecision
    · rfl
    · rfl

theorem retryAfterResponse_spec {attempts : Attempts ρ} (delay : Nat)
    (h : Proceeds retry attempts attempts.retried) :
    RoundSpec retry attempts (attempts.retryAfterResponse env delay) := by
  unfold Attempts.retryAfterResponse
  split
  · rfl
  · split
    · rfl
    · exact h

theorem complete_spec (terminal : ResponseHead → Except Text α) (response : ResponseHead)
    (attempts : Attempts ρ) :
    RoundSpec retry attempts (attempts.complete terminal response) := by
  unfold Attempts.complete
  split <;> rfl

theorem follow_spec {attempts : Attempts ρ} {response : ResponseHead}
    {action : ResponsePolicyAction}
    (haction : attempts.state.policy.onResponseHeaders crate attempts.state.policyRequest
      response = some action) :
    RoundSpec retry attempts (attempts.follow env response action) := by
  unfold Attempts.follow
  split
  · rfl
  · rename_i raw hraw
    split
    · rfl
    · rename_i mutation hafter
      simp only [RequestState.afterResponseBody, bind_eq_ok, mapError_eq_ok] at hafter
      obtain ⟨checked, hchecked, _, -, hsame⟩ := hafter
      rw [Except.ok.injEq] at hsame
      subst hsame
      obtain ⟨hguarded, hbudget⟩ := guarded_of_afterResponseBody haction hchecked
      exact .redirected raw checked hguarded hbudget

theorem afterResponse_spec (terminal : ResponseHead → Except Text α) (response : ResponseHead)
    (attempts : Attempts ρ) :
    RoundSpec retry attempts
      (attempts.afterResponse crate retry terminal env response) := by
  unfold Attempts.afterResponse
  dsimp only
  split
  · rfl
  · split
    · rename_i action haction
      exact follow_spec haction
    · split
      · rename_i delay hdecision
        simp only [RequestState.retryOnResponse, RetryPolicy.onResponse, Option.bind_eq_bind,
          Option.bind_eq_some_iff, Option.ite_none_right_eq_some, Option.some.injEq] at hdecision
        obtain ⟨policy, hpolicy, -, hdecision⟩ := hdecision
        exact retryAfterResponse_spec delay (proceeds_retried hpolicy hdecision)
      · exact complete_spec terminal response attempts
      · exact complete_spec terminal response attempts

/-- The inversion lemma of a round: it returns before or after its hop, or goes on after
it. -/
theorem attempt_spec (terminal : AttemptEnv ρ α → ResponseHead → Except Text α)
    (attempts : Attempts ρ) :
    (attempts.attempt crate retry terminal env).Ends
      (fun next => next.trace = attempts.trace ∨
        ∃ hop, hop.face = attempts.state.face ∧
          next.trace = attempts.trace ++ [.hop hop])
      (fun next => ∃ state hop, state.core = attempts.state.core ∧
        hop.face = attempts.state.face ∧
        Proceeds retry ⟨state, attempts.history, attempts.trace ++ [.hop hop]⟩ next) := by
  have hcore := (attempts.state.transportRoute_same env.hop attempts.history.length).core_eq
  unfold Attempts.attempt
  dsimp only
  split
  · exact Or.inl rfl
  · split
    · exact Or.inl rfl
    · split
      · exact Or.inl rfl
      · rename_i hop hhop
        have hface : hop.face = attempts.state.face :=
          (RequestState.handOver_eq_ok hhop).trans (congrArg RequestCore.face hcore)
        have hsent : RoundSpec retry
            ⟨(attempts.state.transportRoute env.hop attempts.history.length).2,
              attempts.history, attempts.trace ++ [.hop hop]⟩
            (Attempts.sendHop crate retry (terminal env) env hop
              { attempts with
                state := (attempts.state.transportRoute env.hop attempts.history.length).2 }) := by
          unfold Attempts.sendHop
          dsimp only
          split
          · rfl
          · exact afterNetworkError_spec _ _
          · exact afterResponse_spec _ _ _
        exact hsent.imp (fun next htrace => Or.inr ⟨hop, hface, htrace⟩)
          (fun next hnext => ⟨_, hop, hcore, hface, hnext⟩)

end Rounds

/-! ## The hops of a trace -/

/-- The hop of an event. -/
def AttemptEvent.hop? : AttemptEvent → Option Hop
  | .hop sent => some sent
  | .retry | .redirect _ _ => none

/-- The hops that were handed to the client. -/
def transportHops (trace : List AttemptEvent) : List Hop := trace.filterMap AttemptEvent.hop?

/-- The hop has a body. -/
def Hop.hasBody (hop : Hop) : Bool := !hop.parts.body.isEmpty

@[simp] theorem transportHops_append (trace more : List AttemptEvent) :
    transportHops (trace ++ more) = transportHops trace ++ transportHops more :=
  List.filterMap_append

@[simp] theorem transportHops_nil : transportHops [] = [] := rfl

@[simp] theorem transportHops_hop (hop : Hop) (rest : List AttemptEvent) :
    transportHops (.hop hop :: rest) = hop :: transportHops rest := rfl

@[simp] theorem transportHops_retry (rest : List AttemptEvent) :
    transportHops (.retry :: rest) = transportHops rest := rfl

@[simp] theorem transportHops_redirect (source : HttpUrl) (mutation : PolicyMutation)
    (rest : List AttemptEvent) :
    transportHops (.redirect source mutation :: rest) = transportHops rest := rfl

/-! ## The budget -/

/-- The redirects that the pipeline follows. -/
def PolicyPipeline.redirectBudget (policy : PolicyPipeline) : Nat :=
  (policy.redirect.map RedirectPolicy.maxRedirects).getD 0

/-- The retries that the configuration allows. -/
def retryBudget (retry : Option RetryPolicy) : Nat := (retry.map RetryPolicy.retries).getD 0

section Invariants

variable {ρ α : Type} {crate : UrlCrate} {retry : Option RetryPolicy} {env : AttemptEnv ρ α}
  {terminal : AttemptEnv ρ α → ResponseHead → Except Text α}

/-- Between two rounds every hop was followed by a redirect or a retry. -/
structure Budget (policy : PolicyPipeline) (retry : Option RetryPolicy) (attempts : Attempts ρ) :
    Prop where
  pipeline : attempts.state.policy = policy
  redirects : attempts.history.length ≤ policy.redirectBudget
  retries : attempts.state.completedRetries ≤ retryBudget retry
  hops : (transportHops attempts.trace).length =
    attempts.history.length + attempts.state.completedRetries

/-- What is left of the two budgets. -/
def Attempts.variant (policy : PolicyPipeline) (retry : Option RetryPolicy)
    (attempts : Attempts ρ) : Nat :=
  policy.redirectBudget + retryBudget retry -
    (attempts.history.length + attempts.state.completedRetries)

/-- Every further round uses up a redirect or a retry. -/
theorem budget_attempt {policy : PolicyPipeline} {attempts : Attempts ρ}
    (h : Budget policy retry attempts) :
    (attempts.attempt crate retry terminal env).Ends
      (fun next => (transportHops next.trace).length ≤
        1 + policy.redirectBudget + retryBudget retry)
      (fun next => Budget policy retry next ∧
        next.variant policy retry < attempts.variant policy retry) := by
  obtain ⟨hpipeline, hredirects, hretries, hhops⟩ := h
  refine (attempt_spec terminal attempts).imp ?_ ?_
  · intro next hnext
    rcases hnext with htrace | ⟨hop, -, htrace⟩
    · rw [htrace]
      omega
    · rw [htrace, transportHops_append, List.length_append, transportHops_hop, transportHops_nil,
        List.length_singleton]
      omega
  · intro next hnext
    obtain ⟨state, hop, hcore, -, hproceeds⟩ := hnext
    have hcompleted : state.completedRetries = attempts.state.completedRetries :=
      congrArg RequestCore.completedRetries hcore
    have hpolicy : state.policy = policy :=
      (congrArg RequestCore.policy hcore).trans hpipeline
    unfold Attempts.variant
    cases hproceeds with
    | retried replay budget =>
        obtain ⟨retryPolicy, hretry, hbudget⟩ := budget
        dsimp only at hbudget
        have hlimit : retryBudget retry = retryPolicy.retries := by rw [hretry]; rfl
        have hnext : (transportHops
            (Attempts.retried ⟨state, attempts.history, attempts.trace ++ [.hop hop]⟩).trace).length =
              (transportHops attempts.trace).length + 1 := by
          simp [Attempts.retried]
        refine ⟨⟨hpolicy, hredirects, ?_, ?_⟩, ?_⟩
        · show state.completedRetries + 1 ≤ retryBudget retry
          omega
        · rw [hnext]
          show _ = attempts.history.length + (state.completedRetries + 1)
          omega
        · show _ - (attempts.history.length + (state.completedRetries + 1)) < _
          omega
    | redirected raw mutation guarded budget =>
        obtain ⟨redirect, hredirect, hbudget⟩ := budget
        dsimp only at hbudget hredirect
        have hlimit : policy.redirectBudget = redirect.maxRedirects := by
          rw [PolicyPipeline.redirectBudget, ← hpolicy, hredirect]
          rfl
        have hmutated := state.applyPolicyMutation_core mutation
        have hsamePolicy : (state.applyPolicyMutation mutation).policy = state.policy :=
          congrArg RequestCore.policy hmutated
        have hsameRetries : (state.applyPolicyMutation mutation).completedRetries =
            state.completedRetries := congrArg RequestCore.completedRetries hmutated
        simp only [Attempts.redirected, List.length_append, List.length_singleton]
        refine ⟨⟨hsamePolicy.trans hpolicy, ?_, ?_, ?_⟩, ?_⟩
        · simp only [List.length_append, List.length_singleton]
          omega
        · show (state.applyPolicyMutation mutation).completedRetries ≤ _
          omega
        · simp only [transportHops_append, List.length_append, transportHops_hop,
            transportHops_redirect, transportHops_nil, List.length_singleton, List.length_nil]
          omega
        · omega

/-! ## The order -/

/-- What an event means for the hops after it. -/
def AttemptEvent.Allows : AttemptEvent → HopFace → Prop
  | .hop sent, later => sent.face.Precedes later
  | .retry, _ => True
  | .redirect source mutation, later =>
      mutation.body = .drop ∨ source.isSameOrigin mutation.url = false → later.hasBody = false

theorem AttemptEvent.Allows.trans {event : AttemptEvent} {middle later : HopFace}
    (h : event.Allows middle) (hlater : middle.Precedes later) : event.Allows later := by
  cases event with
  | hop hop => exact HopFace.Precedes.trans h hlater
  | retry => trivial
  | redirect source mutation => exact fun hgone => hlater.body (h hgone)

/-- Every event allows the hops after it. -/
def OrderedTrace (trace : List AttemptEvent) : Prop :=
  trace.Pairwise fun event later => ∀ hop, later = .hop hop → event.Allows hop.face

/-- The trace is ordered, and so is the next hop. -/
structure MonotoneTrace (attempts : Attempts ρ) : Prop where
  ordered : OrderedTrace attempts.trace
  next : ∀ event ∈ attempts.trace, event.Allows attempts.state.face

/-- A hop with the face of the request goes to the end of the trace. -/
theorem MonotoneTrace.push_hop {attempts : Attempts ρ} {hop : Hop} (h : MonotoneTrace attempts)
    (hface : hop.face = attempts.state.face) : OrderedTrace (attempts.trace ++ [.hop hop]) := by
  refine List.pairwise_append.mpr ⟨h.ordered, List.pairwise_singleton _ _, ?_⟩
  intro event hevent later hlater other hother
  rw [List.mem_singleton.mp hlater, AttemptEvent.hop.injEq] at hother
  subst hother
  exact hface ▸ h.next event hevent

/-- A redirect moves the request up the order. -/
theorem precedes_applyPolicyMutation {state : RequestState} {mutation : PolicyMutation}
    (h : mutation.Guarded state.policyRequest) :
    state.face.Precedes (state.applyPolicyMutation mutation).face := by
  have hface : (state.applyPolicyMutation mutation).face = _ :=
    congrArg RequestCore.face (state.applyPolicyMutation_core mutation)
  rw [hface]
  refine ⟨h.scheme, h.method, ?_, ?_⟩
  · intro hempty
    dsimp only [RequestState.face] at hempty ⊢
    rw [hempty]
    exact ite_self _
  · intro hcross
    exact if_pos (h.origin hcross)

/-- Another event goes to the end of the trace, and the request moves up the order. -/
theorem MonotoneTrace.advance {attempts : Attempts ρ} {state : RequestState}
    {history : List ρ} {hop : Hop} {event : AttemptEvent} (h : MonotoneTrace attempts)
    (hhop : hop.face = attempts.state.face) (hevent : event.hop? = none)
    (hnext : attempts.state.face.Precedes state.face) (hallows : event.Allows state.face) :
    MonotoneTrace ⟨state, history, attempts.trace ++ [.hop hop] ++ [event]⟩ where
  ordered := by
    refine List.pairwise_append.mpr ⟨h.push_hop hhop, List.pairwise_singleton _ _, ?_⟩
    intro earlier _ later hlater other hother
    rw [List.mem_singleton.mp hlater] at hother
    simp [hother, AttemptEvent.hop?] at hevent
  next := by
    intro earlier hearlier
    simp only [List.mem_append, List.mem_singleton] at hearlier
    rcases hearlier with (hold | rfl) | rfl
    · exact (h.next earlier hold).trans hnext
    · show hop.face.Precedes state.face
      rw [hhop]
      exact hnext
    · exact hallows

theorem monotone_attempt {attempts : Attempts ρ} (h : MonotoneTrace attempts) :
    (attempts.attempt crate retry terminal env).Ends (fun next => OrderedTrace next.trace)
      MonotoneTrace := by
  refine (attempt_spec terminal attempts).imp ?_ ?_
  · intro next hnext
    rcases hnext with htrace | ⟨hop, hface, htrace⟩
    · rw [htrace]
      exact h.ordered
    · rw [htrace]
      exact h.push_hop hface
  · intro next hnext
    obtain ⟨state, hop, hcore, hface, hproceeds⟩ := hnext
    have hstate : state.face = attempts.state.face := congrArg RequestCore.face hcore
    cases hproceeds with
    | retried replay budget =>
        have hsame : attempts.state.face.Precedes state.advanceRetryAttempt.face := by
          show attempts.state.face.Precedes state.face
          rw [hstate]
          exact .refl _
        exact h.advance hface (rfl : AttemptEvent.retry.hop? = none) hsame trivial
    | redirected raw mutation guarded budget =>
        have hmoves := precedes_applyPolicyMutation guarded
        refine h.advance hface rfl (hstate ▸ hmoves) ?_
        intro hlost
        rcases hlost with hdrop | hcross
        · have hgone := congrArg RequestCore.face (state.applyPolicyMutation_core mutation)
          show (state.applyPolicyMutation mutation).core.face.hasBody = false
          rw [hgone]
          exact if_pos hdrop
        · exact hmoves.origin hcross

/-! ## Bodies that cannot be replayed -/

/-- The body is gone after at most one hop with a body, or it was not sent yet and
cannot be replayed. -/
def Spent (attempts : Attempts ρ) : Prop :=
  attempts.state.face.hasBody = false ∧ (transportHops attempts.trace).countP Hop.hasBody ≤ 1 ∨
    attempts.state.bodyPolicy = .nonReplayable ∧
      (transportHops attempts.trace).countP Hop.hasBody = 0

theorem Spent.count_le {attempts : Attempts ρ} (h : Spent attempts) :
    (transportHops attempts.trace).countP Hop.hasBody ≤ 1 := by
  rcases h with ⟨-, hcount⟩ | ⟨-, hcount⟩ <;> omega

/-- The hop that is handed over is the only one with a body. -/
theorem Spent.push_hop {attempts : Attempts ρ} {hop : Hop} (h : Spent attempts)
    (hface : hop.face = attempts.state.face) :
    (transportHops (attempts.trace ++ [.hop hop])).countP Hop.hasBody ≤ 1 := by
  rw [transportHops_append, transportHops_hop, transportHops_nil, List.countP_append,
    List.countP_singleton]
  rcases h with ⟨hgone, hcount⟩ | ⟨-, hcount⟩
  · have hempty : hop.hasBody = false := (congrArg HopFace.hasBody hface).trans hgone
    simp only [hempty, Bool.false_eq_true, if_false]
    omega
  · split <;> omega

theorem spent_attempt {attempts : Attempts ρ} (h : Spent attempts) :
    (attempts.attempt crate retry terminal env).Ends
      (fun next => (transportHops next.trace).countP Hop.hasBody ≤ 1) Spent := by
  refine (attempt_spec terminal attempts).imp ?_ ?_
  · intro next hnext
    rcases hnext with htrace | ⟨hop, hface, htrace⟩
    · rw [htrace]
      exact h.count_le
    · rw [htrace]
      exact h.push_hop hface
  · intro next hnext
    obtain ⟨state, hop, hcore, hface, hproceeds⟩ := hnext
    have hstate : state.face = attempts.state.face := congrArg RequestCore.face hcore
    have hpolicy : state.bodyPolicy = attempts.state.bodyPolicy :=
      congrArg RequestCore.bodyPolicy hcore
    have hcount := h.push_hop hface
    -- A request that goes on can replay its body, or drops it.
    cases hproceeds with
    | retried replay budget =>
        left
        refine ⟨?_, by simpa [Attempts.retried, List.countP_cons] using hcount⟩
        rcases h with ⟨hgone, -⟩ | ⟨hblocked, -⟩
        · exact (congrArg HopFace.hasBody hstate).trans hgone
        · rw [hpolicy, hblocked] at replay
          exact absurd replay (by decide)
    | redirected raw mutation guarded budget =>
        left
        refine ⟨?_, by simpa [Attempts.redirected, List.countP_cons] using hcount⟩
        rcases h with ⟨hgone, -⟩ | ⟨hblocked, -⟩
        · exact (precedes_applyPolicyMutation guarded).body
            ((congrArg HopFace.hasBody hstate).trans hgone)
        · have hdrop : mutation.body = .drop := by
            refine guarded.replay.resolve_right ?_
            show ¬ state.bodyPolicy.canReplay = true
            rw [hpolicy, hblocked]
            decide
          show (state.applyPolicyMutation mutation).core.face.hasBody = false
          rw [state.applyPolicyMutation_core mutation]
          exact if_pos hdrop

end Invariants

/-! ## The result -/

/-- The largest number of hops: the first one, the redirects when they are followed, and
the retries. -/
def maxTransportHops (parts : TransportRequest) (retry : Option RetryPolicy) : Nat :=
  1 + (if parts.followRedirects then parts.maxRedirects else 0) + retryBudget retry

/-- What is claimed of a run of an attempt loop with `fuel` rounds. -/
structure BoundedAndMonotone {ρ α : Type} (parts : TransportRequest)
    (retry : Option RetryPolicy) (fuel : Nat)
    (run : Option (AttemptResult ρ α) × List AttemptEvent) : Prop where
  bounded : (transportHops run.2).length ≤ maxTransportHops parts retry
  returns : maxTransportHops parts retry ≤ fuel → run.1.isSome = true
  /-- Once the URL is `https`, no later one is `http`. -/
  scheme : (transportHops run.2).Pairwise fun earlier later =>
    earlier.url.scheme = ("https" : Text) → later.url.scheme ≠ ("http" : Text)
  /-- Once the method is `GET`, it stays. -/
  method : (transportHops run.2).Pairwise fun earlier later =>
    earlier.parts.method = ("GET" : Text) → later.parts.method = ("GET" : Text)
  /-- Without a body there is none later. -/
  body : (transportHops run.2).Pairwise fun earlier later =>
    earlier.parts.body.isEmpty = true → later.parts.body.isEmpty = true
  /-- No hop to another origin than that of an earlier hop has a body. -/
  origin : (transportHops run.2).Pairwise fun earlier later =>
    earlier.url.isSameOrigin later.url = false → later.parts.body.isEmpty = true
  /-- A redirect that drops the body or leaves the origin has no body after it. -/
  dropped : run.2.Pairwise fun event later => ∀ source mutation hop,
    event = .redirect source mutation → later = .hop hop →
      mutation.body = .drop ∨ source.isSameOrigin mutation.url = false →
      hop.parts.body.isEmpty = true
  /-- A body that cannot be replayed is handed over once at most. -/
  replay : parts.bodyReplayable = false →
    ((transportHops run.2).countP fun hop => !hop.parts.body.isEmpty) ≤ 1

/-- The hops of an ordered trace are ordered. -/
theorem OrderedTrace.hops {trace : List AttemptEvent} (h : OrderedTrace trace) :
    (transportHops trace).Pairwise fun earlier later => earlier.face.Precedes later.face := by
  refine List.pairwise_filterMap.mpr (h.imp ?_)
  intro event later hallows earlier hearlier next hnext
  cases event with
  | hop sent =>
      cases later with
      | hop other =>
          simp only [AttemptEvent.hop?, Option.some.injEq] at hearlier hnext
          subst hearlier hnext
          exact hallows other rfl
      | retry => simp [AttemptEvent.hop?] at hnext
      | redirect source mutation => simp [AttemptEvent.hop?] at hnext
  | retry => simp [AttemptEvent.hop?] at hearlier
  | redirect source mutation => simp [AttemptEvent.hop?] at hearlier

/-- The configuration of a request state that was just built. -/
theorem tryFrom_eq_ok {crate : UrlCrate} {toUppercase : Text → Text} {parts : TransportRequest}
    {state : RequestState} (h : RequestState.tryFrom crate toUppercase parts = .ok state) :
    state.policy.redirectBudget = (if parts.followRedirects then parts.maxRedirects else 0) ∧
      state.completedRetries = 0 ∧ state.retryAttempt = 1 ∧
      state.bodyPolicy =
        RequestBodyPolicy.fromRequest state.body.hasRequestBody parts.bodyReplayable := by
  rw [RequestState.tryFrom, bind_eq_ok] at h
  obtain ⟨url, -, h⟩ := h
  rw [bind_eq_ok] at h
  obtain ⟨policy, hpolicy, h⟩ := h
  simp only [Except.ok.injEq] at h
  subst h
  refine ⟨?_, rfl, rfl, rfl⟩
  rw [mapError_eq_ok, PolicyPipeline.new, bind_eq_ok] at hpolicy
  obtain ⟨proxy, -, hpolicy⟩ := hpolicy
  rw [Except.ok.injEq] at hpolicy
  subst hpolicy
  cases hfollow : parts.followRedirects <;> simp [PolicyPipeline.redirectBudget]

section Runs

variable {ρ α : Type} (crate : UrlCrate) (retry : Option RetryPolicy)
  (terminal : AttemptEnv ρ α → ResponseHead → Except Text α) (fuel : Nat)
  (envs : Nat → AttemptEnv ρ α) {state : RequestState}

/-- The budget of a request that was just built. -/
theorem budget_start (hretries : state.completedRetries = 0) :
    Budget state.policy retry (⟨state, [], []⟩ : Attempts ρ) where
  pipeline := rfl
  redirects := Nat.zero_le _
  retries := by rw [hretries]; exact Nat.zero_le _
  hops := by rw [hretries]; rfl

theorem bounded_sendAttempts (hretries : state.completedRetries = 0) :
    (transportHops (sendAttempts crate retry terminal fuel envs state).2.trace).length ≤
      1 + state.policy.redirectBudget + retryBudget retry := by
  apply loop_invariant (Budget state.policy retry)
    (fun attempts => (transportHops attempts.trace).length ≤
      1 + state.policy.redirectBudget + retryBudget retry)
  · intro attempts hbounded
    obtain ⟨-, hredirects, hretries, hcount⟩ := hbounded
    omega
  · exact fun env attempts h => (budget_attempt h).imp (fun _ => id) (fun _ hnext => hnext.1)
  · exact budget_start retry hretries

theorem returns_sendAttempts (hretries : state.completedRetries = 0)
    (hfuel : 1 + state.policy.redirectBudget + retryBudget retry ≤ fuel) :
    (sendAttempts crate retry terminal fuel envs state).1.isSome = true := by
  apply loop_returns (Budget state.policy retry) (Attempts.variant state.policy retry)
  · exact fun env attempts h => (budget_attempt h).imp (fun _ _ => trivial) (fun _ => id)
  · exact budget_start retry hretries
  · simp only [Attempts.variant, List.length_nil, hretries]
    omega

theorem ordered_sendAttempts (state : RequestState) :
    OrderedTrace (sendAttempts crate retry terminal fuel envs state).2.trace := by
  apply loop_invariant MonotoneTrace (fun attempts => OrderedTrace attempts.trace)
    (fun _ h => h.ordered) (fun env attempts h => monotone_attempt h)
  exact ⟨List.Pairwise.nil, fun event hevent => absurd hevent List.not_mem_nil⟩

theorem spent_sendAttempts
    (h : state.body.hasRequestBody = false ∨ state.bodyPolicy = .nonReplayable) :
    (transportHops (sendAttempts crate retry terminal fuel envs state).2.trace).countP
      Hop.hasBody ≤ 1 := by
  refine loop_invariant Spent
    (fun attempts => (transportHops attempts.trace).countP Hop.hasBody ≤ 1)
    (fun _ h => h.count_le) (fun env attempts h => spent_attempt h) fuel envs ⟨state, [], []⟩ ?_
  exact h.imp (fun hempty => ⟨hempty, Nat.zero_le _⟩) (fun hblocked => ⟨hblocked, rfl⟩)

end Runs

/-- Every run of an attempt loop is bounded and monotone. -/
theorem boundedAndMonotone_sendParts {ρ α : Type} (crate : UrlCrate)
    (toUppercase : Text → Text) (retry : Option RetryPolicy)
    (terminal : AttemptEnv ρ α → ResponseHead → Except Text α) (fuel : Nat)
    (envs : Nat → AttemptEnv ρ α) (parts : TransportRequest) :
    BoundedAndMonotone parts retry fuel
      (sendParts crate toUppercase (sendAttempts crate retry terminal fuel envs) parts) := by
  unfold sendParts
  cases hstate : RequestState.tryFrom crate toUppercase parts with
  | error error => constructor <;> simp [transportHops]
  | ok state =>
      obtain ⟨hredirects, hretries, -, hbody⟩ := tryFrom_eq_ok hstate
      have hlimit : 1 + state.policy.redirectBudget + retryBudget retry =
          maxTransportHops parts retry := by
        rw [maxTransportHops, hredirects]
      have hordered := ordered_sendAttempts crate retry terminal fuel envs state
      have hhops := hordered.hops
      refine ⟨?_, ?_, ?_, ?_, ?_, ?_, ?_, ?_⟩
      · rw [← hlimit]
        exact bounded_sendAttempts crate retry terminal fuel envs hretries
      · intro hfuel
        rw [← hlimit] at hfuel
        exact returns_sendAttempts crate retry terminal fuel envs hretries hfuel
      · refine hhops.imp fun {earlier later} h hsecure => ?_
        have hstill : later.url.scheme = ("https" : Text) := h.scheme hsecure
        rw [hstill]
        decide
      · exact hhops.imp fun h => h.method
      · refine hhops.imp fun {earlier later} h hempty => ?_
        simpa [Hop.face] using h.body (by simpa [Hop.face] using hempty)
      · refine hhops.imp fun h hcross => ?_
        simpa [Hop.face] using h.origin hcross
      · refine hordered.imp fun {event later} h source mutation hop hevent hlater hgone => ?_
        have hallows := h hop hlater
        rw [hevent] at hallows
        simpa [Hop.face] using hallows hgone
      · intro hreplayable
        apply spent_sendAttempts
        rw [hreplayable] at hbody
        cases hpresent : state.body.hasRequestBody with
        | false => exact Or.inl rfl
        | true =>
            rw [hpresent] at hbody
            exact Or.inr hbody

/-- Whatever the server, the network, the clock and the hooks answer, both attempt loops
return, hand over a bounded number of hops, and never go back to `http`, to another method
or to a dropped body. -/
theorem attempt_loops_bounded_and_monotone (crate : UrlCrate) (toUppercase : Text → Text)
    (retry : Option RetryPolicy) (parts : TransportRequest) (fuel : Nat) {ρ α : Type} :
    (∀ envs : Nat → AttemptEnv ρ ρ, BoundedAndMonotone parts retry fuel
      (sendRequest crate toUppercase retry fuel envs parts)) ∧
    (∀ envs : Nat → AttemptEnv ρ α, BoundedAndMonotone parts retry fuel
      (sendStreamRequest crate toUppercase retry fuel envs parts)) :=
  ⟨fun envs => boundedAndMonotone_sendParts crate toUppercase retry _ fuel envs parts,
    fun envs => boundedAndMonotone_sendParts crate toUppercase retry _ fuel envs parts⟩

end FogHttp
