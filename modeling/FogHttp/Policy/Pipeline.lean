import FogHttp.Policy.Redirect

/-!
# The policy pipeline

`PolicyPipeline` joins the proxy, redirect and SSRF policies of one request.
It is built once, from the configuration and the initial URL, and no later hop
changes it.

`beforeSend` runs before each hop: the SSRF policy checks the URL, the proxy
policy picks the route, and a proxy route is an error while an SSRF policy is
set.  `onResponseHeaders` and `afterResponseBody` turn a redirect response into
the mutation of the next hop.

`beforeSend_eq_ok` says what an accepted hop satisfies, and
`afterResponseBody_eq_ok` says which decision a mutation comes from.
-/

namespace FogHttp

open Lib

/-! ## The proxy policy -/

inductive TransportRoute where
  | direct
  | proxy
deriving DecidableEq, Repr

inductive ProxyPolicy where
  | direct
  | explicit
  | environment (initialOrigin : Text) (initialRoute : TransportRoute)
deriving DecidableEq, Repr

/-- `ProxyPolicy::parse`. -/
def ProxyPolicy.parse (value : Text) (initialRoute : TransportRoute) (initialUrl : HttpUrl) :
    Except PolicyError ProxyPolicy :=
  if value = ("direct" : Text) then .ok .direct
  else if value = ("explicit_proxy" : Text) then .ok .explicit
  else if value = ("environment_proxy" : Text) then
    .ok (.environment initialUrl.origin initialRoute)
  else .error (.invalidProxyPolicy value)

/-- `ProxyPolicy::route`. -/
def ProxyPolicy.route : ProxyPolicy → HttpUrl → Except PolicyError TransportRoute
  | .direct, _ => .ok .direct
  | .explicit, _ => .ok .proxy
  | .environment initialOrigin initialRoute, currentUrl =>
      if currentUrl.origin = initialOrigin then .ok initialRoute
      else .error .proxyRedirectPolicyRecomputeUnsupported

/-- `ProxyPolicy::validate_redirect`. -/
def ProxyPolicy.validateRedirect : ProxyPolicy → HttpUrl → Except PolicyError Unit
  | .direct, _ | .explicit, _ => .ok ()
  | .environment initialOrigin _, nextUrl =>
      if nextUrl.origin = initialOrigin then .ok ()
      else .error .proxyRedirectPolicyRecomputeUnsupported

/-! ## The pipeline -/

structure RedirectPolicy where
  maxRedirects : Nat
deriving DecidableEq, Repr

structure PolicyPipeline where
  proxy : ProxyPolicy
  redirect : Option RedirectPolicy
  ssrf : Option SsrfPolicy
deriving DecidableEq, Repr

structure ResponsePolicyAction where
  decision : RedirectDecision
  maxRedirects : Nat

/-- `PolicyMutation::Redirect`, the only mutation. -/
structure PolicyMutation where
  body : RequestBodyMutation
  headerPolicy : RedirectHeaderPolicy
  method : Text
  url : HttpUrl

namespace PolicyPipeline

/-- `PolicyPipeline::new`. -/
def new (proxyPolicy : Text) (initialUseProxyTransport : Bool) (initialUrl : HttpUrl)
    (followRedirects : Bool) (maxRedirects : Nat) (ssrf : Option SsrfPolicy) :
    Except PolicyError PolicyPipeline := do
  let initialRoute : TransportRoute := if initialUseProxyTransport then .proxy else .direct
  let proxy ← ProxyPolicy.parse proxyPolicy initialRoute initialUrl
  let redirect := if followRedirects then some (RedirectPolicy.mk maxRedirects) else none
  .ok ⟨proxy, redirect, ssrf⟩

/-- The first statement of `PolicyPipeline::before_send`. -/
def validateSsrf (pipeline : PolicyPipeline) (url : HttpUrl) : Except PolicyError Unit :=
  match pipeline.ssrf with
  | some ssrf => (ssrf.validateUrl url).mapError PolicyError.ssrfViolation
  | none => .ok ()

/-- `PolicyPipeline::before_send`. -/
def beforeSend (pipeline : PolicyPipeline) (request : PolicyRequest) :
    Except PolicyError TransportRoute := do
  pipeline.validateSsrf request.url
  let route ← pipeline.proxy.route request.url
  if route == .proxy && pipeline.ssrf.isSome then
    .error (.ssrfViolation (SsrfViolation.proxy request.url.origin))
  else .ok route

/-- `PolicyPipeline::on_response_headers`. -/
def onResponseHeaders (crate : UrlCrate) (pipeline : PolicyPipeline)
    (request : PolicyRequest) (response : ResponseHead) : Option ResponsePolicyAction := do
  let redirect ← pipeline.redirect
  (redirectDecision crate request response).map fun decision =>
    ⟨decision, redirect.maxRedirects⟩

/-- `PolicyPipeline::redirect_mutation`. -/
def redirectMutation (pipeline : PolicyPipeline) (request : PolicyRequest) :
    RedirectDecision → Except PolicyError PolicyMutation
  | .block error => .error error
  | .follow action => do
      if action.body == .preserve && !request.body.canReplay then
        .error .nonReplayableRequestBodyRedirect
      else do
        pipeline.proxy.validateRedirect action.url
        .ok ⟨action.body, action.headerPolicy, action.method, action.url⟩

/-- `PolicyPipeline::after_response_body`. -/
def afterResponseBody (pipeline : PolicyPipeline) (request : PolicyRequest)
    (action : ResponsePolicyAction) (completedRedirects : Nat) :
    Except PolicyError PolicyMutation :=
  if completedRedirects ≥ action.maxRedirects then
    .error (.redirectLimitExceeded action.maxRedirects request.url.origin)
  else pipeline.redirectMutation request action.decision

/-- A hop that `beforeSend` lets through while an SSRF policy is set passed the
URL check, and its route is direct. -/
theorem beforeSend_eq_ok {pipeline : PolicyPipeline} {request : PolicyRequest}
    {route : TransportRoute} {ssrf : SsrfPolicy} (hssrf : pipeline.ssrf = some ssrf)
    (h : pipeline.beforeSend request = .ok route) :
    ssrf.validateUrl request.url = .ok () ∧ route = .direct := by
  have hcheck : pipeline.validateSsrf request.url =
      (ssrf.validateUrl request.url).mapError PolicyError.ssrfViolation := by
    rw [validateSsrf, hssrf]
  rw [beforeSend, hcheck, hssrf, bind_eq_ok] at h
  obtain ⟨_, hvalid, h⟩ := h
  rw [bind_eq_ok] at h
  obtain ⟨chosen, -, h⟩ := h
  refine ⟨mapError_eq_ok.mp hvalid, ?_⟩
  cases chosen with
  | direct => simpa using h.symm
  | proxy => simp at h

/-- A mutation carries the fields of the redirect that was followed. -/
theorem afterResponseBody_eq_ok {pipeline : PolicyPipeline} {request : PolicyRequest}
    {action : ResponsePolicyAction} {completedRedirects : Nat} {mutation : PolicyMutation}
    (h : pipeline.afterResponseBody request action completedRedirects = .ok mutation) :
    ∃ followed, action.decision = .follow followed ∧
      mutation = ⟨followed.body, followed.headerPolicy, followed.method, followed.url⟩ := by
  rw [afterResponseBody] at h
  split at h
  · simp at h
  cases hdecision : action.decision with
  | block error =>
      rw [hdecision, redirectMutation] at h
      simp at h
  | follow followed =>
      rw [hdecision, redirectMutation] at h
      split at h
      · simp at h
      rw [bind_eq_ok] at h
      obtain ⟨_, -, h⟩ := h
      exact ⟨followed, rfl, (Except.ok.inj h).symm⟩

/-- A redirect action comes from a decision on the same request. -/
theorem onResponseHeaders_eq_some {crate : UrlCrate} {pipeline : PolicyPipeline}
    {request : PolicyRequest} {response : ResponseHead} {action : ResponsePolicyAction}
    (h : pipeline.onResponseHeaders crate request response = some action) :
    redirectDecision crate request response = some action.decision := by
  simp only [onResponseHeaders, Option.bind_eq_bind, Option.bind_eq_some_iff,
    Option.map_eq_some_iff] at h
  obtain ⟨redirect, -, decision, hdecision, rfl⟩ := h
  exact hdecision

end PolicyPipeline

end FogHttp
