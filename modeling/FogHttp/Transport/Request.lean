import FogHttp.Policy.Pipeline

/-!
# The state of one request

`RequestState` is what the attempt loop carries from hop to hop: method, URL,
headers, body, the policy pipeline, the cookie state and the auth state.
`transportRoute` prepares a hop, `onResponseHeaders` and `afterResponseBody`
react to a response, and `applyPolicyMutation` moves the state to the next URL.

Three parties outside the request answer while a hop is prepared: the auth
provider, the cookie jar and the policy hooks.  The provider and the hooks are
Python callables, and the jar is shared with other requests, so `HopEnv` takes
their answers as functions that may be different on every call.

A function that fails half way keeps the changes it made before the failure,
as the source does: it returns its result together with the new state.

A `HashSet<String>` is modelled by a list of names, since only membership and
emptiness are read.
-/

namespace FogHttp

open Lib

/-! ## What answers from outside -/

/-- A failure of `transport_route`: a policy error or a Python exception. -/
inductive TransportError where
  | policy (error : PolicyError)
  | python (message : Text)
deriving DecidableEq, Repr

/-- The answers of the outside parties during one `transport_route`. -/
structure HopEnv where
  /-- `PythonAuth::header_updates` of method, URL, headers and hop. -/
  headerUpdates : Text → Text → HeaderPairs → Nat → Except Text HeaderPairs
  /-- `CookieJar::request_header`. -/
  requestHeader : HttpUrl → Option Text
  /-- `PythonPolicyHooks::before_send`. -/
  beforeSendHook : PolicyRequest → Nat → Except Text Unit

/-! ## Cookies -/

/-- `RequestCookieState` without the jar, whose answers are in `HopEnv`. -/
structure RequestCookieState where
  managedHeader : Bool
deriving DecidableEq, Repr

/-- Whether a header is a `Cookie` header. -/
def isCookieHeader (header : Text × Text) : Bool := eqIgnoreAsciiCase header.1 "cookie"

namespace RequestCookieState

/-- `RequestCookieState::new`. -/
def new : RequestCookieState := ⟨false⟩

/-- `RequestCookieState::attach`. -/
def attach (cookies : RequestCookieState) (requestHeader : HttpUrl → Option Text)
    (url : HttpUrl) (headers : HeaderPairs) : RequestCookieState × HeaderPairs :=
  if headers.any isCookieHeader then (cookies, headers)
  else
    match requestHeader url with
    | none => (cookies, headers)
    | some value => (⟨true⟩, headers ++ [(("Cookie" : Text), value)])

/-- `RequestCookieState::remove_managed_header`. -/
def removeManagedHeader (cookies : RequestCookieState) (headers : HeaderPairs) :
    RequestCookieState × HeaderPairs :=
  if !cookies.managedHeader then (cookies, headers)
  else (⟨false⟩, headers.filter fun header => !isCookieHeader header)

end RequestCookieState

/-! ## Authentication -/

/-- `RequestAuthState` without the provider, whose answers are in `HopEnv`. -/
structure RequestAuthState where
  baseHeaders : HeaderPairs
  activeHeaders : List Text
  sensitiveHeaders : List Text
  callerOwnedHeaders : List Text
  callerRemovedHeaders : List Text
deriving DecidableEq, Repr

/-- The lower-case names of a header list. -/
def headerNames (headers : HeaderPairs) : List Text :=
  headers.map fun header => toAsciiLowercase header.1

namespace RequestAuthState

/-- `RequestAuthState::new`. -/
def new (baseHeaders : HeaderPairs) (overrideHeaders : Option (List Text))
    (removedHeaders : List Text) : RequestAuthState where
  baseHeaders := baseHeaders
  activeHeaders := []
  sensitiveHeaders := []
  callerOwnedHeaders :=
    match overrideHeaders with
    | some names => names.map toAsciiLowercase
    | none => headerNames baseHeaders
  callerRemovedHeaders := removedHeaders.map toAsciiLowercase

/-- `RequestAuthState::can_apply_header`. -/
def canApplyHeader (auth : RequestAuthState) (name : Text) (baseHeaderNames : List Text) :
    Bool :=
  !(auth.callerRemovedHeaders.contains name ||
    auth.callerOwnedHeaders.contains name && baseHeaderNames.contains name)

/-- The headers that `apply` starts from: the base headers once an earlier
attempt has applied auth headers. -/
def startHeaders (auth : RequestAuthState) (headers : HeaderPairs) : HeaderPairs :=
  if auth.activeHeaders.isEmpty then headers else auth.baseHeaders

/-- The updates that the loop of `apply` keeps. -/
def appliedUpdates (auth : RequestAuthState) (baseHeaderNames : List Text)
    (updates : HeaderPairs) : HeaderPairs :=
  updates.filter fun update => auth.canApplyHeader (toAsciiLowercase update.1) baseHeaderNames

/-- `RequestAuthState::apply`. -/
def apply (auth : RequestAuthState) (env : HopEnv) (method url : Text)
    (headers : HeaderPairs) (redirectHop : Nat) :
    Except TransportError Unit × RequestAuthState × HeaderPairs :=
  let headers := auth.startHeaders headers
  match env.headerUpdates method url headers redirectHop with
  | .error message => (.error (.python message), { auth with activeHeaders := [] }, headers)
  | .ok updates =>
      let applied := auth.appliedUpdates (headerNames headers) updates
      let appliedNames := headerNames applied
      (.ok (),
        { auth with
          sensitiveHeaders := auth.sensitiveHeaders ++ appliedNames
          activeHeaders := appliedNames },
        (headers.filter fun header => !appliedNames.contains (toAsciiLowercase header.1)) ++
          applied)

/-- `RequestAuthState::on_redirect`. -/
def onRedirect (auth : RequestAuthState) (body : RequestBodyMutation)
    (headerPolicy : RedirectHeaderPolicy) : RequestAuthState × HeaderPairs :=
  let headers := redirectHeaders auth.baseHeaders body headerPolicy
  match headerPolicy with
  | .crossOrigin =>
      ({ auth with activeHeaders := [], baseHeaders := [] },
        headers.filter fun header =>
          !auth.sensitiveHeaders.contains (toAsciiLowercase header.1))
  | .sameOrigin => ({ auth with activeHeaders := [], baseHeaders := headers }, headers)

end RequestAuthState

/-! ## The request -/

/-- `RequestBodyState`.  A streaming body is the reference to its
`RawUploadBody`. -/
inductive RequestBodyState where
  | empty
  | buffered (content : List UInt8)
  | streaming (body : Nat)
deriving DecidableEq, Repr

/-- `RequestBodyState::has_request_body`. -/
def RequestBodyState.hasRequestBody : RequestBodyState → Bool
  | .empty => false
  | _ => true

/-- `RequestBodyState::from_raw_parts`. -/
def RequestBodyState.fromRawParts (body : Option (List UInt8)) (bodyStream : Option Nat) :
    RequestBodyState :=
  match bodyStream with
  | some stream => .streaming stream
  | none =>
      match body with
      | some content => if content.isEmpty then .empty else .buffered content
      | none => .empty

structure RequestState where
  method : Text
  url : HttpUrl
  headers : HeaderPairs
  body : RequestBodyState
  bodyPolicy : RequestBodyPolicy
  policy : PolicyPipeline
  cookies : Option RequestCookieState
  auth : Option RequestAuthState
  retryAttempt : Nat
  completedRetries : Nat

/-- The parts of `TransportRequest` that the state is built from. -/
structure TransportRequest where
  method : Text
  url : Text
  headers : HeaderPairs
  authOverrideHeaders : Option (List Text)
  authRemovedHeaders : List Text
  body : Option (List UInt8)
  bodyStream : Option Nat
  bodyReplayable : Bool
  useProxyTransport : Bool
  proxyPolicy : Text
  followRedirects : Bool
  maxRedirects : Nat
  ssrfPolicy : Option SsrfPolicy
  hasCookieJar : Bool
  hasAuth : Bool

namespace RequestState

/-- `RequestState::policy_request`. -/
def policyRequest (state : RequestState) : PolicyRequest :=
  ⟨state.method, state.url, state.bodyPolicy⟩

/-- `RequestState::try_from`.  `toUppercase` is `str::to_uppercase`. -/
def tryFrom (crate : UrlCrate) (toUppercase : Text → Text) (parts : TransportRequest) :
    Except TransportError RequestState := do
  let url ← (HttpUrl.parse crate parts.url).mapError TransportError.python
  let body := RequestBodyState.fromRawParts parts.body parts.bodyStream
  let policy ← (PolicyPipeline.new parts.proxyPolicy parts.useProxyTransport url
    parts.followRedirects parts.maxRedirects parts.ssrfPolicy).mapError TransportError.policy
  .ok
    { method := toUppercase parts.method
      url
      headers := parts.headers
      body
      bodyPolicy := RequestBodyPolicy.fromRequest body.hasRequestBody parts.bodyReplayable
      policy
      cookies := if parts.hasCookieJar then some RequestCookieState.new else none
      auth :=
        if parts.hasAuth then
          some (RequestAuthState.new parts.headers parts.authOverrideHeaders
            parts.authRemovedHeaders)
        else none
      retryAttempt := 1
      completedRetries := 0 }

/-- The call of `remove_managed_header` on the request's own headers. -/
def removeManagedHeader (state : RequestState) : RequestState :=
  match state.cookies with
  | none => state
  | some cookies =>
      { state with
        cookies := some (cookies.removeManagedHeader state.headers).1
        headers := (cookies.removeManagedHeader state.headers).2 }

/-- The call of `RequestAuthState::apply` on the request's own headers. -/
def applyAuth (state : RequestState) (env : HopEnv) (redirectHop : Nat) :
    Except TransportError Unit × RequestState :=
  match state.auth with
  | none => (.ok (), state)
  | some auth =>
      match auth.apply env state.method state.url.asStr state.headers redirectHop with
      | (result, auth, headers) => (result, { state with auth := some auth, headers })

/-- The call of `RequestCookieState::attach` on the request's own headers. -/
def attachCookies (state : RequestState) (env : HopEnv) : RequestState :=
  match state.cookies with
  | none => state
  | some cookies =>
      { state with
        cookies := some (cookies.attach env.requestHeader state.url state.headers).1
        headers := (cookies.attach env.requestHeader state.url state.headers).2 }

/-- `RequestState::transport_route`: the route of the next hop, and the state
whose headers the hop sends. -/
def transportRoute (state : RequestState) (env : HopEnv) (redirectHop : Nat) :
    Except TransportError TransportRoute × RequestState :=
  let state := state.removeManagedHeader
  match state.policy.beforeSend state.policyRequest with
  | .error error => (.error (.policy error), state)
  | .ok route =>
      match state.applyAuth env redirectHop with
      | (.error error, state) => (.error error, state)
      | (.ok (), state) =>
          let state := state.attachCookies env
          match env.beforeSendHook state.policyRequest redirectHop with
          | .error message => (.error (.python message), state)
          | .ok () => (.ok route, state)

/-- `RequestState::advance_retry_attempt`. -/
def advanceRetryAttempt (state : RequestState) : RequestState :=
  { state with
    completedRetries := state.completedRetries + 1
    retryAttempt := state.retryAttempt + 1 }

/-- `RequestState::apply_policy_mutation`. -/
def applyPolicyMutation (state : RequestState) (mutation : PolicyMutation) : RequestState :=
  let state := state.removeManagedHeader
  let redirected : Option RequestAuthState × HeaderPairs :=
    match state.auth with
    | some auth =>
        match auth.onRedirect mutation.body mutation.headerPolicy with
        | (auth, headers) => (some auth, headers)
    | none => (none, redirectHeaders state.headers mutation.body mutation.headerPolicy)
  { state with
    method := mutation.method
    url := mutation.url
    headers := redirected.2
    auth := if mutation.headerPolicy = .crossOrigin then none else redirected.1
    body := if mutation.body = .drop then .empty else state.body
    bodyPolicy := if mutation.body = .drop then .empty else state.bodyPolicy }

/-- `on_response_headers` followed by `after_response_body` on a response: the
mutation that the response asks for, if any.  The hooks of both functions may
fail the request, which applies no mutation. -/
def responseMutation (crate : UrlCrate) (state : RequestState) (response : ResponseHead)
    (completedRedirects : Nat) : Option (Except PolicyError PolicyMutation) :=
  (state.policy.onResponseHeaders crate state.policyRequest response).map fun action =>
    state.policy.afterResponseBody state.policyRequest action completedRedirects

end RequestState

end FogHttp
