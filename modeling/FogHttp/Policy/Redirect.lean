import FogHttp.Policy.Ssrf

/-!
# Redirects

The types that the policy functions share (`PolicyRequest`, `ResponseHead`,
`RequestBodyPolicy`, `PolicyError`) and the redirect policy built on them.

`redirectDecision` reads a response: whether its status is a redirect, which
method and body the next hop has, where `Location` leads, and whether the two
URLs have the same origin.  A redirect from `https` to `http` is blocked.  The
body of a redirect to another origin is dropped.

`redirectHeaders` filters the request headers of the next hop.  Connection
headers, conditional headers and every header that a `Connection` header
nominates go on every redirect, content headers go with the body, and
`authorization`, `cookie`, `origin` and `referer` go when the origin changes.

The lemmas of the last section say what a followed redirect is
(`redirectDecision_follow`) and which headers survive a redirect to another
origin (`redirectHeaders_crossOrigin`).
-/

namespace FogHttp

open Lib

/-- `HeaderPairs`: header names and values in wire order. -/
abbrev HeaderPairs := List (Text × Text)

/-! ## What the policy functions read -/

inductive RequestBodyPolicy where
  | empty
  | nonReplayable
  | replayable
deriving DecidableEq, Repr

inductive RequestBodyMutation where
  | drop
  | preserve
deriving DecidableEq, Repr

/-- `RequestBodyPolicy::from_request`. -/
def RequestBodyPolicy.fromRequest : Bool → Bool → RequestBodyPolicy
  | false, _ => .empty
  | true, true => .replayable
  | true, false => .nonReplayable

/-- `RequestBodyPolicy::can_replay`. -/
def RequestBodyPolicy.canReplay (body : RequestBodyPolicy) : Bool := body != .nonReplayable

structure PolicyRequest where
  method : Text
  url : HttpUrl
  body : RequestBodyPolicy

structure ResponseHead where
  statusCode : Nat
  headers : HeaderPairs

inductive PolicyError where
  | invalidProxyPolicy (value : Text)
  | redirectLimitExceeded (maxRedirects : Nat) (origin : Text)
  | httpsToHttpRedirectBlocked
  | nonReplayableRequestBodyRedirect
  | proxyRedirectPolicyRecomputeUnsupported
  | ssrfViolation (violation : SsrfViolation)
deriving DecidableEq, Repr

/-! ## Header filtering -/

inductive RedirectHeaderPolicy where
  | sameOrigin
  | crossOrigin
deriving DecidableEq, Repr

/-- `ALWAYS_REBUILT_HEADERS`. -/
def alwaysRebuiltHeaders : List Text :=
  ["connection", "content-length", "host", "keep-alive", "proxy-authorization",
    "proxy-connection", "te", "trailer", "transfer-encoding", "upgrade"]

/-- `CONDITIONAL_HEADERS`. -/
def conditionalHeaders : List Text :=
  ["if-match", "if-modified-since", "if-none-match", "if-range", "if-unmodified-since"]

/-- `REPRESENTATION_HEADERS`. -/
def representationHeaders : List Text := ["digest", "last-modified", "repr-digest"]

/-- `CROSS_ORIGIN_HEADERS`. -/
def crossOriginHeaders : List Text := ["authorization", "cookie", "origin", "referer"]

/-- `header_in`. -/
def headerIn (name : Text) (headers : List Text) : Bool :=
  headers.any (eqIgnoreAsciiCase name)

/-- `is_content_metadata_header`.  A name whose first eight bytes are not eight
ASCII characters is not `content-` in any case. -/
def isContentMetadataHeader (name : Text) : Bool :=
  eqIgnoreAsciiCase (name.take 8) "content-" || headerIn name representationHeaders

/-- `connection_options`: the header names that `Connection` headers list. -/
def connectionOptions (headers : HeaderPairs) : List Text :=
  (((headers.filter fun header => eqIgnoreAsciiCase header.1 "connection").flatMap
    fun header => header.2.splitOn ',').map trim).filter fun name => !name.isEmpty

/-- `keep_redirect_header`. -/
def keepRedirectHeader (name : Text) (body : RequestBodyMutation)
    (policy : RedirectHeaderPolicy) (connectionOptions : List Text) : Bool :=
  if headerIn name alwaysRebuiltHeaders || headerIn name conditionalHeaders ||
      connectionOptions.any (eqIgnoreAsciiCase name) then false
  else if body == .drop && isContentMetadataHeader name then false
  else policy != .crossOrigin || !headerIn name crossOriginHeaders

/-- `redirect_headers`. -/
def redirectHeaders (headers : HeaderPairs) (body : RequestBodyMutation)
    (policy : RedirectHeaderPolicy) : HeaderPairs :=
  headers.filter fun header =>
    keepRedirectHeader header.1 body policy (connectionOptions headers)

/-! ## The decision -/

inductive RedirectStatus where
  | movedPermanently
  | found
  | seeOther
  | temporaryRedirect
  | permanentRedirect
deriving DecidableEq, Repr

/-- `redirect_status_code`. -/
def redirectStatusCode : Nat → Option RedirectStatus
  | 301 => some .movedPermanently
  | 302 => some .found
  | 303 => some .seeOther
  | 307 => some .temporaryRedirect
  | 308 => some .permanentRedirect
  | _ => none

/-- `header_value`: the last header of that name. -/
def headerValue (headers : HeaderPairs) (name : Text) : Option Text :=
  (headers.reverse.find? fun header => eqIgnoreAsciiCase header.1 name).map Prod.snd

/-- `redirect_method`: the method of the next hop and what becomes of the
body. -/
def redirectMethod (method : Text) (status : RedirectStatus) :
    Option (Text × RequestBodyMutation) :=
  if method = ("GET" : Text) then some (("GET" : Text), .preserve)
  else if method = ("HEAD" : Text) then some (("HEAD" : Text), .preserve)
  else if method = ("POST" : Text) then
    match status with
    | .movedPermanently | .found | .seeOther => some (("GET" : Text), .drop)
    | .temporaryRedirect | .permanentRedirect => some (("POST" : Text), .preserve)
  else if method = ("QUERY" : Text) then
    match status with
    | .movedPermanently | .found | .temporaryRedirect | .permanentRedirect =>
        some (("QUERY" : Text), .preserve)
    | .seeOther => some (("GET" : Text), .drop)
  else none

/-- `is_https_to_http_redirect`. -/
def isHttpsToHttpRedirect (currentUrl nextUrl : HttpUrl) : Bool :=
  currentUrl.scheme == ("https" : Text) && nextUrl.scheme == ("http" : Text)

structure RedirectSecurityPolicy where
  blockError : Option PolicyError
  body : RequestBodyMutation
  headerPolicy : RedirectHeaderPolicy

/-- `redirect_security_policy`. -/
def redirectSecurityPolicy (currentUrl nextUrl : HttpUrl) (body : RequestBodyMutation) :
    RedirectSecurityPolicy :=
  let headerPolicy : RedirectHeaderPolicy :=
    if currentUrl.isSameOrigin nextUrl then .sameOrigin else .crossOrigin
  { blockError :=
      if isHttpsToHttpRedirect currentUrl nextUrl then some .httpsToHttpRedirectBlocked
      else none
    body := if body == .preserve && headerPolicy == .crossOrigin then .drop else body
    headerPolicy }

structure RedirectAction where
  body : RequestBodyMutation
  headerPolicy : RedirectHeaderPolicy
  method : Text
  url : HttpUrl

inductive RedirectDecision where
  | block (error : PolicyError)
  | follow (action : RedirectAction)

/-- `redirect_decision`. -/
def redirectDecision (crate : UrlCrate) (request : PolicyRequest) (response : ResponseHead) :
    Option RedirectDecision := do
  let statusCode ← redirectStatusCode response.statusCode
  let location ← headerValue response.headers "location"
  let (nextMethod, body) ← redirectMethod request.method statusCode
  let nextUrl ← (request.url.join crate location).toOption
  let policy := redirectSecurityPolicy request.url nextUrl body
  match policy.blockError with
  | some error => return .block error
  | none => return .follow ⟨policy.body, policy.headerPolicy, nextMethod, nextUrl⟩

/-! ## What a redirect does -/

/-- The header policy of a followed redirect says whether the origin
changes. -/
theorem redirectDecision_follow {crate : UrlCrate} {request : PolicyRequest}
    {response : ResponseHead} {action : RedirectAction}
    (h : redirectDecision crate request response = some (.follow action)) :
    action.headerPolicy =
      if request.url.isSameOrigin action.url then .sameOrigin else .crossOrigin := by
  simp only [redirectDecision, Option.bind_eq_bind, Option.bind_eq_some_iff] at h
  obtain ⟨status, -, location, -, ⟨method, body⟩, -, nextUrl, -, h⟩ := h
  dsimp only at h
  split at h
  · simp at h
  · simp only [Option.pure_def, Option.some.injEq, RedirectDecision.follow.injEq] at h
    rw [← h]
    rfl

/-- Membership in one of the name lists, by the lower-case name.  The lists are
in lower case. -/
theorem headerIn_iff {name : Text} {headers : List Text} :
    headerIn name headers = true ↔
      toAsciiLowercase name ∈ headers.map toAsciiLowercase := by
  simp only [headerIn, List.any_eq_true, eqIgnoreAsciiCase_iff, List.mem_map]
  constructor
  · intro hcandidate
    obtain ⟨candidate, hmem, heq⟩ := hcandidate
    exact ⟨candidate, hmem, heq.symm⟩
  · intro hcandidate
    obtain ⟨candidate, hmem, heq⟩ := hcandidate
    exact ⟨candidate, hmem, heq.symm⟩

/-- A redirect only removes headers. -/
theorem mem_of_mem_redirectHeaders {headers : HeaderPairs} {body : RequestBodyMutation}
    {policy : RedirectHeaderPolicy} {header : Text × Text}
    (h : header ∈ redirectHeaders headers body policy) : header ∈ headers :=
  (List.mem_filter.mp h).1

/-- The lower-case names that a redirect to another origin removes are in lower
case. -/
theorem map_toAsciiLowercase_crossOriginHeaders :
    crossOriginHeaders.map toAsciiLowercase = crossOriginHeaders := by decide

/-- No origin-bound header survives a redirect to another origin. -/
theorem redirectHeaders_crossOrigin {headers : HeaderPairs} {body : RequestBodyMutation}
    {header : Text × Text} (h : header ∈ redirectHeaders headers body .crossOrigin) :
    toAsciiLowercase header.1 ∉ crossOriginHeaders := by
  have hkeep := (List.mem_filter.mp h).2
  rw [keepRedirectHeader] at hkeep
  split at hkeep
  · simp at hkeep
  split at hkeep
  · simp at hkeep
  · intro hmem
    rw [← map_toAsciiLowercase_crossOriginHeaders] at hmem
    simp [headerIn_iff.mpr hmem] at hkeep

end FogHttp
