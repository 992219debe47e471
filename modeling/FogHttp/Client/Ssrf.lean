import FogHttp.Transport.Chain

/-!
# SSRF protection at connect time

The SSRF policy acts at two places.  `beforeSend` checks the URL of each hop,
and `SsrfResolver` wraps the DNS resolver of the connector and checks every
address of every answer.  This module models the resolver and joins the two
places into one statement about whole redirect and retry chains.

The inner resolver is outside the repository.  One resolution is a name and the
answer that the inner resolver gave for it, so a sequence of resolutions may
answer differently each time.  The connector is assumed to ask the resolver for
every host that is not an IP literal and to dial only what it received.

`checkAddresses` is the loop of `SsrfResolveFuture::poll`.  Its specification
`checkAddresses_eq_ok` says that an accepted answer is passed on unchanged, and
`checkAddresses_blocked` that one blocked address rejects all of it.
-/

namespace FogHttp

open Lib

structure SocketAddr where
  ip : IpAddr
  port : Nat
deriving DecidableEq, Repr

/-! ## The resolver -/

inductive SsrfResolverError (ε : Type) where
  | dns (error : ε)
  | violation (violation : SsrfViolation)
deriving DecidableEq, Repr

inductive SsrfAddrs where
  | unchecked (addresses : List SocketAddr)
  | checked (addresses : List SocketAddr)
deriving DecidableEq, Repr

/-- The addresses that the iterator of `SsrfAddrs` yields. -/
def SsrfAddrs.addresses : SsrfAddrs → List SocketAddr
  | .unchecked addresses => addresses
  | .checked addresses => addresses

/-- `SsrfResolver` without the inner resolver. -/
structure SsrfResolver where
  enabled : Bool
deriving DecidableEq, Repr

/-- The loop of `SsrfResolveFuture::poll` over the inner answer, with the
addresses checked so far. -/
def checkAddresses (host : Text) :
    List SocketAddr → List SocketAddr → Except SsrfViolation (List SocketAddr)
  | checked, [] => .ok checked
  | checked, address :: rest =>
      match validateResolvedAddress host address.ip with
      | .error violation => .error violation
      | .ok () => checkAddresses host (checked ++ [address]) rest

/-- `SsrfResolver::call` and the completed `SsrfResolveFuture::poll`: what the
connector receives for `name` when the inner resolver answers `answer`. -/
def SsrfResolver.resolve {ε : Type} (resolver : SsrfResolver) (name : Text)
    (answer : Except ε (List SocketAddr)) : Except (SsrfResolverError ε) SsrfAddrs :=
  match answer with
  | .error error => .error (.dns error)
  | .ok addresses =>
      if resolver.enabled then
        match checkAddresses name [] addresses with
        | .error violation => .error (.violation violation)
        | .ok checked => .ok (.checked checked)
      else .ok (.unchecked addresses)

/-- The resolver that `build_client_with_executor` gives to the connector of a
client with this policy. -/
def clientResolver (ssrfPolicy : Option SsrfPolicy) : SsrfResolver := ⟨ssrfPolicy.isSome⟩

/-- The loop accepts an answer only as a whole, in order, and only when no
address is blocked. -/
theorem checkAddresses_eq_ok {host : Text} {checked addresses result : List SocketAddr}
    (h : checkAddresses host checked addresses = .ok result) :
    result = checked ++ addresses ∧ ∀ address ∈ addresses, blockedIpKind address.ip = none := by
  induction addresses generalizing checked with
  | nil =>
      simp only [checkAddresses, Except.ok.injEq] at h
      simp [h]
  | cons address rest ih =>
      rw [checkAddresses] at h
      split at h
      · simp at h
      · rename_i hvalid
        obtain ⟨hresult, hrest⟩ := ih h
        refine ⟨by simp [hresult], ?_⟩
        intro other hother
        rcases List.mem_cons.mp hother with rfl | hother
        · exact validateResolvedAddress_eq_ok.mp hvalid
        · exact hrest other hother

/-- One blocked address rejects the whole answer. -/
theorem checkAddresses_blocked {addresses : List SocketAddr} {address : SocketAddr}
    (host : Text) (checked : List SocketAddr) (hmem : address ∈ addresses)
    (hblocked : blockedIpKind address.ip ≠ none) :
    ∃ violation, checkAddresses host checked addresses = .error violation := by
  cases hcheck : checkAddresses host checked addresses with
  | error violation => exact ⟨violation, rfl⟩
  | ok result => exact absurd ((checkAddresses_eq_ok hcheck).2 address hmem) hblocked

/-- What the connector of a protected client receives is the inner answer,
unchanged and without a blocked address. -/
theorem clientResolver_resolve_eq_ok {ε : Type} {policy : SsrfPolicy} {name : Text}
    {answer : Except ε (List SocketAddr)} {received : SsrfAddrs}
    (h : (clientResolver (some policy)).resolve name answer = .ok received) :
    answer = .ok received.addresses ∧
      ∀ address ∈ received.addresses, blockedIpKind address.ip = none := by
  cases answer with
  | error error => simp [SsrfResolver.resolve] at h
  | ok addresses =>
      simp only [SsrfResolver.resolve, clientResolver, Option.isSome_some, if_true] at h
      split at h
      · simp at h
      · rename_i checked hchecked
        obtain ⟨hresult, hpublic⟩ := checkAddresses_eq_ok hchecked
        simp only [List.nil_append] at hresult
        subst hresult
        simp only [Except.ok.injEq] at h
        rw [← h]
        exact ⟨rfl, hpublic⟩

/-- An answer with a blocked address gives the connector an error and no
address. -/
theorem clientResolver_resolve_blocked {ε : Type} {policy : SsrfPolicy} {name : Text}
    {addresses : List SocketAddr} {address : SocketAddr} (hmem : address ∈ addresses)
    (hblocked : blockedIpKind address.ip ≠ none) :
    ∃ violation, (clientResolver (some policy)).resolve (ε := ε) name (.ok addresses) =
      .error (.violation violation) := by
  obtain ⟨violation, hcheck⟩ := checkAddresses_blocked name [] hmem hblocked
  refine ⟨violation, ?_⟩
  simp [SsrfResolver.resolve, clientResolver, hcheck]

/-! ## End to end -/

/-- What holds of a hop to `url` on `route` under `policy`. -/
structure HopAllowed (policy : SsrfPolicy) (url : HttpUrl) (route : TransportRoute) : Prop where
  scheme : url.scheme ∈ policy.schemes
  destination : policy.origins ≠ [] ∨ policy.domains ≠ [] →
    url.origin ∈ policy.origins ∨ ∃ domain ∈ policy.domains,
      url.host = domain ∨ ∃ labels, url.host = labels ++ '.' :: domain
  route : route = .direct
  literal : ∀ address, parseIpAddr url.host = some address →
    blockedIpKind address = none ∨
      url.origin ∈ policy.origins ∧
        (blockedIpKind address = some .private_ ∨ blockedIpKind address = some .loopback ∨
          blockedIpKind address = some .linkLocal)
  resolved : parseIpAddr url.host = none →
    ∀ (ε : Type) (answer : Except ε (List SocketAddr)),
      (∀ received, (clientResolver (some policy)).resolve url.host answer = .ok received →
        answer = .ok received.addresses ∧
          ∀ address ∈ received.addresses, blockedIpKind address.ip = none) ∧
      (∀ addresses, answer = .ok addresses →
        (∃ address ∈ addresses, blockedIpKind address.ip ≠ none) →
        ∃ violation, (clientResolver (some policy)).resolve url.host answer =
          .error (.violation violation))

/-- A hop that passed `beforeSend` is allowed. -/
theorem hopAllowed_of_beforeSend {pipeline : PolicyPipeline} {request : PolicyRequest}
    {policy : SsrfPolicy} {route : TransportRoute} (hssrf : pipeline.ssrf = some policy)
    (h : pipeline.beforeSend request = .ok route) : HopAllowed policy request.url route := by
  obtain ⟨hvalid, hroute⟩ := PolicyPipeline.beforeSend_eq_ok hssrf h
  obtain ⟨hscheme, hdestination, hliteral⟩ := SsrfPolicy.validateUrl_eq_ok hvalid
  refine ⟨hscheme, ?_, hroute, ?_, ?_⟩
  · intro hlists
    have hallow : policy.hasDestinationAllowlist = true := by
      simpa [SsrfPolicy.hasDestinationAllowlist] using hlists
    rcases hdestination hallow with horigin | ⟨domain, hmem, hmatch⟩
    · exact Or.inl horigin
    · exact Or.inr ⟨domain, hmem, domainMatches_iff.mp hmatch⟩
  · intro address haddress
    rcases hliteral address haddress with hnone | ⟨horigin, hexcused⟩
    · exact Or.inl hnone
    · rcases SsrfPolicy.excusable_iff.mp hexcused with hnone | hkind
      · exact Or.inl hnone
      · exact Or.inr ⟨horigin, hkind⟩
  · intro _ ε answer
    refine ⟨fun received hreceived => clientResolver_resolve_eq_ok hreceived, ?_⟩
    intro addresses hsame hrefused
    subst hsame
    obtain ⟨address, hmem, hblocked⟩ := hrefused
    exact clientResolver_resolve_blocked hmem hblocked

/-- A built request carries the SSRF policy of its client. -/
theorem tryFrom_ssrf {crate : UrlCrate} {toUppercase : Text → Text}
    {parts : TransportRequest} {request : RequestState}
    (h : RequestState.tryFrom crate toUppercase parts = .ok request) :
    request.policy.ssrf = parts.ssrfPolicy := by
  rw [RequestState.tryFrom, bind_eq_ok] at h
  obtain ⟨url, -, h⟩ := h
  rw [bind_eq_ok] at h
  obtain ⟨pipeline, hpipeline, h⟩ := h
  rw [mapError_eq_ok, PolicyPipeline.new, bind_eq_ok] at hpipeline
  obtain ⟨proxy, -, hpipeline⟩ := hpipeline
  simp only [Except.ok.injEq] at h hpipeline
  rw [← h, ← hpipeline]

/-- The destination of a hop in terms of the configured lists. -/
def DestinationConfigured (crate : UrlCrate) (policy : SsrfPolicy)
    (allowedOrigins allowedDomains : List Text) (url : HttpUrl) : Prop :=
  (∃ origin ∈ allowedOrigins, normalizeOrigin crate policy.schemes origin = .ok url.origin) ∨
    ∃ configured ∈ allowedDomains, ∃ domain, normalizeDomain crate configured = .ok domain ∧
      (url.host = domain ∨ ∃ labels, url.host = labels ++ '.' :: domain)

/-- An allowed hop goes to a configured destination whenever one is
configured. -/
theorem HopAllowed.configured {crate : UrlCrate} {policy : SsrfPolicy} {url : HttpUrl}
    {route : TransportRoute} {allowedSchemes allowedOrigins allowedDomains : List Text}
    (h : HopAllowed policy url route)
    (hpolicy : policy.Configured crate allowedSchemes allowedOrigins allowedDomains)
    (hlists : allowedOrigins ≠ [] ∨ allowedDomains ≠ []) :
    DestinationConfigured crate policy allowedOrigins allowedDomains url := by
  rcases h.destination (hpolicy.allowlist hlists) with horigin | ⟨domain, hmem, hmatch⟩
  · exact Or.inl (hpolicy.origins _ horigin)
  · obtain ⟨configured, hconfigured, hnormalized⟩ := hpolicy.domains domain hmem
    exact Or.inr ⟨configured, hconfigured, domain, hnormalized, hmatch⟩

/-- Every hop of every redirect and retry chain that passes `beforeSend` is
allowed by the client's SSRF policy: by its URL, by its route, and by every
resolution that the connector receives for it.  The lists of the policy are the
ones that the client was configured with. -/
theorem ssrf_policy_enforced_on_chains (crate : UrlCrate) (toUppercase : Text → Text)
    (allowedSchemes allowedOrigins allowedDomains : List Text) (policy : SsrfPolicy)
    (hpolicy : SsrfPolicy.new crate allowedSchemes allowedOrigins allowedDomains = .ok policy)
    (parts : TransportRequest) (hclient : parts.ssrfPolicy = some policy)
    (request : RequestState)
    (hbuilt : RequestState.tryFrom crate toUppercase parts = .ok request)
    (events : List ChainEvent) (route : TransportRoute)
    (hsend : (Chain.run crate (.start request) events).request.policy.beforeSend
      (Chain.run crate (.start request) events).request.policyRequest = .ok route) :
    HopAllowed policy (Chain.run crate (.start request) events).request.url route ∧
      (∃ scheme ∈ allowedSchemes, normalizeScheme scheme =
        .ok (Chain.run crate (.start request) events).request.url.scheme) ∧
      (allowedOrigins ≠ [] ∨ allowedDomains ≠ [] →
        DestinationConfigured crate policy allowedOrigins allowedDomains
          (Chain.run crate (.start request) events).request.url) := by
  have hssrf : (Chain.run crate (.start request) events).request.policy.ssrf = some policy := by
    rw [Chain.run_policy, ← hclient]
    exact tryFrom_ssrf hbuilt
  have hallowed := hopAllowed_of_beforeSend hssrf hsend
  have hconfigured := SsrfPolicy.configured_of_new hpolicy
  refine ⟨hallowed, hconfigured.schemes _ hallowed.scheme, ?_⟩
  intro hlists
  exact hallowed.configured hconfigured hlists

namespace SsrfExample

/-! A client that may reach `https://a.test` and the hosts of `b.test`, and a
redirect from the first to `https://www.b.test/`. -/

/-- The `url` crate on the four URLs of the example. -/
def crate : UrlCrate where
  parse text :=
    if text = ("https://a.test" : Text) ∨ text = ("https://a.test/" : Text) then
      .ok ⟨"https", [], none, some "a.test", none, "/", none, none⟩
    else if text = ("http://b.test" : Text) then
      .ok ⟨"http", [], none, some "b.test", none, "/", none, none⟩
    else if text = ("https://www.b.test/" : Text) then
      .ok ⟨"https", [], none, some "www.b.test", none, "/", none, none⟩
    else .error "relative URL without a base"
  join _ location :=
    if location = ("https://www.b.test/" : Text) then
      .ok ⟨"https", [], none, some "www.b.test", none, "/", none, none⟩
    else .error "relative URL without a base"

def policy : SsrfPolicy := ⟨["https"], ["https://a.test"], ["b.test"]⟩

def parts : TransportRequest where
  method := "GET"
  url := "https://a.test/"
  headers := []
  authOverrideHeaders := none
  authRemovedHeaders := []
  body := none
  bodyStream := none
  bodyReplayable := true
  useProxyTransport := false
  proxyPolicy := "direct"
  followRedirects := true
  maxRedirects := 20
  ssrfPolicy := some policy
  hasCookieJar := false
  hasAuth := false

theorem supported_https : isSupported "https" = true := rfl

theorem isSome_host : (some ("a.test" : Text)).isSome = true := rfl

def request : RequestState where
  method := "GET"
  url := ⟨⟨"https", [], none, some "a.test", none, "/", none, none⟩, supported_https, isSome_host⟩
  headers := []
  body := .empty
  bodyPolicy := .empty
  policy := ⟨.direct, some ⟨20⟩, some policy⟩
  cookies := none
  auth := none
  retryAttempt := 1
  completedRetries := 0

def events : List ChainEvent :=
  [.response ⟨302, [("location", "https://www.b.test/")]⟩ 0, .retry]

/-- The hop to `https://www.b.test/` passes `beforeSend`, and its host is
covered by the configured domain. -/
theorem ssrf_policy_enforced_on_redirect :
    (Chain.run crate (.start request) events).request.url.host = ("www.b.test" : Text) ∧
      HopAllowed policy (Chain.run crate (.start request) events).request.url .direct ∧
      DestinationConfigured crate policy [("https://a.test" : Text)] [("b.test" : Text)]
        (Chain.run crate (.start request) events).request.url := by
  have h := ssrf_policy_enforced_on_chains crate id [("HTTPS" : Text)]
    [("https://a.test" : Text)] [("b.test" : Text)] policy (by rfl) parts rfl request (by rfl)
    events .direct (by rfl)
  exact ⟨by decide, h.1, h.2.2 (by decide)⟩

end SsrfExample

end FogHttp
