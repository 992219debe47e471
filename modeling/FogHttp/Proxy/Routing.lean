import FogHttp.Proxy.Resolver
import FogHttp.Transport.Chain

/-!
# The proxy of every hop

Python decides once, for the URL of the request, and hands the transport two words: whether
this request uses a proxy, and which kind of proxies the client has.  Rust then sends any
number of hops to URLs that Python never sees.

`dispatch` is what Rust makes of one hop: one of two clients, and in the client one of two
connectors.  `ProxyDecision.dispatch` is what the resolver would ask for if it read the URL of
the hop itself.  The theorem of this module says that the two are the same on every hop that
the transport lets through, together with the credentials that go along.

A pool keeps connections by the scheme and the authority of the URL.  Each of the two clients
has its own, so a pooled connection was opened by the connector that would open a new one.
-/

namespace FogHttp.Proxy

open Lib

/-! ## Connectors -/

/-- `hyper::Uri`, by its scheme and its text. -/
structure Uri where
  scheme : Text
  text : Text
deriving DecidableEq, Repr

/-- What a connector opens. -/
inductive Stream where
  /-- A connection to the authority of a URI. -/
  | plain (uri : Uri)
  /-- A connection to a proxy, and a CONNECT request for the authority of a URI. -/
  | tunnel (proxy : Uri) (authorization : Option Text) (uri : Uri)
deriving DecidableEq, Repr

/-- `HttpsTunnelConnector`, by its proxy and the authorization for it. -/
structure HttpsTunnelConnector where
  proxy : Option (Uri × Option Text)

/-- `HttpsTunnelConnector::call`. -/
def HttpsTunnelConnector.call (connector : HttpsTunnelConnector) (uri : Uri) : Stream :=
  match connector.proxy with
  | some (proxy, authorization) =>
      if uri.scheme = ("https" : Text) then .tunnel proxy authorization uri else .plain uri
  | none => .plain uri

/-- `HttpProxyConnector`. -/
structure HttpProxyConnector where
  inner : HttpsTunnelConnector
  httpProxy : Option Uri

/-- `HttpProxyConnector::call`. -/
def HttpProxyConnector.call (connector : HttpProxyConnector) (uri : Uri) : Stream :=
  match connector.httpProxy with
  | some proxy =>
      if uri.scheme = ("http" : Text) then connector.inner.call proxy else connector.inner.call uri
  | none => connector.inner.call uri

/-! ## Clients -/

/-- What `parse_proxy_endpoint` gives for a URL that it accepts: it accepts one scheme.  For a
URL that it rejects no client is built. -/
def parseProxyEndpoint (configuredUrl : Text) : Uri := ⟨"http", configuredUrl⟩

/-- The proxies of `ClientOptions`. -/
structure ClientOptions where
  httpProxyUrl : Option Text
  httpsProxyUrl : Option Text
  httpsProxyAuthorization : Option Text

/-- The connectors of `build_client_with_executor`. -/
def buildClient (options : ClientOptions) : HttpProxyConnector where
  inner := ⟨options.httpsProxyUrl.map fun configuredUrl =>
    (parseProxyEndpoint configuredUrl, options.httpsProxyAuthorization)⟩
  httpProxy := options.httpProxyUrl.map parseProxyEndpoint

/-- `TransportClients`. -/
structure TransportClients where
  direct : HttpProxyConnector
  proxy : Option HttpProxyConnector

/-- `TransportClients::select`. -/
def TransportClients.select (clients : TransportClients) :
    TransportRoute → Except Text HttpProxyConnector
  | .direct => .ok clients.direct
  | .proxy =>
      match clients.proxy with
      | some client => .ok client
      | none => .error "proxy transport is not configured"

/-- The proxies of a `RawClient`. -/
structure RawProxyOptions where
  httpProxyUrl : Option Text
  httpProxyAuthorization : Option Text
  httpsProxyUrl : Option Text
  httpsProxyAuthorization : Option Text

/-- The clients of `RawClient::new`. -/
def RawProxyOptions.clients (options : RawProxyOptions) : TransportClients where
  direct := buildClient ⟨none, none, none⟩
  proxy :=
    if options.httpProxyUrl.isSome || options.httpsProxyUrl.isSome then
      some (buildClient
        ⟨options.httpProxyUrl, options.httpsProxyUrl, options.httpsProxyAuthorization⟩)
    else none

/-- `basic_proxy_authorization`. -/
def proxyAuthorization (proxy : Option ProxyUrl) : Option Text :=
  basicProxyAuthorization (proxy.bind (·.credentials))

/-- The proxies that `ClientConfig` hands to `RawClient`. -/
def rawProxyOptions (resolver : ProxyResolver) : RawProxyOptions :=
  let http := resolver.routingProxy "http"
  let https := resolver.routingProxy "https"
  { httpProxyUrl := http.map (·.endpointUrl)
    httpProxyAuthorization := proxyAuthorization http
    httpsProxyUrl := https.map (·.endpointUrl)
    httpsProxyAuthorization := proxyAuthorization https }

/-- The proxy words of `raw_request_options`. -/
def rawRequestOptions (reader : UrlReader) (resolver : ProxyResolver) (parts : TransportRequest) :
    Except UrlError TransportRequest := do
  let decision ← resolver.resolve reader parts.url
  .ok
    { parts with
      useProxyTransport := decision.usesProxy
      proxyPolicy := resolver.transportPolicy.value }

/-! ## Hops -/

/-- Where a hop goes, and the credentials for a proxy that its request carries. -/
structure Dispatch where
  stream : Stream
  proxyAuthorization : Option Text
deriving DecidableEq, Repr

/-- The URI of a request. -/
def requestUri (url : HttpUrl) : Uri := ⟨url.scheme, url.asStr⟩

/-- `plain_http_proxy_authorization`. -/
def plainHttpProxyAuthorization (options : RawProxyOptions) (route : TransportRoute)
    (url : HttpUrl) : Option Text :=
  if route = .proxy ∧ url.scheme = ("http" : Text) then options.httpProxyAuthorization else none

/-- A hop of the transport. -/
def dispatch (options : RawProxyOptions) (route : TransportRoute) (url : HttpUrl) :
    Except Text Dispatch := do
  let client ← options.clients.select route
  .ok ⟨client.call (requestUri url), plainHttpProxyAuthorization options route url⟩

/-- The hop that a decision asks for: past all proxies, or to its proxy with the credentials
of this proxy, in the request or in front of the tunnel. -/
def ProxyDecision.dispatch (decision : ProxyDecision) (url : HttpUrl) : Dispatch :=
  match decision.proxy with
  | none => ⟨.plain (requestUri url), none⟩
  | some proxy =>
      let endpoint := parseProxyEndpoint proxy.endpointUrl
      let authorization := basicProxyAuthorization proxy.credentials
      if url.scheme = ("http" : Text) then ⟨.plain endpoint, authorization⟩
      else ⟨.tunnel endpoint authorization (requestUri url), none⟩

/-- A direct hop meets no proxy. -/
theorem dispatch_direct (options : RawProxyOptions) (url : HttpUrl) :
    dispatch options .direct url = .ok ⟨.plain (requestUri url), none⟩ := by
  have hauthorization : plainHttpProxyAuthorization options .direct url = none :=
    if_neg fun h => absurd h.1 (by decide)
  unfold dispatch
  rw [hauthorization]
  rfl

/-- A client with a proxy has a client for proxied hops. -/
theorem select_proxy {options : RawProxyOptions}
    (h : (options.httpProxyUrl.isSome || options.httpsProxyUrl.isSome) = true) :
    options.clients.select .proxy = .ok (buildClient
      ⟨options.httpProxyUrl, options.httpsProxyUrl, options.httpsProxyAuthorization⟩) := by
  unfold RawProxyOptions.clients
  rw [if_pos h]
  rfl

/-- The way to the endpoint of a proxy is no tunnel. -/
theorem call_parseProxyEndpoint (connector : HttpsTunnelConnector) (configuredUrl : Text) :
    connector.call (parseProxyEndpoint configuredUrl) =
      .plain (parseProxyEndpoint configuredUrl) := by
  have hhttp : ¬ ("http" : Text) = ("https" : Text) := by decide
  unfold HttpsTunnelConnector.call
  cases connector.proxy with
  | none => rfl
  | some proxy => exact if_neg hhttp

/-- A plain request goes to the HTTP proxy. -/
theorem call_http {options : ClientOptions} {uri : Uri} {configuredUrl : Text}
    (hproxy : options.httpProxyUrl = some configuredUrl) (hscheme : uri.scheme = ("http" : Text)) :
    (buildClient options).call uri = .plain (parseProxyEndpoint configuredUrl) := by
  unfold HttpProxyConnector.call buildClient
  rw [hproxy, Option.map_some]
  dsimp only
  rw [if_pos hscheme, call_parseProxyEndpoint]

/-- A TLS request goes through a tunnel of the HTTPS proxy. -/
theorem call_https {options : ClientOptions} {uri : Uri} {configuredUrl : Text}
    (hproxy : options.httpsProxyUrl = some configuredUrl)
    (hscheme : uri.scheme = ("https" : Text)) :
    (buildClient options).call uri =
      .tunnel (parseProxyEndpoint configuredUrl) options.httpsProxyAuthorization uri := by
  have hinner : (buildClient options).inner.call uri =
      .tunnel (parseProxyEndpoint configuredUrl) options.httpsProxyAuthorization uri := by
    unfold HttpsTunnelConnector.call buildClient
    rw [hproxy, Option.map_some]
    exact if_pos hscheme
  have hhttp : ¬ uri.scheme = ("http" : Text) := by
    rw [hscheme]
    decide
  unfold HttpProxyConnector.call
  split
  · rw [if_neg hhttp]
    exact hinner
  · exact hinner

/-- A proxied hop goes to the proxy of its scheme. -/
theorem dispatch_proxy {resolver : ProxyResolver} {url : HttpUrl} {decision : ProxyDecision}
    {proxy : ProxyUrl} (hdecision : decision.proxy = some proxy)
    (hrouting : resolver.routingProxy url.scheme = some proxy) :
    dispatch (rawProxyOptions resolver) .proxy url = .ok (decision.dispatch url) := by
  have hhttps : ¬ ("https" : Text) = ("http" : Text) := by decide
  unfold dispatch ProxyDecision.dispatch plainHttpProxyAuthorization
  rw [hdecision]
  rcases url.scheme_eq with hscheme | hscheme
  · rw [hscheme] at hrouting
    have hurl : (rawProxyOptions resolver).httpProxyUrl = some proxy.endpointUrl :=
      congrArg (Option.map ProxyUrl.endpointUrl) hrouting
    have hauthorization : (rawProxyOptions resolver).httpProxyAuthorization =
        basicProxyAuthorization proxy.credentials :=
      congrArg proxyAuthorization hrouting
    rw [select_proxy (by rw [hurl]; rfl), if_pos ⟨rfl, hscheme⟩, hauthorization]
    dsimp only
    rw [if_pos hscheme]
    change Except.ok (Dispatch.mk ((buildClient _).call _) _) = _
    rw [call_http hurl hscheme]
  · rw [hscheme] at hrouting
    have hurl : (rawProxyOptions resolver).httpsProxyUrl = some proxy.endpointUrl :=
      congrArg (Option.map ProxyUrl.endpointUrl) hrouting
    have hauthorization : (rawProxyOptions resolver).httpsProxyAuthorization =
        basicProxyAuthorization proxy.credentials :=
      congrArg proxyAuthorization hrouting
    have hnot : ¬ url.scheme = ("http" : Text) := hscheme ▸ hhttps
    rw [select_proxy (by rw [hurl]; simp), if_neg fun h => hnot h.2]
    dsimp only
    rw [if_neg hnot]
    change Except.ok (Dispatch.mk ((buildClient _).call _) _) = _
    rw [call_https hurl hscheme, hauthorization]

/-! ## The URLs of a chain -/

/-- A URL that the transport has parsed. -/
def Parsed (crate : UrlCrate) (url : HttpUrl) : Prop := ∃ text, HttpUrl.parse crate text = .ok url

section Hops

variable {crate : UrlCrate} {chain : Chain}

/-- A redirect leads to a URL that was joined, written and parsed. -/
theorem parsed_of_mutation {state : RequestState} {response : ResponseHead}
    {completedRedirects : Nat} {mutation : PolicyMutation}
    (h : state.responseMutation crate response completedRedirects = some (.ok mutation)) :
    Parsed crate mutation.url := by
  unfold RequestState.responseMutation at h
  rw [Option.map_eq_some_iff] at h
  obtain ⟨action, haction, hafter⟩ := h
  obtain ⟨followed, hfollow, rfl⟩ := PolicyPipeline.afterResponseBody_eq_ok hafter
  have hdecision := PolicyPipeline.onResponseHeaders_eq_some haction
  rw [hfollow] at hdecision
  simp only [redirectDecision, Option.bind_eq_bind, Option.bind_eq_some_iff] at hdecision
  obtain ⟨status, -, location, -, ⟨method, body⟩, -, nextUrl, hjoin, hlast⟩ := hdecision
  have hurl : followed.url = nextUrl := by
    dsimp only at hlast
    split at hlast
    · simp at hlast
    · simp only [Option.pure_def, Option.some.injEq, RedirectDecision.follow.injEq] at hlast
      rw [← hlast]
  unfold HttpUrl.join at hjoin
  split at hjoin
  · cases hjoin
  · rename_i inner hinner
    cases hparse : HttpUrl.parse crate inner.asStr with
    | error message =>
        rw [hparse] at hjoin
        cases hjoin
    | ok url =>
        rw [hparse] at hjoin
        have hsame : url = nextUrl := Option.some.inj hjoin
        refine ⟨inner.asStr, ?_⟩
        rw [hparse, hsame]
        exact congrArg Except.ok hurl.symm

theorem parsed_step (event : ChainEvent) (h : Parsed crate chain.request.url) :
    Parsed crate (Chain.step crate chain event).request.url := by
  cases event with
  | transportRoute env redirectHop =>
      obtain ⟨headers, cookies, auth, hsame⟩ :=
        chain.request.transportRoute_same env redirectHop
      change Parsed crate (chain.request.transportRoute env redirectHop).2.url
      rw [hsame]
      exact h
  | retry => exact h
  | response response completedRedirects =>
      rw [Chain.step]
      split
      · rename_i mutation hmutation
        exact parsed_of_mutation hmutation
      · exact h

/-- Every URL of a chain was parsed by the transport. -/
theorem parsed_run (events : List ChainEvent) (h : Parsed crate chain.request.url) :
    Parsed crate (Chain.run crate chain events).request.url := by
  induction events generalizing chain with
  | nil => exact h
  | cons event events ih => exact ih (parsed_step event h)

/-- What `transport_route` lets through has passed the proxy policy. -/
theorem route_of_transportRoute {state : RequestState} {env : HopEnv} {redirectHop : Nat}
    {route : TransportRoute} (h : (state.transportRoute env redirectHop).1 = .ok route) :
    state.policy.proxy.route state.url = .ok route := by
  obtain ⟨headers, cookies, auth, hsame⟩ := state.removeManagedHeader_same
  have hbefore : state.policy.beforeSend ⟨state.method, state.url, state.bodyPolicy⟩ =
      .ok route := by
    unfold RequestState.transportRoute at h
    rw [hsame] at h
    dsimp only at h
    split at h
    · cases h
    · rename_i found hfound
      have hroute : found = route := by
        split at h
        · cases h
        · split at h
          · cases h
          · exact Except.ok.inj h
      rw [← hroute]
      exact hfound
  unfold PolicyPipeline.beforeSend at hbefore
  rw [bind_eq_ok] at hbefore
  obtain ⟨-, -, hbefore⟩ := hbefore
  rw [bind_eq_ok] at hbefore
  obtain ⟨found, hfound, hlast⟩ := hbefore
  split at hlast
  · cases hlast
  · rw [← Except.ok.inj hlast]
    exact hfound

/-- URLs of one origin are one target. -/
theorem target_of_origin {url other : HttpUrl} (hurl : url.Written) (hother : other.Written)
    (h : url.origin = other.origin) : url.target = other.target := by
  have hsame := (HttpUrl.isSameOrigin_iff_origin hurl.toNormal hother.toNormal).mpr h
  unfold HttpUrl.isSameOrigin at hsame
  simp only [Bool.and_eq_true, beq_iff_eq] at hsame
  obtain ⟨⟨hscheme, hhost⟩, hport⟩ := hsame
  unfold HttpUrl.target HttpUrl.host
  rw [hscheme, hport, HttpUrl.hostStr_eq_iff.mpr hhost]

/-! ## The policy of a request -/

/-- The proxy policy that the transport reads from the two words of Python. -/
def policyOf (policy : ProxyTransportPolicy) (usesProxy : Bool) (url : HttpUrl) : ProxyPolicy :=
  match policy with
  | .direct => .direct
  | .explicitProxy => .explicit
  | .environmentProxy => .environment url.origin (if usesProxy then .proxy else .direct)

/-- The transport knows all three words. -/
theorem parse_value (policy : ProxyTransportPolicy) (usesProxy : Bool) (url : HttpUrl) :
    ProxyPolicy.parse policy.value (if usesProxy then .proxy else .direct) url =
      .ok (policyOf policy usesProxy url) := by
  cases policy with
  | direct => exact if_pos rfl
  | explicitProxy =>
      have hdirect : ¬ ("explicit_proxy" : Text) = ("direct" : Text) := by decide
      exact (if_neg hdirect).trans (if_pos rfl)
  | environmentProxy =>
      have hdirect : ¬ ("environment_proxy" : Text) = ("direct" : Text) := by decide
      have hexplicit : ¬ ("environment_proxy" : Text) = ("explicit_proxy" : Text) := by decide
      exact (if_neg hdirect).trans ((if_neg hexplicit).trans (if_pos rfl))

variable {reader : UrlReader} {resolver : ProxyResolver} {base parts : TransportRequest}
  {toUppercase : Text → Text} {start : RequestState}

/-- A request is built from the decision for its URL. -/
theorem start_policy (hparts : rawRequestOptions reader resolver base = .ok parts)
    (hstart : RequestState.tryFrom crate toUppercase parts = .ok start) :
    ∃ decision, resolver.resolve reader base.url = .ok decision ∧
      HttpUrl.parse crate base.url = .ok start.url ∧
      start.policy.proxy =
        policyOf resolver.transportPolicy decision.usesProxy start.url := by
  unfold rawRequestOptions at hparts
  rw [bind_eq_ok] at hparts
  obtain ⟨decision, hdecision, hparts⟩ := hparts
  have hsame := Except.ok.inj hparts
  subst hsame
  unfold RequestState.tryFrom at hstart
  rw [bind_eq_ok] at hstart
  obtain ⟨url, hurl, hstart⟩ := hstart
  rw [bind_eq_ok] at hstart
  obtain ⟨policy, hpolicy, hstart⟩ := hstart
  have hstate := Except.ok.inj hstart
  subst hstate
  refine ⟨decision, hdecision, mapError_eq_ok.mp hurl, ?_⟩
  have hnew := mapError_eq_ok.mp hpolicy
  unfold PolicyPipeline.new at hnew
  rw [bind_eq_ok] at hnew
  obtain ⟨proxy, hproxy, hnew⟩ := hnew
  rw [parse_value] at hproxy
  have hpipeline := Except.ok.inj hnew
  rw [← hpipeline]
  exact (Except.ok.inj hproxy).symm

/-! ## Every hop -/

/-- A hop takes the route of its decision, when the route says whether there is a proxy. -/
theorem dispatch_decision {decision : ProxyDecision} {url : HttpUrl} {route : TransportRoute}
    (hroute : route = if decision.usesProxy then .proxy else .direct)
    (hrouting : ∀ proxy, decision.proxy = some proxy →
      resolver.routingProxy url.scheme = some proxy) :
    dispatch (rawProxyOptions resolver) route url = .ok (decision.dispatch url) := by
  rw [hroute]
  unfold ProxyDecision.usesProxy
  cases hproxy : decision.proxy with
  | none =>
      have hnone : decision.dispatch url = ⟨.plain (requestUri url), none⟩ := by
        unfold ProxyDecision.dispatch
        rw [hproxy]
      rw [hnone]
      exact dispatch_direct _ _
  | some proxy => exact dispatch_proxy hproxy (hrouting proxy hproxy)

/-- The resolver of a client decides for one hop what the policy of another URL lets through. -/
theorem dispatch_policyOf {tables : StrTables} {explicit : Option ProxyUrl}
    {environment : Option ProxyRules} {first hop : HttpUrl} {route : TransportRoute}
    (hresolver : resolver = proxyResolver explicit environment)
    (horigin : hop.origin = first.origin → hop.target = first.target)
    (hroute : (policyOf resolver.transportPolicy
      (resolver.decideFor tables first.target).usesProxy first).route hop = .ok route) :
    dispatch (rawProxyOptions resolver) route hop =
      .ok ((resolver.decideFor tables hop.target).dispatch hop) := by
  subst hresolver
  cases explicit with
  | some proxy =>
      have hdecision : ((proxyResolver (some proxy) environment).decideFor tables hop.target) =
          ⟨hop.target, some proxy, .explicit, none⟩ :=
        ProxyResolver.decideFor_fromExplicit proxy environment hop.scheme_eq
      have hproxy : route = .proxy := (Except.ok.inj hroute).symm
      rw [hdecision, hproxy]
      refine dispatch_proxy rfl ?_
      change (ProxyRules.mk _ _ _ _).proxyForScheme hop.scheme = _
      unfold ProxyRules.proxyForScheme
      rcases hop.scheme_eq with hscheme | hscheme
      · rw [hscheme]
        rfl
      · rw [hscheme]
        rfl
  | none =>
      have hresolver : proxyResolver none environment = ⟨none, environment⟩ := by
        cases environment with
        | none => rfl
        | some rules => rfl
      rw [hresolver] at hroute ⊢
      refine dispatch_decision ?_ fun proxy hproxy =>
        ProxyResolver.decideFor_environment_proxy hproxy
      cases hpolicy : (ProxyResolver.mk none environment).transportPolicy with
      | direct =>
          rw [hpolicy] at hroute
          unfold ProxyDecision.usesProxy
          rw [ProxyResolver.decideFor_of_direct hpolicy]
          exact (Except.ok.inj hroute).symm
      | explicitProxy =>
          unfold ProxyResolver.transportPolicy at hpolicy
          cases environment with
          | none => cases hpolicy
          | some rules =>
              dsimp only at hpolicy
              rw [if_neg (by simp)] at hpolicy
              split at hpolicy
              · cases hpolicy
              · cases hpolicy
      | environmentProxy =>
          rw [hpolicy] at hroute
          unfold policyOf ProxyPolicy.route at hroute
          dsimp only at hroute
          split at hroute
          · rename_i hsame
            rw [horigin hsame]
            exact (Except.ok.inj hroute).symm
          · cases hroute

variable {options : ProxyOptions} {env : Environ}

/-- Every hop that the transport lets through goes where the resolver would send the URL of
this hop, with the credentials of that proxy and no others. -/
theorem hop_follows_resolver (hagrees : reader.Agrees crate)
    (hclient : clientProxyResolver reader options env = .ok resolver)
    (hparts : rawRequestOptions reader resolver base = .ok parts)
    (hstart : RequestState.tryFrom crate toUppercase parts = .ok start)
    (htarget : ProxyTarget.parse reader base.url = .ok start.url.target)
    (events : List ChainEvent) (hopEnv : HopEnv) (redirectHop : Nat) {route : TransportRoute}
    {hop : RequestState} (hhop : hop = (Chain.run crate (.start start) events).request)
    (hroute : (hop.transportRoute hopEnv redirectHop).1 = .ok route) :
    dispatch (rawProxyOptions resolver) route hop.url =
        .ok ((resolver.decideFor reader.tables hop.url.target).dispatch hop.url) ∧
      (hop.url.port ≠ 0 → resolver.resolve reader hop.url.asStr =
        .ok (resolver.decideFor reader.tables hop.url.target)) := by
  obtain ⟨decision, hdecision, hparse, hpolicy⟩ := start_policy hparts hstart
  have hdecided : decision = resolver.decideFor reader.tables start.url.target := by
    unfold ProxyResolver.resolve at hdecision
    rw [htarget] at hdecision
    exact (Except.ok.inj hdecision).symm
  obtain ⟨text, hparsed⟩ : Parsed crate hop.url := by
    rw [hhop]
    exact parsed_run events ⟨base.url, hparse⟩
  have hresolver : ∃ explicit environment,
      resolver = proxyResolver explicit environment := by
    unfold clientProxyResolver at hclient
    rw [bind_eq_ok] at hclient
    obtain ⟨environment, -, hclient⟩ := hclient
    rw [bind_eq_ok] at hclient
    obtain ⟨explicit, -, hclient⟩ := hclient
    exact ⟨explicit, environment, (Except.ok.inj hclient).symm⟩
  obtain ⟨explicit, environment, hresolver⟩ := hresolver
  refine ⟨?_, fun hport => ?_⟩
  · have hpolicyRoute := route_of_transportRoute hroute
    have hsame : hop.policy = start.policy := by
      rw [hhop]
      exact Chain.run_policy crate (.start start) events
    rw [hsame, hpolicy, hdecided] at hpolicyRoute
    exact dispatch_policyOf hresolver
      (target_of_origin (hagrees.written hparsed) (hagrees.written hparse)) hpolicyRoute
  · unfold ProxyResolver.resolve
    rw [hagrees.parse_asStr hparsed hport]
    rfl

end Hops

/-! ## A redirect behind a proxy -/

namespace RoutingExample

/-- A page of `https://a.test`. -/
def page (path : Text) : HttpUrl where
  inner := ⟨"https", [], none, some "a.test", none, path, none, none⟩
  supported := rfl
  hasHost := rfl

/-- The `url` crate on two pages. -/
def crate : UrlCrate where
  parse text :=
    if text = ("https://a.test/" : Text) then .ok (page "/").inner
    else if text = ("https://a.test/b" : Text) then .ok (page "/b").inner
    else .error "relative URL without a base"
  join _ location :=
    if location = ("/b" : Text) then .ok (page "/b").inner
    else .error "relative URL without a base"

/-- Python on ASCII. -/
def reader : UrlReader where
  tables := ⟨toAsciiLowercase, Char.isDigit, toDigit 10⟩
  acceptsNetloc netloc := isAscii netloc && !netloc.contains '[' && !netloc.contains ']'

theorem page_cases {text : Text} {url : HttpUrl} (h : HttpUrl.parse crate text = .ok url) :
    url = page "/" ∨ url = page "/b" := by
  unfold HttpUrl.parse at h
  split at h
  · cases h
  · rename_i inner hinner
    have hpage : inner = (page "/").inner ∨ inner = (page "/b").inner := by
      unfold crate at hinner
      dsimp only at hinner
      split at hinner
      · exact Or.inl (Except.ok.inj hinner).symm
      · split at hinner
        · exact Or.inr (Except.ok.inj hinner).symm
        · cases hinner
    split at h
    · split at h
      · have hurl := Except.ok.inj h
        rcases hpage with rfl | rfl
        · exact Or.inl hurl.symm
        · exact Or.inr hurl.symm
      · cases h
    · cases h

theorem page_written {path : Text} (hpath : path = ("/" : Text) ∨ path = ("/b" : Text)) :
    (page path).Written := by
  have hhost : IsNormalHost "a.test" := Or.inr ⟨by decide, by decide⟩
  have hport : (page path).inner.port ≠ some (page path).defaultPort := (Option.some_ne_none _).symm
  rcases hpath with rfl | rfl
  · exact ⟨⟨hport, hhost⟩, by decide, by decide, by decide, by decide, by decide, by decide,
      by decide, by decide⟩
  · exact ⟨⟨hport, hhost⟩, by decide, by decide, by decide, by decide, by decide, by decide,
      by decide, by decide⟩

theorem agrees : reader.Agrees crate where
  lower _ _ := rfl
  written h := by
    rcases page_cases h with rfl | rfl
    · exact page_written (Or.inl rfl)
    · exact page_written (Or.inr rfl)
  accepts h := by
    rcases page_cases h with rfl | rfl
    · decide
    · decide

/-- A client that trusts its environment. -/
def options : ProxyOptions := ⟨none, true⟩

/-- A proxy for `https`, and a NO_PROXY rule for another host. -/
def env : Environ := fun name =>
  if name = ("https_proxy" : Text) then some "http://user:pw@proxy.test:3128"
  else if name = ("no_proxy" : Text) then some "b.test"
  else none

def proxy : ProxyUrl where
  endpointUrl := "http://proxy.test:3128"
  scheme := "http"
  host := "proxy.test"
  port := 3128
  endpointNetloc := "proxy.test:3128"
  credentials := some ⟨"user", some "pw"⟩

def rule : NoProxyRule where
  value := "b.test"
  host := "b.test"
  port := none
  wildcard := false
  suffixMatch := true
  ipLiteral := false

def resolver : ProxyResolver := .fromEnvironment ⟨none, some proxy, none, ⟨[rule]⟩⟩

def base : TransportRequest where
  method := "GET"
  url := "https://a.test/"
  headers := []
  authOverrideHeaders := none
  authRemovedHeaders := []
  body := none
  bodyStream := none
  bodyReplayable := true
  useProxyTransport := false
  proxyPolicy := "direct"
  followRedirects := true
  maxRedirects := 20
  ssrfPolicy := none
  hasCookieJar := false
  hasAuth := false

def parts : TransportRequest :=
  { base with useProxyTransport := true, proxyPolicy := "environment_proxy" }

def start : RequestState where
  method := "GET"
  url := page "/"
  headers := []
  body := .empty
  bodyPolicy := .empty
  policy := ⟨.environment "https://a.test" .proxy, some ⟨20⟩, none⟩
  cookies := none
  auth := none
  retryAttempt := 1
  completedRetries := 0

def hopEnv : HopEnv where
  headerUpdates _ _ _ _ := .ok []
  requestHeader _ := none
  beforeSendHook _ _ := .ok ()

def events : List ChainEvent :=
  [.transportRoute hopEnv 0, .response ⟨302, [("location", "/b")]⟩ 0, .retry]

/-- The hop to the second page. -/
def hop : RequestState := { start with url := page "/b", retryAttempt := 2, completedRetries := 1 }

/-- The second page is fetched through a tunnel of the proxy, with its credentials. -/
theorem hop_follows_resolver_example :
    dispatch (rawProxyOptions resolver) .proxy hop.url =
        .ok ((resolver.decideFor reader.tables hop.url.target).dispatch hop.url) ∧
      (hop.url.port ≠ 0 → resolver.resolve reader hop.url.asStr =
        .ok (resolver.decideFor reader.tables hop.url.target)) := by
  have hdecision : resolver.resolve reader base.url =
      .ok ⟨(page "/").target, some proxy, .environment, none⟩ := by decide +kernel
  have hparts : rawRequestOptions reader resolver base = .ok parts := by
    rw [rawRequestOptions, hdecision]
    rfl
  exact @hop_follows_resolver crate reader resolver base parts id start options env agrees
    (by decide +kernel) hparts rfl (by decide +kernel) events hopEnv 1 .proxy hop rfl rfl

end RoutingExample

end FogHttp.Proxy
