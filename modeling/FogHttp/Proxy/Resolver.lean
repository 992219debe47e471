import FogHttp.Proxy.Url

/-!
# The proxy of a target

A client takes its proxies from an option and, when it trusts the environment, from the
variables of the process.  `clientProxyResolver` reads both once.  `ProxyResolver.resolve`
then decides for each request: a proxy from the option wins, a NO_PROXY rule comes before the
proxies of the environment, and these may differ by the scheme of the target.

`transportPolicy` and `routingProxy` are what the transport learns from the resolver: one word
for all requests, and one proxy for each scheme.  `decide_cases` says which decisions each
word stands for.
-/

namespace FogHttp.Proxy

open Lib

/-! ## Rules -/

/-- `ProxyRules`. -/
structure ProxyRules where
  http : Option ProxyUrl
  https : Option ProxyUrl
  allProxy : Option ProxyUrl
  noProxy : NoProxyMatcher
deriving DecidableEq

namespace ProxyRules

/-- `ProxyRules.proxy_for_scheme`. -/
def proxyForScheme (rules : ProxyRules) (scheme : Text) : Option ProxyUrl :=
  if scheme = ("http" : Text) then rules.http.or rules.allProxy
  else if scheme = ("https" : Text) then rules.https.or rules.allProxy
  else none

/-- `ProxyRules.has_routing_policy`. -/
def hasRoutingPolicy (rules : ProxyRules) : Bool :=
  rules.http.isSome || rules.https.isSome || rules.allProxy.isSome

/-- Without proxies there is none for any scheme. -/
theorem proxyForScheme_of_not_hasRoutingPolicy {rules : ProxyRules}
    (h : rules.hasRoutingPolicy = false) (scheme : Text) : rules.proxyForScheme scheme = none := by
  unfold hasRoutingPolicy at h
  simp only [Bool.or_eq_false_iff, Option.isSome_eq_false_iff, Option.isNone_iff_eq_none] at h
  obtain ⟨⟨hhttp, hhttps⟩, hall⟩ := h
  unfold proxyForScheme
  rw [hhttp, hhttps, hall]
  simp

end ProxyRules

/-! ## The resolver -/

/-- `ProxySource`. -/
inductive ProxySource where
  | none
  | explicit
  | environment
  | noProxy
deriving DecidableEq, Repr

/-- `ProxyDecision`. -/
structure ProxyDecision where
  target : ProxyTarget
  proxy : Option ProxyUrl
  source : ProxySource
  noProxyRule : Option Text
deriving DecidableEq

/-- `ProxyDecision.uses_proxy`. -/
def ProxyDecision.usesProxy (decision : ProxyDecision) : Bool := decision.proxy.isSome

/-- `ProxyTransportPolicy`. -/
inductive ProxyTransportPolicy where
  | direct
  | explicitProxy
  | environmentProxy
deriving DecidableEq, Repr

/-- The string of a `ProxyTransportPolicy`. -/
def ProxyTransportPolicy.value : ProxyTransportPolicy → Text
  | .direct => "direct"
  | .explicitProxy => "explicit_proxy"
  | .environmentProxy => "environment_proxy"

/-- `ProxyResolver`. -/
structure ProxyResolver where
  explicit : Option ProxyRules
  environment : Option ProxyRules
deriving DecidableEq

namespace ProxyResolver

/-- `ProxyResolver.disabled`. -/
def disabled : ProxyResolver := ⟨none, none⟩

/-- `ProxyResolver.from_explicit`. -/
def fromExplicit (proxy : ProxyUrl) (environment : Option ProxyRules) : ProxyResolver :=
  ⟨some ⟨some proxy, some proxy, none, NoProxyMatcher.empty⟩, environment⟩

/-- `ProxyResolver.from_environment`. -/
def fromEnvironment (rules : ProxyRules) : ProxyResolver := ⟨none, some rules⟩

/-- `ProxyResolver.routing_proxy`. -/
def routingProxy (resolver : ProxyResolver) (scheme : Text) : Option ProxyUrl :=
  let rules := if resolver.explicit.isNone then resolver.environment else resolver.explicit
  rules.bind fun rules => rules.proxyForScheme scheme

/-- `ProxyResolver.transport_policy`. -/
def transportPolicy (resolver : ProxyResolver) : ProxyTransportPolicy :=
  if resolver.explicit.isSome then .explicitProxy
  else
    match resolver.environment with
    | some rules => if rules.hasRoutingPolicy then .environmentProxy else .direct
    | none => .direct

/-- `ProxyResolver.resolve`, once it knows the target. -/
def decideFor (tables : StrTables) (resolver : ProxyResolver) (target : ProxyTarget) :
    ProxyDecision :=
  match resolver.explicit.bind fun rules => rules.proxyForScheme target.scheme with
  | some proxy => ⟨target, some proxy, .explicit, none⟩
  | none =>
      match resolver.environment with
      | none => ⟨target, none, .none, none⟩
      | some rules =>
          match rules.noProxy.findMatch tables target with
          | some rule => ⟨target, none, .noProxy, some rule.value⟩
          | none =>
              match rules.proxyForScheme target.scheme with
              | some proxy => ⟨target, some proxy, .environment, none⟩
              | none => ⟨target, none, .none, none⟩

/-- `ProxyResolver.resolve`. -/
def resolve (reader : UrlReader) (resolver : ProxyResolver) (url : Text) :
    Except UrlError ProxyDecision := do
  let target ← ProxyTarget.parse reader url
  .ok (resolver.decideFor reader.tables target)

end ProxyResolver

/-! ## The environment -/

/-- The variables of a process, by name. -/
abbrev Environ := Text → Option Text

def allProxyEnvNames : List Text := ["all_proxy", "ALL_PROXY"]

def httpProxyEnvNames : List Text := ["http_proxy", "HTTP_PROXY"]

def httpsProxyEnvNames : List Text := ["https_proxy", "HTTPS_PROXY"]

def noProxyEnvNames : List Text := ["no_proxy", "NO_PROXY"]

def requestMethodEnvName : Text := "REQUEST_METHOD"

/-- What the configuration of the proxies raises. -/
inductive ProxyConfigError where
  | url (error : UrlError)
  /-- The `ValueError` around the one of a variable. -/
  | variable (message : Text)
  | noProxy (error : ValueError)
deriving DecidableEq, Repr

/-- `_selected_env_value`: the first variable that is not blank. -/
def selectedEnvValue (env : Environ) (names : List Text) : Option (Text × Text) :=
  names.findSome? fun name =>
    match env name with
    | some value => if strip value = [] then none else some (name, strip value)
    | none => none

/-- `_env_value`. -/
def envValue (env : Environ) (names : List Text) : Option Text :=
  (selectedEnvValue env names).map (·.2)

/-- `_http_proxy_names`.  In a CGI process the variable in capitals is a header of the
request. -/
def httpProxyNames (env : Environ) : List Text :=
  if envValue env [requestMethodEnvName] = none then httpProxyEnvNames else ["http_proxy"]

/-- `_proxy_url_from_env`. -/
def proxyUrlFromEnv (reader : UrlReader) (env : Environ) (names : List Text) :
    Except ProxyConfigError (Option ProxyUrl) :=
  match selectedEnvValue env names with
  | none => .ok none
  | some (name, value) =>
      match ProxyUrl.parse reader value name with
      | .ok proxy => .ok (some proxy)
      | .error (.valueError message) =>
          .error (.variable (name ++ (" is invalid: " : Text) ++ message))
      | .error (.keyError key) => .error (.url (.keyError key))

/-- The rules of `environment_proxy_config`. -/
def environmentProxyConfig (reader : UrlReader) (env : Environ) :
    Except ProxyConfigError ProxyRules := do
  let http ← proxyUrlFromEnv reader env (httpProxyNames env)
  let https ← proxyUrlFromEnv reader env httpsProxyEnvNames
  let allProxy ← proxyUrlFromEnv reader env allProxyEnvNames
  let noProxy ←
    (NoProxyMatcher.parse reader.tables (envValue env noProxyEnvNames)).mapError .noProxy
  .ok ⟨http, https, allProxy, noProxy⟩

/-! ## The client -/

/-- The options of a client that its proxies come from. -/
structure ProxyOptions where
  proxy : Option Text
  trustEnv : Bool

/-- The `source` of the option in messages. -/
def optionSource : Text := "proxy URL"

/-- `_proxy_resolver`, with the case in front of it. -/
def proxyResolver (explicit : Option ProxyUrl) (environment : Option ProxyRules) :
    ProxyResolver :=
  match explicit with
  | some proxy => .fromExplicit proxy environment
  | none =>
      match environment with
      | some rules => .fromEnvironment rules
      | none => .disabled

/-- The rules of the environment, if the client trusts it. -/
def environmentRules (reader : UrlReader) (options : ProxyOptions) (env : Environ) :
    Except ProxyConfigError (Option ProxyRules) :=
  if options.trustEnv then (environmentProxyConfig reader env).map some else .ok none

/-- The proxy of the option. -/
def explicitProxy (reader : UrlReader) (options : ProxyOptions) :
    Except ProxyConfigError (Option ProxyUrl) :=
  match options.proxy with
  | some value => ((ProxyUrl.parse reader value optionSource).map some).mapError .url
  | none => .ok none

/-- The resolver of `ClientConfig.from_options`. -/
def clientProxyResolver (reader : UrlReader) (options : ProxyOptions) (env : Environ) :
    Except ProxyConfigError ProxyResolver := do
  let environment ← environmentRules reader options env
  let explicit ← explicitProxy reader options
  .ok (proxyResolver explicit environment)

/-! ## What the transport learns -/

namespace ProxyResolver

variable {tables : StrTables} {target : ProxyTarget}

/-- A proxy from the option is the one of both schemes. -/
theorem decideFor_fromExplicit (proxy : ProxyUrl) (environment : Option ProxyRules)
    (h : target.scheme = ("http" : Text) ∨ target.scheme = ("https" : Text)) :
    (fromExplicit proxy environment).decideFor tables target =
      ⟨target, some proxy, .explicit, none⟩ := by
  have hproxy : (ProxyRules.mk (some proxy) (some proxy) none NoProxyMatcher.empty).proxyForScheme
      target.scheme = some proxy := by
    unfold ProxyRules.proxyForScheme
    rcases h with hscheme | hscheme
    · rw [hscheme]
      rfl
    · rw [hscheme]
      rfl
  unfold decideFor fromExplicit
  rw [Option.bind_some, hproxy]

/-- The decision of the environment is the one of its rules for the scheme, unless a NO_PROXY
rule comes first. -/
theorem decideFor_environment_proxy {environment : Option ProxyRules} {proxy : ProxyUrl}
    (h : ((ProxyResolver.mk none environment).decideFor tables target).proxy = some proxy) :
    (ProxyResolver.mk none environment).routingProxy target.scheme = some proxy := by
  unfold decideFor at h
  rw [Option.bind_none] at h
  cases environment with
  | none => cases h
  | some rules =>
      dsimp only at h
      split at h
      · cases h
      · split at h
        · rename_i found hfound
          rw [← h]
          exact hfound
        · cases h

/-- Without proxies no target has one. -/
theorem decideFor_of_direct {environment : Option ProxyRules}
    (h : (ProxyResolver.mk none environment).transportPolicy = .direct) :
    ((ProxyResolver.mk none environment).decideFor tables target).proxy = none := by
  cases hproxy : ((ProxyResolver.mk none environment).decideFor tables target).proxy with
  | none => rfl
  | some proxy =>
      have hrouting := decideFor_environment_proxy hproxy
      cases environment with
      | none => cases hrouting
      | some rules =>
          unfold transportPolicy at h
          dsimp only at h
          rw [if_neg (by simp)] at h
          split at h
          · cases h
          · rename_i hnone
            have hrules : rules.proxyForScheme target.scheme = some proxy := hrouting
            rw [ProxyRules.proxyForScheme_of_not_hasRoutingPolicy (by simpa using hnone)] at hrules
            cases hrules

end ProxyResolver

end FogHttp.Proxy
