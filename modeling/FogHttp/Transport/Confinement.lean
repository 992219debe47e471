import FogHttp.Transport.Chain

/-!
# Credentials stay with their origin

After the first applied redirect to another origin, no later hop of the chain
carries a credential of the first origin.

`Confined` is the invariant.  Before the crossing every applied name is in the
`sensitive_headers` of the auth state.  From the crossing on there is no auth
state, and the headers without a managed cookie are clean: no origin-bound name
and no applied name.  The step lemmas follow the three events of a chain,
`confined_run` is the induction over the chain, and
`transportRoute_credentials_confined` is the result.
-/

namespace FogHttp.Confinement

open Lib

/-! ## Clean headers -/

/-- No header is bound to an origin, and no header has a name that the auth
provider applied. -/
def Clean (applied : List Text) (headers : HeaderPairs) : Prop :=
  ∀ header ∈ headers,
    toAsciiLowercase header.1 ∉ crossOriginHeaders ∧ toAsciiLowercase header.1 ∉ applied

theorem Clean.mono {applied : List Text} {headers kept : HeaderPairs}
    (h : Clean applied headers) (hsub : ∀ header ∈ kept, header ∈ headers) :
    Clean applied kept :=
  fun header hmem => h header (hsub header hmem)

/-- A `Cookie` header is bound to an origin. -/
theorem isCookieHeader_iff {header : Text × Text} :
    isCookieHeader header = true ↔ toAsciiLowercase header.1 = ("cookie" : Text) := by
  have hlower : toAsciiLowercase ("cookie" : Text) = ("cookie" : Text) := by decide
  rw [isCookieHeader, eqIgnoreAsciiCase_iff, hlower]

/-- The wire name of the cookie header in lower case. -/
theorem cookieWireName_lower : toAsciiLowercase ("Cookie" : Text) = ("cookie" : Text) := by
  decide

theorem Clean.not_cookie {applied : List Text} {headers : HeaderPairs}
    (h : Clean applied headers) : headers.any isCookieHeader = false := by
  rw [List.any_eq_false]
  intro header hmem hcookie
  have hname := isCookieHeader_iff.mp hcookie
  apply (h header hmem).1
  rw [hname]
  decide

/-- Removing the managed cookie keeps only headers that were there. -/
theorem mem_of_mem_removeManagedHeader {state : RequestState} {header : Text × Text}
    (h : header ∈ state.removeManagedHeader.headers) : header ∈ state.headers := by
  rw [RequestState.removeManagedHeader] at h
  split at h
  · exact h
  · rw [RequestCookieState.removeManagedHeader] at h
    split at h
    · exact h
    · exact (List.mem_filter.mp h).1

@[simp] theorem removeManagedHeader_auth (state : RequestState) :
    state.removeManagedHeader.auth = state.auth := by
  rw [RequestState.removeManagedHeader]
  split <;> rfl

@[simp] theorem removeManagedHeader_url (state : RequestState) :
    state.removeManagedHeader.url = state.url := by
  rw [RequestState.removeManagedHeader]
  split <;> rfl

/-- The cookie that `attachCookies` adds is the one thing it changes, and the
next `removeManagedHeader` takes it away again. -/
theorem Clean.attachCookies {applied : List Text} {state : RequestState} (env : HopEnv)
    (h : Clean applied state.headers) :
    Clean applied (state.attachCookies env).removeManagedHeader.headers := by
  cases hcookies : state.cookies with
  | none =>
      have hsame : state.attachCookies env = state := by
        rw [RequestState.attachCookies, hcookies]
      rw [hsame]
      exact h.mono fun _ => mem_of_mem_removeManagedHeader
  | some cookies =>
      cases hvalue : env.requestHeader state.url with
      | none =>
          have hheaders : (state.attachCookies env).headers = state.headers := by
            rw [RequestState.attachCookies, hcookies]
            simp only [RequestCookieState.attach, hvalue]
            split <;> rfl
          refine h.mono fun header hmem => ?_
          rw [← hheaders]
          exact mem_of_mem_removeManagedHeader hmem
      | some value =>
          intro header hmem
          simp only [RequestState.attachCookies, hcookies, RequestCookieState.attach,
            h.not_cookie, hvalue, RequestState.removeManagedHeader,
            RequestCookieState.removeManagedHeader, Bool.false_eq_true, if_false,
            Bool.not_true, List.mem_filter, List.mem_append, List.mem_singleton] at hmem
          obtain ⟨hmem | rfl, hcookie⟩ := hmem
          · exact h header hmem
          · rw [isCookieHeader_iff.mpr cookieWireName_lower] at hcookie
            simp at hcookie

/-- The headers of a prepared hop are clean headers and at most the cookie that
the jar returned for the URL of the hop. -/
theorem Clean.mem_attachCookies {applied : List Text} {state : RequestState} {env : HopEnv}
    {header : Text × Text} (h : Clean applied state.headers)
    (hmem : header ∈ (state.attachCookies env).headers) :
    header ∈ state.headers ∨
      header.1 = ("Cookie" : Text) ∧ env.requestHeader state.url = some header.2 := by
  rw [RequestState.attachCookies] at hmem
  split at hmem
  · exact Or.inl hmem
  · simp only [RequestCookieState.attach, h.not_cookie, Bool.false_eq_true, if_false] at hmem
    split at hmem
    · exact Or.inl hmem
    · rename_i value hvalue
      simp only [List.mem_append, List.mem_singleton] at hmem
      rcases hmem with hmem | rfl
      · exact Or.inl hmem
      · exact Or.inr ⟨rfl, hvalue⟩

/-! ## The invariant -/

/-- What holds of every chain. -/
structure Confined (chain : Chain) : Prop where
  /-- Before the crossing the auth state remembers every applied name. -/
  remembered : ∀ auth, chain.request.auth = some auth →
    ∀ name ∈ chain.applied, name ∈ auth.sensitiveHeaders
  /-- A request without an auth state that has not crossed applied nothing. -/
  unauthenticated : chain.request.auth = none → chain.crossed = false → chain.applied = []
  /-- The crossing removes the auth state. -/
  forgotten : chain.crossed = true → chain.request.auth = none
  /-- From the crossing on the headers without a managed cookie are clean. -/
  clean : chain.crossed = true →
    Clean chain.applied chain.request.removeManagedHeader.headers

/-- A request that was just built is confined. -/
theorem confined_start (request : RequestState) : Confined (.start request) where
  remembered := by simp [Chain.start]
  unauthenticated := by simp [Chain.start]
  forgotten := by simp [Chain.start]
  clean := by simp [Chain.start]

/-- A retry only counts. -/
theorem confined_retry {crate : UrlCrate} {chain : Chain} (h : Confined chain) :
    Confined (chain.step crate .retry) := by
  refine ⟨h.remembered, h.unauthenticated, h.forgotten, fun hcrossed => ?_⟩
  have hheaders : chain.request.advanceRetryAttempt.removeManagedHeader.headers =
      chain.request.removeManagedHeader.headers := by
    simp only [RequestState.removeManagedHeader, RequestState.advanceRetryAttempt]
    split <;> rfl
  simp only [Chain.step, hheaders]
  exact h.clean hcrossed

/-- Without an auth state a hop changes the cookie only. -/
theorem transportRoute_of_auth_none {state : RequestState} (env : HopEnv) (redirectHop : Nat)
    (hauth : state.auth = none) :
    (state.transportRoute env redirectHop).2 = state.removeManagedHeader ∨
      (state.transportRoute env redirectHop).2 =
        state.removeManagedHeader.attachCookies env := by
  have hnone : state.removeManagedHeader.applyAuth env redirectHop =
      (.ok (), state.removeManagedHeader) := by
    rw [RequestState.applyAuth, removeManagedHeader_auth, hauth]
  rw [RequestState.transportRoute]
  dsimp only
  split
  · exact Or.inl rfl
  · rw [hnone]
    dsimp only
    split <;> exact Or.inr rfl

@[simp] theorem attachCookies_auth (state : RequestState) (env : HopEnv) :
    (state.attachCookies env).auth = state.auth := by
  rw [RequestState.attachCookies]
  split <;> rfl

/-- A hop of an authenticated request adds the names applied on the hop to the
sensitive names, and keeps the auth state. -/
theorem transportRoute_auth {state : RequestState} {auth : RequestAuthState} (env : HopEnv)
    (redirectHop : Nat) (hauth : state.auth = some auth) :
    ∃ next, (state.transportRoute env redirectHop).2.auth = some next ∧
      next.sensitiveHeaders =
        auth.sensitiveHeaders ++ state.appliedOnHop env redirectHop := by
  rw [RequestState.transportRoute, RequestState.appliedOnHop]
  simp only [RequestState.applyAuth, removeManagedHeader_auth, hauth, RequestAuthState.apply]
  cases state.removeManagedHeader.policy.beforeSend
      state.removeManagedHeader.policyRequest with
  | error error => exact ⟨auth, by simp [hauth], by simp⟩
  | ok route =>
      dsimp only
      cases env.headerUpdates state.removeManagedHeader.method
          state.removeManagedHeader.url.asStr
          (auth.startHeaders state.removeManagedHeader.headers) redirectHop with
      | error message => exact ⟨_, rfl, by simp⟩
      | ok updates =>
          dsimp only
          split <;> exact ⟨_, by simp; rfl, rfl⟩

/-- The step of a hop. -/
theorem confined_transportRoute {crate : UrlCrate} {chain : Chain} (env : HopEnv)
    (redirectHop : Nat) (h : Confined chain) :
    Confined (chain.step crate (.transportRoute env redirectHop)) := by
  cases hauth : chain.request.auth with
  | none =>
      have happlied : chain.request.appliedOnHop env redirectHop = [] := by
        rw [RequestState.appliedOnHop]
        simp only [removeManagedHeader_auth, hauth]
        split <;> rfl
      have hnext : (chain.request.transportRoute env redirectHop).2.auth = none := by
        rcases transportRoute_of_auth_none env redirectHop hauth with heq | heq <;>
          simp [heq, hauth]
      refine ⟨?_, ?_, fun _ => hnext, ?_⟩
      · intro auth hsome
        simp [Chain.step, hnext] at hsome
      · intro _ hcrossed
        simp only [Chain.step, happlied, List.append_nil]
        exact h.unauthenticated hauth hcrossed
      · intro hcrossed
        have hclean := h.clean hcrossed
        simp only [Chain.step, happlied, List.append_nil]
        rcases transportRoute_of_auth_none env redirectHop hauth with heq | heq
        · rw [heq]
          exact hclean.mono fun _ => mem_of_mem_removeManagedHeader
        · rw [heq]
          exact hclean.attachCookies env
  | some auth =>
      obtain ⟨next, hnext, hsensitive⟩ := transportRoute_auth env redirectHop hauth
      have hnot : chain.crossed = false := by
        by_contra hcrossed
        simp [h.forgotten (by simpa using hcrossed)] at hauth
      refine ⟨?_, ?_, ?_, ?_⟩
      · intro auth' hauth' name hname
        simp only [Chain.step, hnext, Option.some.injEq] at hauth'
        subst hauth'
        rw [hsensitive, List.mem_append]
        simp only [Chain.step, List.mem_append] at hname
        exact hname.imp (h.remembered auth hauth name) id
      · intro hnone
        simp [Chain.step, hnext] at hnone
      · intro hcrossed
        simp [Chain.step, hnot] at hcrossed
      · intro hcrossed
        simp [Chain.step, hnot] at hcrossed

/-- The headers after a redirect to another origin are clean. -/
theorem clean_applyPolicyMutation {chain : Chain} {mutation : PolicyMutation}
    (h : Confined chain) (hcross : mutation.headerPolicy = .crossOrigin) :
    Clean chain.applied (chain.request.applyPolicyMutation mutation).headers := by
  intro header hmem
  cases hauth : chain.request.auth with
  | some auth =>
      simp only [RequestState.applyPolicyMutation, removeManagedHeader_auth, hauth, hcross,
        RequestAuthState.onRedirect, List.mem_filter, Bool.not_eq_true',
        List.contains_eq_mem, decide_eq_false_iff_not] at hmem
      refine ⟨redirectHeaders_crossOrigin hmem.1, fun hname => hmem.2 ?_⟩
      exact h.remembered auth hauth _ hname
  | none =>
      simp only [RequestState.applyPolicyMutation, removeManagedHeader_auth, hauth,
        hcross] at hmem
      refine ⟨redirectHeaders_crossOrigin hmem, ?_⟩
      cases hcrossed : chain.crossed with
      | false => simp [h.unauthenticated hauth hcrossed]
      | true => exact (h.clean hcrossed header (mem_of_mem_redirectHeaders hmem)).2

/-- The headers after a redirect of a chain that has crossed stay clean. -/
theorem Clean.applyPolicyMutation {applied : List Text} {state : RequestState}
    (mutation : PolicyMutation) (hauth : state.auth = none)
    (h : Clean applied state.removeManagedHeader.headers) :
    Clean applied (state.applyPolicyMutation mutation).headers := by
  simp only [RequestState.applyPolicyMutation, removeManagedHeader_auth, hauth]
  exact h.mono fun _ => mem_of_mem_redirectHeaders

/-- The step of an applied redirect.  The header policy of the mutation says
whether the redirect leaves the origin. -/
theorem confined_applyPolicyMutation {chain : Chain} {mutation : PolicyMutation}
    (h : Confined chain)
    (hpolicy : mutation.headerPolicy =
      if chain.request.url.isSameOrigin mutation.url then .sameOrigin else .crossOrigin) :
    Confined
      { request := chain.request.applyPolicyMutation mutation
        crossed := chain.crossed || !chain.request.url.isSameOrigin mutation.url
        applied := chain.applied } := by
  cases hsame : chain.request.url.isSameOrigin mutation.url with
  | false =>
      have hcross : mutation.headerPolicy = .crossOrigin := by rw [hpolicy, hsame]; rfl
      have hnone : (chain.request.applyPolicyMutation mutation).auth = none := by
        simp [RequestState.applyPolicyMutation, hcross]
      refine ⟨?_, by simp, fun _ => hnone, fun _ => ?_⟩
      · intro auth hsome
        simp [hnone] at hsome
      · exact (clean_applyPolicyMutation h hcross).mono fun _ => mem_of_mem_removeManagedHeader
  | true =>
      have hkeep : mutation.headerPolicy = .sameOrigin := by rw [hpolicy, hsame]; rfl
      cases hauth : chain.request.auth with
      | some auth =>
          have hnext : (chain.request.applyPolicyMutation mutation).auth =
              some (auth.onRedirect mutation.body .sameOrigin).1 := by
            simp [RequestState.applyPolicyMutation, hauth, hkeep]
          have hnot : chain.crossed = false := by
            by_contra hcrossed
            simp [h.forgotten (by simpa using hcrossed)] at hauth
          refine ⟨?_, ?_, ?_, ?_⟩
          · intro auth' hauth' name hname
            simp only [hnext, Option.some.injEq] at hauth'
            subst hauth'
            exact h.remembered auth hauth name hname
          · simp [hnext]
          · simp [hnot]
          · simp [hnot]
      | none =>
          have hnone : (chain.request.applyPolicyMutation mutation).auth = none := by
            simp [RequestState.applyPolicyMutation, hauth, hkeep]
          refine ⟨?_, ?_, fun _ => hnone, ?_⟩
          · intro auth hsome
            simp [hnone] at hsome
          · intro _ hcrossed
            exact h.unauthenticated hauth (by simpa using hcrossed)
          · intro hcrossed
            have hclean := h.clean (by simpa using hcrossed)
            exact (hclean.applyPolicyMutation mutation hauth).mono
              fun _ => mem_of_mem_removeManagedHeader

/-- Every event keeps the chain confined. -/
theorem confined_step {crate : UrlCrate} {chain : Chain} (event : ChainEvent)
    (h : Confined chain) : Confined (chain.step crate event) := by
  cases event with
  | transportRoute env redirectHop => exact confined_transportRoute env redirectHop h
  | retry => exact confined_retry h
  | response response completedRedirects =>
      rw [Chain.step]
      split
      · rename_i mutation hmutation
        simp only [RequestState.responseMutation, Option.map_eq_some_iff] at hmutation
        obtain ⟨action, haction, hafter⟩ := hmutation
        obtain ⟨followed, hfollow, rfl⟩ := PolicyPipeline.afterResponseBody_eq_ok hafter
        have hdecision := PolicyPipeline.onResponseHeaders_eq_some haction
        rw [hfollow] at hdecision
        exact confined_applyPolicyMutation h (redirectDecision_follow hdecision)
      · exact h

/-- Every chain of a freshly built request is confined. -/
theorem confined_run (crate : UrlCrate) (request : RequestState) (events : List ChainEvent) :
    Confined (Chain.run crate (.start request) events) := by
  suffices hrun : ∀ chain, Confined chain → Confined (chain.run crate events) from
    hrun _ (confined_start request)
  induction events with
  | nil => exact fun _ h => h
  | cons event events ih => exact fun chain h => ih _ (confined_step event h)

/-! ## The result -/

/-- Once a redirect to another origin was applied, no prepared hop carries an
authorization, origin or referer header, a header other than `Cookie` that the
auth provider ever applied, or a `Cookie` header that is not the jar's answer
for the URL of the hop.  The request may start in any state. -/
theorem transportRoute_credentials_confined (crate : UrlCrate) (request : RequestState)
    (events : List ChainEvent) (env : HopEnv) (redirectHop : Nat)
    (hcrossed : (Chain.run crate (.start request) events).crossed = true) :
    ∀ header ∈
        ((Chain.run crate (.start request) events).request.transportRoute env redirectHop).2.headers,
      toAsciiLowercase header.1 ∉
          ([("authorization" : Text), ("origin" : Text), ("referer" : Text)] : List Text) ∧
        (toAsciiLowercase header.1 ≠ ("cookie" : Text) →
          toAsciiLowercase header.1 ∉ (Chain.run crate (.start request) events).applied) ∧
        (toAsciiLowercase header.1 = ("cookie" : Text) →
          env.requestHeader (Chain.run crate (.start request) events).request.url =
            some header.2) := by
  have hconfined := confined_run crate request events
  set chain := Chain.run crate (.start request) events
  have hclean := hconfined.clean hcrossed
  have hauth := hconfined.forgotten hcrossed
  intro header hmem
  -- A hop after the crossing has clean headers and at most the jar's cookie.
  have hcases : header ∈ chain.request.removeManagedHeader.headers ∨
      header.1 = ("Cookie" : Text) ∧
        env.requestHeader chain.request.url = some header.2 := by
    rcases transportRoute_of_auth_none env redirectHop hauth with heq | heq
    · rw [heq] at hmem
      exact Or.inl hmem
    · rw [heq] at hmem
      simpa using hclean.mem_attachCookies hmem
  rcases hcases with hkept | ⟨hname, hvalue⟩
  · obtain ⟨hbound, happlied⟩ := hclean header hkept
    simp only [crossOriginHeaders, List.mem_cons, List.not_mem_nil, or_false, not_or] at hbound
    refine ⟨?_, fun _ => happlied, fun hcookie => absurd hcookie hbound.2.1⟩
    simp only [List.mem_cons, List.not_mem_nil, or_false, not_or]
    exact ⟨hbound.1, hbound.2.2.1, hbound.2.2.2⟩
  · have hlower : toAsciiLowercase header.1 = ("cookie" : Text) := by
      rw [hname, cookieWireName_lower]
    rw [hlower]
    exact ⟨by decide, fun hne => absurd rfl hne, fun _ => hvalue⟩

/-! A request to `https://a.test/` whose provider sets `X-Api-Key`, redirected to
`https://b.test/`. -/

/-- `https://a.test/` or `https://b.test/`, by the host. -/
def exampleUrl (host : Text) : HttpUrl where
  inner := ⟨"https", [], none, some host, none, "/", none, none⟩
  supported := rfl
  hasHost := rfl

def exampleCrate : UrlCrate where
  parse text :=
    if text = ("https://b.test/" : Text) then .ok (exampleUrl "b.test").inner
    else .error "relative URL without a base"
  join _ location :=
    if location = ("https://b.test/" : Text) then .ok (exampleUrl "b.test").inner
    else .error "relative URL without a base"

def exampleRequest : RequestState where
  method := "GET"
  url := exampleUrl "a.test"
  headers := [("Authorization", "secret"), ("Accept", "text/html")]
  body := .empty
  bodyPolicy := .empty
  policy := ⟨.direct, some ⟨20⟩, none⟩
  cookies := some RequestCookieState.new
  auth := some (RequestAuthState.new [("Authorization", "secret"), ("Accept", "text/html")]
    none [])
  retryAttempt := 1
  completedRetries := 0

def exampleEnv : HopEnv where
  headerUpdates _ _ _ _ := .ok [("X-Api-Key", "key")]
  requestHeader url := if url.host = ("b.test" : Text) then some "b=1" else some "a=1"
  beforeSendHook _ _ := .ok ()

def exampleEvents : List ChainEvent :=
  [.transportRoute exampleEnv 0,
    .response ⟨302, [("location", "https://b.test/")]⟩ 0,
    .transportRoute exampleEnv 1, .retry]

/-- The second hop of the example sends `Accept` and the jar's cookie of
`b.test`. -/
theorem transportRoute_credentials_confined_example :
    (Chain.run exampleCrate (.start exampleRequest) exampleEvents).crossed = true ∧
      (Chain.run exampleCrate (.start exampleRequest) exampleEvents).applied =
        [("x-api-key" : Text)] ∧
      ∀ header ∈ ((Chain.run exampleCrate (.start exampleRequest)
          exampleEvents).request.transportRoute exampleEnv 1).2.headers,
        toAsciiLowercase header.1 ∉
            ([("authorization" : Text), ("origin" : Text), ("referer" : Text)] : List Text) ∧
          (toAsciiLowercase header.1 ≠ ("cookie" : Text) →
            toAsciiLowercase header.1 ∉
              (Chain.run exampleCrate (.start exampleRequest) exampleEvents).applied) ∧
          (toAsciiLowercase header.1 = ("cookie" : Text) →
            exampleEnv.requestHeader
                (Chain.run exampleCrate (.start exampleRequest) exampleEvents).request.url =
              some header.2) :=
  ⟨by decide, by decide,
    transportRoute_credentials_confined exampleCrate exampleRequest exampleEvents exampleEnv 1
      (by decide)⟩

end FogHttp.Confinement
