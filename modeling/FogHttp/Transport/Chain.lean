import FogHttp.Transport.Request

/-!
# Chains of hops

A chain is one request over any number of hops: calls of `transportRoute`,
retries, and responses that may apply a redirect.  The events come in any order
and any number, and each one brings its own answers of the auth provider, the
cookie jar and the hooks.  The order of the attempt loop, one prepared hop and
then one reaction to its outcome, is one of the orders.

Two ghost components follow the chain.  `crossed` is set by the first applied
redirect to another origin and stays set, also when the chain returns to where
it started.  `applied` collects the lower-case names of all headers that the
auth provider has applied.

The policy pipeline is fixed when the request is built, and `run_policy` says
that no event changes it.
-/

namespace FogHttp

open Lib

structure Chain where
  request : RequestState
  crossed : Bool
  applied : List Text

inductive ChainEvent where
  | transportRoute (env : HopEnv) (redirectHop : Nat)
  | retry
  | response (response : ResponseHead) (completedRedirects : Nat)

/-- The lower-case names of the headers that the provider applies on this
hop. -/
def RequestState.appliedOnHop (state : RequestState) (env : HopEnv) (redirectHop : Nat) :
    List Text :=
  let state := state.removeManagedHeader
  match state.policy.beforeSend state.policyRequest with
  | .error _ => []
  | .ok _ =>
      match state.auth with
      | none => []
      | some auth =>
          let headers := auth.startHeaders state.headers
          match env.headerUpdates state.method state.url.asStr headers redirectHop with
          | .error _ => []
          | .ok updates => headerNames (auth.appliedUpdates (headerNames headers) updates)

/-- One event of the chain.  A response without a redirect, or with one that
the policy rejects, leaves the request as it is. -/
def Chain.step (crate : UrlCrate) (chain : Chain) : ChainEvent → Chain
  | .transportRoute env redirectHop =>
      { request := (chain.request.transportRoute env redirectHop).2
        crossed := chain.crossed
        applied := chain.applied ++ chain.request.appliedOnHop env redirectHop }
  | .retry => { chain with request := chain.request.advanceRetryAttempt }
  | .response response completedRedirects =>
      match chain.request.responseMutation crate response completedRedirects with
      | some (.ok mutation) =>
          { request := chain.request.applyPolicyMutation mutation
            crossed := chain.crossed || !chain.request.url.isSameOrigin mutation.url
            applied := chain.applied }
      | _ => chain

/-- The chain after a list of events. -/
def Chain.run (crate : UrlCrate) (chain : Chain) (events : List ChainEvent) : Chain :=
  events.foldl (Chain.step crate) chain

/-- The chain of a request that was just built. -/
def Chain.start (request : RequestState) : Chain := ⟨request, false, []⟩

/-! ## The pipeline of a chain -/

namespace RequestState

/-- The two states differ in headers, cookies and auth at most. -/
def SameRequest (state next : RequestState) : Prop :=
  ∃ headers cookies auth, next = { state with headers, cookies, auth }

theorem SameRequest.trans {state middle next : RequestState} (h : SameRequest state middle)
    (hnext : SameRequest middle next) : SameRequest state next := by
  obtain ⟨_, _, _, rfl⟩ := h
  obtain ⟨headers, cookies, auth, rfl⟩ := hnext
  exact ⟨headers, cookies, auth, rfl⟩

theorem removeManagedHeader_same (state : RequestState) :
    SameRequest state state.removeManagedHeader := by
  rw [removeManagedHeader]
  split
  · exact ⟨_, _, _, rfl⟩
  · exact ⟨_, _, _, rfl⟩

theorem attachCookies_same (state : RequestState) (env : HopEnv) :
    SameRequest state (state.attachCookies env) := by
  rw [attachCookies]
  split
  · exact ⟨_, _, _, rfl⟩
  · exact ⟨_, _, _, rfl⟩

theorem applyAuth_same (state : RequestState) (env : HopEnv) (redirectHop : Nat) :
    SameRequest state (state.applyAuth env redirectHop).2 := by
  rw [applyAuth]
  split
  · exact ⟨_, _, _, rfl⟩
  · exact ⟨_, _, _, rfl⟩

/-- Preparing a hop changes headers, cookies and auth only. -/
theorem transportRoute_same (state : RequestState) (env : HopEnv) (redirectHop : Nat) :
    SameRequest state (state.transportRoute env redirectHop).2 := by
  have hremoved := state.removeManagedHeader_same
  rw [transportRoute]
  dsimp only
  split
  · exact hremoved
  · have hauth := hremoved.trans (applyAuth_same state.removeManagedHeader env redirectHop)
    split
    · rename_i heq
      rwa [heq] at hauth
    · rename_i heq
      rw [heq] at hauth
      split
      · exact hauth.trans (attachCookies_same _ env)
      · exact hauth.trans (attachCookies_same _ env)

theorem SameRequest.policy_eq {state next : RequestState} (h : SameRequest state next) :
    next.policy = state.policy := by
  obtain ⟨_, _, _, rfl⟩ := h
  rfl

theorem SameRequest.completedRetries_eq {state next : RequestState}
    (h : SameRequest state next) : next.completedRetries = state.completedRetries := by
  obtain ⟨_, _, _, rfl⟩ := h
  rfl

theorem SameRequest.retryAttempt_eq {state next : RequestState} (h : SameRequest state next) :
    next.retryAttempt = state.retryAttempt := by
  obtain ⟨_, _, _, rfl⟩ := h
  rfl

end RequestState

/-- No event changes the pipeline. -/
theorem Chain.step_policy (crate : UrlCrate) (chain : Chain) (event : ChainEvent) :
    (Chain.step crate chain event).request.policy = chain.request.policy := by
  cases event with
  | transportRoute env redirectHop =>
      exact (chain.request.transportRoute_same env redirectHop).policy_eq
  | retry => rfl
  | response response completedRedirects =>
      rw [Chain.step]
      split
      · exact chain.request.removeManagedHeader_same.policy_eq
      · rfl

/-- Every chain keeps the pipeline of its request. -/
theorem Chain.run_policy (crate : UrlCrate) (chain : Chain) (events : List ChainEvent) :
    (Chain.run crate chain events).request.policy = chain.request.policy := by
  induction events generalizing chain with
  | nil => rfl
  | cons event events ih => exact (ih _).trans (Chain.step_policy crate chain event)

end FogHttp
