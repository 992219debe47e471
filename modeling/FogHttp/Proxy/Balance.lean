import Mathlib.Algebra.BigOperators.Group.List.Basic
import Mathlib.Algebra.Order.BigOperators.Group.List
import Mathlib.Algebra.Order.Group.Int
import Mathlib.Data.Fintype.Basic
import FogHttp.Proxy.Endpoint

/-!
# The counters of an endpoint balance

The counters are sums over the calls.  A place has a fixed list of updates
behind it, those `before` the last wait and the `leg` since then, and a call on
its way has a rest of the leg to do.  `Accounts` says that every counter is the
sum of what the calls have done to it so far, and `Accounts.step` that every step
keeps it.  A subtraction finds what the call itself has added, so it never
saturates.

What holds of one call then holds of the sums.  `Fair` lists these facts, and
`fair_of_suffix` checks them at every point of every leg.

`endpoint_counters_balance` holds between the updates of a record too.  There the
connection gauge may lag behind the counters of opened and closed connections, by
one for each call that stands between the two updates.  In a state in which no
call is inside of a record the numbers are those of the places.
-/

namespace FogHttp.Proxy

open Lib

instance : Fintype Counter :=
  Fintype.ofList
    [.connectionAttempts, .connectionsOpened, .connectionsOpenFailed, .connectionsClosed,
      .activeConnections, .tunnelAttempts, .tunnelsEstablished, .tunnelFailures,
      .tunnelAuthFailures, .tunnelTimeouts, .tunnelEarlyCloses, .activeTunnels]
    (by intro counter; cases counter <;> decide)

/-! ## What a call has done -/

/-- The updates that brought a call to its last wait before this place. -/
def Place.before : Place → List Update
  | .created _ | .connecting _ | .ended .unpolled => []
  | .establishing | .held ⟨false⟩ | .ended .unconnected => connectionAttempt
  | .held ⟨true⟩ | .ended (.rejected _) | .ended .timedOut | .ended .cancelled =>
      connectionAttempt ++ (connectionOpened ++ tunnelAttempt)
  | .ended (.closed ⟨false⟩) => connectionAttempt ++ connectionOpened
  | .ended (.closed ⟨true⟩) =>
      connectionAttempt ++ (connectionOpened ++ tunnelAttempt) ++ tunnelEstablished

/-- The updates from there to this place. -/
def Place.leg : Place → List Update
  | .created _ | .ended .unpolled => []
  | .connecting _ => connectionAttempt
  | .establishing => connectionOpened ++ tunnelAttempt
  | .held ⟨true⟩ => tunnelEstablished
  | .held ⟨false⟩ => connectionOpened
  | .ended .unconnected => connectionOpenFailed
  | .ended (.rejected kind) => tunnelFailed kind ++ connectionClosed false
  | .ended .timedOut => connectionClosed false ++ tunnelFailed .timeout
  | .ended .cancelled => connectionClosed false ++ tunnelFailed .other
  | .ended (.closed lease) => connectionClosed lease.tunnelActive

/-- The updates that a call has made. -/
def Call.done (call : Call) : List Update :=
  call.place.before ++ call.place.leg.take (call.place.leg.length - call.todo.length)

/-- What some updates amount to in a counter. -/
def net (counter : Counter) (updates : List Update) : Int :=
  updates.count (.add counter) - updates.count (.sub counter)

theorem net_append (counter : Counter) (front back : List Update) :
    net counter (front ++ back) = net counter front + net counter back := by
  simp only [net, List.count_append]
  omega

/-- A wait that ends leads to a place one leg further on. -/
theorem next_leg {place : Place} {wakeup : Wakeup} {call : Call}
    (h : Call.next place wakeup = some call) :
    call.todo = call.place.leg ∧ call.place.before = place.before ++ place.leg := by
  unfold Call.next at h
  split at h <;> simp only [Option.some.injEq, reduceCtorEq] at h <;> subst h
  case h_9 error =>
    refine ⟨?_, rfl⟩
    show tunnelFailed error.kind ++ [] ++ connectionClosed false = _
    rw [List.append_nil]
    rfl
  case h_12 lease =>
    obtain ⟨tunnelActive⟩ := lease
    cases tunnelActive <;> exact ⟨rfl, rfl⟩
  all_goals exact ⟨rfl, rfl⟩

/-! ## Facts about one call -/

/-- The connection attempt is counted, and its outcome is not. -/
def Call.attemptInFlight (call : Call) : Bool :=
  (call.todo == [] && (call.place == .connecting .http || call.place == .connecting .https)) ||
    call.todo.contains (.add .connectionsOpened) || call.todo.contains (.add .connectionsOpenFailed)

/-- The call stands between the two updates of `connection_opened`, or between the
last two of `connection_closed`. -/
def Call.gaugeLags (call : Call) : Bool :=
  (call.todo.contains (.add .activeConnections) && !call.todo.contains (.add .connectionsOpened)) ||
    (call.todo.contains (.add .connectionsClosed) &&
      !call.todo.contains (.sub .activeConnections))

/-- The tunnel attempt is counted, and its outcome is not. -/
def Call.tunnelInFlight (call : Call) : Bool :=
  (call.todo == [] && call.place == .establishing) ||
    call.todo.contains (.add .tunnelsEstablished) || call.todo.contains (.add .tunnelFailures)

/-- The tunnel is established and its connection held, as far as this is recorded. -/
def Call.tunnelActive (call : Call) : Bool :=
  (call.place == .held ⟨true⟩ && call.todo == []) || call.todo.contains (.sub .activeTunnels)

/-- How the tunnel of a call failed. -/
def Place.failure : Place → Option ProxyTunnelFailureKind
  | .ended (.rejected kind) => some kind
  | .ended .timedOut => some .timeout
  | .ended .cancelled => some .other
  | _ => none

/-- One for a call with a property. -/
def one (p : Bool) : Int := if p then 1 else 0

/-- What one call has done to the counters, wherever it stands in a record. -/
def Fair (call : Call) : Prop :=
  (∀ counter, 0 ≤ net counter call.done) ∧
  (∀ counter, call.todo.head? = some (.sub counter) → 0 < net counter call.done) ∧
  net .connectionAttempts call.done = net .connectionsOpened call.done +
    net .connectionsOpenFailed call.done + one call.attemptInFlight ∧
  net .connectionsOpened call.done = net .activeConnections call.done +
    net .connectionsClosed call.done + one call.gaugeLags ∧
  net .tunnelAttempts call.done = net .tunnelsEstablished call.done +
    net .tunnelFailures call.done + one call.tunnelInFlight ∧
  net .activeTunnels call.done = one call.tunnelActive ∧
  net .activeTunnels call.done ≤ net .activeConnections call.done ∧
  net .tunnelAuthFailures call.done + net .tunnelTimeouts call.done +
    net .tunnelEarlyCloses call.done ≤ net .tunnelFailures call.done ∧
  (call.todo = [] →
    net .tunnelFailures call.done = one call.place.failure.isSome ∧
    net .tunnelAuthFailures call.done = one (call.place.failure == some .authentication) ∧
    net .tunnelTimeouts call.done = one (call.place.failure == some .timeout) ∧
    net .tunnelEarlyCloses call.done = one (call.place.failure == some .earlyClose))

instance (call : Call) : Decidable (Fair call) := by
  unfold Fair
  infer_instance

/-- The facts hold at every point of every leg. -/
theorem fair_of_suffix {call : Call} (h : call.todo <:+ call.place.leg) : Fair call := by
  have hsplit : ∀ place : Place, place.leg.length ≤ 5 ∧
      ∀ n, n ≤ 5 → Fair ⟨place, place.leg.drop n⟩ := by
    intro place
    rcases place with (_ | _) | (_ | _) | _ | ⟨_ | _⟩ |
      (_ | _ | (_ | _ | _ | _) | _ | _ | ⟨_ | _⟩) <;> decide +kernel
  obtain ⟨place, todo⟩ := call
  rw [List.suffix_iff_eq_drop] at h
  obtain ⟨hlength, hfair⟩ := hsplit place
  have hpoint := hfair (place.leg.length - todo.length) (by omega)
  rw [← h] at hpoint
  exact hpoint

/-! ## Sums over the calls -/

theorem sum_map_set {calls : List Call} {i : Nat} {old : Call} (f : Call → Int) (new : Call)
    (h : calls[i]? = some old) :
    ((calls.set i new).map f).sum = (calls.map f).sum - f old + f new := by
  obtain ⟨hi, rfl⟩ := List.getElem?_eq_some_iff.mp h
  rw [List.map_set, List.sum_set', dif_pos (by rw [List.length_map]; exact hi), List.getElem_map]
  omega

theorem countP_eq_sum (p : Call → Bool) (calls : List Call) :
    ((calls.countP p : Nat) : Int) = (calls.map fun call => one (p call)).sum := by
  induction calls with
  | nil => rfl
  | cons call calls ih =>
      rw [List.countP_cons, List.map_cons, List.sum_cons, ← ih, one]
      split <;> omega

/-- A fact about every call is a fact about the sums. -/
theorem sum_map_eq {f g : Call → Int} {calls : List Call}
    (h : ∀ call ∈ calls, f call = g call) : (calls.map f).sum = (calls.map g).sum :=
  congrArg List.sum (List.map_congr_left h)

theorem sum_map_le {f g : Call → Int} {calls : List Call}
    (h : ∀ call ∈ calls, f call ≤ g call) : (calls.map f).sum ≤ (calls.map g).sum :=
  List.sum_le_sum h

/-! ## The invariant -/

/-- Every call stands in the leg to its place, and the counters are what the calls
have made of them. -/
structure Accounts (endpoint : Endpoint) : Prop where
  legs : ∀ call ∈ endpoint.calls, call.todo <:+ call.place.leg
  counted : ∀ counter, (endpoint.metrics counter : Int) =
    (endpoint.calls.map fun call => net counter call.done).sum

/-- An update moves from what is to come to what is done. -/
theorem done_update {place : Place} {update : Update} {todo : List Update}
    (h : update :: todo <:+ place.leg) :
    Call.done ⟨place, todo⟩ = Call.done ⟨place, update :: todo⟩ ++ [update] := by
  obtain ⟨front, hleg⟩ := h
  have hsplit : place.leg = (front ++ [update]) ++ todo := by
    rw [← hleg, List.append_assoc]
    rfl
  have hnow : place.leg.take (place.leg.length - (update :: todo).length) = front := by
    rw [← hleg, List.length_append, Nat.add_sub_cancel, List.take_left]
  have hnext : place.leg.take (place.leg.length - todo.length) = front ++ [update] := by
    rw [hsplit, List.length_append, Nat.add_sub_cancel, List.take_left]
  rw [Call.done, Call.done]
  simp only [hnow, hnext, List.append_assoc]

/-- A call that starts a new leg has done what it had done. -/
theorem done_next {place : Place} {wakeup : Wakeup} {call : Call}
    (h : Call.next place wakeup = some call) : call.done = Call.done ⟨place, []⟩ := by
  obtain ⟨htodo, hbefore⟩ := next_leg h
  rw [Call.done, Call.done, htodo, hbefore]
  simp

/-- A counter that a call is about to decrement is positive. -/
theorem Accounts.pos_of_sub {endpoint : Endpoint} (h : Accounts endpoint) {call : Call}
    {counter : Counter} (hcall : call ∈ endpoint.calls)
    (hhead : call.todo.head? = some (.sub counter)) : 0 < endpoint.metrics counter := by
  have hfair := fair_of_suffix (h.legs call hcall)
  have hpositive := hfair.2.1 counter hhead
  have hbelow : net counter call.done ≤
      (endpoint.calls.map fun call => net counter call.done).sum := by
    apply List.single_le_sum
    · intro share hshare
      obtain ⟨other, hother, rfl⟩ := List.mem_map.mp hshare
      exact (fair_of_suffix (h.legs other hother)).1 counter
    · exact List.mem_map_of_mem hcall
  have hcounted := h.counted counter
  omega

theorem apply_counter (metrics : ProxyEndpointMetrics) (update : Update) (counter : Counter)
    (h : ∀ other, update = .sub other → 0 < metrics other) :
    (update.apply metrics counter : Int) = metrics counter + net counter [update] := by
  cases update with
  | add other =>
      by_cases hsame : counter = other
      · subst hsame
        simp [Update.apply, net]
      · simp [Update.apply, net, hsame, Ne.symm hsame]
  | sub other =>
      have hpositive := h other rfl
      by_cases hsame : counter = other
      · subst hsame
        simp [Update.apply, net]
        omega
      · simp [Update.apply, net, hsame, Ne.symm hsame]

/-- Every step keeps the accounts. -/
theorem Accounts.step {endpoint next : Endpoint} {event : Event} (h : Accounts endpoint)
    (hstep : endpoint.step event = some next) : Accounts next := by
  cases event with
  | call scheme =>
      simp only [Endpoint.step, Option.some.injEq] at hstep
      subst hstep
      constructor
      · intro call hcall
        rcases List.mem_append.mp hcall with hold | hnew
        · exact h.legs call hold
        · rw [List.mem_singleton.mp hnew]
          exact List.nil_suffix
      · intro counter
        have hcreated : net counter (Call.done ⟨.created scheme, []⟩) = 0 := rfl
        rw [List.map_append, List.sum_append, ← h.counted counter, List.map_singleton,
          List.sum_singleton, hcreated, Int.add_zero]
  | update i =>
      simp only [Endpoint.step] at hstep
      split at hstep
      case h_2 => simp at hstep
      case h_1 place update todo hcall =>
        rw [Option.some.injEq] at hstep
        subst hstep
        have hmem : (⟨place, update :: todo⟩ : Call) ∈ endpoint.calls :=
          List.mem_of_getElem? hcall
        have hleg : update :: todo <:+ place.leg := h.legs _ hmem
        constructor
        · apply forall_mem_set h.legs
          exact (List.suffix_cons update todo).trans hleg
        · intro counter
          have happly := apply_counter endpoint.metrics update counter fun other hsub =>
            h.pos_of_sub hmem (by rw [hsub]; rfl)
          rw [happly, h.counted counter, sum_map_set _ _ hcall, done_update hleg, net_append]
          omega
  | wake i wakeup =>
      simp only [Endpoint.step] at hstep
      split at hstep
      case h_2 => simp at hstep
      case h_1 place hcall =>
        obtain ⟨call, hnext, rfl⟩ := Option.map_eq_some_iff.mp hstep
        constructor
        · apply forall_mem_set h.legs
          exact (next_leg hnext).1 ▸ List.suffix_refl call.place.leg
        · intro counter
          rw [h.counted counter, sum_map_set _ _ hcall, done_next hnext, Int.sub_add_cancel]

theorem accounts_of_reachable {endpoint : Endpoint} (h : endpointSystem.Reachable endpoint) :
    Accounts endpoint := by
  apply TransitionSystem.Reachable.invariant Accounts _ _ h
  · exact ⟨fun call hcall => by simp [endpointSystem] at hcall, fun counter => rfl⟩
  · intro state next event _ hinv hstep
    exact hinv.step hstep

/-! ## The balance -/

/-- No call is inside of a record. -/
def Endpoint.Quiet (endpoint : Endpoint) : Prop := ∀ call ∈ endpoint.calls, call.todo = []

/-- A call that waits for its connection. -/
def Place.isConnecting : Place → Bool
  | .connecting _ => true
  | _ => false

/-- In a quiet state the books about a call are those of its place. -/
theorem flags_of_quiet {call : Call} (h : call.todo = []) :
    call.attemptInFlight = call.place.isConnecting ∧ call.gaugeLags = false ∧
      call.tunnelInFlight = (call.place == .establishing) ∧
      call.tunnelActive = (call.place == .held ⟨true⟩) := by
  obtain ⟨place, todo⟩ := call
  simp only at h
  subst h
  rcases place with (_ | _) | (_ | _) | _ | ⟨_ | _⟩ |
    (_ | _ | (_ | _ | _ | _) | _ | _ | ⟨_ | _⟩) <;> decide

namespace Accounts

variable {endpoint : Endpoint} (h : Accounts endpoint)

include h

theorem fair {call : Call} (hcall : call ∈ endpoint.calls) : Fair call :=
  fair_of_suffix (h.legs call hcall)

/-- A counter is the number of calls with a property, when it is so for each call. -/
theorem counter_eq_countP {counter : Counter} {p : Call → Bool}
    (hone : ∀ call ∈ endpoint.calls, net counter call.done = one (p call)) :
    endpoint.metrics counter = endpoint.calls.countP p := by
  have hsum := sum_map_eq hone
  rw [← h.counted counter, ← countP_eq_sum] at hsum
  exact_mod_cast hsum

/-- A counter that is the sum of two others for each call, but for the calls with a
property, is so as a whole. -/
theorem counter_eq_add {total left right : Counter} {p : Call → Bool}
    (heach : ∀ call ∈ endpoint.calls, net total call.done =
      net left call.done + net right call.done + one (p call)) :
    endpoint.metrics total =
      endpoint.metrics left + endpoint.metrics right + endpoint.calls.countP p := by
  have hsum := sum_map_eq heach
  rw [List.sum_map_add, List.sum_map_add, ← h.counted total, ← h.counted left,
    ← h.counted right, ← countP_eq_sum] at hsum
  exact_mod_cast hsum

theorem activeTunnels_le :
    endpoint.metrics .activeTunnels ≤ endpoint.metrics .activeConnections := by
  have hsum := sum_map_le fun call hcall => (h.fair hcall).2.2.2.2.2.2.1
  rw [← h.counted .activeTunnels, ← h.counted .activeConnections] at hsum
  exact_mod_cast hsum

theorem failureKinds_le :
    endpoint.metrics .tunnelAuthFailures + endpoint.metrics .tunnelTimeouts +
      endpoint.metrics .tunnelEarlyCloses ≤ endpoint.metrics .tunnelFailures := by
  have hsum := sum_map_le fun call hcall => (h.fair hcall).2.2.2.2.2.2.2.1
  rw [List.sum_map_add, List.sum_map_add, ← h.counted .tunnelAuthFailures,
    ← h.counted .tunnelTimeouts, ← h.counted .tunnelEarlyCloses,
    ← h.counted .tunnelFailures] at hsum
  exact_mod_cast hsum

end Accounts

/-- The balance in any state, also between the updates of a record. -/
structure Balanced (endpoint : Endpoint) : Prop where
  attempts : endpoint.metrics .connectionAttempts =
    endpoint.metrics .connectionsOpened + endpoint.metrics .connectionsOpenFailed +
      endpoint.calls.countP Call.attemptInFlight
  opened : endpoint.metrics .connectionsOpened =
    endpoint.metrics .activeConnections + endpoint.metrics .connectionsClosed +
      endpoint.calls.countP Call.gaugeLags
  tunnelAttempts : endpoint.metrics .tunnelAttempts =
    endpoint.metrics .tunnelsEstablished + endpoint.metrics .tunnelFailures +
      endpoint.calls.countP Call.tunnelInFlight
  activeTunnels : endpoint.metrics .activeTunnels = endpoint.calls.countP Call.tunnelActive
  tunnelsBelowConnections :
    endpoint.metrics .activeTunnels ≤ endpoint.metrics .activeConnections
  failureKinds : endpoint.metrics .tunnelAuthFailures + endpoint.metrics .tunnelTimeouts +
    endpoint.metrics .tunnelEarlyCloses ≤ endpoint.metrics .tunnelFailures

/-- The balance in a state in which no call is inside of a record. -/
structure QuietlyBalanced (endpoint : Endpoint) : Prop where
  attempts : endpoint.metrics .connectionAttempts =
    endpoint.metrics .connectionsOpened + endpoint.metrics .connectionsOpenFailed +
      endpoint.calls.countP fun call => call.place.isConnecting
  active : endpoint.metrics .activeConnections =
    endpoint.metrics .connectionsOpened - endpoint.metrics .connectionsClosed
  tunnelAttempts : endpoint.metrics .tunnelAttempts =
    endpoint.metrics .tunnelsEstablished + endpoint.metrics .tunnelFailures +
      endpoint.calls.countP fun call => call.place == .establishing
  activeTunnels : endpoint.metrics .activeTunnels =
    endpoint.calls.countP fun call => call.place == .held ⟨true⟩
  failures : endpoint.metrics .tunnelFailures =
    endpoint.calls.countP fun call => call.place.failure.isSome
  authFailures : endpoint.metrics .tunnelAuthFailures =
    endpoint.calls.countP fun call => call.place.failure == some .authentication
  timeouts : endpoint.metrics .tunnelTimeouts =
    endpoint.calls.countP fun call => call.place.failure == some .timeout
  earlyCloses : endpoint.metrics .tunnelEarlyCloses =
    endpoint.calls.countP fun call => call.place.failure == some .earlyClose

theorem Accounts.balanced {endpoint : Endpoint} (h : Accounts endpoint) : Balanced endpoint where
  attempts := h.counter_eq_add fun _ hcall => (h.fair hcall).2.2.1
  opened := h.counter_eq_add fun _ hcall => (h.fair hcall).2.2.2.1
  tunnelAttempts := h.counter_eq_add fun _ hcall => (h.fair hcall).2.2.2.2.1
  activeTunnels := h.counter_eq_countP fun _ hcall => (h.fair hcall).2.2.2.2.2.1
  tunnelsBelowConnections := h.activeTunnels_le
  failureKinds := h.failureKinds_le

theorem Accounts.quietlyBalanced {endpoint : Endpoint} (h : Accounts endpoint)
    (hquiet : endpoint.Quiet) : QuietlyBalanced endpoint := by
  have hbalanced := h.balanced
  have hflags := fun (call : Call) hcall => flags_of_quiet (hquiet call hcall)
  have hkinds := fun (call : Call) hcall =>
    (h.fair hcall).2.2.2.2.2.2.2.2 (hquiet call hcall)
  have hcount : ∀ {p q : Call → Bool}, (∀ call ∈ endpoint.calls, p call = q call) →
      endpoint.calls.countP p = endpoint.calls.countP q := by
    intro p q hpq
    exact List.countP_congr fun call hcall => by rw [hpq call hcall]
  have hlags : endpoint.calls.countP Call.gaugeLags = 0 :=
    List.countP_eq_zero.mpr fun call hcall => by simp [(hflags call hcall).2.1]
  have hopened := hbalanced.opened
  rw [hlags] at hopened
  exact {
    attempts := hcount (fun call hcall => (hflags call hcall).1) ▸ hbalanced.attempts
    active := by omega
    tunnelAttempts :=
      hcount (fun call hcall => (hflags call hcall).2.2.1) ▸ hbalanced.tunnelAttempts
    activeTunnels :=
      hcount (fun call hcall => (hflags call hcall).2.2.2) ▸ hbalanced.activeTunnels
    failures := h.counter_eq_countP fun call hcall => (hkinds call hcall).1
    authFailures := h.counter_eq_countP fun call hcall => (hkinds call hcall).2.1
    timeouts := h.counter_eq_countP fun call hcall => (hkinds call hcall).2.2.1
    earlyCloses := h.counter_eq_countP fun call hcall => (hkinds call hcall).2.2.2 }

/-- The counters of an endpoint balance in every state that its connects and
connections can reach together, and no subtraction saturates. -/
theorem endpoint_counters_balance {endpoint : Endpoint}
    (h : endpointSystem.Reachable endpoint) :
    Balanced endpoint ∧ (endpoint.Quiet → QuietlyBalanced endpoint) ∧
      ∀ call ∈ endpoint.calls, ∀ counter, call.todo.head? = some (.sub counter) →
        0 < endpoint.metrics counter := by
  have haccounts := accounts_of_reachable h
  refine ⟨haccounts.balanced, haccounts.quietlyBalanced, ?_⟩
  intro call hcall counter hhead
  exact haccounts.pos_of_sub hcall hhead

namespace EndpointExample

/-- A tunnel is established, and its connection is dropped up to the last update. -/
def dropping : List Event :=
  [.call .https, .wake 0 .polled, .update 0, .wake 0 .connected, .update 0, .update 0, .update 0,
    .wake 0 .established, .update 0, .update 0, .wake 0 .dropped, .update 0]

/-- A connect has counted its opened connection, and not yet the active one. -/
def opening : List Event :=
  [.call .https, .wake 0 .polled, .update 0, .wake 0 .connected, .update 0]

end EndpointExample

open EndpointExample in
theorem endpoint_counters_balance_example :
    ∃ endpoint, endpointSystem.run dropping = some endpoint ∧ Balanced endpoint ∧
      0 < endpoint.metrics .activeConnections := by
  obtain ⟨endpoint, hrun⟩ : ∃ endpoint, endpointSystem.run dropping = some endpoint :=
    ⟨_, rfl⟩
  have hcalls : (endpointSystem.run dropping).map Endpoint.calls =
      some [⟨.ended (.closed ⟨true⟩), [.sub .activeConnections, .add .connectionsClosed]⟩] := by
    decide
  rw [hrun, Option.map_some, Option.some.injEq] at hcalls
  obtain ⟨hbalanced, -, hpositive⟩ :=
    endpoint_counters_balance (TransitionSystem.reachable_of_run hrun)
  refine ⟨endpoint, hrun, hbalanced, ?_⟩
  exact hpositive _ (by rw [hcalls]; exact List.mem_cons_self) .activeConnections rfl

open EndpointExample in
/-- Between the two updates of `connection_opened` the gauge of active connections
is not the difference of the counters. -/
theorem activeConnections_lags :
    ∃ endpoint, endpointSystem.Reachable endpoint ∧
      endpoint.metrics .activeConnections ≠
        endpoint.metrics .connectionsOpened - endpoint.metrics .connectionsClosed := by
  obtain ⟨endpoint, hrun⟩ : ∃ endpoint, endpointSystem.run opening = some endpoint := ⟨_, rfl⟩
  have hcounts : (endpointSystem.run opening).map (fun endpoint =>
      (endpoint.metrics .activeConnections, endpoint.metrics .connectionsOpened,
        endpoint.metrics .connectionsClosed)) = some (0, 1, 0) := by
    decide
  rw [hrun, Option.map_some, Option.some.injEq, Prod.mk.injEq, Prod.mk.injEq] at hcounts
  refine ⟨endpoint, TransitionSystem.reachable_of_run hrun, ?_⟩
  omega

end FogHttp.Proxy
