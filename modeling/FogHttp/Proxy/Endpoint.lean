import FogHttp.Lib.Transition
import FogHttp.Proxy.Tunnel

/-!
# The metrics of a proxy endpoint

Every connect through a proxy keeps the counters of its endpoint.  A connect
holds guards of three kinds, a connection attempt, a connection lease and a
tunnel attempt.  A guard records its outcome when a method consumes it, and
otherwise when it is dropped.

A record is a list of updates, and each update is one atomic operation on one
counter.  Between two updates of a record the other connects run.  `Call` is one
connect, or the connection that came of it: the place where it waits next, and
the updates that it makes before it gets there.  `Call.next` is what it does when
its wait ends, and a cancelled call drops its guards in the order in which the
future drops them.

Connects to HTTPS targets ask for a tunnel, and connects to HTTP targets do not.
Both kinds run at one endpoint.

Left out: the time of the last activity, and that a counter wraps at the end of
its word.  A saturating subtraction is a compare-exchange loop, which changes its
counter in one operation.
-/

namespace FogHttp.Proxy

open Lib

/-! ## Records -/

inductive Counter where
  | connectionAttempts
  | connectionsOpened
  | connectionsOpenFailed
  | connectionsClosed
  | activeConnections
  | tunnelAttempts
  | tunnelsEstablished
  | tunnelFailures
  | tunnelAuthFailures
  | tunnelTimeouts
  | tunnelEarlyCloses
  | activeTunnels
deriving DecidableEq, Repr

/-- The counters of `ProxyEndpointMetrics`. -/
abbrev ProxyEndpointMetrics := Counter → Nat

/-- One atomic operation on a counter: `fetch_add` or `saturating_atomic_usize_sub`. -/
inductive Update where
  | add (counter : Counter)
  | sub (counter : Counter)
deriving DecidableEq, Repr

def Update.apply (metrics : ProxyEndpointMetrics) : Update → ProxyEndpointMetrics
  | .add counter => Function.update metrics counter (metrics counter + 1)
  | .sub counter => Function.update metrics counter (metrics counter - 1)

/-- `connection_attempt`. -/
def connectionAttempt : List Update := [.add .connectionAttempts]

/-- `tunnel_attempt`. -/
def tunnelAttempt : List Update := [.add .tunnelAttempts]

/-- `connection_opened`. -/
def connectionOpened : List Update := [.add .connectionsOpened, .add .activeConnections]

/-- `connection_open_failed`. -/
def connectionOpenFailed : List Update := [.add .connectionsOpenFailed]

/-- `connection_closed`. -/
def connectionClosed (tunnelActive : Bool) : List Update :=
  (if tunnelActive then [.sub .activeTunnels] else []) ++
    [.sub .activeConnections, .add .connectionsClosed]

/-- `tunnel_established`. -/
def tunnelEstablished : List Update := [.add .tunnelsEstablished, .add .activeTunnels]

/-- `tunnel_failed`. -/
def tunnelFailed (kind : ProxyTunnelFailureKind) : List Update :=
  .add .tunnelFailures ::
    match kind with
    | .authentication => [.add .tunnelAuthFailures]
    | .timeout => [.add .tunnelTimeouts]
    | .earlyClose => [.add .tunnelEarlyCloses]
    | .other => []

/-! ## Guards -/

structure ProxyConnectionAttempt where
  finished : Bool := false
deriving DecidableEq, Repr

structure ProxyConnectionLease where
  tunnelActive : Bool
deriving DecidableEq, Repr

structure ProxyTunnelAttempt where
  finished : Bool := false
deriving DecidableEq, Repr

/-- `Drop for ProxyConnectionAttempt`. -/
def ProxyConnectionAttempt.drop (attempt : ProxyConnectionAttempt) : List Update :=
  if attempt.finished then [] else connectionOpenFailed

/-- `ProxyConnectionAttempt::opened`. -/
def ProxyConnectionAttempt.opened (attempt : ProxyConnectionAttempt) :
    List Update × ProxyConnectionLease :=
  (connectionOpened ++ ProxyConnectionAttempt.drop { attempt with finished := true }, ⟨false⟩)

/-- `Drop for ProxyConnectionLease`. -/
def ProxyConnectionLease.drop (lease : ProxyConnectionLease) : List Update :=
  connectionClosed lease.tunnelActive

/-- `Drop for ProxyTunnelAttempt`. -/
def ProxyTunnelAttempt.drop (attempt : ProxyTunnelAttempt) : List Update :=
  if attempt.finished then [] else tunnelFailed .other

/-- `ProxyTunnelAttempt::established`. -/
def ProxyTunnelAttempt.established (attempt : ProxyTunnelAttempt)
    (connection : ProxyConnectionLease) : List Update × ProxyConnectionLease :=
  (tunnelEstablished ++ ProxyTunnelAttempt.drop { attempt with finished := true },
    { connection with tunnelActive := true })

/-- `ProxyTunnelAttempt::failed`. -/
def ProxyTunnelAttempt.failed (attempt : ProxyTunnelAttempt) (kind : ProxyTunnelFailureKind) :
    List Update :=
  tunnelFailed kind ++ ProxyTunnelAttempt.drop { attempt with finished := true }

/-! ## Connects -/

/-- The scheme of the target. -/
inductive Scheme where
  | http
  | https
deriving DecidableEq, Repr

/-- How a call came to its end. -/
inductive Ended where
  /-- It was dropped before its first poll. -/
  | unpolled
  /-- It has no connection, because of an error, the timeout or a cancellation. -/
  | unconnected
  | rejected (kind : ProxyTunnelFailureKind)
  | timedOut
  | cancelled
  /-- Its connection was dropped. -/
  | closed (lease : ProxyConnectionLease)
deriving DecidableEq, Repr

/-- Where a call waits, with the guards that it holds there. -/
inductive Place where
  | created (scheme : Scheme)
  /-- At `connect.await`, with an unfinished connection attempt. -/
  | connecting (scheme : Scheme)
  /-- At `establish_tunnel(..).await`, with a lease and an unfinished tunnel attempt. -/
  | establishing
  /-- The connection was returned, and its lease is in it. -/
  | held (lease : ProxyConnectionLease)
  | ended (how : Ended)
deriving DecidableEq, Repr

/-- A call, and the updates that it makes on its way to its place. -/
structure Call where
  place : Place
  todo : List Update
deriving DecidableEq, Repr

/-- What ends the wait of a call. -/
inductive Wakeup where
  | polled
  | connected
  | connectFailed
  | established
  | rejected (error : TunnelEstablishError)
  | timedOut
  | cancelled
  /-- The connection is dropped. -/
  | dropped
deriving DecidableEq, Repr

/-- `HttpsTunnelConnector::call` and `HttpProxyConnector::call`, from one `await` to
the next. -/
def Call.next : Place → Wakeup → Option Call
  | .created scheme, .polled => some ⟨.connecting scheme, connectionAttempt⟩
  | .created _, .cancelled => some ⟨.ended .unpolled, []⟩
  | .connecting .http, .connected =>
      let (updates, lease) := ProxyConnectionAttempt.opened {}
      some ⟨.held lease, updates⟩
  | .connecting .https, .connected =>
      some ⟨.establishing, (ProxyConnectionAttempt.opened {}).1 ++ tunnelAttempt⟩
  | .connecting _, .connectFailed => some ⟨.ended .unconnected, ProxyConnectionAttempt.drop {}⟩
  | .connecting _, .cancelled => some ⟨.ended .unconnected, ProxyConnectionAttempt.drop {}⟩
  | .connecting .https, .timedOut =>
      some ⟨.ended .unconnected, ProxyConnectionAttempt.drop {}⟩
  | .establishing, .established =>
      let (updates, lease) := ProxyTunnelAttempt.established {} ⟨false⟩
      some ⟨.held lease, updates⟩
  | .establishing, .rejected error =>
      some ⟨.ended (.rejected error.kind),
        ProxyTunnelAttempt.failed {} error.kind ++ ProxyConnectionLease.drop ⟨false⟩⟩
  -- The connect phase is dropped before the timeout is recorded.
  | .establishing, .timedOut =>
      some ⟨.ended .timedOut,
        ProxyConnectionLease.drop ⟨false⟩ ++ ProxyTunnelAttempt.failed {} .timeout⟩
  | .establishing, .cancelled =>
      some ⟨.ended .cancelled,
        ProxyConnectionLease.drop ⟨false⟩ ++ ProxyTunnelAttempt.drop {}⟩
  | .held lease, .dropped => some ⟨.ended (.closed lease), lease.drop⟩
  | _, _ => none

/-! ## The endpoint -/

structure Endpoint where
  metrics : ProxyEndpointMetrics
  calls : List Call

inductive Event where
  /-- A connector is called. -/
  | call (scheme : Scheme)
  /-- A call makes its next update. -/
  | update (i : Nat)
  /-- The wait of a call ends. -/
  | wake (i : Nat) (wakeup : Wakeup)
deriving Repr

def Endpoint.step (endpoint : Endpoint) : Event → Option Endpoint
  | .call scheme => some { endpoint with calls := endpoint.calls ++ [⟨.created scheme, []⟩] }
  | .update i =>
      match endpoint.calls[i]? with
      | some ⟨place, update :: todo⟩ =>
          some ⟨update.apply endpoint.metrics, endpoint.calls.set i ⟨place, todo⟩⟩
      | _ => none
  | .wake i wakeup =>
      match endpoint.calls[i]? with
      | some ⟨place, []⟩ =>
          (Call.next place wakeup).map fun call =>
            { endpoint with calls := endpoint.calls.set i call }
      | _ => none

def endpointSystem : TransitionSystem Endpoint Event where
  init := ⟨fun _ => 0, []⟩
  step := Endpoint.step

end FogHttp.Proxy
