import FogHttp.AsyncRequests.Request
import FogHttp.Lib.Text
import FogHttp.Lib.Transition
import Mathlib.Data.List.AList

/-!
# The registry of async requests

`AsyncRequestRegistry` maps the ids of the requests that can be aborted to what
an abort needs.  Here a request stands in a list of all requests that were ever
spawned, and the registry maps an id to its position.  The ids come from a
counter that wraps around, so two requests may share one.

`requestSystem` has any number of buffered and streaming requests.  An event is
a spawn, one section of one request, or the drain of `abort_all`; the requests
that are drained are aborted by later events, in any order.
-/

namespace FogHttp.AsyncRequests

open Lib

structure AsyncRequestRegistry where
  active : AList fun _ : Nat => Nat
  nextRequestId : Nat

namespace AsyncRequestRegistry

def empty : AsyncRequestRegistry := ⟨∅, 0⟩

/-- `next_request_id`: the id, and the registry after `fetch_add`. -/
def takeRequestId (self : AsyncRequestRegistry) : Nat × AsyncRequestRegistry :=
  (self.nextRequestId, { self with nextRequestId := (self.nextRequestId + 1) % 2 ^ 64 })

def insert (self : AsyncRequestRegistry) (requestId request : Nat) : AsyncRequestRegistry :=
  { self with active := self.active.insert requestId request }

/-- `remove`: the entry of the id, and the registry without it. -/
def remove (self : AsyncRequestRegistry) (requestId : Nat) :
    Option Nat × AsyncRequestRegistry :=
  (self.active.lookup requestId, { self with active := self.active.erase requestId })

/-- The drain of `abort_all`: all entries, and the registry without them. -/
def drain (self : AsyncRequestRegistry) : List Nat × AsyncRequestRegistry :=
  (self.active.entries.map fun entry => entry.2, { self with active := ∅ })

/-- The registry has an entry for a request. -/
def Holds (self : AsyncRequestRegistry) (request : Nat) : Prop :=
  ∃ requestId, self.active.lookup requestId = some request

end AsyncRequestRegistry

/-! ## The system -/

structure ClientRequests where
  registry : AsyncRequestRegistry
  requests : List Request

namespace ClientRequests

/-- The request was taken out of the registry to be aborted. -/
def hold (self : ClientRequests) (request : Nat) (cancelPython : Bool) : ClientRequests :=
  { self with
    requests := self.requests.modify request fun taken =>
      { taken with abort := .finishing cancelPython } }

/-- `abort_request`, up to the call of `abort`. -/
def abortRequest (self : ClientRequests) (requestId : Nat) : ClientRequests :=
  let (taken, registry) := self.registry.remove requestId
  match taken with
  | some request => { self with registry := registry }.hold request false
  | none => { self with registry := registry }

/-- `abort_all`, up to the first call of `abort_and_cancel_python`. -/
def abortAll (self : ClientRequests) : ClientRequests :=
  let (taken, registry) := self.registry.drain
  taken.foldl (fun self request => self.hold request true) { self with registry := registry }

/-- The registry call of a section of one request. -/
def call (self : ClientRequests) (request requestId : Nat) : RegistryCall → ClientRequests
  | .none => self
  | .insert => { self with registry := self.registry.insert requestId request }
  | .remove => { self with registry := (self.registry.remove requestId).2 }
  | .abortRequest => self.abortRequest requestId

inductive Event where
  /-- The spawning call up to `runtime.spawn`. -/
  | spawn (kind : RequestKind) (hasTelemetry : Bool)
  | section_ (request : Nat) (action : Request.Action)
  | abortAll

def step (self : ClientRequests) : Event → Option ClientRequests
  | .spawn kind hasTelemetry =>
      let (requestId, registry) := self.registry.takeRequestId
      some
        { registry := registry
          requests := self.requests ++ [Request.new kind requestId hasTelemetry] }
  | .section_ request action => do
      let before ← self.requests[request]?
      let (after, call) ← before.step action
      some ({ self with requests := self.requests.set request after }.call
        request after.requestId call)
  | .abortAll => some self.abortAll

end ClientRequests

def requestSystem : TransitionSystem ClientRequests ClientRequests.Event where
  init := { registry := .empty, requests := [] }
  step := ClientRequests.step

end FogHttp.AsyncRequests
