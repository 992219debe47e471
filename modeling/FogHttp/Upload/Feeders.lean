import FogHttp.Upload.Replay

/-!
# Async upload feeders

An async upload body has one feeder task for each send attempt, and they all wait on
one `asyncio.Event`.  A feeder clears the event, tries to send, looks whether its
channel is closed, and waits.  The transport pops from the channels and drops the
receivers, and every party may close a channel.  A party that has popped or aborted
calls the ready callback after it has left the channel lock.

`AsyncUpload.step` has one event for each section under a channel lock, for each call
of the ready callback and for each step of the event loop.

* `running` is the feeder that the loop thread executes.  It runs from `ready.clear()`
  to the next `await` that suspends it, and no other feeder and no scheduled callback
  runs in between.  Sections of other threads do.
* `notifying` has the channel of every party that is about to call the ready callback,
  and `scheduled` the channel of every party whose call of `ready.set` waits in the
  loop.  A party on the loop thread sets the event at once, also inside of a feeder
  whose step drops a receiver.
* A feeder calls `send_async_upload_chunk` and `fail_async_upload_body` with any
  arguments and in any order, and `finish` between them, so nothing is assumed about
  its source.  A task that is cancelled leaves its call with an exception.
* What a call does to the channel is `Method.act`.  The feeder has the handle of its
  attempt, whose lookup of the sender always succeeds.

Wakers and the frames behind the receiver are left out.
-/

namespace FogHttp.RequestBody

open Lib

/-! ## Feeders -/

/-- The functions in which a feeder waits. -/
inductive FeederCall where
  /-- `send_async_upload_chunk`. -/
  | send (chunk : Chunk) (final : Bool)
  /-- `fail_async_upload_body`. -/
  | fail (message : Text)
deriving DecidableEq, Repr

/-- Where a feeder stands. -/
inductive FeederStage where
  /-- Between two calls, with the result of the last one.  There is none before the first
  call, from `fail_async_upload_body` and after an exception. -/
  | returned (result : Option Bool)
  /-- Before `ready.clear()`. -/
  | clearing (call : FeederCall)
  /-- Before the send. -/
  | sending (call : FeederCall)
  /-- In `fail_nowait`, before `finish`. -/
  | finishing (call : FeederCall)
  /-- The send returned `False`; `is_closed` is next. -/
  | checking (call : FeederCall)
  /-- Before `ready.wait()`. -/
  | waiting (call : FeederCall)
  /-- Suspended in `ready.wait()`.  The future of the wait is done when `delivered` is set. -/
  | suspended (call : FeederCall) (delivered : Bool)
  /-- In `asyncio.sleep(0)` after an empty chunk. -/
  | sleeping
deriving DecidableEq, Repr

/-- The loop thread executes the feeder. -/
def FeederStage.runs : FeederStage → Bool
  | .clearing _ | .sending _ | .finishing _ | .checking _ | .waiting _ => true
  | .returned _ | .suspended .. | .sleeping => false

/-- A feeder with the channel of its attempt. -/
structure Feeder where
  channel : UploadBodyChannel
  stage : FeederStage
deriving DecidableEq, Repr

namespace FeederCall

/-- The method that the call tries. -/
def method : FeederCall → Method
  | .send chunk false => .sendNowait chunk
  | .send chunk true => .sendFinalNowait chunk
  | .fail message => .failNowait message

/-- The stage after the section of the method. -/
def afterMethod (call : FeederCall) : After → FeederStage
  | .returns (some false) => .checking call
  | .returns _ =>
      match call with
      | .send [] false => .sleeping
      | .send _ _ => .returned (some true)
      | .fail _ => .returned none
  | .finishes | .takes => .finishing call

/-- What the call returns when the channel is closed. -/
def whenClosed : FeederCall → Option Bool
  | .send .. => some false
  | .fail _ => none

end FeederCall

namespace Feeder

/-- The feeder of a new attempt. -/
def new (capacity : Nat) : Feeder := ⟨⟨[], false, capacity, .new⟩, .returned none⟩

/-- The next section of a feeder, with the event before and after it. -/
def next (ready : Bool) (feeder : Feeder) : Option (Bool × Feeder) :=
  match feeder.stage with
  | .clearing call => some (false, { feeder with stage := .sending call })
  | .sending call =>
      (call.method.act feeder.channel).map fun acted =>
        (ready, ⟨acted.channel, call.afterMethod acted.after⟩)
  | .finishing _ => some (ready, ⟨feeder.channel.finish, .returned none⟩)
  | .checking call =>
      if feeder.channel.closed then
        some (ready, { feeder with stage := .returned call.whenClosed })
      else some (ready, { feeder with stage := .waiting call })
  | .waiting call =>
      if ready then some (ready, { feeder with stage := .clearing call })
      else some (ready, { feeder with stage := .suspended call false })
  | .suspended call true => some (ready, { feeder with stage := .clearing call })
  | .sleeping => some (ready, { feeder with stage := .returned (some !feeder.channel.closed) })
  | .suspended _ false | .returned _ => none

/-- A new call of the feeder, from between two calls. -/
def call (call : FeederCall) (feeder : Feeder) : Option Feeder :=
  match feeder.stage with
  | .returned _ => some { feeder with stage := .clearing call }
  | _ => none

/-- `RawUploadBody.finish` between two calls. -/
def finish (feeder : Feeder) : Option Feeder :=
  match feeder.stage with
  | .returned _ => some { feeder with channel := feeder.channel.finish }
  | _ => none

/-- `CancelledError` at the `await` of a feeder. -/
def cancel (feeder : Feeder) : Option Feeder :=
  match feeder.stage with
  | .suspended .. | .sleeping => some { feeder with stage := .returned none }
  | _ => none

/-- `ready.set()` reaches a suspended feeder. -/
def deliver (feeder : Feeder) : Feeder :=
  match feeder.stage with
  | .suspended call _ => { feeder with stage := .suspended call true }
  | _ => feeder

/-- `poll_recv`, and whether it calls the ready callback. -/
def poll (feeder : Feeder) : Bool × Feeder :=
  match feeder.channel.pollRecv with
  | (.ready _, channel) => (true, { feeder with channel })
  | (_, channel) => (false, { feeder with channel })

/-- `abort`, and whether it calls the ready callback. -/
def abort (feeder : Feeder) : Bool × Feeder :=
  (!feeder.channel.closed, { feeder with channel := feeder.channel.abort })

end Feeder

/-! ## The body -/

/-- An async upload body with the feeders of all its attempts. -/
structure AsyncUpload where
  feeders : List Feeder
  /-- The value of the `asyncio.Event`. -/
  ready : Bool
  running : Option Nat
  notifying : List Nat
  scheduled : List Nat
  loopClosed : Bool
deriving DecidableEq, Repr

namespace AsyncUpload

/-- `_AsyncStreamingUploadBody`, before its first attempt. -/
def new : AsyncUpload := ⟨[], false, none, [], [], false⟩

/-- The loop thread is free for a feeder, or executes it already. -/
def mayRun (upload : AsyncUpload) (i : Nat) : Bool :=
  !upload.loopClosed && upload.running.all (· == i)

/-- The loop thread goes on with its next callback. -/
def isFree (upload : AsyncUpload) : Bool := !upload.loopClosed && upload.running.isNone

/-- A feeder changes on the loop thread, which keeps it while it runs. -/
def onLoop (upload : AsyncUpload) (i : Nat) (feeder : Feeder) : AsyncUpload :=
  { upload with
    feeders := upload.feeders.set i feeder
    running := if feeder.stage.runs then some i else none }

/-- A feeder that did not run takes the loop thread. -/
def turn (upload : AsyncUpload) (i : Nat) (change : Feeder → Option Feeder) :
    Option AsyncUpload := do
  let feeder ← upload.feeders[i]?
  let feeder ← change feeder
  if upload.isFree then some (upload.onLoop i feeder) else none

/-- A section under a channel lock that may lead to a call of the ready callback. -/
def onChannel (upload : AsyncUpload) (i : Nat) (section_ : Bool × Feeder) : AsyncUpload :=
  { upload with
    feeders := upload.feeders.set i section_.2
    notifying := if section_.1 then upload.notifying ++ [i] else upload.notifying }

/-- `ready.set()`.  A set event wakes nobody. -/
def set (upload : AsyncUpload) : AsyncUpload :=
  if upload.ready then upload
  else { upload with ready := true, feeders := upload.feeders.map Feeder.deliver }

/-- `_AsyncStreamingUploadBody._notify_ready` for a party that has left channel `i`. -/
def notifyReady (upload : AsyncUpload) (i : Nat) (onLoopThread : Bool) : AsyncUpload :=
  if upload.loopClosed then upload
  else if onLoopThread then upload.set
  else { upload with scheduled := upload.scheduled ++ [i] }

inductive Event where
  /-- The start callback makes a feeder for a new attempt. -/
  | start
  | call (i : Nat) (call : FeederCall)
  | feeder (i : Nat)
  | finish (i : Nat)
  | cancel (i : Nat)
  /-- The transport polls a receiver. -/
  | poll (i : Nat)
  /-- The drop of a receiver, or `close`. -/
  | abort (i : Nat)
  /-- A party calls the ready callback. -/
  | notify (j : Nat) (onLoopThread : Bool)
  /-- The loop calls a scheduled `ready.set`. -/
  | scheduled
  | closeLoop
deriving DecidableEq, Repr

def step (capacity : Nat) (upload : AsyncUpload) : Event → Option AsyncUpload
  | .start => some { upload with feeders := upload.feeders ++ [.new capacity] }
  | .call i call => upload.turn i (Feeder.call call)
  | .feeder i => do
      let feeder ← upload.feeders[i]?
      let (ready, feeder) ← feeder.next upload.ready
      if upload.mayRun i then some ({ upload with ready }.onLoop i feeder) else none
  | .finish i => upload.turn i Feeder.finish
  | .cancel i => upload.turn i Feeder.cancel
  | .poll i => upload.feeders[i]?.map fun feeder => upload.onChannel i feeder.poll
  | .abort i => upload.feeders[i]?.map fun feeder => upload.onChannel i feeder.abort
  | .notify j onLoopThread =>
      upload.notifying[j]?.map fun i =>
        { upload with notifying := upload.notifying.eraseIdx j }.notifyReady i onLoopThread
  | .scheduled =>
      match upload.scheduled with
      | _ :: rest => if upload.isFree then some { upload with scheduled := rest }.set else none
      | [] => none
  | .closeLoop =>
      if upload.isFree then some { upload with loopClosed := true, scheduled := [] } else none

/-- A body whose channels have this capacity, and all interleavings of its parties. -/
def system (capacity : Nat) : TransitionSystem AsyncUpload Event := ⟨new, step capacity⟩

end AsyncUpload

end FogHttp.RequestBody
