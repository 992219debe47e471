import FogHttp.Upload.Body

/-!
# Replayable upload bodies

A `RawUploadBody` owns the channel of the current send attempt.
`take_receiver` hands its receiver out and passes a new handle to the start
callback, the attempt handle, which holds a sender of that channel.  When the
receiver is gone already, a replayable body gets a new channel first, and the
sender of the old one is closed.

Feeders call the methods of the owner handle and of the attempt handles from
other threads.  A method call looks its sender up, under the owner lock for the
owner handle, and works on the channel in later sections.  `Call` is one call of
a method and `TakeCall` one call of `take_receiver`, each with the place between
two of its sections at which it stands.  An event is one section, and calls of
all kinds overlap.

* A blocked send is not enabled until the channel has room or is closed.
* What a method does to the channel is `Method.act`, with the channel of
  `FogHttp.Upload.Body`.
* `TakeStage.calling` is the time in which the start callback runs, and it ends
  by `callbackReturned` or `callbackRaised`.

Channels are numbered in the order of their creation.  Two components of a
channel are ghosts: `accepted` lists the items that a send put into its queue,
with the handle and with the newest channel at the time at which the call looked
its sender up, and `received` those that the receiver returned.

Wakers are left out, and the ready callback stands in `FogHttp.Upload.Feeders`.
-/

namespace FogHttp.RequestBody

open Lib

def uploadBodyChannelCapacity : Nat := 8

def streamingBodyConsumed : Text := "streaming request body was already consumed"

/-- `RawUploadBodyInner`: the owner, or the handle with a sender of a channel. -/
inductive Handle where
  | owner
  | attempt (channel : Nat)
deriving DecidableEq, Repr

/-- An item in a queue and where it came from. -/
structure Sent where
  item : UploadBodyItem
  handle : Handle
  newest : Nat
deriving DecidableEq, Repr

/-- Who has the receiver of a channel. -/
inductive ReceiverHolder where
  | body
  | takeReceiver
  | transport
  | nobody
deriving DecidableEq, Repr

structure AttemptChannel where
  channel : UploadBodyChannel
  receiver : ReceiverHolder
  accepted : List Sent
  received : List UploadBodyItem
deriving DecidableEq, Repr

/-- `new_upload_body_channel`. -/
def AttemptChannel.new : AttemptChannel :=
  ⟨⟨[], false, uploadBodyChannelCapacity, .new⟩, .body, [], []⟩

/-! ## Methods -/

/-- The methods of the Python class. -/
inductive Method where
  | send (chunk : Chunk)
  | sendFinal (chunk : Chunk)
  | sendNowait (chunk : Chunk)
  | sendFinalNowait (chunk : Chunk)
  | isClosed
  | finish
  | fail (message : Text)
  | failNowait (message : Text)
  | close
deriving DecidableEq, Repr

/-- What a call does after its section under the channel lock. -/
inductive After where
  /-- It returns, with a result or with none. -/
  | returns (result : Option Bool)
  /-- It calls `finish` on its sender. -/
  | finishes
  /-- It takes the sender of the body, and then calls `finish` on its own. -/
  | takes
deriving DecidableEq, Repr

namespace Method

/-- The first section calls `take_sender`, and not `sender`. -/
def takesSender : Method → Bool
  | .sendFinal [] | .sendFinalNowait [] | .finish | .fail _ | .close => true
  | _ => false

/-- The result when there is no sender. -/
def withoutSender : Method → Option Bool
  | .send _ | .sendFinal _ | .sendNowait _ | .sendFinalNowait _ => some false
  | .isClosed | .failNowait _ => some true
  | .finish | .fail _ | .close => none

/-- The result of a call that ends with `finish`. -/
def afterFinish : Method → Option Bool
  | .failNowait _ => some true
  | _ => none

end Method

/-- What a section does to its channel: the channel after it, the item that was put
into the queue, and what comes next. -/
structure Acted where
  channel : UploadBodyChannel
  accepted : Option UploadBodyItem
  after : After

/-- A send whose next steps depend on its outcome.  Without a step for the full
queue it waits. -/
def UploadBodyChannel.push? (channel : UploadBodyChannel) (item : UploadBodyItem) (final : Bool)
    (accepted closed : After) (full : Option After) : Option Acted :=
  match channel.send item final with
  | (.accepted, channel) => some ⟨channel, some item, accepted⟩
  | (.closed, channel) => some ⟨channel, none, closed⟩
  | (.full, channel) => full.map fun after => ⟨channel, none, after⟩

/-- The section of a method under the channel lock. -/
def Method.act : Method → UploadBodyChannel → Option Acted
  | .send [], channel | .sendNowait [], channel =>
      some ⟨channel, none, .returns (some !channel.closed)⟩
  | .sendFinal [], channel | .sendFinalNowait [], channel =>
      some ⟨channel.finish, none, .returns (some !channel.closed)⟩
  | .send chunk, channel =>
      channel.push? (.data chunk) false (.returns (some true)) (.returns (some false)) none
  | .sendFinal chunk, channel =>
      channel.push? (.data chunk) true (.returns (some true)) (.returns (some false)) none
  | .sendNowait chunk, channel =>
      channel.push? (.data chunk) false (.returns (some true)) (.returns (some false))
        (some (.returns (some false)))
  | .sendFinalNowait chunk, channel =>
      channel.push? (.data chunk) true (.returns (some true)) (.returns (some false))
        (some (.returns (some false)))
  | .isClosed, channel => some ⟨channel, none, .returns (some channel.closed)⟩
  | .finish, channel => some ⟨channel.finish, none, .returns none⟩
  | .fail message, channel => channel.push? (.error message) false .finishes .finishes none
  | .failNowait message, channel =>
      channel.push? (.error message) false .takes (.returns (some true))
        (some (.returns (some false)))
  | .close, channel => some ⟨channel.abort, none, .returns none⟩

/-! ## Calls -/

/-- Where a method call stands. -/
inductive Stage where
  /-- Before its lookup of the sender. -/
  | lookup
  /-- With a sender, before its section under the channel lock. -/
  | sender (channel newest : Nat)
  /-- In `fail_nowait`, before `take_sender`. -/
  | taking (channel : Nat)
  /-- In `fail` or `fail_nowait`, before `finish`. -/
  | finishing (channel : Nat)
  | returned (result : Option Bool)
deriving DecidableEq, Repr

structure Call where
  handle : Handle
  method : Method
  stage : Stage
deriving DecidableEq, Repr

/-- The stage after a section on a channel. -/
def After.stage (channel : Nat) : After → Stage
  | .returns result => .returned result
  | .finishes => .finishing channel
  | .takes => .taking channel

/-- Where a call of `take_receiver` stands.  `attempt` is the channel of the sender
that the new handle gets. -/
inductive TakeStage where
  | start
  /-- Before the sender of the previous channel is closed. -/
  | closing (receiver attempt : Nat) (previous : Option Nat)
  /-- The start callback runs. -/
  | calling (receiver attempt : Nat)
  /-- The callback has raised; the sender of the attempt is closed next. -/
  | failing (receiver attempt : Nat)
  /-- Returned a runtime error. -/
  | refused (message : Text)
  /-- Returned the error of the callback. -/
  | raised (receiver attempt : Nat)
  /-- Returned the receiver. -/
  | handed (receiver attempt : Nat) (contentLength : Option Nat)
deriving DecidableEq, Repr

structure TakeCall where
  handle : Handle
  stage : TakeStage
deriving DecidableEq, Repr

/-- The attempt whose handle the start callback has. -/
def TakeStage.attempt? : TakeStage → Option Nat
  | .calling _ attempt | .failing _ attempt | .raised _ attempt | .handed _ attempt _ =>
      some attempt
  | .start | .closing .. | .refused _ => none

/-! ## The body -/

/-- The state of a body with all its channels and calls. -/
structure RawUploadBody where
  sender : Option Nat
  receiver : Option Nat
  contentLength : Option Nat
  replayable : Bool
  channels : List AttemptChannel
  calls : List Call
  takes : List TakeCall
deriving DecidableEq, Repr

namespace RawUploadBody

/-- `RawUploadBody::new`. -/
def new (contentLength : Option Nat) (replayable : Bool) : RawUploadBody where
  sender := some 0
  receiver := some 0
  contentLength
  replayable
  channels := [.new]
  calls := []
  takes := []

/-- The number of the newest channel. -/
def newest (body : RawUploadBody) : Nat := body.channels.length - 1

/-- The handle exists: it is the owner, or the start callback has got it. -/
def hasHandle (body : RawUploadBody) : Handle → Bool
  | .owner => true
  | .attempt channel => body.takes.any fun take => take.stage.attempt? == some channel

/-- One channel changes. -/
def onChannel (body : RawUploadBody) (k : Nat) (change : AttemptChannel → AttemptChannel) :
    RawUploadBody :=
  { body with channels := body.channels.modify k change }

/-- `UploadBodySender::close`. -/
def close (body : RawUploadBody) (k : Nat) : RawUploadBody :=
  body.onChannel k fun entry => { entry with channel := entry.channel.abort }

/-- The drop of a receiver. -/
def dropReceiver (body : RawUploadBody) (k : Nat) : RawUploadBody :=
  body.onChannel k fun entry =>
    { entry with channel := entry.channel.abort, receiver := .nobody }

/-- The receiver changes hands. -/
def giveReceiver (body : RawUploadBody) (k : Nat) (holder : ReceiverHolder) : RawUploadBody :=
  body.onChannel k fun entry => { entry with receiver := holder }

/-- `RawUploadBody::sender`, or `take_sender` when `takes` is set. -/
def lookup (body : RawUploadBody) (takes : Bool) : Handle → Option Nat × RawUploadBody
  | .owner => (body.sender, if takes then { body with sender := none } else body)
  | .attempt channel => (some channel, body)

/-- `reset_channel`: the previous sender and the body with a new channel. -/
def resetChannel (body : RawUploadBody) : Option Nat × RawUploadBody :=
  (body.sender,
    { body with
      sender := some body.channels.length
      receiver := some body.channels.length
      channels := body.channels ++ [.new] })

/-- `take_receiver` up to the end of its section under the owner lock. -/
def takeOwned (body : RawUploadBody) : TakeStage × RawUploadBody :=
  if body.receiver.isNone && !body.replayable then (.refused streamingBodyConsumed, body)
  else
    let (previous, body) := if body.receiver.isNone then body.resetChannel else (none, body)
    match body.receiver with
    | none => (.refused streamingBodyConsumed, body)
    | some receiver =>
        let body := { body with receiver := none }
        match body.sender with
        | none => (.refused streamingBodyConsumed, body.dropReceiver receiver)
        | some attempt =>
            (.closing receiver attempt previous, body.giveReceiver receiver .takeReceiver)

/-- The next section of a method call. -/
def callSection (body : RawUploadBody) (call : Call) : Option (Stage × RawUploadBody) :=
  match call.stage with
  | .lookup =>
      match body.lookup call.method.takesSender call.handle with
      | (some channel, after) => some (.sender channel body.newest, after)
      | (none, after) => some (.returned call.method.withoutSender, after)
  | .sender channel newest => do
      let entry ← body.channels[channel]?
      let acted ← call.method.act entry.channel
      some (acted.after.stage channel, body.onChannel channel fun entry =>
        { entry with
          channel := acted.channel
          accepted := entry.accepted ++
            acted.accepted.toList.map fun item => ⟨item, call.handle, newest⟩ })
  | .taking channel => some (.finishing channel, (body.lookup true call.handle).2)
  | .finishing channel =>
      some (.returned call.method.afterFinish, body.onChannel channel fun entry =>
        { entry with channel := entry.channel.finish })
  | .returned _ => none

/-- The next section of a call of `take_receiver`, other than the start callback. -/
def takeSection (body : RawUploadBody) (take : TakeCall) : Option (TakeStage × RawUploadBody) :=
  match take.stage with
  | .start =>
      match take.handle with
      | .owner => some body.takeOwned
      | .attempt _ => some (.refused streamingBodyConsumed, body)
  | .closing receiver attempt previous =>
      some (.calling receiver attempt,
        match previous with
        | some channel => body.close channel
        | none => body)
  | .failing receiver attempt =>
      some (.raised receiver attempt, (body.close attempt).dropReceiver receiver)
  | .calling .. | .refused _ | .raised .. | .handed .. => none

/-- A poll of the receiver. -/
def poll (entry : AttemptChannel) : AttemptChannel :=
  match entry.channel.pollRecv with
  | (.ready item, channel) => { entry with channel, received := entry.received ++ [item] }
  | (_, channel) => { entry with channel }

inductive Event where
  /-- A method of a handle is called. -/
  | call (handle : Handle) (method : Method)
  | callSection (i : Nat)
  /-- `take_receiver` of a handle is called. -/
  | take (handle : Handle)
  | takeSection (i : Nat)
  | callbackReturned (i : Nat)
  | callbackRaised (i : Nat)
  /-- The transport polls a receiver. -/
  | poll (k : Nat)
  /-- The transport drops a receiver. -/
  | dropReceiver (k : Nat)
deriving DecidableEq, Repr

def step (body : RawUploadBody) : Event → Option RawUploadBody
  | .call handle method =>
      if body.hasHandle handle then
        some { body with calls := body.calls ++ [⟨handle, method, .lookup⟩] }
      else none
  | .callSection i => do
      let call ← body.calls[i]?
      let (stage, after) ← body.callSection call
      some { after with calls := body.calls.set i { call with stage } }
  | .take handle =>
      if body.hasHandle handle then
        some { body with takes := body.takes ++ [⟨handle, .start⟩] }
      else none
  | .takeSection i => do
      let take ← body.takes[i]?
      let (stage, after) ← body.takeSection take
      some { after with takes := body.takes.set i { take with stage } }
  | .callbackReturned i =>
      match body.takes[i]? with
      | some ⟨handle, .calling receiver attempt⟩ =>
          some { body.giveReceiver receiver .transport with
            takes := body.takes.set i ⟨handle, .handed receiver attempt body.contentLength⟩ }
      | _ => none
  | .callbackRaised i =>
      match body.takes[i]? with
      | some ⟨handle, .calling receiver attempt⟩ =>
          some { body with takes := body.takes.set i ⟨handle, .failing receiver attempt⟩ }
      | _ => none
  | .poll k =>
      if body.channels[k]?.map AttemptChannel.receiver = some .transport then
        some (body.onChannel k poll)
      else none
  | .dropReceiver k =>
      if body.channels[k]?.map AttemptChannel.receiver = some .transport then
        some (body.dropReceiver k)
      else none

/-- A body and all interleavings of its calls. -/
def system (contentLength : Option Nat) (replayable : Bool) :
    TransitionSystem RawUploadBody Event :=
  ⟨new contentLength replayable, step⟩

end RawUploadBody

end FogHttp.RequestBody
