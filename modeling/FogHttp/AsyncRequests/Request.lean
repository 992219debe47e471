import FogHttp.Lib.OneShot

/-!
# One async request and its parties

`spawn_async_request` and `spawn_async_stream_request` set up a request that
four parties share from then on: the spawning call itself, the task on the
runtime, whoever takes the request out of the registry to abort it, and, for a
streaming request, the `StreamState` of its response.  They agree on who ends
the request by `RequestCompletion`, a flag that one of them sets.

`Request` has the place of every party, the shared flag and the Python future,
and `effects` records who did what.  `Request.step` is one atomic section of one
party.  It also says which call of the registry the section makes; the registry
is shared with all other requests and is not part of a single one.

The calls that fail before `request_started` leave nothing behind and are not
modelled.  A task does not panic, and the runtime outlives it.
-/

namespace FogHttp.AsyncRequests

open Lib

/-! ## The parties -/

inductive RequestKind where
  /-- `spawn_async_request`. -/
  | buffered
  /-- `spawn_async_stream_request`. -/
  | streaming
deriving DecidableEq, Repr

inductive Party where
  | spawner
  | task
  | abort
  | stream
deriving DecidableEq, Repr

/-- What a party does outside of the request. -/
inductive Effect where
  | requestStarted
  | requestFinished (failed : Bool)
  | telemetryCancelled
  | taskAborted
  /-- `complete_python_future` or `complete_python_stream_future`. -/
  | pythonFutureCompleted (isErr : Bool)
  /-- `cancel_python_future`. -/
  | pythonFutureCancelled
deriving DecidableEq, Repr

def Effect.isCompletion : Effect → Bool
  | .pythonFutureCompleted _ => true
  | _ => false

/-- What the spawning call does next. -/
inductive SpawnStage where
  | inserting
  | checking
  | removing
  | addingCallback
  | starting
  | failing
  | returned (ok : Bool)
deriving DecidableEq, Repr

/-- What the task does next.  It is dropped when it is aborted while it waits. -/
inductive TaskStage where
  | awaitingStart
  | sending
  | removing (isErr : Bool)
  | finishing (isErr : Bool)
  | recording (isErr : Bool)
  | completing (isErr : Bool)
  | ended
  | dropped
deriving DecidableEq, Repr

/-- What the party that took the request out of the registry does next.  `abort_all` goes
on to cancel the Python future, the other callers do not. -/
inductive AbortStage where
  | idle
  | finishing (cancelPython : Bool)
  | cancellingTelemetry (cancelPython : Bool)
  | abortingTask (cancelPython : Bool)
  | recording (cancelPython : Bool)
  | cancellingPython
  | ended
deriving DecidableEq, Repr

/-- What `StreamState::finish` does next. -/
inductive StreamStage where
  | open_
  | recording (failed : Bool)
  | finished
deriving DecidableEq, Repr

/-- The Python future, as its callbacks see it. -/
inductive FutureState where
  | pending
  | settled
  | cancelled
deriving DecidableEq, Repr

/-- The `PythonFutureCancellation` callback of the future. -/
inductive CallbackStage where
  | absent
  | added
  | called
deriving DecidableEq, Repr

/-! ## The request -/

structure Request where
  kind : RequestKind
  requestId : Nat
  hasTelemetry : Bool
  /-- `RequestCompletion`. -/
  completion : OneShot Party
  spawner : SpawnStage
  task : TaskStage
  abort : AbortStage
  stream : StreamStage
  /-- The start message of a streaming request was sent. -/
  startSent : Bool
  /-- `AbortHandle::abort` was called. -/
  abortRequested : Bool
  future : FutureState
  callback : CallbackStage
  effects : List (Party × Effect)
deriving DecidableEq, Repr

/-- What a section does with the registry. -/
inductive RegistryCall where
  | none
  | insert
  | remove
  | abortRequest
deriving DecidableEq, Repr

namespace Request

/-- The request right after `runtime.spawn`. -/
def new (kind : RequestKind) (requestId : Nat) (hasTelemetry : Bool) : Request where
  kind := kind
  requestId := requestId
  hasTelemetry := hasTelemetry
  completion := .unset
  spawner := .inserting
  task := match kind with
    | .buffered => .sending
    | .streaming => .awaitingStart
  abort := .idle
  stream := .open_
  startSent := false
  abortRequested := false
  future := .pending
  callback := .absent
  effects := [(.spawner, .requestStarted)]

def perform (self : Request) (party : Party) (effect : Effect) : Request :=
  { self with effects := self.effects ++ [(party, effect)] }

/-- `RequestCompletion::finish`, by one of the parties. -/
def finish (self : Request) (party : Party) : Bool × Request :=
  let (finished, completion) := self.completion.take party
  (finished, { self with completion := completion })

/-! ## The sections -/

/-- How the callback is added: `Py::new` may fail, and so may `add_done_callback`. -/
inductive CallbackOutcome where
  | added
  | newFailed
  | addFailed
deriving DecidableEq, Repr

/-- The spawning call after `runtime.spawn`. -/
def spawnerStep (self : Request) (outcome : CallbackOutcome) : Option (Request × RegistryCall) :=
  match self.spawner with
  | .inserting => some ({ self with spawner := .checking }, .insert)
  | .checking =>
      if self.completion.isSet then some ({ self with spawner := .removing }, .none)
      else some ({ self with spawner := .addingCallback }, .none)
  | .removing => some ({ self with spawner := .addingCallback }, .remove)
  | .addingCallback =>
      match outcome, self.kind with
      | .added, .buffered =>
          some ({ self with callback := .added, spawner := .returned true }, .none)
      | .added, .streaming => some ({ self with callback := .added, spawner := .starting }, .none)
      | .newFailed, _ => some ({ self with spawner := .returned false }, .none)
      | .addFailed, _ => some ({ self with spawner := .failing }, .none)
  | .starting =>
      match self.task with
      -- the receiver is gone with the task
      | .ended | .dropped => some ({ self with spawner := .failing }, .none)
      | _ => some ({ self with startSent := true, spawner := .returned true }, .none)
  | .failing => some ({ self with spawner := .returned false }, .abortRequest)
  | .returned _ => none

/-- The task.  `isErr` is the result of sending the request. -/
def taskStep (self : Request) (isErr : Bool) : Option (Request × RegistryCall) :=
  match self.task, self.kind with
  | .awaitingStart, _ =>
      if self.startSent then some ({ self with task := .sending }, .none)
      -- the sender is dropped when the call returns without sending
      else if self.spawner = .returned false then some ({ self with task := .ended }, .none)
      else none
  | .sending, .buffered => some ({ self with task := .finishing isErr }, .none)
  | .sending, .streaming => some ({ self with task := .removing isErr }, .none)
  | .finishing isErr, .buffered =>
      match self.finish .task with
      | (true, self) => some ({ self with task := .removing isErr }, .none)
      | (false, self) => some ({ self with task := .ended }, .none)
  | .finishing false, .streaming => some ({ self with task := .completing false }, .none)
  | .finishing true, .streaming =>
      match self.finish .task with
      | (true, self) => some ({ self with task := .recording true }, .none)
      | (false, self) => some ({ self with task := .completing true }, .none)
  | .removing isErr, .buffered => some ({ self with task := .recording isErr }, .remove)
  | .removing isErr, .streaming => some ({ self with task := .finishing isErr }, .remove)
  | .recording isErr, _ =>
      some ({ self.perform .task (.requestFinished isErr) with task := .completing isErr }, .none)
  | .completing isErr, _ =>
      some ({ self.perform .task (.pythonFutureCompleted isErr) with task := .ended }, .none)
  | .ended, _ | .dropped, _ => none

/-- The runtime drops an aborted task that waits. -/
def dropTask (self : Request) : Option (Request × RegistryCall) :=
  match self.abortRequested, self.task with
  | true, .awaitingStart | true, .sending => some ({ self with task := .dropped }, .none)
  | _, _ => none

/-- What comes after the completion was settled: `abort` is done,
`abort_and_cancel_python` is not. -/
def afterAbort (cancelPython : Bool) : AbortStage :=
  if cancelPython then .cancellingPython else .ended

/-- `ActiveAsyncRequest::abort` and `abort_and_cancel_python`. -/
def abortStep (self : Request) : Option (Request × RegistryCall) :=
  match self.abort with
  | .idle => none
  | .finishing cancelPython =>
      match self.finish .abort with
      | (true, self) =>
          if self.hasTelemetry then
            some ({ self with abort := .cancellingTelemetry cancelPython }, .none)
          else some ({ self with abort := .abortingTask cancelPython }, .none)
      | (false, self) => some ({ self with abort := afterAbort cancelPython }, .none)
  | .cancellingTelemetry cancelPython =>
      some ({ self.perform .abort .telemetryCancelled with abort := .abortingTask cancelPython },
        .none)
  | .abortingTask cancelPython =>
      some ({ self.perform .abort .taskAborted with
        abortRequested := true, abort := .recording cancelPython }, .none)
  | .recording cancelPython =>
      some ({ self.perform .abort (.requestFinished true) with abort := afterAbort cancelPython },
        .none)
  | .cancellingPython =>
      some ({ self.perform .abort .pythonFutureCancelled with abort := .ended }, .none)
  | .ended => none

/-- `StreamState::finish`.  There is no stream before the task sends the request. -/
def streamStep (self : Request) (failed : Bool) : Option (Request × RegistryCall) :=
  match self.kind, self.stream with
  | .streaming, .open_ =>
      if self.startSent && self.task != .awaitingStart then
        match self.finish .stream with
        | (true, self) => some ({ self with stream := .recording failed }, .none)
        | (false, self) => some ({ self with stream := .finished }, .none)
      else none
  | .streaming, .recording failed =>
      some ({ self.perform .stream (.requestFinished failed) with stream := .finished }, .none)
  | .streaming, .finished | .buffered, _ => none

/-- `Future.cancel`, by the caller or by the call that `cancel_python_future` schedules. -/
def cancelFuture (self : Request) : Option (Request × RegistryCall) :=
  match self.future with
  | .pending => some ({ self with future := .cancelled }, .none)
  | _ => none

/-- The setter that the task schedules finds the future pending. -/
def settleFuture (self : Request) : Option (Request × RegistryCall) :=
  match self.future with
  | .pending =>
      if self.effects.any fun entry => entry.2.isCompletion then
        some ({ self with future := .settled }, .none)
      else none
  | _ => none

/-- `PythonFutureCancellation::__call__`. -/
def callCallback (self : Request) : Option (Request × RegistryCall) :=
  match self.callback, self.future with
  | .added, .cancelled => some ({ self with callback := .called }, .abortRequest)
  | .added, .settled => some ({ self with callback := .called }, .none)
  | _, _ => none

/-- One section of one party. -/
inductive Action where
  | spawner (outcome : CallbackOutcome)
  | task (isErr : Bool)
  | dropTask
  | abort
  | stream (failed : Bool)
  | cancelFuture
  | settleFuture
  | callback
deriving DecidableEq, Repr

/-- The request after a section, with the call of the registry that the section makes. -/
def step (self : Request) : Action → Option (Request × RegistryCall)
  | .spawner outcome => self.spawnerStep outcome
  | .task isErr => self.taskStep isErr
  | .dropTask => self.dropTask
  | .abort => self.abortStep
  | .stream failed => self.streamStep failed
  | .cancelFuture => self.cancelFuture
  | .settleFuture => self.settleFuture
  | .callback => self.callCallback

end Request

end FogHttp.AsyncRequests
