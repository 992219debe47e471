import FogHttp.Lib.Monitor

/-!
# The life of a sync client

A sync `Client` is shared by any number of threads.  Its sends are admitted by a token,
its first send creates the raw client, and `close` waits until no token is left before it
closes the raw client.  All of this happens under one lock with a condition on it, so the
client is a `Monitor`.

* `SendStage` and `CloseStage` are the places of a thread between two sections under the
  lock, or between two steps outside of it.  The unlocked `_ensure_open` at the start of a
  send and the use of a raw client are steps outside.
* A raw client is named by its position in `rawClients`, the raw clients that were
  created.
* An answer says whether the code that runs outside of the lock raises.  A send may raise
  anywhere between its admission and its end, and `RawClient.close` may raise too.

`Condition.wait` is taken not to raise.  A `KeyboardInterrupt` can come out of it in the main
thread: when it ends the wait of a `close` for the last send, `_closed` is set and
`_close_complete` is not, the raw client stays open, and every later `close` waits for a
completion that does not come.

`stats` and the other diagnostics only read the state.  Request building, telemetry,
tracing and the fork checks are left out.
-/

namespace FogHttp.SyncClient

open Lib

/-- What the threads of a client share. -/
structure Client where
  closed : Bool
  client : Option Nat
  activeSyncSendTokens : List Nat
  closeComplete : Bool
  /-- How often `close` was called on every raw client that was created. -/
  rawClients : List Nat
deriving DecidableEq, Repr

namespace Client

/-- `Client.__init__`. -/
def new : Client := ⟨false, none, [], false, []⟩

/-- `_begin_sync_send` of the thread at a position, when the client is open. -/
def beginSyncSend (self : Client) (i : Nat) : Client :=
  { self with activeSyncSendTokens := self.activeSyncSendTokens ++ [i] }

/-- `_raw_client_locked`. -/
def rawClientLocked (self : Client) : Nat × Client :=
  match self.client with
  | some raw => (raw, self)
  | none =>
      (self.rawClients.length,
        { self with
          client := some self.rawClients.length
          rawClients := self.rawClients ++ [0] })

/-- `_finish_sync_send_locked`. -/
def finishSyncSend (self : Client) (i : Nat) : Client :=
  { self with activeSyncSendTokens := self.activeSyncSendTokens.filter (· != i) }

/-- `close_raw_client`. -/
def closeRawClient (self : Client) (raw : Nat) : Client :=
  { self with rawClients := self.rawClients.modify raw (· + 1) }

end Client

/-- What `send` or `_send_stream` does next. -/
inductive SendStage where
  /-- `_ensure_open`. -/
  | entering
  /-- `_begin_sync_send`. -/
  | beginning
  /-- The send has a token, and `_sync_send_raw_client` comes when nothing raises. -/
  | admitted
  /-- The raw client sends the request. -/
  | requesting (raw : Nat)
  /-- `_finish_sync_send`. -/
  | finishing
  | returned
deriving DecidableEq, Repr

/-- What `_close` does next. -/
inductive CloseStage where
  /-- The section that begins the close. -/
  | entering
  /-- The close waits for the tokens, in the section or in `wait()`. -/
  | draining
  /-- The close waits for another one. -/
  | awaiting
  /-- `close_raw_client`. -/
  | closing (raw : Nat)
  /-- The section in the `finally` block, with the raw client unless an exception passes. -/
  | completing (raw : Option Nat)
  /-- `emit_native_events`. -/
  | emitting (raw : Nat)
  | returned
deriving DecidableEq, Repr

inductive Stage where
  | send (stage : SendStage)
  | close (stage : CloseStage)
deriving DecidableEq, Repr

inductive Call where
  | send
  | close
deriving DecidableEq, Repr

/-- The first stage of a call. -/
def Call.enter : Call → Stage
  | .send => .send .entering
  | .close => .close .entering

/-- The client after a turn, the next stage, and whether the turn ends in `wait()` and
whether it calls `notify_all()`. -/
abbrev Turn := Client × Stage × Bool × Bool

/-- A turn that touches no condition. -/
def plain (client : Client) (stage : Stage) : Turn := (client, stage, false, false)

def SendStage.turn (i : Nat) (raises : Bool) (client : Client) : SendStage → Option Turn
  | .entering =>
      some (plain client (.send (if client.closed then .returned else .beginning)))
  | .beginning =>
      if client.closed then some (plain client (.send .finishing))
      else some (plain (client.beginSyncSend i) (.send .admitted))
  | .admitted =>
      if raises then some (plain client (.send .finishing))
      else
        let (raw, client) := client.rawClientLocked
        some (plain client (.send (.requesting raw)))
  | .requesting _ => some (plain client (.send .finishing))
  | .finishing =>
      let client := client.finishSyncSend i
      some (client, .send .returned, false, client.activeSyncSendTokens.isEmpty)
  | .returned => none

/-- The loop of the close that comes first, and what follows it under the lock. -/
def drain (client : Client) : Turn :=
  if !client.activeSyncSendTokens.isEmpty then (client, .close .draining, true, false)
  else
    match client.client with
    | none => ({ client with closeComplete := true }, .close .returned, false, true)
    | some raw => plain { client with client := none } (.close (.closing raw))

/-- The loop of any other close. -/
def awaitComplete (client : Client) : Turn :=
  if !client.closeComplete then (client, .close .awaiting, true, false)
  else plain client (.close .returned)

def CloseStage.turn (raises : Bool) (client : Client) : CloseStage → Option Turn
  | .entering =>
      some (if client.closed then awaitComplete client else drain { client with closed := true })
  | .draining => some (drain client)
  | .awaiting => some (awaitComplete client)
  | .closing raw =>
      some (plain (client.closeRawClient raw)
        (.close (.completing (if raises then none else some raw))))
  | .completing raw =>
      some ({ client with closeComplete := true },
        .close (raw.elim .returned .emitting), false, true)
  | .emitting _ => some (plain client (.close .returned))
  | .returned => none

def Stage.turn (i : Nat) (raises : Bool) (client : Client) : Stage → Option Turn
  | .send stage => stage.turn i raises client
  | .close stage => stage.turn raises client

/-- A client, and all interleavings of its sends and closes. -/
def monitor : Monitor Client Stage Call Bool := ⟨.new, Call.enter, Stage.turn⟩

end FogHttp.SyncClient
