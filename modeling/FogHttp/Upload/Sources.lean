import FogHttp.Lib.Positions
import FogHttp.Lib.Transition

/-!
# The sources of a sync upload

A streaming upload reads its bytes from a source that the user gave, and the client closes
the source when it has done with it.  A replayable body calls a factory for a new source in
every attempt.  An `UploadSourceCleanup` belongs to every source, and any number of threads
may try to close it: the feeder at its end, `start` when the source is of the wrong kind,
and the daemon threads that `close` and `start` start to interrupt the source.

* `UploadSourceCleanup` is the claim that those threads compete for.  A thread that could
  not begin the close gives the claim back.
* `Stage` is the place of a thread of `_SyncStreamingUploadBody` between two sections, and
  `Stage.turn` is what it does there.

A source is named by its position in `cleanups`, the cleanups of all sources that there
are.  An answer says what the code outside of the locks does.  What is fed, the errors that
are reported, the joins of `close` and its bounded waits are left out: nothing of it
touches a cleanup.  The iterator of a source has a cleanup of its own, which only the
feeder knows.
-/

namespace FogHttp.UploadSources

open Lib

/-! ## The claim of a source -/

structure UploadSourceCleanup where
  claimed : Bool
  /-- `_interrupt_finished` is set. -/
  interruptFinished : Bool
  /-- How often a close of the source began. -/
  closes : Nat
deriving DecidableEq, Repr

/-- The methods that close the source. -/
inductive Closer where
  | close
  | acloseFromSync
  | interrupt
deriving DecidableEq, Repr

namespace UploadSourceCleanup

/-- `UploadSourceCleanup.__init__`. -/
def new : UploadSourceCleanup := ⟨false, true, 0⟩

/-- The section that takes the claim, or `none` when the method returns there. -/
def claim (self : UploadSourceCleanup) : Closer → Option UploadSourceCleanup
  | .close =>
      if !self.interruptFinished || self.claimed then none
      else some { self with claimed := true }
  | .acloseFromSync => if self.claimed then none else some { self with claimed := true }
  | .interrupt =>
      if self.claimed then none
      else some { self with claimed := true, interruptFinished := false }

/-- The source is closed, when the close begins. -/
def closeSource (self : UploadSourceCleanup) (starts : Bool) : UploadSourceCleanup :=
  { self with closes := self.closes + starts.toNat }

/-- The last section. -/
def finish (self : UploadSourceCleanup) (closer : Closer) (release : Bool) :
    UploadSourceCleanup :=
  { self with
    claimed := self.claimed && !release
    interruptFinished := self.interruptFinished || closer == .interrupt }

end UploadSourceCleanup

/-- The claim is given back when the close did not begin.  An exception that passes through
`close` or `interrupt` leaves the claim taken. -/
def Closer.releases (closer : Closer) (starts raises : Bool) : Bool :=
  !starts && (closer == .acloseFromSync || !raises)

/-! ## The threads of a body -/

/-- What the threads of a body share. -/
structure UploadBody where
  replayable : Bool
  closed : Bool
  /-- `_source_cleanups`. -/
  sourceCleanups : List Nat
  /-- The cleanups of all sources. -/
  cleanups : List UploadSourceCleanup
deriving DecidableEq, Repr

/-- `_SyncStreamingUploadBody.__init__`. -/
def UploadBody.new (replayable : Bool) : UploadBody :=
  if replayable then ⟨true, false, [], []⟩ else ⟨false, false, [0], [.new]⟩

def UploadBody.setCleanup (self : UploadBody) (source : Nat) (cleanup : UploadSourceCleanup) :
    UploadBody :=
  { self with cleanups := self.cleanups.set source cleanup }

/-- What a thread does next. -/
inductive Stage where
  /-- The first look of `start` at `_closed`. -/
  | starting
  /-- `_prepare_factory_source`. -/
  | preparing
  /-- `_register_source_cleanup`, for a source that the factory may have failed with. -/
  | registering (source : Nat) (failed : Bool)
  /-- The body was closed before, so a daemon worker interrupts the source. -/
  | orphaned (source : Nat) (failed : Bool)
  /-- The source is interrupted before the error of its factory is raised. -/
  | failing (source : Nat)
  /-- The second look of `start` at `_closed`. -/
  | fresh (source : Nat)
  /-- `is_async_stream`. -/
  | checking (source : Nat)
  /-- `_start_feeder`. -/
  | launching (source : Nat)
  /-- The feeder until it closes its source. -/
  | feeding (source : Nat)
  /-- `close` of a cleanup waits for an interrupt. -/
  | waiting (source : Nat)
  | claiming (closer : Closer) (source : Nat)
  | closing (closer : Closer) (source : Nat)
  | finishing (closer : Closer) (source : Nat) (release : Bool)
  /-- `close` of the body sets `_closed`. -/
  | shutting
  /-- `close` of the body starts the daemon worker for a position of `_source_cleanups`. -/
  | interrupting (index : Nat)
  | ended
deriving DecidableEq, Repr

/-- What comes from outside. -/
structure Answer where
  /-- A thread starts, or the close of a source begins. -/
  starts : Bool
  /-- The factory or the close of a source raises. -/
  raises : Bool
  /-- The factory returns an `UploadSourceFactoryFailure`. -/
  factoryFails : Bool
  isAsyncStream : Bool
  /-- The time of a wait is over. -/
  timesOut : Bool
deriving DecidableEq, Repr

/-- The body after a turn, the next stage of the thread, and the threads that it starts. -/
abbrev Turn := UploadBody × Stage × List Stage

/-- A thread that interrupts a source, when it starts. -/
def interrupter (source : Nat) (starts : Bool) : List Stage :=
  if starts then [.claiming .interrupt source] else []

def Stage.turn (answer : Answer) (body : UploadBody) : Stage → Option Turn
  | .starting =>
      if body.closed then some (body, .ended, [])
      else if body.replayable then some (body, .preparing, [])
      else some (body, .fresh 0, [])
  | .preparing =>
      if answer.raises then some (body, .ended, [])
      else some ({ body with cleanups := body.cleanups ++ [.new] },
        .registering body.cleanups.length answer.factoryFails, [])
  | .registering source failed =>
      if body.closed then some (body, .orphaned source failed, [])
      else some ({ body with sourceCleanups := body.sourceCleanups ++ [source] },
        if failed then .failing source else .fresh source, [])
  | .orphaned source failed =>
      some (body, if failed then .failing source else .fresh source,
        interrupter source answer.starts)
  | .failing source => some (body, .ended, interrupter source answer.starts)
  | .fresh source => some (body, if body.closed then .ended else .checking source, [])
  | .checking source =>
      some (body, if answer.isAsyncStream then .claiming .acloseFromSync source
        else .launching source, [])
  | .launching source =>
      if body.closed then some (body, .ended, [])
      else some (body, .ended, if answer.starts then [.feeding source] else [])
  | .feeding source => some (body, .waiting source, [])
  | .waiting source => do
      let cleanup ← body.cleanups[source]?
      if cleanup.interruptFinished then some (body, .claiming .close source, [])
      else if answer.timesOut then some (body, .ended, [])
      else none
  | .claiming closer source => do
      let cleanup ← body.cleanups[source]?
      match cleanup.claim closer with
      | none => some (body, .ended, [])
      | some cleanup => some (body.setCleanup source cleanup, .closing closer source, [])
  | .closing closer source => do
      let cleanup ← body.cleanups[source]?
      let release := closer.releases answer.starts answer.raises
      some (body.setCleanup source (cleanup.closeSource answer.starts),
        if release || closer == .interrupt then .finishing closer source release else .ended, [])
  | .finishing closer source release => do
      let cleanup ← body.cleanups[source]?
      some (body.setCleanup source (cleanup.finish closer release), .ended, [])
  | .shutting => some ({ body with closed := true }, .interrupting 0, [])
  | .interrupting index =>
      match body.sourceCleanups[index]? with
      | none => some (body, .ended, [])
      | some source =>
          some (body, .interrupting (index + 1), interrupter source answer.starts)
  | .ended => none

inductive Call where
  | start
  | close
deriving DecidableEq, Repr

def Call.enter : Call → Stage
  | .start => .starting
  | .close => .shutting

structure State where
  body : UploadBody
  threads : List Stage
deriving DecidableEq, Repr

inductive Event where
  /-- A thread calls `start` or `close`. -/
  | call (call : Call)
  | turn (i : Nat) (answer : Answer)
deriving DecidableEq, Repr

def step (state : State) : Event → Option State
  | .call call => some { state with threads := state.threads ++ [call.enter] }
  | .turn i answer => do
      let thread ← state.threads[i]?
      let (body, thread, started) ← thread.turn answer state.body
      some ⟨body, state.threads.set i thread ++ started⟩

/-- All interleavings of the threads of a body. -/
def system (replayable : Bool) : TransitionSystem State Event := ⟨⟨.new replayable, []⟩, step⟩

/-- The worker or the close that a thread wants to start does start. -/
def Stage.begins (answer : Answer) : Stage → Bool
  | .orphaned _ _ | .interrupting _ | .closing _ _ => answer.starts
  | _ => true

/-- Workers that interrupt a source and closes of a source start in this step. -/
def workersStart (state : State) : Event → Bool
  | .call _ => true
  | .turn i answer => (state.threads[i]?.map (Stage.begins answer)).getD true

end FogHttp.UploadSources
