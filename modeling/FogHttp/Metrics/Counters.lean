import FogHttp.Lib.Cas
import FogHttp.Lib.Shares
import Mathlib.Logic.Function.Basic

/-!
# The counters of a client

A client counts what it does twice: in its `Metrics`, and in the `OriginMetrics` of the origin
that it does it for.  Any number of threads count at the same time, with atomic operations and
without a lock.

* `Tally` is what both kinds of metrics have in common and what is compared later: numbers of
  events, and the total and the maximum of the times that were waited.
* `Op` is a statement on such counters, and `Op.step` is one atomic operation of it.  Some
  statements are loops that compare and exchange.
* `Method` names the pairs of methods of the two kinds of metrics, and `Report` is what a caller
  counts at once, in the order of its statements.
* `Op.record` and `Report.effect` say what the statements and the reports amount to, without
  regard to the other threads and to the width of a total.

`Op.step_cases` says what an operation does, and `Report.settles` that the statements of a
report do what the report says, on either side.
-/

namespace FogHttp.Metrics

open Lib

/-! ## Tallies -/

/-- The counters of events, and the numbers of requests and connections. -/
inductive Count where
  | activeRequests
  | pendingRequests
  | poolAcquireAttempts
  | poolAcquireImmediate
  | poolAcquireWaited
  | poolAcquireTimeouts
  | connectionAcquireAttempts
  | connectionAcquireImmediate
  | connectionAcquireWaited
  | connectionAcquireTimeouts
  | responseBodyReuseEligible
  | responseBodyClosed
  | responseBodyAborted
  | activeConnections
  | idleConnections
  | connectionsOpened
  | connectionsOpenFailed
  | connectionsClosed
  | connectionsReused
  | connectionsAborted
  | idleTimeoutEvictions
deriving DecidableEq, Repr

/-- What a request waits for. -/
inductive Wait where
  | poolAcquire
  | connectionAcquire
deriving DecidableEq, Repr

/-- `u64::MAX`. -/
def u64Max : Nat := 2 ^ 64 - 1

@[ext]
structure Tally where
  count : Count → Nat
  waitTimeTotalNs : Wait → Nat
  waitTimeMaxNs : Wait → Nat

namespace Tally

instance : Zero Tally := ⟨⟨fun _ => 0, fun _ => 0, fun _ => 0⟩⟩

/-- Two tallies together. -/
instance : Add Tally where
  add left right :=
    ⟨fun c => left.count c + right.count c,
      fun w => left.waitTimeTotalNs w + right.waitTimeTotalNs w,
      fun w => max (left.waitTimeMaxNs w) (right.waitTimeMaxNs w)⟩

instance : AddCommMonoid Tally where
  zero_add _ := Tally.ext (funext fun _ => Nat.zero_add _) (funext fun _ => Nat.zero_add _)
    (funext fun _ => Nat.zero_max _)
  add_zero _ := Tally.ext rfl rfl (funext fun _ => Nat.max_zero _)
  add_assoc _ _ _ := Tally.ext (funext fun _ => Nat.add_assoc _ _ _)
    (funext fun _ => Nat.add_assoc _ _ _) (funext fun _ => Nat.max_assoc _ _ _)
  add_comm _ _ := Tally.ext (funext fun _ => Nat.add_comm _ _) (funext fun _ => Nat.add_comm _ _)
    (funext fun _ => Nat.max_comm _ _)
  nsmul := nsmulRec

/-- A number of events. -/
def setCount (tally : Tally) (c : Count) (n : Nat) : Tally :=
  { tally with count := Function.update tally.count c n }

theorem setCount_count_self (tally : Tally) (c : Count) (n : Nat) :
    (tally.setCount c n).count c = n := Function.update_self _ _ _

theorem setCount_count_of_ne (tally : Tally) {c d : Count} (n : Nat) (h : d ≠ c) :
    (tally.setCount c n).count d = tally.count d := Function.update_of_ne h _ _

/-- One more. -/
def gain (c : Count) (tally : Tally) : Tally := tally.setCount c (tally.count c + 1)

/-- One less. -/
def lose (c : Count) (tally : Tally) : Tally := tally.setCount c (tally.count c - 1)

/-- More time was waited in total. -/
def lengthen (w : Wait) (ns : Nat) (tally : Tally) : Tally :=
  { tally with
    waitTimeTotalNs := Function.update tally.waitTimeTotalNs w (tally.waitTimeTotalNs w + ns) }

/-- So much time was waited at once. -/
def stretch (w : Wait) (ns : Nat) (tally : Tally) : Tally :=
  { tally with
    waitTimeMaxNs := Function.update tally.waitTimeMaxNs w (max (tally.waitTimeMaxNs w) ns) }

/-- The tally in 64-bit totals, which stay at their maximum. -/
def saturated (tally : Tally) : Tally :=
  { tally with waitTimeTotalNs := fun w => min (tally.waitTimeTotalNs w) u64Max }

theorem saturated_count (tally : Tally) (c : Count) : tally.saturated.count c = tally.count c :=
  rfl

end Tally

/-! ## Statements -/

/-- The counters of `Metrics` and of `OriginMetrics` in one structure.  Only `OriginMetrics` has
the last two.  Its `idle_state` is the number of idle connections together with
`idleStartedAtNs`; they change in one section. -/
@[ext]
structure Account where
  tally : Tally
  peakPendingRequests : Nat
  waitTimeLastNs : Wait → Nat
  lastActivityAtNs : Nat
  idleStartedAtNs : Nat

namespace Account

def new : Account := ⟨0, 0, fun _ => 0, 0, 0⟩

end Account

/-- The counters that compare-exchange loops change. -/
inductive Cell where
  | count (c : Count)
  | waitTimeTotalNs (w : Wait)
  | waitTimeMaxNs (w : Wait)
  | peakPendingRequests
  | lastActivityAtNs
deriving DecidableEq, Repr

namespace Account

def read (account : Account) : Cell → Nat
  | .count c => account.tally.count c
  | .waitTimeTotalNs w => account.tally.waitTimeTotalNs w
  | .waitTimeMaxNs w => account.tally.waitTimeMaxNs w
  | .peakPendingRequests => account.peakPendingRequests
  | .lastActivityAtNs => account.lastActivityAtNs

def write (account : Account) (value : Nat) : Cell → Account
  | .count c => { account with tally := account.tally.setCount c value }
  | .waitTimeTotalNs w =>
      { account with tally := { account.tally with
          waitTimeTotalNs := Function.update account.tally.waitTimeTotalNs w value } }
  | .waitTimeMaxNs w =>
      { account with tally := { account.tally with
          waitTimeMaxNs := Function.update account.tally.waitTimeMaxNs w value } }
  | .peakPendingRequests => { account with peakPendingRequests := value }
  | .lastActivityAtNs => { account with lastActivityAtNs := value }

end Account

/-- `saturating_atomic_u64_add`. -/
def saturatingAtomicU64Add (value : Nat) : AtomicLoop Unit where
  returnsAtOnce := false
  update current := .ok (min (current + value) u64Max)

/-- `saturating_atomic_usize_sub`. -/
def saturatingAtomicUsizeSub (value : Nat) : AtomicLoop Unit where
  returnsAtOnce := false
  update current := .ok (current - value)

/-- `update_atomic_usize_max` and `update_atomic_u64_max`.  The loop ends without an exchange
when the counter is not smaller. -/
def updateAtomicMax (value : Nat) : AtomicLoop Unit where
  returnsAtOnce := false
  update current := if value > current then .ok value else .error ()

/-- `duration_as_nanos`. -/
def durationAsNanos (ns : Nat) : Nat := min ns u64Max

/-- A statement on the counters of one side. -/
inductive Op where
  | fetchAdd (c : Count)
  | fetchSub (c : Count)
  | saturatingSub (c : Count)
  | saturatingAdd (w : Wait) (ns : Nat)
  | updateMax (w : Wait) (ns : Nat)
  | store (w : Wait) (ns : Nat)
  /-- `pending_requests.fetch_add`, whose result goes to the peak. -/
  | register
  | raisePeak (current : Nat)
  /-- `touch`. -/
  | touch
  /-- `touch`, whose result goes to the idle state. -/
  | touchIdle
  | raiseActivity (now : Nat)
  /-- The section of `connection_became_idle`. -/
  | enterIdle (startedAt : Nat)
  /-- The section of `connection_left_idle`. -/
  | leaveIdle
deriving DecidableEq, Repr

/-- What is left of a statement after an operation. -/
inductive Progress where
  /-- The statement goes on in its loop. -/
  | again (cas : Cas Unit)
  /-- The clock was read, and these statements follow. -/
  | goes (left : List Op)
  /-- The statement has had its effect, and these statements follow. -/
  | did (left : List Op)

namespace Op

/-- The loop of a statement and the counter that it is about. -/
def loop : Op → Option (Cell × AtomicLoop Unit)
  | .saturatingSub c => some (.count c, saturatingAtomicUsizeSub 1)
  | .saturatingAdd w ns => some (.waitTimeTotalNs w, saturatingAtomicU64Add ns)
  | .updateMax w ns => some (.waitTimeMaxNs w, updateAtomicMax ns)
  | .raisePeak current => some (.peakPendingRequests, updateAtomicMax current)
  | .raiseActivity now => some (.lastActivityAtNs, updateAtomicMax now)
  | _ => none

/-- One operation of a loop. -/
def loopStep (spurious : Bool) (account : Account) (cas : Cas Unit)
    (target : Cell × AtomicLoop Unit) : Option (Account × Progress) := do
  let (value, cas) ← target.2.step spurious (account.read target.1) cas
  some (account.write value target.1, match cas with
    | .done _ => .did []
    | cas => .again cas)

/-- One atomic operation of a statement. -/
def step (now : Nat) (spurious : Bool) (account : Account) (cas : Cas Unit) :
    Op → Option (Account × Progress)
  | .fetchAdd c => some ({ account with tally := account.tally.gain c }, .did [])
  | .fetchSub c => some ({ account with tally := account.tally.lose c }, .did [])
  | .register =>
      some ({ account with tally := account.tally.gain .pendingRequests },
        .did [.raisePeak (account.tally.count .pendingRequests + 1)])
  | .store w ns =>
      some ({ account with waitTimeLastNs := Function.update account.waitTimeLastNs w ns },
        .did [])
  | .touch => some (account, .goes [.raiseActivity now])
  | .touchIdle => some (account, .goes [.raiseActivity now, .enterIdle now])
  | .enterIdle startedAt =>
      some ({ account with
        tally := account.tally.gain .idleConnections
        idleStartedAtNs :=
          if account.tally.count .idleConnections = 0 then startedAt
          else account.idleStartedAtNs }, .did [])
  | .leaveIdle =>
      some ({ account with
        tally := account.tally.lose .idleConnections
        idleStartedAtNs :=
          if account.tally.count .idleConnections - 1 = 0 then 0
          else account.idleStartedAtNs }, .did [])
  | op => op.loop >>= loopStep spurious account cas

/-- What the statement adds to a tally, or takes from it. -/
def record : Op → Tally → Tally
  | .fetchAdd c => Tally.gain c
  | .fetchSub c => Tally.lose c
  | .saturatingSub c => Tally.lose c
  | .saturatingAdd w ns => Tally.lengthen w ns
  | .updateMax w ns => Tally.stretch w ns
  | .register => Tally.gain .pendingRequests
  | .touchIdle => Tally.gain .idleConnections
  | .enterIdle _ => Tally.gain .idleConnections
  | .leaveIdle => Tally.lose .idleConnections
  | _ => id

/-- The tally has what the statement takes. -/
def Affords (tally : Tally) : Op → Prop
  | .fetchSub c => 0 < tally.count c
  | .saturatingSub c => 0 < tally.count c
  | .leaveIdle => 0 < tally.count .idleConnections
  | _ => True

end Op

/-! ## Methods -/

/-- `ResponseBodyLifecycleOutcome`. -/
inductive ResponseBodyLifecycleOutcome where
  | reuseEligible
  | closed
  | aborted
deriving DecidableEq, Repr

/-- The counter of an outcome. -/
def ResponseBodyLifecycleOutcome.count : ResponseBodyLifecycleOutcome → Count
  | .reuseEligible => .responseBodyReuseEligible
  | .closed => .responseBodyClosed
  | .aborted => .responseBodyAborted

/-- The methods that `Metrics` and `OriginMetrics` both have, by the name of the latter's. -/
inductive Method where
  | activeRequestStarted
  | activeRequestFinished
  | pendingRequestStarted
  | pendingRequestFinished
  | poolAcquireStarted
  | poolAcquireFinishedImmediately
  | poolAcquireWaited
  | poolAcquireTimeout
  | poolAcquireWaitFinished (elapsed : Nat)
  | connectionAcquireStarted
  | connectionAcquireFinishedImmediately
  | connectionAcquireWaited
  | connectionAcquireTimeout
  | connectionAcquireWaitFinished (elapsed : Nat)
  | responseBodyFinished (outcome : ResponseBodyLifecycleOutcome)
  | connectionOpened
  | connectionOpenFailed
  | connectionClosed
  | connectionBecameIdle
  | connectionLeftIdle
  | connectionReused
  | connectionAborted
  | idleTimeoutEviction
deriving DecidableEq, Repr

/-- The three statements about a wait. -/
def waitFinished (w : Wait) (elapsed : Nat) : List Op :=
  [.saturatingAdd w (durationAsNanos elapsed), .updateMax w (durationAsNanos elapsed),
    .store w (durationAsNanos elapsed)]

namespace Method

/-- The method of `Metrics`. -/
def onMetrics : Method → List Op
  | .activeRequestStarted => [.fetchAdd .activeRequests]
  | .activeRequestFinished => [.fetchSub .activeRequests]
  | .pendingRequestStarted => [.register]
  | .pendingRequestFinished => [.fetchSub .pendingRequests]
  | .poolAcquireStarted => [.fetchAdd .poolAcquireAttempts]
  | .poolAcquireFinishedImmediately => [.fetchAdd .poolAcquireImmediate]
  | .poolAcquireWaited => [.fetchAdd .poolAcquireWaited]
  | .poolAcquireTimeout => [.fetchAdd .poolAcquireTimeouts]
  | .poolAcquireWaitFinished elapsed => waitFinished .poolAcquire elapsed
  | .connectionAcquireStarted => [.fetchAdd .connectionAcquireAttempts]
  | .connectionAcquireFinishedImmediately => [.fetchAdd .connectionAcquireImmediate]
  | .connectionAcquireWaited => [.fetchAdd .connectionAcquireWaited]
  | .connectionAcquireTimeout => [.fetchAdd .connectionAcquireTimeouts]
  | .connectionAcquireWaitFinished elapsed => waitFinished .connectionAcquire elapsed
  | .responseBodyFinished outcome => [.fetchAdd outcome.count]
  | .connectionOpened => [.fetchAdd .activeConnections, .fetchAdd .connectionsOpened]
  | .connectionOpenFailed => [.fetchAdd .connectionsOpenFailed]
  | .connectionClosed => [.saturatingSub .activeConnections, .fetchAdd .connectionsClosed]
  | .connectionBecameIdle => [.fetchAdd .idleConnections]
  | .connectionLeftIdle => [.saturatingSub .idleConnections]
  | .connectionReused => [.fetchAdd .connectionsReused]
  | .connectionAborted => [.fetchAdd .connectionsAborted]
  | .idleTimeoutEviction => [.fetchAdd .idleTimeoutEvictions]

/-- The method of `OriginMetrics`. -/
def onOrigin : Method → List Op
  | .connectionBecameIdle => [.touchIdle]
  | .connectionLeftIdle => [.leaveIdle, .touch]
  | method => method.onMetrics ++ [.touch]

/-- The number that the method takes one from. -/
def spends : Method → Option Count
  | .activeRequestFinished => some .activeRequests
  | .pendingRequestFinished => some .pendingRequests
  | .connectionClosed => some .activeConnections
  | .connectionLeftIdle => some .idleConnections
  | _ => none

/-- What the method says. -/
def effect : Method → Tally → Tally
  | .activeRequestStarted => Tally.gain .activeRequests
  | .activeRequestFinished => Tally.lose .activeRequests
  | .pendingRequestStarted => Tally.gain .pendingRequests
  | .pendingRequestFinished => Tally.lose .pendingRequests
  | .poolAcquireStarted => Tally.gain .poolAcquireAttempts
  | .poolAcquireFinishedImmediately => Tally.gain .poolAcquireImmediate
  | .poolAcquireWaited => Tally.gain .poolAcquireWaited
  | .poolAcquireTimeout => Tally.gain .poolAcquireTimeouts
  | .poolAcquireWaitFinished elapsed => fun tally =>
      (tally.lengthen .poolAcquire (durationAsNanos elapsed)).stretch .poolAcquire
        (durationAsNanos elapsed)
  | .connectionAcquireStarted => Tally.gain .connectionAcquireAttempts
  | .connectionAcquireFinishedImmediately => Tally.gain .connectionAcquireImmediate
  | .connectionAcquireWaited => Tally.gain .connectionAcquireWaited
  | .connectionAcquireTimeout => Tally.gain .connectionAcquireTimeouts
  | .connectionAcquireWaitFinished elapsed => fun tally =>
      (tally.lengthen .connectionAcquire (durationAsNanos elapsed)).stretch .connectionAcquire
        (durationAsNanos elapsed)
  | .responseBodyFinished outcome => Tally.gain outcome.count
  | .connectionOpened => fun tally => (tally.gain .activeConnections).gain .connectionsOpened
  | .connectionOpenFailed => Tally.gain .connectionsOpenFailed
  | .connectionClosed => fun tally => (tally.lose .activeConnections).gain .connectionsClosed
  | .connectionBecameIdle => Tally.gain .idleConnections
  | .connectionLeftIdle => Tally.lose .idleConnections
  | .connectionReused => Tally.gain .connectionsReused
  | .connectionAborted => Tally.gain .connectionsAborted
  | .idleTimeoutEviction => Tally.gain .idleTimeoutEvictions

end Method

/-! ## Reports -/

inductive Side where
  | metrics
  | origin
deriving DecidableEq, Repr

/-- A statement and whose counters it is about. -/
structure Task where
  side : Side
  op : Op
deriving DecidableEq, Repr

/-- What a caller counts at once. -/
inductive Report where
  /-- The method of `Metrics`, and then the method of `OriginMetrics`. -/
  | both (method : Method)
  /-- The drop of a `PendingAcquire`. -/
  | pendingAcquireDropped (elapsed : Nat)
deriving DecidableEq, Repr

namespace Report

/-- The statements of a report. -/
def tasks : Report → List Task
  | .both method => method.onMetrics.map (⟨.metrics, ·⟩) ++ method.onOrigin.map (⟨.origin, ·⟩)
  | .pendingAcquireDropped elapsed =>
      (Method.pendingRequestFinished.onMetrics ++
          (Method.poolAcquireWaitFinished elapsed).onMetrics).map (⟨.metrics, ·⟩) ++
        (Method.pendingRequestFinished.onOrigin ++
          (Method.poolAcquireWaitFinished elapsed).onOrigin).map (⟨.origin, ·⟩)

/-- The number that the report takes one from. -/
def spends : Report → Option Count
  | .both method => method.spends
  | .pendingAcquireDropped _ => some .pendingRequests

/-- What the report says. -/
def effect : Report → Tally → Tally
  | .both method => method.effect
  | .pendingAcquireDropped elapsed => fun tally =>
      (Method.poolAcquireWaitFinished elapsed).effect (Method.pendingRequestFinished.effect tally)

/-- What is taken was added before. -/
def affordable (tally : Tally) (report : Report) : Bool :=
  report.spends.all fun c => decide (0 < tally.count c)

end Report

/-! ## What the statements record -/

namespace Tally

/-- An entry of a combination of two functions changes with an entry of the first. -/
theorem update_combine {κ : Type} [DecidableEq κ] (combine : Nat → Nat → Nat)
    (left right : κ → Nat) (k : κ) (value : Nat) :
    Function.update (fun d => combine (left d) (right d)) k (combine value (right k)) =
      fun d => combine (Function.update left k value d) (right d) := by
  funext d
  by_cases hd : d = k
  · rw [hd, Function.update_self, Function.update_self]
  · rw [Function.update_of_ne hd, Function.update_of_ne hd]

theorem gain_within (c : Count) (tally : Tally) : ActsWithin (gain c) tally := by
  intro others
  have hvalue : tally.count c + others.count c + 1 = tally.count c + 1 + others.count c :=
    Nat.add_right_comm _ _ _
  refine Tally.ext ?_ rfl rfl
  exact (congrArg (Function.update _ c) hvalue).trans (update_combine (· + ·) _ _ c _)

theorem lose_within {c : Count} {tally : Tally} (h : 0 < tally.count c) :
    ActsWithin (lose c) tally := by
  intro others
  have hvalue : tally.count c + others.count c - 1 = tally.count c - 1 + others.count c :=
    Nat.sub_add_comm h
  refine Tally.ext ?_ rfl rfl
  exact (congrArg (Function.update _ c) hvalue).trans (update_combine (· + ·) _ _ c _)

theorem lengthen_within (w : Wait) (ns : Nat) (tally : Tally) :
    ActsWithin (lengthen w ns) tally := by
  intro others
  have hvalue : tally.waitTimeTotalNs w + others.waitTimeTotalNs w + ns =
      tally.waitTimeTotalNs w + ns + others.waitTimeTotalNs w := Nat.add_right_comm _ _ _
  refine Tally.ext rfl ?_ rfl
  exact (congrArg (Function.update _ w) hvalue).trans (update_combine (· + ·) _ _ w _)

theorem stretch_within (w : Wait) (ns : Nat) (tally : Tally) :
    ActsWithin (stretch w ns) tally := by
  intro others
  have hvalue : max (max (tally.waitTimeMaxNs w) (others.waitTimeMaxNs w)) ns =
      max (max (tally.waitTimeMaxNs w) ns) (others.waitTimeMaxNs w) := by
    omega
  refine Tally.ext rfl rfl ?_
  exact (congrArg (Function.update _ w) hvalue).trans (update_combine max _ _ w _)

theorem saturated_add (left right : Tally) :
    (left.saturated + right).saturated = (left + right).saturated := by
  refine Tally.ext rfl (funext fun w => ?_) rfl
  change min (min _ _ + _) _ = min (_ + _) _
  omega

theorem saturated_saturated (tally : Tally) : tally.saturated.saturated = tally.saturated := by
  refine Tally.ext rfl (funext fun w => ?_) rfl
  exact Nat.min_eq_left (Nat.min_le_right _ _)

theorem add_saturated (left right : Tally) :
    (left + right.saturated).saturated = (left + right).saturated := by
  rw [add_comm, saturated_add, add_comm]

/-- A longer total, after it was kept in 64 bits. -/
theorem saturated_lengthen (w : Wait) (ns : Nat) (tally : Tally) :
    (tally.saturated.lengthen w ns).saturated = (tally.lengthen w ns).saturated := by
  have hsplit : tally.lengthen w ns = tally + (0 : Tally).lengthen w ns := by
    have h := lengthen_within w ns 0 tally
    rw [zero_add] at h
    rw [h, add_comm]
  have hsaturated : tally.saturated.lengthen w ns =
      tally.saturated + (0 : Tally).lengthen w ns := by
    have h := lengthen_within w ns 0 tally.saturated
    rw [zero_add] at h
    rw [h, add_comm]
  rw [hsplit, hsaturated, saturated_add]

end Tally

namespace Op

/-- A statement acts on a total as it acts on a share that can afford it. -/
theorem record_within {op : Op} {tally : Tally} (h : op.Affords tally) :
    ActsWithin op.record tally := by
  cases op with
  | fetchAdd c => exact Tally.gain_within c tally
  | fetchSub c => exact Tally.lose_within h
  | saturatingSub c => exact Tally.lose_within h
  | saturatingAdd w ns => exact Tally.lengthen_within w ns tally
  | updateMax w ns => exact Tally.stretch_within w ns tally
  | register => exact Tally.gain_within _ tally
  | touchIdle => exact Tally.gain_within _ tally
  | enterIdle startedAt => exact Tally.gain_within _ tally
  | leaveIdle => exact Tally.lose_within h
  | store w ns => exact ActsWithin.id tally
  | raisePeak current => exact ActsWithin.id tally
  | touch => exact ActsWithin.id tally
  | raiseActivity now => exact ActsWithin.id tally

theorem record_saturated (op : Op) (tally : Tally) :
    (op.record tally.saturated).saturated = (op.record tally).saturated := by
  cases op with
  | fetchAdd c => exact Tally.saturated_saturated (tally.gain c)
  | fetchSub c => exact Tally.saturated_saturated (tally.lose c)
  | saturatingSub c => exact Tally.saturated_saturated (tally.lose c)
  | saturatingAdd w ns => exact Tally.saturated_lengthen w ns tally
  | updateMax w ns => exact Tally.saturated_saturated (tally.stretch w ns)
  | register => exact Tally.saturated_saturated (tally.gain .pendingRequests)
  | touchIdle => exact Tally.saturated_saturated (tally.gain .idleConnections)
  | enterIdle startedAt => exact Tally.saturated_saturated (tally.gain .idleConnections)
  | leaveIdle => exact Tally.saturated_saturated (tally.lose .idleConnections)
  | store w ns => exact Tally.saturated_saturated tally
  | raisePeak current => exact Tally.saturated_saturated tally
  | touch => exact Tally.saturated_saturated tally
  | raiseActivity now => exact Tally.saturated_saturated tally

/-- What some statements record, one after the other. -/
def recordAll : List Op → Tally → Tally
  | [], tally => tally
  | op :: rest, tally => recordAll rest (op.record tally)

/-- Each of the statements has what it takes. -/
def AffordsAll : List Op → Tally → Prop
  | [], _ => True
  | op :: rest, tally => op.Affords tally ∧ AffordsAll rest (op.record tally)

theorem recordAll_append (ops more : List Op) (tally : Tally) :
    recordAll (ops ++ more) tally = recordAll more (recordAll ops tally) := by
  induction ops generalizing tally with
  | nil => rfl
  | cons op rest ih => exact ih (op.record tally)

theorem affordsAll_append {ops more : List Op} {tally : Tally} (h : AffordsAll ops tally)
    (hmore : AffordsAll more (recordAll ops tally)) : AffordsAll (ops ++ more) tally := by
  induction ops generalizing tally with
  | nil => exact hmore
  | cons op rest ih => exact ⟨h.1, ih h.2 hmore⟩

/-- The statements record this and take nothing. -/
structure Amounts (left : List Op) (change : Tally → Tally) : Prop where
  records : ∀ tally, recordAll left tally = change tally
  affords : ∀ tally, AffordsAll left tally

theorem Amounts.nil : Amounts [] id := ⟨fun _ => rfl, fun _ => trivial⟩

/-- Where a thread can stand in the statement. -/
def Valid (op : Op) (cas : Cas Unit) : Prop :=
  ∀ target, op.loop = some target → target.2.Valid cas

theorem valid_load (op : Op) : op.Valid .load := by
  intro target htarget
  cases op with
  | saturatingSub c =>
      obtain rfl := Option.some.inj htarget
      rfl
  | saturatingAdd w ns =>
      obtain rfl := Option.some.inj htarget
      rfl
  | updateMax w ns =>
      obtain rfl := Option.some.inj htarget
      rfl
  | raisePeak current =>
      obtain rfl := Option.some.inj htarget
      rfl
  | raiseActivity now =>
      obtain rfl := Option.some.inj htarget
      rfl
  | _ => exact absurd htarget.symm (Option.some_ne_none _)

/-- What an operation of a statement does: it leaves the counters alone, or the statement has
its whole effect at once. -/
inductive Steps (op : Op) (account next : Account) : Progress → Prop
  | again {cas : Cas Unit} (hvalid : op.Valid cas) (hnext : next = account) :
      Steps op account next (.again cas)
  | goes {left : List Op} (hleft : Amounts left op.record) (hnext : next = account) :
      Steps op account next (.goes left)
  | did {left : List Op} (hleft : Amounts left id)
      (hnext : next.tally = (op.record account.tally).saturated) :
      Steps op account next (.did left)

end Op

theorem Account.write_read (account : Account) (cell : Cell) :
    account.write (account.read cell) cell = account := by
  cases cell with
  | count c =>
      exact Account.ext (Tally.ext (Function.update_eq_self c _) rfl rfl) rfl rfl rfl rfl
  | waitTimeTotalNs w =>
      exact Account.ext (Tally.ext rfl (Function.update_eq_self w _) rfl) rfl rfl rfl rfl
  | waitTimeMaxNs w =>
      exact Account.ext (Tally.ext rfl rfl (Function.update_eq_self w _)) rfl rfl rfl rfl
  | peakPendingRequests => rfl
  | lastActivityAtNs => rfl

section Loops

variable {loop : AtomicLoop Unit} {spurious : Bool} {counter after : Nat} {cas : Cas Unit}
  {result : Except Unit Unit}

/-- A loop that always stores a value leaves this value. -/
theorem after_of_update {expected : Nat} (hvalid : loop.Valid cas)
    (h : loop.step spurious counter cas = some (after, .done result))
    (hsettle : loop.settle counter = .ok expected) : after = expected := by
  have hsettled := (AtomicLoop.settle_of_step hvalid h).1
  rw [hsettle] at hsettled
  cases result with
  | ok _ => exact (Except.ok.inj hsettled).symm
  | error _ => exact absurd hsettled.symm (by simp [Except.map])

/-- The loop leaves the maximum, also when it ends without an exchange. -/
theorem after_of_updateAtomicMax {value : Nat} (hvalid : (updateAtomicMax value).Valid cas)
    (h : (updateAtomicMax value).step spurious counter cas = some (after, .done result)) :
    after = max counter value := by
  by_cases hgreater : value > counter
  · have hsettle : (updateAtomicMax value).settle counter = .ok value := if_pos hgreater
    rw [after_of_update hvalid h hsettle]
    omega
  · have hsettle : (updateAtomicMax value).settle counter = .error () := if_neg hgreater
    obtain ⟨hsettled, hkept⟩ := AtomicLoop.settle_of_step hvalid h
    rw [hsettle] at hsettled
    have hsame : after = counter := by
      cases result with
      | ok _ => exact absurd hsettled (by simp [Except.map])
      | error _ => exact hkept.resolve_left Bool.false_ne_true
    rw [hsame]
    omega

end Loops

namespace Op

/-- A loop that ends has had the effect of its statement. -/
theorem loop_done {op : Op} {account : Account} {target : Cell × AtomicLoop Unit}
    {spurious : Bool} {cas : Cas Unit} {value : Nat} {result : Except Unit Unit}
    (hloop : op.loop = some target) (hvalid : target.2.Valid cas)
    (hsaturated : account.tally.saturated = account.tally)
    (h : target.2.step spurious (account.read target.1) cas = some (value, .done result)) :
    (account.write value target.1).tally = (op.record account.tally).saturated := by
  cases op with
  | saturatingSub c =>
      obtain rfl := Option.some.inj hloop
      rw [after_of_update hvalid h rfl]
      exact congrArg (Tally.lose c) hsaturated.symm
  | saturatingAdd w ns =>
      obtain rfl := Option.some.inj hloop
      rw [after_of_update hvalid h rfl]
      refine Tally.ext rfl (funext fun v => ?_) rfl
      have htotal := congrFun (congrArg Tally.waitTimeTotalNs hsaturated) v
      change Function.update account.tally.waitTimeTotalNs w _ v =
        min (Function.update account.tally.waitTimeTotalNs w _ v) u64Max
      by_cases hv : v = w
      · rw [hv, Function.update_self, Function.update_self]
        rfl
      · rw [Function.update_of_ne hv, Function.update_of_ne hv]
        exact htotal.symm
  | updateMax w ns =>
      obtain rfl := Option.some.inj hloop
      rw [after_of_updateAtomicMax hvalid h]
      exact congrArg (Tally.stretch w ns) hsaturated.symm
  | raisePeak current =>
      obtain rfl := Option.some.inj hloop
      exact hsaturated.symm
  | raiseActivity now =>
      obtain rfl := Option.some.inj hloop
      exact hsaturated.symm
  | _ => exact absurd hloop.symm (Option.some_ne_none _)

/-- What an operation of a statement does. -/
theorem step_cases {op : Op} {account next : Account} {now : Nat} {spurious : Bool}
    {cas : Cas Unit} {progress : Progress} (hvalid : op.Valid cas)
    (hsaturated : account.tally.saturated = account.tally)
    (h : op.step now spurious account cas = some (next, progress)) :
    op.Steps account next progress := by
  have hloops : op.loop >>= loopStep spurious account cas = some (next, progress) →
      op.Steps account next progress := by
    intro h
    obtain ⟨target, htarget, h⟩ := Option.bind_eq_some_iff.mp h
    obtain ⟨⟨value, after⟩, hstep, h⟩ := Option.bind_eq_some_iff.mp h
    obtain ⟨rfl, rfl⟩ := Prod.mk.inj (Option.some.inj h)
    have hstays : (∀ result, after ≠ .done result) →
        target.2.Valid after ∧ account.write value target.1 = account := by
      intro hopen
      obtain ⟨hloops, hbody | hdone⟩ := AtomicLoop.step_cases (hvalid target htarget) hstep
      · rw [hbody.1, hbody.2]
        exact ⟨AtomicLoop.valid_body hloops _, account.write_read target.1⟩
      · exact absurd hdone.2 (hopen _)
    have hagain : (∀ result, after ≠ .done result) →
        op.Steps account (account.write value target.1) (.again after) := by
      intro hopen
      refine .again ?_ (hstays hopen).2
      intro other hother
      rw [Option.some.inj (hother.symm.trans htarget)]
      exact (hstays hopen).1
    cases after with
    | load => exact hagain (by simp)
    | exchange current stored => exact hagain (by simp)
    | done result =>
        exact .did Amounts.nil (loop_done htarget (hvalid target htarget) hsaturated hstep)
  cases op with
  | saturatingSub c => exact hloops h
  | saturatingAdd w ns => exact hloops h
  | updateMax w ns => exact hloops h
  | raisePeak current => exact hloops h
  | raiseActivity now => exact hloops h
  | touch =>
      obtain ⟨rfl, rfl⟩ := Prod.mk.inj (Option.some.inj h)
      exact .goes ⟨fun _ => rfl, fun _ => ⟨trivial, trivial⟩⟩ rfl
  | touchIdle =>
      obtain ⟨rfl, rfl⟩ := Prod.mk.inj (Option.some.inj h)
      exact .goes ⟨fun _ => rfl, fun _ => ⟨trivial, trivial, trivial⟩⟩ rfl
  | register =>
      obtain ⟨rfl, rfl⟩ := Prod.mk.inj (Option.some.inj h)
      exact .did ⟨fun _ => rfl, fun _ => ⟨trivial, trivial⟩⟩
        (congrArg (Tally.gain .pendingRequests) hsaturated.symm)
  | fetchAdd c =>
      obtain ⟨rfl, rfl⟩ := Prod.mk.inj (Option.some.inj h)
      exact .did Amounts.nil (congrArg (Tally.gain c) hsaturated.symm)
  | fetchSub c =>
      obtain ⟨rfl, rfl⟩ := Prod.mk.inj (Option.some.inj h)
      exact .did Amounts.nil (congrArg (Tally.lose c) hsaturated.symm)
  | store w ns =>
      obtain ⟨rfl, rfl⟩ := Prod.mk.inj (Option.some.inj h)
      exact .did Amounts.nil hsaturated.symm
  | enterIdle startedAt =>
      obtain ⟨rfl, rfl⟩ := Prod.mk.inj (Option.some.inj h)
      exact .did Amounts.nil (congrArg (Tally.gain .idleConnections) hsaturated.symm)
  | leaveIdle =>
      obtain ⟨rfl, rfl⟩ := Prod.mk.inj (Option.some.inj h)
      exact .did Amounts.nil (congrArg (Tally.lose .idleConnections) hsaturated.symm)

end Op

/-! ## What a report amounts to -/

/-- The statements on the counters of one side. -/
def opsOn (side : Side) (tasks : List Task) : List Op :=
  (tasks.filter fun task => task.side = side).map Task.op

theorem opsOn_append (side : Side) (tasks more : List Task) :
    opsOn side (tasks ++ more) = opsOn side tasks ++ opsOn side more := by
  unfold opsOn
  rw [List.filter_append, List.map_append]

theorem opsOn_map (side other : Side) (ops : List Op) :
    opsOn side (ops.map (⟨other, ·⟩)) = if other = side then ops else [] := by
  induction ops with
  | nil => split <;> rfl
  | cons op rest ih =>
      unfold opsOn at ih ⊢
      rw [List.map_cons, List.filter_cons]
      by_cases hside : other = side
      · rw [if_pos hside] at ih ⊢
        rw [if_pos (decide_eq_true hside), List.map_cons, ih]
      · rw [if_neg hside] at ih ⊢
        rw [if_neg (by simpa using hside), ih]

/-- The statements are affordable, and they have this effect. -/
def Settles (ops : List Op) (tally after : Tally) : Prop :=
  Op.AffordsAll ops tally ∧ Op.recordAll ops tally = after

theorem Settles.append {ops more : List Op} {tally middle after : Tally}
    (h : Settles ops tally middle) (hmore : Settles more middle after) :
    Settles (ops ++ more) tally after := by
  obtain ⟨haffords, rfl⟩ := h
  refine ⟨Op.affordsAll_append haffords hmore.1, ?_⟩
  rw [Op.recordAll_append]
  exact hmore.2

theorem settles_touch (tally : Tally) : Settles [.touch] tally tally :=
  ⟨⟨trivial, trivial⟩, rfl⟩

namespace Method

/-- A method of `Metrics` does what it says. -/
theorem settles_onMetrics {method : Method} {tally : Tally}
    (h : ∀ c ∈ method.spends, 0 < tally.count c) :
    Settles method.onMetrics tally (method.effect tally) := by
  cases method with
  | activeRequestFinished => exact ⟨⟨h _ rfl, trivial⟩, rfl⟩
  | pendingRequestFinished => exact ⟨⟨h _ rfl, trivial⟩, rfl⟩
  | connectionClosed => exact ⟨⟨h _ rfl, trivial, trivial⟩, rfl⟩
  | connectionLeftIdle => exact ⟨⟨h _ rfl, trivial⟩, rfl⟩
  | connectionOpened => exact ⟨⟨trivial, trivial, trivial⟩, rfl⟩
  | poolAcquireWaitFinished elapsed => exact ⟨⟨trivial, trivial, trivial, trivial⟩, rfl⟩
  | connectionAcquireWaitFinished elapsed => exact ⟨⟨trivial, trivial, trivial, trivial⟩, rfl⟩
  | _ => exact ⟨⟨trivial, trivial⟩, rfl⟩

/-- A method of `OriginMetrics` does the same. -/
theorem settles_onOrigin {method : Method} {tally : Tally}
    (h : ∀ c ∈ method.spends, 0 < tally.count c) :
    Settles method.onOrigin tally (method.effect tally) := by
  cases method with
  | connectionBecameIdle => exact ⟨⟨trivial, trivial⟩, rfl⟩
  | connectionLeftIdle => exact ⟨⟨h _ rfl, trivial, trivial⟩, rfl⟩
  | _ => exact (settles_onMetrics h).append (settles_touch _)

end Method

/-- On either side the statements of a report do what it says. -/
theorem Report.settles {report : Report} {tally : Tally} (side : Side)
    (h : report.affordable tally = true) :
    Settles (opsOn side report.tasks) tally (report.effect tally) := by
  have hspends : ∀ c ∈ report.spends, 0 < tally.count c := by
    intro c hc
    unfold affordable at h
    rw [hc] at h
    exact of_decide_eq_true h
  cases report with
  | both method =>
      change Settles (opsOn side (_ ++ _)) tally (method.effect tally)
      rw [opsOn_append, opsOn_map, opsOn_map]
      cases side with
      | metrics => exact (List.append_nil _).symm ▸ Method.settles_onMetrics hspends
      | origin => exact Method.settles_onOrigin hspends
  | pendingAcquireDropped elapsed =>
      have hpending : ∀ c ∈ Method.pendingRequestFinished.spends, 0 < tally.count c := hspends
      have hwait : ∀ c ∈ (Method.poolAcquireWaitFinished elapsed).spends,
          0 < (Method.pendingRequestFinished.effect tally).count c := by
        intro c hc
        exact absurd hc (Option.not_mem_none c)
      change Settles (opsOn side (_ ++ _)) tally _
      rw [opsOn_append, opsOn_map, opsOn_map]
      cases side with
      | metrics =>
          exact (List.append_nil _).symm ▸
            (Method.settles_onMetrics hpending).append (Method.settles_onMetrics hwait)
      | origin =>
          exact (Method.settles_onOrigin hpending).append (Method.settles_onOrigin hwait)

end FogHttp.Metrics
