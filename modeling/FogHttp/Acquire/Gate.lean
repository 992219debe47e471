import FogHttp.Acquire.Permits
import FogHttp.Lib.Text
import FogHttp.Lib.Transition

/-!
# The acquire gate

`AcquireGate` limits the requests of a client: globally, per origin, and by the
length of a queue of waiting acquires.  This module models it as a transition
system whose parties are the calls of `AcquireGate::acquire`.

A party lives from the call to the end of the permit that it may obtain.  Its
code is sequential, so `Phase` says which section comes next, and one event
`advance i` runs that section of party `i`.  A section under the lock of the
pending queue or of the origin map is one step, and so is every release of a
semaphore permit and every `notify_one`.  The remaining events are a new call, a
deadline that has passed before the registration, and the end of a waiting
future by its timeout or by cancellation, which can only happen at the await
point.

* The strong count of an origin semaphore is the number of parties that hold an
  `Arc` to it.  An owned permit holds one.  The map of `OriginGates` holds weak
  references only.
* A `Notify` belongs to one queue entry, which has one waiting future.  It
  stores at most one notification when no future is waiting.  This is the
  documented behaviour of `tokio::sync::Notify`: `notify_one` wakes the future
  that waits, or else the next call of `notified().await` completes at once.
* Waiter ids are 64-bit and saturate.  The position of a party is the identity
  of its queue entry, which stays unique when ids do not.

Metrics are left out.
-/

namespace FogHttp.Acquire

open Lib

/-! ## Configuration and parties -/

/-- The limits that `AcquireGate::new` receives. -/
structure GateConfig where
  maxActiveRequests : Nat
  maxActiveRequestsPerOrigin : Option Nat
  maxPendingRequests : Nat
deriving DecidableEq, Repr

/-- `ORIGIN_GATE_CLEANUP_THRESHOLD`. -/
def originGateCleanupThreshold : Nat := 1024

inductive PendingRequestBlockingReason where
  | globalActiveRequests
  | mixed
  | pendingQueueOrder
  | perOriginActiveRequests
deriving DecidableEq, Repr

/-- The `Notified` future of a queue entry. -/
inductive Notified where
  | absent
  | waiting
  | fired
deriving DecidableEq, Repr

/-- The `Notify` of a queue entry: the stored notification and the future. -/
structure Notify where
  stored : Bool
  future : Notified
deriving DecidableEq, Repr

namespace Notify

/-- `Notify::new`. -/
def new : Notify := ⟨false, .absent⟩

/-- `Notify::notified` and `Notified::enable`: the new future takes a stored
notification, or it joins the waiters. -/
def enable (notify : Notify) : Notify :=
  if notify.stored then ⟨false, .fired⟩ else ⟨false, .waiting⟩

/-- `Notify::notify_one`: a waiting future is woken, otherwise the notification
is stored. -/
def notifyOne (notify : Notify) : Notify :=
  match notify.future with
  | .waiting => ⟨notify.stored, .fired⟩
  | _ => ⟨true, notify.future⟩

/-- The end of the future.  No later future of this entry reads what it
leaves. -/
def dropFuture (notify : Notify) : Notify := ⟨notify.stored, .absent⟩

end Notify

/-- The next section of a party. -/
inductive Phase where
  /-- Called; `origin_semaphore` is next. -/
  | called
  /-- `try_acquire_immediate` is next. -/
  | located
  /-- `pending_blocking_reason` is next. -/
  | queueing (queueWasEmpty : Bool)
  /-- `try_register` is next. -/
  | registering (blockedBy : PendingRequestBlockingReason)
  /-- At the top of the loop of `acquire_permits`. -/
  | looping
  /-- The future is enabled; `try_acquire_for_waiter` is next. -/
  | enabled
  /-- At the await point. -/
  | parked
  /-- The waiting future is dropped; `remove_waiter` is next. -/
  | abandoned
  /-- The lookup in `notify_head` is next.  `granted` says that the party holds
  its permits. -/
  | notifyingHead (granted : Bool)
  /-- `notify_one` on the entry of party `target` is next. -/
  | notifyingOne (target : Nat) (granted : Bool)
  /-- The `AcquirePermit` is outstanding. -/
  | holding
  /-- In `AcquirePermit::drop`, after the release of the origin permit. -/
  | releasedOrigin
  | finished
deriving DecidableEq, Repr

/-- The party holds an origin permit, if there are any, and a global one. -/
def Phase.granted : Phase → Bool
  | .notifyingHead granted => granted
  | .notifyingOne _ granted => granted
  | .holding => true
  | _ => false

/-- The party holds a global permit. -/
def Phase.holdsGlobal : Phase → Bool
  | .releasedOrigin => true
  | phase => phase.granted

/-- One call of `AcquireGate::acquire` and the permit that came of it. -/
structure Party where
  origin : Text
  /-- The origin semaphore that the party holds an `Arc` to. -/
  semaphore : Option Nat
  waiterId : Nat
  notify : Notify
  phase : Phase
deriving DecidableEq, Repr

namespace Party

/-- A call that has done nothing yet. -/
def call (origin : Text) : Party := ⟨origin, none, 0, .new, .called⟩

/-- The party holds a permit of this origin semaphore. -/
def holdsOrigin (semaphore : Nat) (party : Party) : Bool :=
  party.phase.granted && party.semaphore == some semaphore

/-- The party holds a global permit. -/
def holdsGlobal (party : Party) : Bool := party.phase.holdsGlobal

/-- The party's `AcquirePermit` is outstanding. -/
def outstanding (party : Party) : Bool := party.phase == .holding

end Party

/-! ## The gate -/

/-- A `PendingQueueEntry` with the party that it belongs to. -/
structure PendingQueueEntry where
  owner : Nat
  waiterId : Nat
deriving DecidableEq, Repr

structure Gate where
  permits : Permits
  /-- The map of `OriginGates` from origins to weak references. -/
  semaphores : List (Text × Nat)
  nextWaiterId : Nat
  waiters : List PendingQueueEntry
  parties : List Party
deriving DecidableEq, Repr

namespace Gate

/-- `AcquireGate::new`. -/
def new (config : GateConfig) : Gate :=
  ⟨⟨config.maxActiveRequests, []⟩, [], 1, [], []⟩

/-- The state of party `i` after a section. -/
def put (gate : Gate) (i : Nat) (party : Party) : Gate :=
  { gate with parties := gate.parties.set i party }

/-- `Weak::strong_count`. -/
def strongCount (gate : Gate) (semaphore : Nat) : Nat :=
  gate.parties.countP fun party => party.semaphore == some semaphore

/-- `OriginGates::semaphore`: the live semaphore of the origin, or a new one.
Dead entries are removed when the map is large. -/
def semaphore (gate : Gate) (maxActiveRequestsPerOrigin : Nat) (origin : Text) : Nat × Gate :=
  match (gate.semaphores.lookup origin).filter fun k => 0 < gate.strongCount k with
  | some k => (k, gate)
  | none =>
      let kept :=
        if gate.semaphores.length ≥ originGateCleanupThreshold then
          gate.semaphores.filter fun entry => 0 < gate.strongCount entry.2
        else gate.semaphores
      let k := gate.permits.origins.length
      (k, { gate with
        permits := { gate.permits with
          origins := gate.permits.origins ++ [maxActiveRequestsPerOrigin] }
        semaphores := (origin, k) :: kept.filter fun entry => entry.1 != origin })

/-- `AcquireGate::origin_semaphore`. -/
def originSemaphore (config : GateConfig) (gate : Gate) (i : Nat) (party : Party) : Gate :=
  match config.maxActiveRequestsPerOrigin with
  | none => gate.put i { party with phase := .located }
  | some limit =>
      let (k, gate) := gate.semaphore limit party.origin
      gate.put i { party with semaphore := some k, phase := .located }

/-- `PendingQueue::try_acquire_immediate`. -/
def tryAcquireImmediate (gate : Gate) (i : Nat) (party : Party) : Gate :=
  if !gate.waiters.isEmpty then gate.put i { party with phase := .queueing false }
  else
    match tryAcquirePermits gate.permits party.semaphore with
    | (true, permits) => { gate with permits }.put i { party with phase := .holding }
    | (false, permits) =>
        { gate with permits }.put i { party with phase := .queueing true }

/-- `AcquireGate::pending_blocking_reason`. -/
def pendingBlockingReason (gate : Gate) (queueWasEmpty : Bool) (semaphore : Option Nat) :
    PendingRequestBlockingReason :=
  let globalBlocked := gate.permits.global == 0
  let originBlocked := semaphore.any fun k => gate.permits.origins[k]? == some 0
  match queueWasEmpty, globalBlocked, originBlocked with
  | false, false, false => .pendingQueueOrder
  | false, _, _ | true, false, false | true, true, true => .mixed
  | true, true, false => .globalActiveRequests
  | true, false, true => .perOriginActiveRequests

/-- `PendingQueue::try_register`.  A rejected acquire returns its error. -/
def tryRegister (config : GateConfig) (gate : Gate) (i : Nat) (party : Party) : Gate :=
  if gate.waiters.length ≥ config.maxPendingRequests then
    gate.put i { party with semaphore := none, phase := .finished }
  else
    { gate with
      nextWaiterId := min (gate.nextWaiterId + 1) (2 ^ 64 - 1)
      waiters := gate.waiters ++ [PendingQueueEntry.mk i gate.nextWaiterId] }.put i
      { party with waiterId := gate.nextWaiterId, notify := .new, phase := .looping }

/-- `PendingQueue::try_acquire_for_waiter`, called from `acquire_permits`. -/
def tryAcquireForWaiter (gate : Gate) (i : Nat) (party : Party) : Gate :=
  match gate.waiters with
  | [] => gate.put i { party with phase := .parked }
  | head :: rest =>
      if head.waiterId ≠ party.waiterId then gate.put i { party with phase := .parked }
      else
        match tryAcquirePermits gate.permits party.semaphore with
        | (true, permits) =>
            { gate with permits, waiters := rest }.put i
              { party with notify := party.notify.dropFuture, phase := .notifyingHead true }
        | (false, permits) => { gate with permits }.put i { party with phase := .parked }

/-- `PendingQueue::remove_waiter`, called from the drop of a queued waiter. -/
def removeWaiter (gate : Gate) (i : Nat) (party : Party) : Gate :=
  if gate.waiters.any fun entry => entry.waiterId == party.waiterId then
    { gate with
      waiters := gate.waiters.eraseP fun entry => entry.waiterId == party.waiterId }.put i
      { party with phase := .notifyingHead false }
  else gate.put i { party with phase := .finished }

/-- Where a party goes after its `notify_head`. -/
def afterNotify (granted : Bool) : Phase := if granted then .holding else .finished

/-- The lookup of `PendingQueue::notify_head`. -/
def notifyHead (gate : Gate) (i : Nat) (party : Party) (granted : Bool) : Gate :=
  match gate.waiters.head? with
  | none => gate.put i { party with phase := afterNotify granted }
  | some head => gate.put i { party with phase := .notifyingOne head.owner granted }

/-- A change of one party. -/
def update (gate : Gate) (i : Nat) (change : Party → Party) : Gate :=
  match gate.parties[i]? with
  | none => gate
  | some party => gate.put i (change party)

/-- `notify_one` on the entry of party `target`. -/
def notifyOne (gate : Gate) (target : Nat) : Gate :=
  gate.update target fun party => { party with notify := party.notify.notifyOne }

/-- The move of party `i` to its next phase. -/
def setPhase (gate : Gate) (i : Nat) (phase : Phase) : Gate :=
  gate.update i fun party => { party with phase }

/-- A change of one party leaves the others as they are. -/
theorem getElem?_update (gate : Gate) (i : Nat) (change : Party → Party) (j : Nat) :
    (gate.update i change).parties[j]? =
      gate.parties[j]?.map fun party => if j = i then change party else party := by
  unfold update
  split
  · rename_i hnone
    by_cases hj : j = i
    · simp [hj, hnone]
    · simp [hj]
  · rename_i party hi
    by_cases hj : j = i
    · subst hj
      obtain ⟨hlt, -⟩ := List.getElem?_eq_some_iff.mp hi
      rw [hi]
      simp [put, hlt]
    · simp [put, List.getElem?_set_ne (Ne.symm hj), hj]

@[simp] theorem update_permits (gate : Gate) (i : Nat) (change : Party → Party) :
    (gate.update i change).permits = gate.permits := by
  unfold update
  split <;> rfl

@[simp] theorem update_waiters (gate : Gate) (i : Nat) (change : Party → Party) :
    (gate.update i change).waiters = gate.waiters := by
  unfold update
  split <;> rfl

@[simp] theorem update_nextWaiterId (gate : Gate) (i : Nat) (change : Party → Party) :
    (gate.update i change).nextWaiterId = gate.nextWaiterId := by
  unfold update
  split <;> rfl

/-- The next section of party `i`. -/
def advance (config : GateConfig) (gate : Gate) (i : Nat) (party : Party) : Option Gate :=
  match party.phase with
  | .called => some (gate.originSemaphore config i party)
  | .located => some (gate.tryAcquireImmediate i party)
  | .queueing queueWasEmpty =>
      some (gate.put i { party with
        phase := .registering (gate.pendingBlockingReason queueWasEmpty party.semaphore) })
  | .registering _ => some (gate.tryRegister config i party)
  | .looping =>
      some (gate.put i { party with notify := party.notify.enable, phase := .enabled })
  | .enabled => some (gate.tryAcquireForWaiter i party)
  | .parked =>
      if party.notify.future = .fired then
        some (gate.put i { party with notify := party.notify.dropFuture, phase := .looping })
      else none
  | .abandoned => some (gate.removeWaiter i party)
  | .notifyingHead granted => some (gate.notifyHead i party granted)
  | .notifyingOne target granted =>
      some ((gate.notifyOne target).setPhase i (afterNotify granted))
  | .holding =>
      some ({ gate with permits := gate.permits.releaseOrigin party.semaphore }.put i
        { party with semaphore := none, phase := .releasedOrigin })
  | .releasedOrigin =>
      some ({ gate with permits := gate.permits.releaseGlobal }.put i
        { party with phase := .notifyingHead false })
  | .finished => none

inductive Event where
  /-- A call of `acquire`. -/
  | call (origin : Text)
  /-- The next section of party `i`. -/
  | advance (i : Nat)
  /-- `remaining_duration` reports that the deadline of party `i` has passed. -/
  | expire (i : Nat)
  /-- The waiting future of party `i` ends by its timeout or by cancellation. -/
  | abandon (i : Nat)
deriving DecidableEq, Repr

/-- One step of the gate. -/
def step (config : GateConfig) (gate : Gate) : Event → Option Gate
  | .call origin => some { gate with parties := gate.parties ++ [.call origin] }
  | .advance i => do
      let party ← gate.parties[i]?
      gate.advance config i party
  | .expire i => do
      let party ← gate.parties[i]?
      match party.phase with
      | .queueing _ => some (gate.put i { party with semaphore := none, phase := .finished })
      | _ => none
  | .abandon i => do
      let party ← gate.parties[i]?
      match party.phase with
      | .parked =>
          some (gate.put i { party with
            semaphore := none, notify := party.notify.dropFuture, phase := .abandoned })
      | _ => none

/-- What an event can do.  Every event but a new call is a section of one
party. -/
theorem step_cases {config : GateConfig} {gate next : Gate} {event : Event}
    (h : gate.step config event = some next) :
    (∃ origin, next = { gate with parties := gate.parties ++ [.call origin] }) ∨
      ∃ i party, gate.parties[i]? = some party ∧
        (gate.advance config i party = some next ∨
          (∃ queueWasEmpty, party.phase = .queueing queueWasEmpty ∧
            next = gate.put i { party with semaphore := none, phase := .finished }) ∨
          party.phase = .parked ∧ next = gate.put i { party with
            semaphore := none, notify := party.notify.dropFuture, phase := .abandoned }) := by
  cases event with
  | call origin => exact Or.inl ⟨origin, (Option.some.inj h).symm⟩
  | advance i =>
      simp only [step, Option.bind_eq_bind, Option.bind_eq_some_iff] at h
      obtain ⟨party, hi, h⟩ := h
      exact Or.inr ⟨i, party, hi, Or.inl h⟩
  | expire i =>
      simp only [step, Option.bind_eq_bind, Option.bind_eq_some_iff] at h
      obtain ⟨party, hi, h⟩ := h
      split at h
      · rename_i queueWasEmpty hphase
        exact Or.inr ⟨i, party, hi,
          Or.inr (Or.inl ⟨queueWasEmpty, hphase, (Option.some.inj h).symm⟩)⟩
      · simp at h
  | abandon i =>
      simp only [step, Option.bind_eq_bind, Option.bind_eq_some_iff] at h
      obtain ⟨party, hi, h⟩ := h
      split at h
      · rename_i hphase
        exact Or.inr ⟨i, party, hi, Or.inr (Or.inr ⟨hphase, (Option.some.inj h).symm⟩)⟩
      · simp at h

/-- The gate and all its interleavings. -/
def system (config : GateConfig) : TransitionSystem Gate Event := ⟨new config, step config⟩

end Gate

end FogHttp.Acquire
