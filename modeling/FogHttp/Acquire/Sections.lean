import FogHttp.Acquire.Order

/-!
# What a section of the gate does to a call

The registry follows the gate through the phase of a call and through the length of the
queue.  `GateSection` is the inversion lemma of the gate for these: a section replaces one
party, moves it along `PhaseStep`, and changes the queue by the entry of that party.

`Matched` is the invariant that this rests on.  There are as many entries with a waiter id
in the queue as parties that wait under it, so the entry that `remove_waiter` looks for is
there.  This does not need the waiter ids to be distinct.
-/

namespace FogHttp.Acquire

open Lib

/-! ## Queue entries and waiting parties -/

/-- The waiter id of the entry that the party has in the queue. -/
def Party.queueId (party : Party) : Option Nat :=
  if party.phase.queued then some party.waiterId else none

theorem Party.queueId_of_queued {party : Party} (h : party.phase.queued = true) :
    party.queueId = some party.waiterId := if_pos h

theorem Party.queueId_of_not_queued {party : Party} (h : party.phase.queued = false) :
    party.queueId = none := by
  unfold queueId
  rw [h]
  rfl

/-- There are as many entries under some ids as parties that wait under them. -/
def Matched (gate : Gate) : Prop :=
  ∀ ids : Nat → Bool, gate.waiters.countP (fun entry => ids entry.waiterId) =
    gate.parties.countP fun party => party.queueId.any ids

theorem matched_new (config : GateConfig) : Matched (.new config) := fun _ => rfl

/-- What the registry sees of a party. -/
def Party.view (party : Party) : Text × Phase × Nat :=
  (party.origin, party.phase, party.waiterId)

/-- Parties that look the same have the same entries in the queue. -/
theorem countP_queueId_of_view {parties others : List Party}
    (h : parties.map Party.view = others.map Party.view) (ids : Nat → Bool) :
    parties.countP (fun party => party.queueId.any ids) =
      others.countP fun party => party.queueId.any ids := by
  have hcount : ∀ list : List Party, list.countP (fun party => party.queueId.any ids) =
      (list.map Party.view).countP fun seen =>
        (if seen.2.1.queued then some seen.2.2 else none).any ids := by
    intro list
    rw [List.countP_map]
    rfl
  rw [hcount, hcount, h]

/-! ## Sections -/

/-- The phases of a party before and after a section.  `full` says that the queue has no
room for another waiter. -/
inductive PhaseStep (full : Prop) : Phase → Phase → Prop where
  | located : PhaseStep full .called .located
  | queueing (queueWasEmpty : Bool) : PhaseStep full .located (.queueing queueWasEmpty)
  | immediate : PhaseStep full .located .holding
  | registering (queueWasEmpty : Bool) (blockedBy : PendingRequestBlockingReason) :
      PhaseStep full (.queueing queueWasEmpty) (.registering blockedBy)
  | rejected (blockedBy : PendingRequestBlockingReason) (h : full) :
      PhaseStep full (.registering blockedBy) .finished
  | registered (blockedBy : PendingRequestBlockingReason) (h : ¬ full) :
      PhaseStep full (.registering blockedBy) .looping
  | enabled : PhaseStep full .looping .enabled
  | parked : PhaseStep full .enabled .parked
  | acquired : PhaseStep full .enabled (.notifyingHead true)
  | woken : PhaseStep full .parked .looping
  | removed : PhaseStep full .abandoned (.notifyingHead false)
  | notifying (target : Nat) (granted : Bool) :
      PhaseStep full (.notifyingHead granted) (.notifyingOne target granted)
  | nobody (granted : Bool) :
      PhaseStep full (.notifyingHead granted) (Gate.afterNotify granted)
  | notified (target : Nat) (granted : Bool) :
      PhaseStep full (.notifyingOne target granted) (Gate.afterNotify granted)
  | releasing : PhaseStep full .holding .releasedOrigin
  | released : PhaseStep full .releasedOrigin (.notifyingHead false)

/-- A section of the gate replaces party `i`, and it changes the queue by the entry of that
party only. -/
structure GateSection (full : Prop) (gate : Gate) (i : Nat) (party new : Party)
    (next : Gate) : Prop where
  parties : next.parties.map Party.view = (gate.parties.set i new).map Party.view
  origin : new.origin = party.origin
  phase : PhaseStep full party.phase new.phase
  queue : ∀ ids : Nat → Bool,
    next.waiters.countP (fun entry => ids entry.waiterId) + (party.queueId.any ids).toNat =
      gate.waiters.countP (fun entry => ids entry.waiterId) + (new.queueId.any ids).toNat

section Sections

variable {config : GateConfig} {gate next : Gate} {i : Nat} {party new : Party}

/-- A change of the queue by the entry of the replaced party keeps the counts equal. -/
theorem Matched.replace (h : Matched gate) (hi : gate.parties[i]? = some party)
    (hparties : next.parties.map Party.view = (gate.parties.set i new).map Party.view)
    (hqueue : ∀ ids : Nat → Bool,
      next.waiters.countP (fun entry => ids entry.waiterId) + (party.queueId.any ids).toNat =
        gate.waiters.countP (fun entry => ids entry.waiterId) + (new.queueId.any ids).toNat) :
    Matched next := by
  intro ids
  have hset := countP_set_add (fun party : Party => party.queueId.any ids) new hi
  have hbefore := h ids
  have hafter := hqueue ids
  rw [countP_queueId_of_view hparties]
  omega

/-- A section that leaves the queue alone. -/
theorem gateSection_stay {full : Prop} (hparties : next.parties = gate.parties.set i new)
    (hwaiters : next.waiters = gate.waiters) (horigin : new.origin = party.origin)
    (hphase : PhaseStep full party.phase new.phase) (hqueue : new.queueId = party.queueId) :
    GateSection full gate i party new next where
  parties := by rw [hparties]
  origin := horigin
  phase := hphase
  queue := by
    intro ids
    rw [hwaiters, hqueue]

/-- A phase step between phases without an entry in the queue. -/
theorem queueId_eq_of_not_queued (hparty : party.phase.queued = false)
    (hnew : new.phase.queued = false) : new.queueId = party.queueId := by
  rw [Party.queueId_of_not_queued hparty, Party.queueId_of_not_queued hnew]

theorem afterNotify_not_queued (granted : Bool) :
    (Gate.afterNotify granted).queued = false := by
  cases granted <;> rfl

theorem gateSection_originSemaphore {full : Prop} (hphase : party.phase = .called) :
    ∃ new, GateSection full gate i party new (gate.originSemaphore config i party) := by
  unfold Gate.originSemaphore
  split
  · refine ⟨_, gateSection_stay rfl rfl rfl ?_ ?_⟩
    · rw [hphase]
      exact .located
    · exact queueId_eq_of_not_queued (by rw [hphase]; rfl) rfl
  · rename_i limit hlimit
    obtain ⟨hwaiters, hparties⟩ := Gate.semaphore_waiters gate limit party.origin
    refine ⟨{ party with
        semaphore := some (gate.semaphore limit party.origin).1
        phase := .located }, gateSection_stay ?_ hwaiters rfl ?_ ?_⟩
    · dsimp only [Gate.put]
      rw [hparties]
    · rw [hphase]
      exact .located
    · exact queueId_eq_of_not_queued (by rw [hphase]; rfl) rfl

theorem gateSection_tryAcquireImmediate {full : Prop} (hphase : party.phase = .located) :
    ∃ new, GateSection full gate i party new (gate.tryAcquireImmediate i party) := by
  have hqueue : ∀ queueWasEmpty : Bool,
      PhaseStep full party.phase (.queueing queueWasEmpty) := by
    intro queueWasEmpty
    rw [hphase]
    exact .queueing queueWasEmpty
  have hfresh : party.phase.queued = false := by rw [hphase]; rfl
  unfold Gate.tryAcquireImmediate
  split
  · exact ⟨_, gateSection_stay rfl rfl rfl (hqueue false) (queueId_eq_of_not_queued hfresh rfl)⟩
  · split
    · refine ⟨_, gateSection_stay rfl rfl rfl ?_ (queueId_eq_of_not_queued hfresh rfl)⟩
      rw [hphase]
      exact .immediate
    · exact ⟨_, gateSection_stay rfl rfl rfl (hqueue true)
        (queueId_eq_of_not_queued hfresh rfl)⟩

theorem gateSection_tryRegister {blockedBy : PendingRequestBlockingReason}
    (hphase : party.phase = .registering blockedBy) :
    ∃ new, GateSection (gate.waiters.length ≥ config.maxPendingRequests) gate i party new
      (gate.tryRegister config i party) := by
  have hfresh : party.phase.queued = false := by rw [hphase]; rfl
  unfold Gate.tryRegister
  split
  · rename_i hfull
    refine ⟨_, gateSection_stay rfl rfl rfl ?_ (queueId_eq_of_not_queued hfresh rfl)⟩
    rw [hphase]
    exact .rejected blockedBy hfull
  · rename_i hroom
    refine ⟨_, rfl, rfl, ?_, ?_⟩
    · rw [hphase]
      exact .registered blockedBy hroom
    · intro ids
      rw [Party.queueId_of_not_queued hfresh, Party.queueId_of_queued rfl]
      show (gate.waiters ++ [_]).countP _ + 0 = _
      rw [List.countP_append, List.countP_singleton, Option.any_some]
      cases ids gate.nextWaiterId <;> rfl

/-- The head of the queue leaves it with its permits. -/
theorem gateSection_tryAcquireForWaiter {full : Prop} (hphase : party.phase = .enabled) :
    ∃ new, GateSection full gate i party new (gate.tryAcquireForWaiter i party) := by
  have hqueued : party.phase.queued = true := by rw [hphase]; rfl
  have hpark : ∀ permits : Permits,
      GateSection full gate i party { party with phase := .parked }
        ({ gate with permits }.put i { party with phase := .parked }) := by
    intro permits
    refine gateSection_stay rfl rfl rfl ?_ ?_
    · rw [hphase]
      exact .parked
    · rw [Party.queueId_of_queued hqueued, Party.queueId_of_queued rfl]
  unfold Gate.tryAcquireForWaiter
  split
  · exact ⟨_, hpark gate.permits⟩
  · rename_i head rest hwaiters
    split
    · exact ⟨_, hpark gate.permits⟩
    · rename_i hhead
      split
      · refine ⟨_, rfl, rfl, ?_, ?_⟩
        · rw [hphase]
          exact .acquired
        · intro ids
          rw [Party.queueId_of_queued hqueued, Party.queueId_of_not_queued rfl, hwaiters,
            List.countP_cons, Option.any_some, Decidable.not_not.mp hhead]
          cases ids party.waiterId <;> rfl
      · exact ⟨_, hpark _⟩

/-- A waiter that gives up finds its entry. -/
theorem gateSection_removeWaiter {full : Prop} (h : Matched gate)
    (hi : gate.parties[i]? = some party) (hphase : party.phase = .abandoned) :
    ∃ new, GateSection full gate i party new (gate.removeWaiter i party) := by
  have hqueued : party.phase.queued = true := by rw [hphase]; rfl
  have hid := Party.queueId_of_queued hqueued
  have hfound : ∃ entry ∈ gate.waiters, (entry.waiterId == party.waiterId) = true := by
    rw [← List.countP_pos_iff, h fun id => id == party.waiterId, List.countP_pos_iff]
    exact ⟨party, List.mem_of_getElem? hi, by simp [hid]⟩
  unfold Gate.removeWaiter
  rw [if_pos (List.any_eq_true.mpr hfound)]
  refine ⟨_, rfl, rfl, ?_, ?_⟩
  · rw [hphase]
    exact .removed
  · intro ids
    obtain ⟨entry, hmem, hentry⟩ := hfound
    obtain ⟨removed, before, after, -, hremoved, hwaiters, herase⟩ :=
      List.exists_of_eraseP (p := fun entry : PendingQueueEntry =>
        entry.waiterId == party.waiterId) hmem hentry
    rw [hid, Party.queueId_of_not_queued rfl, hwaiters]
    show List.countP _ (List.eraseP _ _) + _ = _
    rw [← hwaiters, herase, hwaiters, List.countP_append, List.countP_append,
      List.countP_cons, Option.any_some, beq_iff_eq.mp hremoved]
    cases ids party.waiterId
    · rfl
    · rw [if_pos rfl, ← Nat.add_assoc]
      rfl

theorem gateSection_notifyHead {full : Prop} {granted : Bool}
    (hphase : party.phase = .notifyingHead granted) :
    ∃ new, GateSection full gate i party new (gate.notifyHead i party granted) := by
  have hfresh : party.phase.queued = false := by rw [hphase]; rfl
  unfold Gate.notifyHead
  split
  · refine ⟨_, gateSection_stay rfl rfl rfl ?_
      (queueId_eq_of_not_queued hfresh (afterNotify_not_queued granted))⟩
    rw [hphase]
    exact .nobody granted
  · rename_i head hhead
    refine ⟨_, gateSection_stay rfl rfl rfl ?_ (queueId_eq_of_not_queued hfresh rfl)⟩
    rw [hphase]
    exact .notifying head.owner granted

/-- The notified party looks the same. -/
theorem gateSection_notifyOne {full : Prop} {target : Nat} {granted : Bool}
    (hi : gate.parties[i]? = some party) (hphase : party.phase = .notifyingOne target granted) :
    ∃ new, GateSection full gate i party new
      ((gate.notifyOne target).setPhase i (Gate.afterNotify granted)) := by
  have hfresh : party.phase.queued = false := by rw [hphase]; rfl
  refine ⟨{ party with phase := Gate.afterNotify granted }, ?_, rfl, ?_, ?_⟩
  · refine List.ext_getElem? fun j => ?_
    rw [List.getElem?_map, List.getElem?_map, getElem?_notifyOne_setPhase, Option.map_map]
    by_cases hj : j = i
    · subst hj
      rw [hi, List.getElem?_set_self (List.getElem?_eq_some_iff.mp hi).1]
      simp [Party.view]
    · rw [List.getElem?_set_ne (Ne.symm hj)]
      cases gate.parties[j]? <;> simp [Party.view, hj]
  · rw [hphase]
    exact .notified target granted
  · intro ids
    rw [Party.queueId_of_not_queued hfresh,
      Party.queueId_of_not_queued (afterNotify_not_queued granted)]
    simp [Gate.setPhase, Gate.notifyOne]

/-- What any section of the gate does to its party and to the queue. -/
theorem gateSection_of_advance (h : Matched gate) (hi : gate.parties[i]? = some party)
    (hstep : gate.advance config i party = some next) :
    ∃ new, GateSection (gate.waiters.length ≥ config.maxPendingRequests) gate i party new
      next := by
  unfold Gate.advance at hstep
  cases hphase : party.phase <;> simp only [hphase] at hstep
  case called => exact Option.some.inj hstep ▸ gateSection_originSemaphore hphase
  case located => exact Option.some.inj hstep ▸ gateSection_tryAcquireImmediate hphase
  case queueing queueWasEmpty =>
    refine Option.some.inj hstep ▸ ⟨_, gateSection_stay rfl rfl rfl ?_ ?_⟩
    · rw [hphase]
      exact .registering queueWasEmpty _
    · exact queueId_eq_of_not_queued (by rw [hphase]; rfl) rfl
  case registering => exact Option.some.inj hstep ▸ gateSection_tryRegister hphase
  case looping =>
    refine Option.some.inj hstep ▸ ⟨_, gateSection_stay rfl rfl rfl ?_ ?_⟩
    · rw [hphase]
      exact .enabled
    · rw [Party.queueId_of_queued rfl, Party.queueId_of_queued (by rw [hphase]; rfl)]
  case enabled => exact Option.some.inj hstep ▸ gateSection_tryAcquireForWaiter hphase
  case parked =>
    split at hstep
    · refine Option.some.inj hstep ▸ ⟨_, gateSection_stay rfl rfl rfl ?_ ?_⟩
      · rw [hphase]
        exact .woken
      · rw [Party.queueId_of_queued rfl, Party.queueId_of_queued (by rw [hphase]; rfl)]
    · simp at hstep
  case abandoned => exact Option.some.inj hstep ▸ gateSection_removeWaiter h hi hphase
  case notifyingHead => exact Option.some.inj hstep ▸ gateSection_notifyHead hphase
  case notifyingOne => exact Option.some.inj hstep ▸ gateSection_notifyOne hi hphase
  case holding =>
    refine Option.some.inj hstep ▸ ⟨_, gateSection_stay rfl rfl rfl ?_ ?_⟩
    · rw [hphase]
      exact .releasing
    · exact queueId_eq_of_not_queued (by rw [hphase]; rfl) rfl
  case releasedOrigin =>
    refine Option.some.inj hstep ▸ ⟨_, gateSection_stay rfl rfl rfl ?_ ?_⟩
    · rw [hphase]
      exact .released
    · exact queueId_eq_of_not_queued (by rw [hphase]; rfl) rfl
  case finished => simp at hstep

end Sections

end FogHttp.Acquire
