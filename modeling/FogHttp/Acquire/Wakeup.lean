import FogHttp.Acquire.Capacity

/-!
# No lost wakeup

Only the head of the pending queue may take permits, and it sleeps until it is
notified.  Whoever changes what the head sees, by releasing a permit, by taking
the head out or by removing a waiter, notifies the head afterwards and outside
the lock.

`HeadServed` is the invariant: when the permits of the head are available, then
the head is not asleep, or some party has still to look up the head, or some
party has looked it up and has still to notify it.  A party in the middle of
such a hand-over is `Phase.handingOver`.

The step lemmas have one shape.  A section that changes the permits or the head
leaves its party before a lookup, so it needs nothing of the state before.  A
section that changes neither keeps the invariant because it wakes the head, or
touches neither the head nor a hand-over.  `head_never_sleeps_runnable` is the
result.
-/

namespace FogHttp.Acquire

open Lib

/-- The party has released a permit or changed the queue, and its lookup of the
head has not happened yet. -/
def Phase.beforeLookup : Phase → Bool
  | .releasedOrigin | .notifyingHead _ => true
  | _ => false

/-- The party is between a release, a pop or a removal and the end of its
`notify_head`. -/
def Phase.handingOver : Phase → Bool
  | .notifyingOne _ _ => true
  | phase => phase.beforeLookup

/-- The party sleeps at its await point, and no notification has arrived. -/
def Party.asleep (party : Party) : Prop :=
  party.phase = .parked ∧ party.notify.future = .waiting

/-- Somebody will still notify this party, or look up the head. -/
def Gate.Served (gate : Gate) (owner : Nat) : Prop :=
  (∃ party ∈ gate.parties, party.phase.beforeLookup = true) ∨
    ∃ party ∈ gate.parties, ∃ granted, party.phase = .notifyingOne owner granted

/-- The party has been in the pending queue. -/
def Phase.registered : Phase → Bool
  | .called | .located | .queueing _ | .registering _ => false
  | _ => true

/-- The invariant: a head whose permits are available is awake or served.  A
queue entry carries the waiter id of its owner. -/
structure HeadServed (gate : Gate) : Prop where
  head : ∀ entry rest owner, gate.waiters = entry :: rest →
    gate.parties[entry.owner]? = some owner → gate.permits.Available owner.semaphore →
    owner.asleep → gate.Served entry.owner
  ids : ∀ entry ∈ gate.waiters, ∃ owner, gate.parties[entry.owner]? = some owner ∧
    owner.waiterId = entry.waiterId ∧ owner.phase.registered = true

theorem headServed_new (config : GateConfig) : HeadServed (.new config) where
  head := by simp [Gate.new]
  ids := by simp [Gate.new]

/-- A party that is replaced by one with the same registration keeps its
entries. -/
theorem HeadServed.ids_set {gate : Gate} {i : Nat} {old new : Party}
    {waiters : List PendingQueueEntry} (h : HeadServed gate)
    (hi : gate.parties[i]? = some old)
    (hregistered : old.phase.registered = true →
      new.phase.registered = true ∧ new.waiterId = old.waiterId)
    (hwaiters : ∀ entry ∈ waiters, entry ∈ gate.waiters ∨
      entry.owner = i ∧ new.waiterId = entry.waiterId ∧ new.phase.registered = true) :
    ∀ entry ∈ waiters, ∃ owner, (gate.parties.set i new)[entry.owner]? = some owner ∧
      owner.waiterId = entry.waiterId ∧ owner.phase.registered = true := by
  obtain ⟨hlt, -⟩ := List.getElem?_eq_some_iff.mp hi
  intro entry hmem
  rcases hwaiters entry hmem with hmem | ⟨rfl, hid, hnew⟩
  · obtain ⟨owner, howner, hid, hphase⟩ := h.ids entry hmem
    by_cases hentry : entry.owner = i
    · rw [hentry] at howner ⊢
      rw [hi, Option.some.injEq] at howner
      subst howner
      obtain ⟨hnew, hsame⟩ := hregistered hphase
      exact ⟨new, by simp [hlt], by rw [hsame, hid], hnew⟩
    · exact ⟨owner, by rw [List.getElem?_set_ne (Ne.symm hentry), howner], hid, hphase⟩
  · exact ⟨new, by simp [hlt], hid, hnew⟩

/-- The step lemma for a section that ends before a lookup of the head. -/
theorem HeadServed.handOver {gate : Gate} {i : Nat} {old new : Party} {permits : Permits}
    {waiters : List PendingQueueEntry} (h : HeadServed gate)
    (hi : gate.parties[i]? = some old) (hnew : new.phase.beforeLookup = true)
    (hid : new.waiterId = old.waiterId) (hwaiters : ∀ entry ∈ waiters, entry ∈ gate.waiters) :
    HeadServed ⟨permits, gate.semaphores, gate.nextWaiterId, waiters,
      gate.parties.set i new⟩ := by
  have hregistered : new.phase.registered = true := by
    cases hphase : new.phase <;> simp_all [Phase.beforeLookup, Phase.registered]
  refine ⟨?_, ?_⟩
  · intro entry rest owner _ _ _ _
    exact Or.inl ⟨new, mem_set_self hi, hnew⟩
  · exact h.ids_set hi (fun _ => ⟨hregistered, hid⟩)
      fun entry hmem => Or.inl (hwaiters entry hmem)

/-- The step lemma for a section that is no part of a hand-over.  It makes no
permit available, and it leaves the head as it was or puts its own party
there. -/
theorem HeadServed.quiet {gate : Gate} {i : Nat} {old new : Party} {permits : Permits}
    {semaphores : List (Text × Nat)} {nextWaiterId : Nat} {waiters : List PendingQueueEntry}
    (h : HeadServed gate) (hi : gate.parties[i]? = some old)
    (hold : old.phase.handingOver = false)
    (hpermits : ∀ party ∈ gate.parties, permits.Available party.semaphore →
      gate.permits.Available party.semaphore)
    (hregistered : old.phase.registered = true →
      new.phase.registered = true ∧ new.waiterId = old.waiterId)
    (hwaiters : waiters = gate.waiters ∨
      waiters = gate.waiters ++ [⟨i, new.waiterId⟩] ∧ new.phase.registered = true)
    (hawake : ∀ entry rest, waiters = entry :: rest → entry.owner = i →
      permits.Available new.semaphore → ¬ new.asleep) :
    HeadServed ⟨permits, semaphores, nextWaiterId, waiters, gate.parties.set i new⟩ := by
  obtain ⟨hlt, -⟩ := List.getElem?_eq_some_iff.mp hi
  refine ⟨?_, ?_⟩
  · intro entry rest owner hqueue howner havailable hasleep
    by_cases hentry : entry.owner = i
    · have hsame : new = owner := by simpa [hentry, hlt] using howner
      rw [← hsame] at havailable hasleep
      exact absurd hasleep (hawake entry rest hqueue hentry havailable)
    · replace howner : gate.parties[entry.owner]? = some owner := by
        rw [← List.getElem?_set_ne (Ne.symm hentry)]
        exact howner
      have hbefore : ∃ rest', gate.waiters = entry :: rest' := by
        rcases hwaiters with rfl | ⟨rfl, -⟩
        · exact ⟨rest, hqueue⟩
        · cases hold : gate.waiters with
          | nil =>
              simp only [hold, List.nil_append, List.cons.injEq] at hqueue
              exact absurd (by rw [← hqueue.1]) hentry
          | cons first others =>
              simp only [hold, List.cons_append, List.cons.injEq] at hqueue
              exact ⟨others, by rw [hqueue.1]⟩
      obtain ⟨rest', hbefore⟩ := hbefore
      have hmem : owner ∈ gate.parties := List.mem_iff_getElem?.mpr ⟨_, howner⟩
      have hserved := h.head entry rest' owner hbefore howner
        (hpermits owner hmem havailable) hasleep
      -- The party of this section is no part of the hand-over that is under way.
      rcases hserved with hlookup | hnotify
      · exact Or.inl (exists_mem_set hi (by
          cases hphase : old.phase <;>
            simp_all [Phase.handingOver, Phase.beforeLookup]) hlookup)
      · refine Or.inr (exists_mem_set hi ?_ hnotify)
        intro hgranted
        obtain ⟨granted, hphase⟩ := hgranted
        simp [hphase, Phase.handingOver] at hold
  · refine h.ids_set hi hregistered ?_
    intro entry hmem
    rcases hwaiters with rfl | ⟨rfl, hnew⟩
    · exact Or.inl hmem
    · rcases List.mem_append.mp hmem with hmem | hmem
      · exact Or.inl hmem
      · rw [List.mem_singleton] at hmem
        subst hmem
        exact Or.inr ⟨rfl, rfl, hnew⟩

/-- The step lemma for a section that changes neither permits nor queue and
does not end asleep. -/
theorem HeadServed.idle {gate : Gate} {i : Nat} {old new : Party} (h : HeadServed gate)
    (hi : gate.parties[i]? = some old) (hold : old.phase.handingOver = false)
    (hregistered : old.phase.registered = true →
      new.phase.registered = true ∧ new.waiterId = old.waiterId)
    (hawake : new.phase ≠ .parked) : HeadServed (gate.put i new) :=
  h.quiet hi hold (fun _ _ havailable => havailable) hregistered (Or.inl rfl)
    fun _ _ _ _ _ hasleep => hawake hasleep.1

/-! ## The sections -/

/-- The lookup of an origin semaphore makes no permit available to a party that
holds a semaphore already. -/
theorem available_of_semaphore {config : GateConfig} {gate : Gate} {limit : Nat}
    {origin : Text} (h : Balanced config gate) {party : Party} (hmem : party ∈ gate.parties)
    (havailable : (gate.semaphore limit origin).2.permits.Available party.semaphore) :
    gate.permits.Available party.semaphore := by
  unfold Gate.semaphore at havailable
  split at havailable
  · exact havailable
  · refine ⟨havailable.1, ?_⟩
    intro k hk
    obtain ⟨available, hget⟩ := havailable.2 k hk
    have hlt := (h.shared party hmem k hk).2
    exact ⟨available, by simpa [List.getElem?_append_left hlt] using hget⟩

theorem Gate.semaphore_waiters (gate : Gate) (limit : Nat) (origin : Text) :
    (gate.semaphore limit origin).2.waiters = gate.waiters ∧
      (gate.semaphore limit origin).2.parties = gate.parties := by
  unfold Gate.semaphore
  split <;> exact ⟨rfl, rfl⟩

/-- The lookup section. -/
theorem headServed_originSemaphore {config : GateConfig} {gate : Gate} {i : Nat}
    {party : Party} (h : HeadServed gate) (hbalanced : Balanced config gate)
    (hi : gate.parties[i]? = some party) (hphase : party.phase = .called) :
    HeadServed (gate.originSemaphore config i party) := by
  have hold : party.phase.handingOver = false := by rw [hphase]; rfl
  have hfresh : party.phase.registered = false := by rw [hphase]; rfl
  unfold Gate.originSemaphore
  split
  · exact h.idle hi hold (by simp [hfresh]) (by simp)
  · rename_i limit hlimit
    obtain ⟨hwaiters, hparties⟩ := Gate.semaphore_waiters gate limit party.origin
    dsimp only [Gate.put]
    rw [hparties]
    refine h.quiet hi hold ?_ (by simp [hfresh]) (Or.inl hwaiters) ?_
    · intro other hmem havailable
      exact available_of_semaphore hbalanced hmem havailable
    · intro _ _ _ _ _ hasleep
      simp [Party.asleep] at hasleep

/-- The section of `try_acquire_immediate`.  It takes permits only from an empty
queue. -/
theorem headServed_tryAcquireImmediate {gate : Gate} {i : Nat} {party : Party}
    (h : HeadServed gate) (hi : gate.parties[i]? = some party)
    (hphase : party.phase = .located) : HeadServed (gate.tryAcquireImmediate i party) := by
  have hold : party.phase.handingOver = false := by rw [hphase]; rfl
  have hfresh : party.phase.registered = false := by rw [hphase]; rfl
  unfold Gate.tryAcquireImmediate
  split
  · exact h.idle hi hold (by simp [hfresh]) (by simp)
  · rename_i hempty
    replace hempty : gate.waiters = [] := by simpa using hempty
    split
    · exact ⟨by simp [Gate.put, hempty], by simp [Gate.put, hempty]⟩
    · rename_i permits htry
      obtain ⟨rfl, -⟩ := tryAcquirePermits_false htry
      exact h.idle hi hold (by simp [hfresh]) (by simp)

/-- The section of `try_register`.  A new head is not asleep. -/
theorem headServed_tryRegister {config : GateConfig} {gate : Gate} {i : Nat} {party : Party}
    {blockedBy : PendingRequestBlockingReason} (h : HeadServed gate)
    (hi : gate.parties[i]? = some party) (hphase : party.phase = .registering blockedBy) :
    HeadServed (gate.tryRegister config i party) := by
  have hold : party.phase.handingOver = false := by rw [hphase]; rfl
  have hfresh : party.phase.registered = false := by rw [hphase]; rfl
  unfold Gate.tryRegister
  split
  · exact h.idle hi hold (by simp [hfresh]) (by simp)
  · refine h.quiet hi hold (fun _ _ havailable => havailable) (by simp [hfresh])
      (Or.inr ⟨rfl, rfl⟩) ?_
    intro _ _ _ _ _ hasleep
    simp [Party.asleep] at hasleep

/-- The section of `try_acquire_for_waiter`.  A head that goes to sleep has
found its permits taken. -/
theorem headServed_tryAcquireForWaiter {gate : Gate} {i : Nat} {party : Party}
    (h : HeadServed gate) (hi : gate.parties[i]? = some party)
    (hphase : party.phase = .enabled) : HeadServed (gate.tryAcquireForWaiter i party) := by
  have hold : party.phase.handingOver = false := by rw [hphase]; rfl
  have hpark : (∀ entry rest, gate.waiters = entry :: rest → entry.owner = i →
      ¬ gate.permits.Available party.semaphore) →
      HeadServed (gate.put i { party with phase := .parked }) := by
    intro htaken
    refine h.quiet hi hold (fun _ _ havailable => havailable) (fun _ => ⟨rfl, rfl⟩)
      (Or.inl rfl) ?_
    intro entry rest hqueue howner havailable
    exact absurd havailable (htaken entry rest hqueue howner)
  unfold Gate.tryAcquireForWaiter
  split
  · rename_i hempty
    exact hpark fun entry rest hqueue => by simp [hempty] at hqueue
  · rename_i head rest hqueue
    split
    · rename_i hother
      refine hpark fun entry rest' hqueue' howner => ?_
      -- The entry of this party carries its id, so the head belongs to another.
      obtain ⟨owner, hget, hid, -⟩ := h.ids entry (by rw [hqueue']; simp)
      rw [howner, hi, Option.some.injEq] at hget
      rw [hqueue, List.cons.injEq] at hqueue'
      exact absurd (by rw [hqueue'.1, ← hid, hget]) hother
    · split
      · rename_i permits htry
        refine h.handOver hi rfl rfl ?_
        intro entry hmem
        rw [hqueue]
        exact List.mem_cons_of_mem _ hmem
      · rename_i permits htry
        obtain ⟨rfl, htaken⟩ := tryAcquirePermits_false htry
        exact hpark fun _ _ _ _ => htaken

/-- The section of `remove_waiter`. -/
theorem headServed_removeWaiter {gate : Gate} {i : Nat} {party : Party} (h : HeadServed gate)
    (hi : gate.parties[i]? = some party) (hphase : party.phase = .abandoned) :
    HeadServed (gate.removeWaiter i party) := by
  unfold Gate.removeWaiter
  split
  · exact h.handOver hi rfl rfl fun entry hmem => List.mem_of_mem_eraseP hmem
  · exact h.idle hi (by rw [hphase]; rfl) (fun _ => ⟨rfl, rfl⟩) (by simp)

/-- The lookup of `notify_head`: the party now has to notify the head. -/
theorem headServed_notifyHead {gate : Gate} {i : Nat} {party : Party} {granted : Bool}
    (h : HeadServed gate) (hi : gate.parties[i]? = some party) :
    HeadServed (gate.notifyHead i party granted) := by
  unfold Gate.notifyHead
  split
  · rename_i hempty
    replace hempty : gate.waiters = [] := by simpa using hempty
    exact ⟨by simp [Gate.put, hempty], by simp [Gate.put, hempty]⟩
  · rename_i head hhead
    refine ⟨?_, h.ids_set hi (fun _ => ⟨rfl, rfl⟩) fun _ hmem => Or.inl hmem⟩
    intro entry rest owner hqueue _ _ _
    have hsame : head = entry := by
      rw [show gate.waiters = entry :: rest from hqueue] at hhead
      simpa using hhead.symm
    exact Or.inr ⟨_, mem_set_self hi, granted, by rw [hsame]⟩

/-- The parties after `notify_one` and the move of the notifier. -/
theorem getElem?_notifyOne_setPhase (gate : Gate) (i target : Nat) (phase : Phase) (j : Nat) :
    ((gate.notifyOne target).setPhase i phase).parties[j]? =
      gate.parties[j]?.map fun before =>
        { before with
          phase := if j = i then phase else before.phase
          notify := if j = target then before.notify.notifyOne else before.notify } := by
  rw [Gate.setPhase, Gate.getElem?_update, Gate.notifyOne, Gate.getElem?_update, Option.map_map]
  congr 1
  funext before
  by_cases hj : j = i <;> by_cases ht : j = target <;> simp [hj, ht] <;> split <;> simp_all

/-- A notified future does not wait. -/
theorem Notify.notifyOne_future (notify : Notify) : notify.notifyOne.future ≠ .waiting := by
  obtain ⟨stored, future⟩ := notify
  cases future <;> simp [Notify.notifyOne]

theorem Gate.afterNotify_registered (granted : Bool) :
    (Gate.afterNotify granted).registered = true := by
  cases granted <;> rfl

/-- The section of `notify_one`.  If its target is the head, the head is awake
afterwards; if not, somebody else serves the head. -/
theorem headServed_notifyOne {gate : Gate} {i target : Nat} {party : Party} {granted : Bool}
    (h : HeadServed gate) (hi : gate.parties[i]? = some party)
    (hphase : party.phase = .notifyingOne target granted) :
    HeadServed ((gate.notifyOne target).setPhase i (Gate.afterNotify granted)) := by
  have hget := getElem?_notifyOne_setPhase gate i target (Gate.afterNotify granted)
  refine ⟨?_, ?_⟩
  · intro entry rest owner hqueue howner havailable hasleep
    simp only [Gate.setPhase, Gate.notifyOne, Gate.update_waiters] at hqueue
    simp only [Gate.setPhase, Gate.notifyOne, Gate.update_permits] at havailable
    rw [hget, Option.map_eq_some_iff] at howner
    obtain ⟨before, hbefore, rfl⟩ := howner
    have hnotTarget : entry.owner ≠ target := by
      intro heq
      have hfuture := hasleep.2
      rw [if_pos heq] at hfuture
      exact before.notify.notifyOne_future hfuture
    have hnotSelf : entry.owner ≠ i := by
      intro heq
      have hparked := hasleep.1
      rw [if_pos heq] at hparked
      cases granted <;> simp [Gate.afterNotify] at hparked
    have hserved := h.head entry rest before hqueue hbefore havailable
      (by simpa [Party.asleep, hnotTarget, hnotSelf] using hasleep)
    -- Whoever serves the head is not the notifier, whose target is another.
    have hkeep : ∀ {other : Party}, other ∈ gate.parties → other.phase ≠ party.phase →
        ∃ after ∈ ((gate.notifyOne target).setPhase i (Gate.afterNotify granted)).parties,
          after.phase = other.phase := by
      intro other hmem hne
      obtain ⟨j, hj⟩ := List.mem_iff_getElem?.mp hmem
      have hji : j ≠ i := by
        intro hsame
        subst hsame
        rw [hi, Option.some.injEq] at hj
        exact hne (by rw [hj])
      refine ⟨_, List.mem_iff_getElem?.mpr ⟨j, by rw [hget, hj, Option.map_some]⟩, ?_⟩
      simp [hji]
    rcases hserved with ⟨other, hmem, hlookup⟩ | ⟨other, hmem, granted', hnotify⟩
    · obtain ⟨after, hafter, hsame⟩ := hkeep hmem (by
        intro heq
        rw [heq, hphase] at hlookup
        simp [Phase.beforeLookup] at hlookup)
      exact Or.inl ⟨after, hafter, by rw [hsame, hlookup]⟩
    · obtain ⟨after, hafter, hsame⟩ := hkeep hmem (by
        intro heq
        rw [heq, hphase, Phase.notifyingOne.injEq] at hnotify
        exact hnotTarget hnotify.1.symm)
      exact Or.inr ⟨after, hafter, granted', by rw [hsame, hnotify]⟩
  · intro entry hmem
    simp only [Gate.setPhase, Gate.notifyOne, Gate.update_waiters] at hmem
    obtain ⟨owner, howner, hid, hregistered⟩ := h.ids entry hmem
    rw [hget, howner, Option.map_some]
    refine ⟨_, rfl, hid, ?_⟩
    dsimp only
    split
    · exact Gate.afterNotify_registered granted
    · exact hregistered

/-! ## Runs -/

/-- Every section keeps the head served. -/
theorem headServed_advance {config : GateConfig} {gate next : Gate} {i : Nat} {party : Party}
    (h : HeadServed gate) (hbalanced : Balanced config gate)
    (hi : gate.parties[i]? = some party)
    (hstep : gate.advance config i party = some next) : HeadServed next := by
  unfold Gate.advance at hstep
  cases hphase : party.phase <;> simp only [hphase] at hstep
  case called => exact Option.some.inj hstep ▸ headServed_originSemaphore h hbalanced hi hphase
  case located => exact Option.some.inj hstep ▸ headServed_tryAcquireImmediate h hi hphase
  case queueing =>
    exact Option.some.inj hstep ▸ h.idle hi (by rw [hphase]; rfl)
      (by simp [hphase, Phase.registered]) (by simp)
  case registering => exact Option.some.inj hstep ▸ headServed_tryRegister h hi hphase
  case looping =>
    exact Option.some.inj hstep ▸ h.idle hi (by rw [hphase]; rfl) (fun _ => ⟨rfl, rfl⟩) (by simp)
  case enabled => exact Option.some.inj hstep ▸ headServed_tryAcquireForWaiter h hi hphase
  case parked =>
    split at hstep
    · exact Option.some.inj hstep ▸ h.idle hi (by rw [hphase]; rfl) (fun _ => ⟨rfl, rfl⟩)
        (by simp)
    · simp at hstep
  case abandoned => exact Option.some.inj hstep ▸ headServed_removeWaiter h hi hphase
  case notifyingHead => exact Option.some.inj hstep ▸ headServed_notifyHead h hi
  case notifyingOne => exact Option.some.inj hstep ▸ headServed_notifyOne h hi hphase
  case holding | releasedOrigin =>
    exact Option.some.inj hstep ▸ h.handOver hi rfl rfl fun _ hmem => hmem
  case finished => simp at hstep

/-- A new call is in no queue and serves nobody. -/
theorem headServed_call {gate : Gate} (origin : Text) (h : HeadServed gate) :
    HeadServed { gate with parties := gate.parties ++ [.call origin] } := by
  refine ⟨?_, ?_⟩
  · intro entry rest owner hqueue howner havailable hasleep
    obtain ⟨before, hbefore, -⟩ := h.ids entry (by
      rw [show gate.waiters = entry :: rest from hqueue]
      simp)
    have hlt := (List.getElem?_eq_some_iff.mp hbefore).1
    rw [List.getElem?_append_left hlt] at howner
    rcases h.head entry rest owner hqueue howner havailable hasleep with
      ⟨party, hmem, hlookup⟩ | ⟨party, hmem, hnotify⟩
    · exact Or.inl ⟨party, List.mem_append_left _ hmem, hlookup⟩
    · exact Or.inr ⟨party, List.mem_append_left _ hmem, hnotify⟩
  · intro entry hmem
    obtain ⟨owner, howner, hrest⟩ := h.ids entry hmem
    have hlt := (List.getElem?_eq_some_iff.mp howner).1
    exact ⟨owner, by rw [List.getElem?_append_left hlt, howner], hrest⟩

/-- Every event keeps the head served. -/
theorem headServed_step {config : GateConfig} {gate next : Gate} {event : Gate.Event}
    (h : HeadServed gate) (hbalanced : Balanced config gate)
    (hstep : gate.step config event = some next) : HeadServed next := by
  rcases Gate.step_cases hstep with ⟨origin, rfl⟩ | ⟨i, party, hi, hsection⟩
  · exact headServed_call origin h
  · rcases hsection with hadvance | ⟨_, hphase, rfl⟩ | ⟨hphase, rfl⟩
    · exact headServed_advance h hbalanced hi hadvance
    · exact h.idle hi (by rw [hphase]; rfl) (by simp [hphase, Phase.registered]) (by simp)
    · exact h.idle hi (by rw [hphase]; rfl) (fun _ => ⟨rfl, rfl⟩) (by simp)

/-- In every reachable gate the head is served. -/
theorem headServed_of_reachable {config : GateConfig} {gate : Gate}
    (h : (Gate.system config).Reachable gate) : HeadServed gate :=
  h.invariant HeadServed (headServed_new config) fun hreachable hserved hstep =>
    headServed_step hserved (balanced_of_reachable hreachable) hstep

/-- No lost wakeup.  In every state of every interleaving: when the head of the
queue sleeps without a stored or delivered notification, and nobody is between a
release, a pop or a removal and the end of its `notify_head`, then
`tryAcquirePermits` for the head fails. -/
theorem head_never_sleeps_runnable (config : GateConfig) (events : List Gate.Event)
    (gate : Gate) (hrun : (Gate.system config).run events = some gate)
    (head : PendingQueueEntry) (rest : List PendingQueueEntry)
    (hqueue : gate.waiters = head :: rest) (owner : Party)
    (howner : gate.parties[head.owner]? = some owner) (hparked : owner.phase = .parked)
    (hnotify : owner.notify = ⟨false, .waiting⟩)
    (hquiet : ∀ party ∈ gate.parties, party.phase.handingOver = false) :
    (tryAcquirePermits gate.permits owner.semaphore).1 = false ∧
      ¬ gate.permits.Available owner.semaphore := by
  have hserved := headServed_of_reachable (TransitionSystem.reachable_of_run hrun)
  have htaken : ¬ gate.permits.Available owner.semaphore := by
    intro havailable
    rcases hserved.head head rest owner hqueue howner havailable
      ⟨hparked, by rw [hnotify]⟩ with ⟨party, hmem, hlookup⟩ | ⟨party, hmem, granted, hphase⟩
    · have hidle := hquiet party hmem
      cases hphase : party.phase <;>
        simp_all [Phase.handingOver, Phase.beforeLookup]
    · have hidle := hquiet party hmem
      simp [hphase, Phase.handingOver] at hidle
  exact ⟨tryAcquirePermits_fst_false htaken, htaken⟩

/-- In the example of the two calls the second one is the head and sleeps, and
its permits are taken. -/
theorem head_never_sleeps_runnable_example :
    (Gate.system exampleConfig).run exampleEvents = some exampleGate ∧
      (tryAcquirePermits exampleGate.permits (some 0)).1 = false := by
  have hrun : (Gate.system exampleConfig).run exampleEvents = some exampleGate := by decide
  have h := head_never_sleeps_runnable exampleConfig exampleEvents exampleGate hrun ⟨1, 1⟩ []
    rfl ⟨"a", some 0, 1, ⟨false, .waiting⟩, .parked⟩ rfl rfl rfl (by decide)
  exact ⟨hrun, h.1⟩

end FogHttp.Acquire
