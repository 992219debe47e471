import FogHttp.Acquire.Wakeup

/-!
# The pending queue is first-in first-out

`History` keeps books about a gate: which parties have registered in the pending queue,
and which of them have obtained their permits, each in the order in which it happened.
It reads this off the gates before and after a section, so it depends on no phase.

`QueueStep` is the inversion lemma of the gate for its queue: a section leaves it alone,
appends its own party, pops the head with a grant, or removes the entry of its own
party.  `Ordered` is the invariant.  The granted parties, followed by the waiting ones,
are a sublist of the registered ones: nobody is granted while one that registered
earlier still waits.

Waiter ids name the entries as long as they do not saturate, which takes `2 ^ 64`
registrations.
-/

namespace FogHttp.Acquire

open Lib

/-! ## Keeping books -/

/-- The party holds its permits. -/
def Gate.grantedAt (gate : Gate) (i : Nat) : Bool :=
  gate.parties[i]?.any fun party => party.phase.granted

structure History where
  gate : Gate
  /-- The parties that have registered, in this order. -/
  registered : List Nat
  /-- The registered parties that have obtained permits, in this order. -/
  granted : List Nat
deriving DecidableEq, Repr

namespace History

def new (config : GateConfig) : History := ⟨.new config, [], []⟩

/-- The books after a section of party `i`. -/
def record (history : History) (next : Gate) (i : Nat) : History where
  gate := next
  registered :=
    if history.gate.waiters.length < next.waiters.length then history.registered ++ [i]
    else history.registered
  granted :=
    if i ∈ history.registered ∧ history.gate.grantedAt i = false ∧ next.grantedAt i = true then
      history.granted ++ [i]
    else history.granted

def step (config : GateConfig) (history : History) (event : Gate.Event) : Option History :=
  (history.gate.step config event).map fun next =>
    match event with
    | .advance i => history.record next i
    | _ => { history with gate := next }

/-- The gate with its books. -/
def system (config : GateConfig) : TransitionSystem History Gate.Event :=
  ⟨new config, step config⟩

/-- Every run of the gate is a run with books. -/
theorem run_gate (config : GateConfig) (events : List Gate.Event) :
    ((system config).run events).map gate = (Gate.system config).run events := by
  refine TransitionSystem.run_map_view gate rfl ?_ events
  intro history event
  show ((history.gate.step config event).map _).map gate = history.gate.step config event
  cases history.gate.step config event with
  | none => rfl
  | some next => cases event <;> rfl

end History

/-! ## What a section does to the queue -/

/-- The party has a queue entry of its own and has not been granted. -/
def Phase.queued : Phase → Bool
  | .looping | .enabled | .parked | .abandoned => true
  | _ => false

/-- A section of party `i` in which nobody registers: who has registered keeps its waiter id,
and nobody else gets to the phases of a queued waiter. -/
structure Quiet (gate : Gate) (i : Nat) (next : Gate) : Prop where
  kept : ∀ (j : Nat) (before : Party), gate.parties[j]? = some before →
    ∃ after : Party, next.parties[j]? = some after ∧
      (before.phase.registered = true →
        after.phase.registered = true ∧ after.waiterId = before.waiterId)
  queued : ∀ (j : Nat) (after : Party), next.parties[j]? = some after →
    after.phase.queued = true →
      ∃ before : Party, gate.parties[j]? = some before ∧ before.phase.queued = true
  nextWaiterId : next.nextWaiterId = gate.nextWaiterId
  others : ∀ j, j ≠ i → next.grantedAt j = gate.grantedAt j

/-- What a section of party `i` does to the queue. -/
inductive QueueStep (gate : Gate) (i : Nat) (party : Party) (next : Gate) : Prop where
  /-- The queue stays.  Permits are only obtained from an empty queue. -/
  | stay (quiet : Quiet gate i next) (waiters : next.waiters = gate.waiters)
      (granted : next.grantedAt i = true → gate.grantedAt i = true ∨
        party.phase.registered = false ∧ gate.waiters = [])
  /-- The party registers. -/
  | register (unregistered : party.phase.registered = false)
      (next_eq : next = { gate with
        nextWaiterId := min (gate.nextWaiterId + 1) (2 ^ 64 - 1)
        waiters := gate.waiters ++ [PendingQueueEntry.mk i gate.nextWaiterId] }.put i
          { party with waiterId := gate.nextWaiterId, notify := .new, phase := .looping })
  /-- The head of the queue obtains its permits. -/
  | grant (quiet : Quiet gate i next) (queued : party.phase.queued = true)
      (head : PendingQueueEntry) (waiters : gate.waiters = head :: next.waiters)
      (own : head.waiterId = party.waiterId) (before : gate.grantedAt i = false)
      (after : next.grantedAt i = true)
  /-- A waiter that has timed out or was cancelled leaves the queue. -/
  | remove (quiet : Quiet gate i next) (abandoned : party.phase = .abandoned)
      (waiters : next.waiters =
        gate.waiters.eraseP fun entry => entry.waiterId == party.waiterId)
      (ungranted : next.grantedAt i = false)

section Sections

variable {config : GateConfig} {gate next : Gate} {i : Nat} {party new : Party}

/-- A section that replaces one party grants nothing to the others. -/
theorem grantedAt_other (hparties : next.parties = gate.parties.set i new) {j : Nat}
    (hj : j ≠ i) : next.grantedAt j = gate.grantedAt j := by
  unfold Gate.grantedAt
  rw [hparties, List.getElem?_set_ne (Ne.symm hj)]

/-- A section that replaces one party and registers nobody. -/
theorem quiet_of_set (hi : gate.parties[i]? = some party)
    (hparties : next.parties = gate.parties.set i new)
    (hid : next.nextWaiterId = gate.nextWaiterId)
    (hkept : party.phase.registered = true →
      new.phase.registered = true ∧ new.waiterId = party.waiterId)
    (hqueued : new.phase.queued = true → party.phase.queued = true) : Quiet gate i next := by
  refine ⟨?_, ?_, hid, fun j hj => grantedAt_other hparties hj⟩
  · intro j before hj
    rw [hparties]
    by_cases hij : i = j
    · subst hij
      obtain rfl : party = before := Option.some.inj (hi.symm.trans hj)
      exact ⟨new, List.getElem?_set_self (List.getElem?_eq_some_iff.mp hi).1, hkept⟩
    · exact ⟨before, by rw [List.getElem?_set_ne hij, hj], fun hbefore => ⟨hbefore, rfl⟩⟩
  · intro j after hj hafter
    rw [hparties] at hj
    rcases getElem?_set_cases hj with ⟨rfl, rfl⟩ | ⟨-, hj⟩
    · exact ⟨party, hi, hqueued hafter⟩
    · exact ⟨after, hj, hafter⟩

theorem grantedAt_of_set (hi : gate.parties[i]? = some party)
    (hparties : next.parties = gate.parties.set i new) :
    next.grantedAt i = new.phase.granted := by
  unfold Gate.grantedAt
  rw [hparties, List.getElem?_set_self (List.getElem?_eq_some_iff.mp hi).1]
  rfl

theorem grantedAt_put (hi : gate.parties[i]? = some party) :
    (gate.put i new).grantedAt i = new.phase.granted := grantedAt_of_set hi rfl

theorem grantedAt_eq (hi : gate.parties[i]? = some party) :
    gate.grantedAt i = party.phase.granted := by
  unfold Gate.grantedAt
  rw [hi]
  rfl

/-- A section that replaces its party and leaves the queue and the grants alone. -/
theorem queueStep_of_set (hi : gate.parties[i]? = some party)
    (hparties : next.parties = gate.parties.set i new) (hwaiters : next.waiters = gate.waiters)
    (hid : next.nextWaiterId = gate.nextWaiterId)
    (hkept : party.phase.registered = true →
      new.phase.registered = true ∧ new.waiterId = party.waiterId)
    (hqueued : new.phase.queued = true → party.phase.queued = true)
    (hgranted : new.phase.granted = true → party.phase.granted = true) :
    QueueStep gate i party next := by
  refine .stay (quiet_of_set hi hparties hid hkept hqueued) hwaiters ?_
  rw [grantedAt_of_set hi hparties, grantedAt_eq hi]
  exact fun hnew => Or.inl (hgranted hnew)

/-- The lookup section. -/
theorem queueStep_originSemaphore (hi : gate.parties[i]? = some party)
    (hphase : party.phase = .called) :
    QueueStep gate i party (gate.originSemaphore config i party) := by
  unfold Gate.originSemaphore
  split
  · exact queueStep_of_set hi rfl rfl rfl (by simp [hphase, Phase.registered])
      (by simp [Phase.queued]) (by simp [Phase.granted])
  · rename_i limit hlimit
    obtain ⟨hwaiters, hparties⟩ := Gate.semaphore_waiters gate limit party.origin
    have hid : (gate.semaphore limit party.origin).2.nextWaiterId = gate.nextWaiterId := by
      unfold Gate.semaphore
      split <;> rfl
    have hset : ((gate.semaphore limit party.origin).2.put i { party with
        semaphore := some (gate.semaphore limit party.origin).1
        phase := .located }).parties = gate.parties.set i { party with
          semaphore := some (gate.semaphore limit party.origin).1
          phase := .located } := by
      dsimp only [Gate.put]
      rw [hparties]
    exact queueStep_of_set hi hset hwaiters hid (by simp [hphase, Phase.registered])
      (by simp [Phase.queued]) (by simp [Phase.granted])

/-- The section of `try_acquire_immediate`. -/
theorem queueStep_tryAcquireImmediate (hi : gate.parties[i]? = some party)
    (hphase : party.phase = .located) :
    QueueStep gate i party (gate.tryAcquireImmediate i party) := by
  have hfresh : party.phase.registered = false := by rw [hphase]; rfl
  unfold Gate.tryAcquireImmediate
  split
  · exact queueStep_of_set hi rfl rfl rfl (by simp [hfresh]) (by simp [Phase.queued])
      (by simp [Phase.granted])
  · rename_i hempty
    split
    · refine .stay (quiet_of_set hi rfl rfl (by simp [hfresh]) (by simp [Phase.queued])) rfl ?_
      intro _
      exact Or.inr ⟨hfresh, by simpa using hempty⟩
    · exact queueStep_of_set hi rfl rfl rfl (by simp [hfresh]) (by simp [Phase.queued])
        (by simp [Phase.granted])

/-- The section of `try_register`. -/
theorem queueStep_tryRegister {blockedBy : PendingRequestBlockingReason}
    (hi : gate.parties[i]? = some party) (hphase : party.phase = .registering blockedBy) :
    QueueStep gate i party (gate.tryRegister config i party) := by
  have hfresh : party.phase.registered = false := by rw [hphase]; rfl
  unfold Gate.tryRegister
  split
  · exact queueStep_of_set hi rfl rfl rfl (by simp [hfresh]) (by simp [Phase.queued])
      (by simp [Phase.granted])
  · exact .register hfresh rfl

/-- The section of `try_acquire_for_waiter`. -/
theorem queueStep_tryAcquireForWaiter (hi : gate.parties[i]? = some party)
    (hphase : party.phase = .enabled) :
    QueueStep gate i party (gate.tryAcquireForWaiter i party) := by
  have hqueued : party.phase.queued = true := by rw [hphase]; rfl
  have hpark : ∀ permits : Permits, QueueStep gate i party
      ({ gate with permits }.put i { party with phase := .parked }) := by
    intro permits
    exact queueStep_of_set hi rfl rfl rfl (fun _ => ⟨rfl, rfl⟩) (fun _ => hqueued)
      (by simp [Phase.granted])
  unfold Gate.tryAcquireForWaiter
  split
  · exact hpark gate.permits
  · rename_i head rest hwaiters
    split
    · exact hpark gate.permits
    · rename_i hhead
      split
      · rename_i permits htry
        refine .grant (quiet_of_set hi rfl rfl (fun _ => ⟨rfl, rfl⟩) (fun _ => hqueued)) hqueued
          head hwaiters (Decidable.not_not.mp hhead) ?_ ?_
        · rw [grantedAt_eq hi, hphase]
          rfl
        · exact grantedAt_put hi
      · exact hpark _

/-- The section of `remove_waiter`. -/
theorem queueStep_removeWaiter (hi : gate.parties[i]? = some party)
    (hphase : party.phase = .abandoned) :
    QueueStep gate i party (gate.removeWaiter i party) := by
  unfold Gate.removeWaiter
  split
  · exact .remove (quiet_of_set hi rfl rfl (fun _ => ⟨rfl, rfl⟩) (by simp [Phase.queued]))
      hphase rfl (grantedAt_put hi)
  · exact queueStep_of_set hi rfl rfl rfl (fun _ => ⟨rfl, rfl⟩) (by simp [Phase.queued])
      (by simp [Phase.granted])

/-- The lookup of `notify_head`. -/
theorem queueStep_notifyHead {granted : Bool} (hi : gate.parties[i]? = some party)
    (hphase : party.phase = .notifyingHead granted) :
    QueueStep gate i party (gate.notifyHead i party granted) := by
  unfold Gate.notifyHead
  split
  · refine queueStep_of_set hi rfl rfl rfl ?_ ?_ ?_
    · exact fun _ => ⟨Gate.afterNotify_registered granted, rfl⟩
    · cases granted <;> simp [Gate.afterNotify, Phase.queued]
    · cases granted <;> simp [Gate.afterNotify, hphase, Phase.granted]
  · refine queueStep_of_set hi rfl rfl rfl (fun _ => ⟨rfl, rfl⟩) (by simp [Phase.queued]) ?_
    simp [hphase, Phase.granted]

/-- The section of `notify_one`.  Its target only gets a notification. -/
theorem queueStep_notifyOne {target : Nat} {granted : Bool}
    (hi : gate.parties[i]? = some party) (hphase : party.phase = .notifyingOne target granted) :
    QueueStep gate i party ((gate.notifyOne target).setPhase i (Gate.afterNotify granted)) := by
  have hget := getElem?_notifyOne_setPhase gate i target (Gate.afterNotify granted)
  have hunqueued : (Gate.afterNotify granted).queued = false := by cases granted <;> rfl
  refine .stay ⟨?_, ?_, ?_, ?_⟩ (by simp [Gate.setPhase, Gate.notifyOne]) ?_
  · intro j before hj
    rw [hget, hj, Option.map_some]
    refine ⟨_, rfl, ?_⟩
    intro hbefore
    refine ⟨?_, rfl⟩
    show (if j = i then Gate.afterNotify granted else before.phase).registered = true
    split
    · exact Gate.afterNotify_registered granted
    · exact hbefore
  · intro j after hj hafter
    rw [hget, Option.map_eq_some_iff] at hj
    obtain ⟨before, hj, rfl⟩ := hj
    refine ⟨before, hj, ?_⟩
    dsimp only at hafter
    split at hafter
    · rw [hunqueued] at hafter
      cases hafter
    · exact hafter
  · rw [Gate.setPhase, Gate.update_nextWaiterId, Gate.notifyOne, Gate.update_nextWaiterId]
  · intro j hj
    unfold Gate.grantedAt
    rw [hget, Option.any_map]
    congr 1
    funext before
    simp [hj]
  · intro hafter
    unfold Gate.grantedAt at hafter ⊢
    rw [hget, hi, Option.map_some, Option.any_some, if_pos rfl] at hafter
    rw [hi, Option.any_some, hphase]
    left
    cases granted
    · cases hafter
    · rfl

/-- What any section does to the queue. -/
theorem queueStep_of_advance (hi : gate.parties[i]? = some party)
    (hstep : gate.advance config i party = some next) : QueueStep gate i party next := by
  unfold Gate.advance at hstep
  cases hphase : party.phase <;> simp only [hphase] at hstep
  case called => exact Option.some.inj hstep ▸ queueStep_originSemaphore hi hphase
  case located => exact Option.some.inj hstep ▸ queueStep_tryAcquireImmediate hi hphase
  case queueing =>
    exact Option.some.inj hstep ▸ queueStep_of_set hi rfl rfl rfl
      (by simp [hphase, Phase.registered]) (by simp [Phase.queued]) (by simp [Phase.granted])
  case registering => exact Option.some.inj hstep ▸ queueStep_tryRegister hi hphase
  case looping =>
    exact Option.some.inj hstep ▸ queueStep_of_set hi rfl rfl rfl (fun _ => ⟨rfl, rfl⟩)
      (fun _ => by rw [hphase]; rfl) (by simp [Phase.granted])
  case enabled => exact Option.some.inj hstep ▸ queueStep_tryAcquireForWaiter hi hphase
  case parked =>
    split at hstep
    · exact Option.some.inj hstep ▸ queueStep_of_set hi rfl rfl rfl (fun _ => ⟨rfl, rfl⟩)
        (fun _ => by rw [hphase]; rfl) (by simp [Phase.granted])
    · simp at hstep
  case abandoned => exact Option.some.inj hstep ▸ queueStep_removeWaiter hi hphase
  case notifyingHead => exact Option.some.inj hstep ▸ queueStep_notifyHead hi hphase
  case notifyingOne => exact Option.some.inj hstep ▸ queueStep_notifyOne hi hphase
  case holding | releasedOrigin =>
    exact Option.some.inj hstep ▸ queueStep_of_set hi rfl rfl rfl (fun _ => ⟨rfl, rfl⟩)
      (by simp [Phase.queued]) (by simp [Phase.granted])
  case finished => simp at hstep

end Sections

/-! ## The invariant -/

/-- The waiter id of the registration at position `n`. -/
def waiterIdOf (n : Nat) : Nat := min (n + 1) (2 ^ 64 - 1)

/-- Waiter ids are distinct until they saturate. -/
theorem waiterIdOf_injective {n m : Nat} (hn : n < 2 ^ 64 - 1) (hm : m < 2 ^ 64 - 1)
    (h : waiterIdOf n = waiterIdOf m) : n = m := by
  unfold waiterIdOf at h
  omega

/-- The invariant of the queue.  The granted parties and then the waiting ones are
registered in this order. -/
structure Ordered (history : History) : Prop where
  nextWaiterId : history.gate.nextWaiterId = waiterIdOf history.registered.length
  ids : ∀ n i, history.registered[n]? = some i →
    ∃ party : Party, history.gate.parties[i]? = some party ∧
      party.phase.registered = true ∧ party.waiterId = waiterIdOf n
  queued : ∀ (i : Nat) (party : Party), history.gate.parties[i]? = some party →
    party.phase.queued = true → i ∈ history.registered
  entries : ∀ entry ∈ history.gate.waiters, ∃ n,
    history.registered[n]? = some entry.owner ∧ entry.waiterId = waiterIdOf n
  nodup : history.registered.Nodup
  order : history.registered.length < 2 ^ 64 →
    (history.granted ++ history.gate.waiters.map PendingQueueEntry.owner).Sublist
      history.registered

theorem ordered_new (config : GateConfig) : Ordered (.new config) where
  nextWaiterId := by simp [History.new, Gate.new, waiterIdOf]
  ids := by simp [History.new]
  queued := by simp [History.new, Gate.new]
  entries := by simp [History.new, Gate.new]
  nodup := by simp [History.new]
  order := by simp [History.new, Gate.new]

section Steps

variable {history : History} {i : Nat} {party : Party} {next : Gate}

/-- A party that has not registered is not in the books. -/
theorem Ordered.not_mem (h : Ordered history) (hi : history.gate.parties[i]? = some party)
    (hfresh : party.phase.registered = false) : i ∉ history.registered := by
  intro hmem
  obtain ⟨n, hn⟩ := List.mem_iff_getElem?.mp hmem
  obtain ⟨same, hsame, hregistered, -⟩ := h.ids n i hn
  obtain rfl : party = same := Option.some.inj (hi.symm.trans hsame)
  rw [hfresh] at hregistered
  cases hregistered

/-- While ids are distinct, the entry with the id of a queued party is its own. -/
theorem Ordered.owner_of_waiterId (h : Ordered history)
    (hcount : history.registered.length < 2 ^ 64)
    (hi : history.gate.parties[i]? = some party) (hmem : i ∈ history.registered)
    {entry : PendingQueueEntry} (hentry : entry ∈ history.gate.waiters)
    (hid : entry.waiterId = party.waiterId) : entry.owner = i := by
  obtain ⟨n, hn⟩ := List.mem_iff_getElem?.mp hmem
  obtain ⟨same, hsame, -, hown⟩ := h.ids n i hn
  obtain rfl : party = same := Option.some.inj (hi.symm.trans hsame)
  obtain ⟨m, hm, hother⟩ := h.entries entry hentry
  have hnlt := (List.getElem?_eq_some_iff.mp hn).1
  have hmlt := (List.getElem?_eq_some_iff.mp hm).1
  have hnm : m = n := by
    apply waiterIdOf_injective
    · omega
    · omega
    · rw [← hother, hid, hown]
  rw [hnm, hn, Option.some.injEq] at hm
  exact hm.symm

/-- The step lemma for a section in which nobody registers. -/
theorem Ordered.quiet (h : Ordered history) (hquiet : Quiet history.gate i next)
    {granted : List Nat} (hwaiters : ∀ entry ∈ next.waiters, entry ∈ history.gate.waiters)
    (horder : history.registered.length < 2 ^ 64 →
      (granted ++ next.waiters.map PendingQueueEntry.owner).Sublist history.registered) :
    Ordered ⟨next, history.registered, granted⟩ where
  nextWaiterId := hquiet.nextWaiterId.trans h.nextWaiterId
  ids := by
    intro n j hj
    obtain ⟨before, hbefore, hregistered, hid⟩ := h.ids n j hj
    obtain ⟨after, hafter, hkept⟩ := hquiet.kept j before hbefore
    obtain ⟨hstill, hsame⟩ := hkept hregistered
    exact ⟨after, hafter, hstill, hsame.trans hid⟩
  queued := by
    intro j after hj hphase
    obtain ⟨before, hbefore, hqueued⟩ := hquiet.queued j after hj hphase
    exact h.queued j before hbefore hqueued
  entries := fun entry hmem => h.entries entry (hwaiters entry hmem)
  nodup := h.nodup
  order := horder

/-- The step lemma for a registration. -/
theorem Ordered.register (h : Ordered history) (hi : history.gate.parties[i]? = some party)
    (hfresh : party.phase.registered = false) :
    Ordered ⟨{ history.gate with
      nextWaiterId := min (history.gate.nextWaiterId + 1) (2 ^ 64 - 1)
      waiters := history.gate.waiters ++
        [PendingQueueEntry.mk i history.gate.nextWaiterId] }.put i
          { party with
            waiterId := history.gate.nextWaiterId, notify := .new, phase := .looping },
      history.registered ++ [i], history.granted⟩ := by
  have hnew := h.not_mem hi hfresh
  have hlt := (List.getElem?_eq_some_iff.mp hi).1
  refine ⟨?_, ?_, ?_, ?_, ?_, ?_⟩
  · show min (history.gate.nextWaiterId + 1) (2 ^ 64 - 1) =
      waiterIdOf (history.registered ++ [i]).length
    rw [h.nextWaiterId, List.length_append, List.length_singleton]
    unfold waiterIdOf
    omega
  · intro n j hj
    show ∃ after, (history.gate.parties.set i _)[j]? = some after ∧ _
    rcases getElem?_push_cases hj with hj | ⟨rfl, rfl⟩
    · have hne : i ≠ j := by
        intro hsame
        exact hnew (hsame ▸ List.mem_iff_getElem?.mpr ⟨n, hj⟩)
      rw [List.getElem?_set_ne hne]
      exact h.ids n j hj
    · exact ⟨_, List.getElem?_set_self hlt, rfl, h.nextWaiterId⟩
  · intro j after hj hphase
    rcases getElem?_set_cases hj with ⟨rfl, -⟩ | ⟨-, hj⟩
    · simp
    · exact List.mem_append_left _ (h.queued j after hj hphase)
  · intro entry hmem
    rcases List.mem_append.mp hmem with hmem | hmem
    · obtain ⟨n, hn, hid⟩ := h.entries entry hmem
      refine ⟨n, ?_, hid⟩
      rw [List.getElem?_append_left (List.getElem?_eq_some_iff.mp hn).1, hn]
    · obtain rfl := List.mem_singleton.mp hmem
      exact ⟨history.registered.length, by simp, h.nextWaiterId⟩
  · rw [List.nodup_append]
    refine ⟨h.nodup, by simp, ?_⟩
    intro j hj k hk hsame
    obtain rfl := List.mem_singleton.mp hk
    exact hnew (hsame ▸ hj)
  · intro hcount
    rw [List.length_append, List.length_singleton] at hcount
    have hbefore := h.order (by omega)
    show (history.granted ++ List.map _ (history.gate.waiters ++ [_])).Sublist _
    rw [List.map_append, ← List.append_assoc]
    exact hbefore.append_right [i]

/-- The books after a section that registers nobody. -/
theorem record_registered_of_le (hlength : next.waiters.length ≤ history.gate.waiters.length) :
    (history.record next i).registered = history.registered :=
  if_neg (Nat.not_lt.mpr hlength)

/-- The books after a section that does not grant a registered party. -/
theorem record_granted_of_not (h : next.grantedAt i = true →
    history.gate.grantedAt i = true ∨ i ∉ history.registered) :
    (history.record next i).granted = history.granted := by
  refine if_neg ?_
  intro hgrant
  rcases h hgrant.2.2 with hbefore | hnew
  · rw [hgrant.2.1] at hbefore
    cases hbefore
  · exact hnew hgrant.1

/-- What a step does to the queue and the books. -/
inductive QueueOutcome (history : History) : History → Prop where
  /-- The queue stays as it is, also when a registration is rejected. -/
  | stay {after : History} (registered : after.registered = history.registered)
      (granted : after.granted = history.granted)
      (waiters : after.gate.waiters = history.gate.waiters) : QueueOutcome history after
  /-- A party registers at the end of the queue. -/
  | register {after : History} (i waiterId : Nat)
      (registered : after.registered = history.registered ++ [i])
      (granted : after.granted = history.granted)
      (waiters : after.gate.waiters = history.gate.waiters ++ [⟨i, waiterId⟩]) :
      QueueOutcome history after
  /-- The head of the queue is granted. -/
  | grant {after : History} (head : PendingQueueEntry)
      (registered : after.registered = history.registered)
      (granted : after.granted = history.granted ++ [head.owner])
      (waiters : history.gate.waiters = head :: after.gate.waiters) :
      QueueOutcome history after
  /-- A waiter that has timed out or was cancelled is taken out of its position. -/
  | remove {after : History} (i : Nat) (party : Party)
      (owner : history.gate.parties[i]? = some party) (abandoned : party.phase = .abandoned)
      (registered : after.registered = history.registered)
      (granted : after.granted = history.granted)
      (waiters : after.gate.waiters = history.gate.waiters.eraseP fun entry =>
        entry.owner == i) :
      QueueOutcome history after

theorem record_eq {registered granted : List Nat}
    (hregistered : (history.record next i).registered = registered)
    (hgranted : (history.record next i).granted = granted) :
    history.record next i = ⟨next, registered, granted⟩ := by
  subst hregistered hgranted
  rfl

/-- While ids are distinct, a removal by id is a removal of the own entry. -/
theorem Ordered.eraseP_waiterId (h : Ordered history)
    (hcount : history.registered.length < 2 ^ 64)
    (hi : history.gate.parties[i]? = some party) (hmem : i ∈ history.registered) :
    history.gate.waiters.eraseP (fun entry => entry.waiterId == party.waiterId) =
      history.gate.waiters.eraseP fun entry => entry.owner == i := by
  apply eraseP_congr
  intro entry hentry
  rw [Bool.eq_iff_iff, beq_iff_eq, beq_iff_eq]
  constructor
  · exact h.owner_of_waiterId hcount hi hmem hentry
  · intro howner
    obtain ⟨n, hn, hid⟩ := h.entries entry hentry
    rw [howner] at hn
    obtain ⟨same, hsame, -, hown⟩ := h.ids n i hn
    obtain rfl : party = same := Option.some.inj (hi.symm.trans hsame)
    rw [hid, hown]

/-- A section keeps the queue in order, and what it does is one of the four
outcomes. -/
theorem ordered_record (h : Ordered history) (hi : history.gate.parties[i]? = some party)
    (hstep : QueueStep history.gate i party next) :
    Ordered (history.record next i) ∧
      (history.registered.length < 2 ^ 64 → QueueOutcome history (history.record next i)) := by
  cases hstep with
  | stay hquiet hwaiters hgrant =>
      have hregistered : (history.record next i).registered = history.registered :=
        record_registered_of_le (by rw [hwaiters])
      have hgranted : (history.record next i).granted = history.granted := by
        refine record_granted_of_not fun hnext => ?_
        rcases hgrant hnext with hbefore | ⟨hfresh, -⟩
        · exact Or.inl hbefore
        · exact Or.inr (h.not_mem hi hfresh)
      rw [record_eq hregistered hgranted]
      refine ⟨h.quiet hquiet ?_ ?_, fun _ => .stay rfl rfl hwaiters⟩
      · rw [hwaiters]
        exact fun entry hmem => hmem
      · rw [hwaiters]
        exact h.order
  | register hfresh hnext =>
      have hwaiters : next.waiters =
          history.gate.waiters ++ [⟨i, history.gate.nextWaiterId⟩] := by
        rw [hnext]
        rfl
      have hregistered : (history.record next i).registered = history.registered ++ [i] :=
        if_pos (by rw [hwaiters]; simp)
      have hgranted : (history.record next i).granted = history.granted :=
        record_granted_of_not fun _ => Or.inr (h.not_mem hi hfresh)
      rw [record_eq hregistered hgranted]
      subst hnext
      exact ⟨h.register hi hfresh, fun _ => .register i history.gate.nextWaiterId rfl rfl rfl⟩
  | grant hquiet hqueued head hwaiters hown hbefore hafter =>
      have hmem : i ∈ history.registered := h.queued i party hi hqueued
      have hregistered : (history.record next i).registered = history.registered :=
        record_registered_of_le (by rw [hwaiters]; simp)
      have hgranted : (history.record next i).granted = history.granted ++ [i] :=
        if_pos ⟨hmem, hbefore, hafter⟩
      -- The head is the party itself, so the books and the queue list the same parties.
      have howner : history.registered.length < 2 ^ 64 → head.owner = i := fun hcount =>
        h.owner_of_waiterId hcount hi hmem (by rw [hwaiters]; simp) hown
      rw [record_eq hregistered hgranted]
      refine ⟨h.quiet hquiet ?_ ?_, fun hcount => .grant head rfl ?_ hwaiters⟩
      · intro entry hentry
        rw [hwaiters]
        exact List.mem_cons_of_mem _ hentry
      · intro hcount
        have hbefore := h.order hcount
        rw [hwaiters, List.map_cons, howner hcount] at hbefore
        rw [List.append_assoc]
        exact hbefore
      · rw [howner hcount]
  | remove hquiet habandoned hwaiters hungranted =>
      have hmem : i ∈ history.registered := h.queued i party hi (by rw [habandoned]; rfl)
      have hregistered : (history.record next i).registered = history.registered :=
        record_registered_of_le (by rw [hwaiters]; exact List.length_eraseP_le)
      have hgranted : (history.record next i).granted = history.granted := by
        refine record_granted_of_not fun hnext => ?_
        rw [hungranted] at hnext
        cases hnext
      rw [record_eq hregistered hgranted]
      refine ⟨h.quiet hquiet ?_ ?_, fun hcount => .remove i party hi habandoned rfl rfl ?_⟩
      · intro entry hentry
        rw [hwaiters] at hentry
        exact List.mem_of_mem_eraseP hentry
      · intro hcount
        have hsub : (next.waiters.map PendingQueueEntry.owner).Sublist
            (history.gate.waiters.map PendingQueueEntry.owner) := by
          rw [hwaiters]
          exact List.eraseP_sublist.map _
        exact (hsub.append_left history.granted).trans (h.order hcount)
      · exact hwaiters.trans (h.eraseP_waiterId hcount hi hmem)

end Steps

/-! ## Runs -/

theorem grantedAt_call (gate : Gate) (origin : Text) (j : Nat) :
    Gate.grantedAt { gate with parties := gate.parties ++ [.call origin] } j =
      gate.grantedAt j := by
  unfold Gate.grantedAt
  rw [List.getElem?_append]
  split
  · rfl
  · rename_i hlt
    rw [List.getElem?_eq_none (Nat.le_of_not_lt hlt)]
    cases j - gate.parties.length <;> rfl

/-- A new call is in no queue. -/
theorem quiet_call (gate : Gate) (origin : Text) (i : Nat) :
    Quiet gate i { gate with parties := gate.parties ++ [.call origin] } := by
  refine ⟨?_, ?_, rfl, fun j _ => grantedAt_call gate origin j⟩
  · intro j before hj
    refine ⟨before, ?_, fun hbefore => ⟨hbefore, rfl⟩⟩
    show (gate.parties ++ [Party.call origin])[j]? = some before
    rw [List.getElem?_append_left (List.getElem?_eq_some_iff.mp hj).1, hj]
  · intro j after hj hafter
    rcases getElem?_push_cases hj with hj | ⟨-, rfl⟩
    · exact ⟨after, hj, hafter⟩
    · simp [Party.call, Phase.queued] at hafter

/-- A step in which nobody registers, nobody is granted and the queue stays. -/
theorem Ordered.unchanged {history : History} {next : Gate} {i : Nat} (h : Ordered history)
    (hquiet : Quiet history.gate i next) (hwaiters : next.waiters = history.gate.waiters) :
    Ordered { history with gate := next } ∧
      QueueOutcome history { history with gate := next } := by
  refine ⟨h.quiet hquiet ?_ ?_, .stay rfl rfl hwaiters⟩
  · rw [hwaiters]
    exact fun entry hmem => hmem
  · rw [hwaiters]
    exact h.order

/-- A party that obtains permits without having registered finds the queue empty. -/
theorem grant_of_queueStep {history : History} {i : Nat} {party : Party} {next : Gate}
    (h : Ordered history) (hi : history.gate.parties[i]? = some party)
    (hstep : QueueStep history.gate i party next) {j : Nat}
    (hbefore : history.gate.grantedAt j = false) (hafter : next.grantedAt j = true)
    (hnew : j ∉ history.registered) : history.gate.waiters = [] := by
  have hsame : next.grantedAt j = history.gate.grantedAt j → history.gate.waiters = [] := by
    intro hkept
    rw [hkept, hbefore] at hafter
    cases hafter
  cases hstep with
  | stay hquiet hwaiters hgrant =>
      by_cases hj : j = i
      · subst hj
        rcases hgrant hafter with hgranted | ⟨-, hempty⟩
        · rw [hbefore] at hgranted
          cases hgranted
        · exact hempty
      · exact hsame (hquiet.others j hj)
  | register hfresh hnext =>
      have hparties : next.parties = history.gate.parties.set i { party with
          waiterId := history.gate.nextWaiterId, notify := .new, phase := .looping } := by
        rw [hnext]
        rfl
      by_cases hj : j = i
      · subst hj
        rw [grantedAt_of_set hi hparties] at hafter
        cases hafter
      · exact hsame (grantedAt_other hparties hj)
  | grant hquiet hqueued head hwaiters hown hfresh hgranted =>
      by_cases hj : j = i
      · subst hj
        exact absurd (h.queued j party hi hqueued) hnew
      · exact hsame (hquiet.others j hj)
  | remove hquiet habandoned hwaiters hungranted =>
      by_cases hj : j = i
      · subst hj
        rw [hungranted] at hafter
        cases hafter
      · exact hsame (hquiet.others j hj)

/-- A party that ends at its deadline or leaves its await point is granted nothing. -/
theorem Ordered.ends {history : History} {i : Nat} {old new : Party} (h : Ordered history)
    (hi : history.gate.parties[i]? = some old) (hregistered : new.phase.registered = true)
    (hid : new.waiterId = old.waiterId) (hungranted : new.phase.granted = false)
    (hqueued : new.phase.queued = true → old.phase.queued = true) :
    Ordered { history with gate := history.gate.put i new } ∧
      QueueOutcome history { history with gate := history.gate.put i new } ∧
      ∀ j, history.gate.grantedAt j = false →
        (history.gate.put i new).grantedAt j = false := by
  have hquiet : Quiet history.gate i (history.gate.put i new) :=
    quiet_of_set hi rfl rfl (fun _ => ⟨hregistered, hid⟩) hqueued
  obtain ⟨hordered, houtcome⟩ := h.unchanged hquiet rfl
  refine ⟨hordered, houtcome, fun j hbefore => ?_⟩
  by_cases hj : j = i
  · subst hj
    rw [grantedAt_put hi, hungranted]
  · rw [hquiet.others j hj, hbefore]

/-- Every event keeps the queue in order and has one of the four outcomes. -/
theorem ordered_step {config : GateConfig} {history after : History} {event : Gate.Event}
    (h : Ordered history) (hstep : history.step config event = some after) :
    Ordered after ∧
      (history.registered.length < 2 ^ 64 → QueueOutcome history after) ∧
      ∀ j, history.gate.grantedAt j = false → after.gate.grantedAt j = true →
        j ∉ history.registered → history.gate.waiters = [] := by
  obtain ⟨next, hnext, hafter⟩ := Option.map_eq_some_iff.mp hstep
  subst hafter
  cases event with
  | call origin =>
      obtain rfl := Option.some.inj hnext
      obtain ⟨hordered, houtcome⟩ := h.unchanged (quiet_call history.gate origin 0) rfl
      refine ⟨hordered, fun _ => houtcome, fun j hbefore hgranted _ => ?_⟩
      rw [grantedAt_call, hbefore] at hgranted
      cases hgranted
  | advance i =>
      simp only [Gate.step, Option.bind_eq_bind, Option.bind_eq_some_iff] at hnext
      obtain ⟨party, hi, hnext⟩ := hnext
      have hqueue := queueStep_of_advance hi hnext
      obtain ⟨hordered, houtcome⟩ := ordered_record h hi hqueue
      exact ⟨hordered, houtcome, fun j => grant_of_queueStep h hi hqueue⟩
  | expire i =>
      simp only [Gate.step, Option.bind_eq_bind, Option.bind_eq_some_iff] at hnext
      obtain ⟨party, hi, hnext⟩ := hnext
      split at hnext
      · obtain rfl := Option.some.inj hnext
        obtain ⟨hordered, houtcome, hnone⟩ :=
          @Ordered.ends history i party { party with semaphore := none, phase := .finished } h hi
            rfl rfl rfl (by simp [Phase.queued])
        refine ⟨hordered, fun _ => houtcome, fun j hbefore hgranted _ => ?_⟩
        rw [hnone j hbefore] at hgranted
        cases hgranted
      · simp at hnext
  | abandon i =>
      simp only [Gate.step, Option.bind_eq_bind, Option.bind_eq_some_iff] at hnext
      obtain ⟨party, hi, hnext⟩ := hnext
      split at hnext
      · rename_i hphase
        obtain rfl := Option.some.inj hnext
        obtain ⟨hordered, houtcome, hnone⟩ :=
          @Ordered.ends history i party { party with
            semaphore := none, notify := party.notify.dropFuture, phase := .abandoned } h hi
            rfl rfl rfl fun _ => by rw [hphase]; rfl
        refine ⟨hordered, fun _ => houtcome, fun j hbefore hgranted _ => ?_⟩
        rw [hnone j hbefore] at hgranted
        cases hgranted
      · simp at hnext

/-- In every reachable state of the books the queue is in order. -/
theorem ordered_of_reachable {config : GateConfig} {history : History}
    (h : (History.system config).Reachable history) : Ordered history :=
  h.invariant Ordered (ordered_new config) fun _ hordered hstep => (ordered_step hordered hstep).1

/-- The pending queue is first-in first-out.  For every interleaving, with books about
its registrations and grants: as long as there were fewer than `2 ^ 64` registrations,
the granted parties followed by the waiting ones are in the order of their registration,
and every further step leaves the queue as it is, appends a new registration, grants its
head, or takes a waiter out of its position that has timed out or was cancelled.  A
party that has not registered obtains permits only while the queue is empty. -/
theorem pending_fifo (config : GateConfig) (events : List Gate.Event) (gate : Gate)
    (hrun : (Gate.system config).run events = some gate) :
    ∃ history, (History.system config).run events = some history ∧ history.gate = gate ∧
      (∀ event after, history.step config event = some after →
        ∀ j, gate.grantedAt j = false → after.gate.grantedAt j = true →
          j ∉ history.registered → gate.waiters = []) ∧
      (history.registered.length < 2 ^ 64 →
        history.registered.Nodup ∧
        (history.granted ++ gate.waiters.map PendingQueueEntry.owner).Sublist
          history.registered ∧
        ∀ event after, history.step config event = some after →
          QueueOutcome history after) := by
  rw [← History.run_gate, Option.map_eq_some_iff] at hrun
  obtain ⟨history, hhistory, hgate⟩ := hrun
  have h := ordered_of_reachable (TransitionSystem.reachable_of_run hhistory)
  subst hgate
  refine ⟨history, hhistory, rfl, ?_, fun hcount => ⟨h.nodup, h.order hcount, ?_⟩⟩
  · intro event after hstep
    exact (ordered_step h hstep).2.2
  · intro event after hstep
    exact (ordered_step h hstep).2.1 hcount

/-- In the example of the two calls the first is granted at once, and the second has
registered and waits. -/
theorem pending_fifo_example :
    ∃ history, (History.system exampleConfig).run exampleEvents = some history ∧
      history.registered = [1] ∧
      (history.granted ++ exampleGate.waiters.map PendingQueueEntry.owner).Sublist [1] := by
  obtain ⟨history, hhistory, -, -, hfifo⟩ :=
    pending_fifo exampleConfig exampleEvents exampleGate (by decide)
  have hcomputed : (History.system exampleConfig).run exampleEvents =
      some ⟨exampleGate, [1], []⟩ := by decide
  obtain rfl := Option.some.inj (hhistory.symm.trans hcomputed)
  exact ⟨_, hcomputed, rfl, (hfifo (by decide)).2.1⟩

end FogHttp.Acquire
