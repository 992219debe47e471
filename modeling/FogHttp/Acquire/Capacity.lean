import FogHttp.Acquire.Gate
import FogHttp.Lib.Entries

/-!
# The gate keeps its limits

`Balanced` is the invariant of the gate.  Available permits and held permits add
up to the configured number, for the global semaphore and for every origin
semaphore.  A party that holds an origin semaphore holds the one that the map
has for its origin, so two parties of one origin share it.  The pending queue is
within its bound.

Every section replaces one party.  `Balanced.put` is the step lemma for that: it
asks that the permits which the party gains are the ones that the semaphores
lose.  `Balanced.move` is its case for a section that touches no permit.  The
lookup of an origin semaphore is the one section that creates a semaphore, and
`balanced_semaphore` covers it.

`balanced_step` collects the sections, `balanced_of_reachable` is the induction
over runs, and `gate_capacity` reads the limits off.
-/

namespace FogHttp.Acquire

open Lib

/-- The party holds an `Arc` to the semaphore of its origin, if there are
any. -/
def Phase.owning : Phase → Bool
  | .located | .queueing _ | .registering _ | .looping | .enabled | .parked => true
  | phase => phase.granted

/-- The invariant of the gate. -/
structure Balanced (config : GateConfig) (gate : Gate) : Prop where
  global : gate.permits.global + gate.parties.countP Party.holdsGlobal =
    config.maxActiveRequests
  origins : ∀ limit, config.maxActiveRequestsPerOrigin = some limit →
    ∀ k available, gate.permits.origins[k]? = some available →
      available + gate.parties.countP (Party.holdsOrigin k) = limit
  shared : ∀ party ∈ gate.parties, ∀ k, party.semaphore = some k →
    gate.semaphores.lookup party.origin = some k ∧ k < gate.permits.origins.length
  owned : ∀ party ∈ gate.parties, party.semaphore.isSome =
    (party.phase.owning && config.maxActiveRequestsPerOrigin.isSome)
  pending : gate.waiters.length ≤ config.maxPendingRequests

/-- A new gate is balanced. -/
theorem balanced_new (config : GateConfig) : Balanced config (.new config) where
  global := by simp [Gate.new]
  origins := by simp [Gate.new]
  shared := by simp [Gate.new]
  owned := by simp [Gate.new]
  pending := by simp [Gate.new]

/-- The step lemma: what the party gains, the semaphores lose. -/
theorem Balanced.put {config : GateConfig} {gate : Gate} {i : Nat} {old new : Party}
    {permits : Permits} {nextWaiterId : Nat} {waiters : List PendingQueueEntry}
    (h : Balanced config gate) (hi : gate.parties[i]? = some old)
    (hglobal : permits.global + new.holdsGlobal.toNat =
      gate.permits.global + old.holdsGlobal.toNat)
    (hlength : permits.origins.length = gate.permits.origins.length)
    (horigins : ∀ k available, permits.origins[k]? = some available →
      ∃ before, gate.permits.origins[k]? = some before ∧
        available + (new.holdsOrigin k).toNat = before + (old.holdsOrigin k).toNat)
    (hshared : ∀ k, new.semaphore = some k →
      gate.semaphores.lookup new.origin = some k ∧ k < gate.permits.origins.length)
    (howned : new.semaphore.isSome =
      (new.phase.owning && config.maxActiveRequestsPerOrigin.isSome))
    (hpending : waiters.length ≤ config.maxPendingRequests) :
    Balanced config
      ⟨permits, gate.semaphores, nextWaiterId, waiters, gate.parties.set i new⟩ := by
  refine ⟨?_, ?_, ?_, forall_mem_set h.owned howned, hpending⟩
  · have hcount := countP_set_add Party.holdsGlobal new hi
    have hbefore := h.global
    show permits.global + (gate.parties.set i new).countP Party.holdsGlobal = _
    omega
  · intro limit hlimit k available hk
    have hcount := countP_set_add (Party.holdsOrigin k) new hi
    obtain ⟨before, hbefore, hbalance⟩ := horigins k available hk
    have htotal := h.origins limit hlimit k before hbefore
    show available + (gate.parties.set i new).countP (Party.holdsOrigin k) = _
    omega
  · rw [hlength]
    exact forall_mem_set h.shared hshared

/-- What a party keeps or gives up of its semaphore in a section. -/
def KeepsSemaphore (old new : Party) : Prop :=
  new.origin = old.origin ∧
    (new.semaphore = old.semaphore ∧ new.phase.owning = old.phase.owning ∨
      new.semaphore = none ∧ new.phase.owning = false)

theorem Balanced.shared_of_keeps {config : GateConfig} {gate : Gate} {old new : Party}
    (h : Balanced config gate) (hold : old ∈ gate.parties) (hkeeps : KeepsSemaphore old new)
    (k : Nat) (hk : new.semaphore = some k) :
    gate.semaphores.lookup new.origin = some k ∧ k < gate.permits.origins.length := by
  obtain ⟨horigin, ⟨hsame, -⟩ | ⟨hnone, -⟩⟩ := hkeeps
  · rw [horigin]
    exact h.shared old hold k (hsame ▸ hk)
  · simp [hnone] at hk

theorem Balanced.owned_of_keeps {config : GateConfig} {gate : Gate} {old new : Party}
    (h : Balanced config gate) (hold : old ∈ gate.parties) (hkeeps : KeepsSemaphore old new) :
    new.semaphore.isSome =
      (new.phase.owning && config.maxActiveRequestsPerOrigin.isSome) := by
  obtain ⟨-, ⟨hsame, howning⟩ | ⟨hnone, howning⟩⟩ := hkeeps
  · rw [hsame, howning]
    exact h.owned old hold
  · simp [hnone, howning]

/-- Only an owning party is granted. -/
theorem Phase.granted_of_not_owning {phase : Phase} (h : phase.owning = false) :
    phase.granted = false := by
  cases phase <;> simp_all [Phase.owning, Phase.granted]

/-- The step lemma for a section that touches no permit. -/
theorem Balanced.move {config : GateConfig} {gate : Gate} {i : Nat} {old new : Party}
    {nextWaiterId : Nat} {waiters : List PendingQueueEntry}
    (h : Balanced config gate) (hi : gate.parties[i]? = some old)
    (hgranted : new.phase.granted = old.phase.granted)
    (hglobal : new.phase.holdsGlobal = old.phase.holdsGlobal)
    (hkeeps : KeepsSemaphore old new)
    (hpending : waiters.length ≤ config.maxPendingRequests) :
    Balanced config
      ⟨gate.permits, gate.semaphores, nextWaiterId, waiters, gate.parties.set i new⟩ := by
  have hold : old ∈ gate.parties := List.mem_iff_getElem?.mpr ⟨i, hi⟩
  refine h.put hi ?_ rfl ?_ (h.shared_of_keeps hold hkeeps) (h.owned_of_keeps hold hkeeps)
    hpending
  · unfold Party.holdsGlobal
    rw [hglobal]
  · intro k available hk
    refine ⟨available, hk, ?_⟩
    unfold Party.holdsOrigin
    obtain ⟨-, ⟨hsame, -⟩ | ⟨-, hfree⟩⟩ := hkeeps
    · rw [hgranted, hsame]
    · rw [← hgranted, Phase.granted_of_not_owning hfree]
      rfl

/-- A section after which the party still has its semaphore and its permits. -/
theorem Balanced.stay {config : GateConfig} {gate : Gate} {i : Nat} {old new : Party}
    {phase : Phase} {nextWaiterId : Nat} {waiters : List PendingQueueEntry}
    (h : Balanced config gate) (hi : gate.parties[i]? = some old) (hphase : old.phase = phase)
    (hclass : (new.phase.granted, new.phase.holdsGlobal, new.phase.owning) =
      (phase.granted, phase.holdsGlobal, phase.owning))
    (hsame : (new.origin, new.semaphore) = (old.origin, old.semaphore))
    (hpending : waiters.length ≤ config.maxPendingRequests) :
    Balanced config
      ⟨gate.permits, gate.semaphores, nextWaiterId, waiters, gate.parties.set i new⟩ := by
  subst hphase
  simp only [Prod.mk.injEq] at hclass hsame
  exact h.move hi hclass.1 hclass.2.1 ⟨hsame.1, Or.inl ⟨hsame.2, hclass.2.2⟩⟩ hpending

/-- A section in which a party without permits drops its semaphore. -/
theorem Balanced.leave {config : GateConfig} {gate : Gate} {i : Nat} {old new : Party}
    {phase : Phase} (h : Balanced config gate) (hi : gate.parties[i]? = some old)
    (hphase : old.phase = phase)
    (hclass : (new.phase.granted, new.phase.holdsGlobal, new.phase.owning) =
      (phase.granted, phase.holdsGlobal, false))
    (horigin : new.origin = old.origin) (hnone : new.semaphore = none) :
    Balanced config (gate.put i new) := by
  subst hphase
  simp only [Prod.mk.injEq] at hclass
  exact h.move hi hclass.1 hclass.2.1 ⟨horigin, Or.inr ⟨hnone, hclass.2.2⟩⟩ h.pending

/-- The step lemma for a grant: both permits go from the semaphores to the
party. -/
theorem Balanced.grant {config : GateConfig} {gate : Gate} {i : Nat} {old new : Party}
    {permits : Permits} {waiters : List PendingQueueEntry}
    (h : Balanced config gate) (hi : gate.parties[i]? = some old)
    (htry : tryAcquirePermits gate.permits old.semaphore = (true, permits))
    (hold : old.phase.holdsGlobal = false) (howned : old.phase.owning = true)
    (hgranted : new.phase.granted = true) (horigin : new.origin = old.origin)
    (hsemaphore : new.semaphore = old.semaphore)
    (hpending : waiters.length ≤ config.maxPendingRequests) :
    Balanced config
      ⟨permits, gate.semaphores, gate.nextWaiterId, waiters, gate.parties.set i new⟩ := by
  have hmem : old ∈ gate.parties := List.mem_iff_getElem?.mpr ⟨i, hi⟩
  obtain ⟨-, hglobal, hlength, horigins⟩ := tryAcquirePermits_true htry
  have hbefore : old.phase.granted = false := by
    cases hphase : old.phase <;> simp_all [Phase.holdsGlobal, Phase.granted]
  have howning : new.phase.owning = true := by
    by_contra hnot
    simp [Phase.granted_of_not_owning (by simpa using hnot)] at hgranted
  have hkeeps : KeepsSemaphore old new :=
    ⟨horigin, Or.inl ⟨hsemaphore, by rw [howning, howned]⟩⟩
  refine h.put hi ?_ hlength ?_ (h.shared_of_keeps hmem hkeeps) (h.owned_of_keeps hmem hkeeps)
    hpending
  · have hafter : new.phase.holdsGlobal = true := by
      cases hphase : new.phase <;> simp_all [Phase.holdsGlobal, Phase.granted]
    simpa [Party.holdsGlobal, hold, hafter] using hglobal
  · intro k available hk
    refine ⟨_, horigins k available hk, ?_⟩
    simp [Party.holdsOrigin, hgranted, hbefore, hsemaphore]

/-! ## The sections -/

/-- Nobody holds a permit of a semaphore that does not exist yet. -/
theorem Balanced.countP_holdsOrigin_eq_zero {config : GateConfig} {gate : Gate} {k : Nat}
    (h : Balanced config gate) (hk : gate.permits.origins.length ≤ k) :
    gate.parties.countP (Party.holdsOrigin k) = 0 := by
  rw [List.countP_eq_zero]
  intro party hmem hholds
  simp only [Party.holdsOrigin, Bool.and_eq_true, beq_iff_eq] at hholds
  have hlt := (h.shared party hmem k hholds.2).2
  omega

/-- The lookup of an origin without a live semaphore: a party that holds one is
of another origin, and its entry stays. -/
theorem Balanced.lookup_kept {config : GateConfig} {gate : Gate} {origin : Text} {k new : Nat}
    {party : Party} (h : Balanced config gate) (hmem : party ∈ gate.parties)
    (hdead : (gate.semaphores.lookup origin).filter (fun k => 0 < gate.strongCount k) = none)
    (hk : party.semaphore = some k) :
    List.lookup party.origin ((origin, new) :: (if gate.semaphores.length ≥
        originGateCleanupThreshold then
      gate.semaphores.filter fun entry => 0 < gate.strongCount entry.2
      else gate.semaphores).filter fun entry => entry.1 != origin) = some k := by
  have hfound := (h.shared party hmem k hk).1
  have hlive : 0 < gate.strongCount k := by
    exact List.countP_pos_iff.mpr ⟨party, hmem, by simp [hk]⟩
  have hother : party.origin ≠ origin := by
    intro heq
    rw [heq] at hfound
    rw [hfound, Option.filter_some] at hdead
    simp [hlive] at hdead
  rw [List.lookup_cons]
  simp only [beq_eq_false_iff_ne.mpr hother]
  apply lookup_filter
  · split
    · exact lookup_filter hfound (by simpa using hlive)
    · exact hfound
  · simpa using hother

/-- The lookup of an origin semaphore keeps the balance, and the map then has
the returned semaphore for the origin. -/
theorem balanced_semaphore {config : GateConfig} {gate after : Gate} {limit k : Nat}
    {origin : Text} (h : Balanced config gate)
    (hlimit : config.maxActiveRequestsPerOrigin = some limit)
    (hlookup : gate.semaphore limit origin = (k, after)) :
    Balanced config after ∧ after.parties = gate.parties ∧
      after.semaphores.lookup origin = some k ∧ k < after.permits.origins.length := by
  unfold Gate.semaphore at hlookup
  split at hlookup
  · rename_i live hlive
    simp only [Prod.mk.injEq] at hlookup
    obtain ⟨rfl, rfl⟩ := hlookup
    obtain ⟨hfound, hcount⟩ := Option.filter_eq_some_iff.mp hlive
    refine ⟨h, rfl, hfound, ?_⟩
    obtain ⟨party, hmem, hparty⟩ := List.countP_pos_iff.mp (of_decide_eq_true hcount)
    exact (h.shared party hmem live (by simpa using hparty)).2
  · rename_i hdead
    simp only [Prod.mk.injEq] at hlookup
    obtain ⟨rfl, rfl⟩ := hlookup
    refine ⟨⟨h.global, ?_, ?_, h.owned, h.pending⟩, rfl, by simp, by simp⟩
    · intro limit' hlimit' k available hk
      rcases getElem?_push_cases hk with hk | ⟨rfl, rfl⟩
      · exact h.origins limit' hlimit' k available hk
      · rw [hlimit] at hlimit'
        rw [h.countP_holdsOrigin_eq_zero (Nat.le_refl _), Nat.add_zero]
        exact Option.some.inj hlimit'
    · intro party hmem k hk
      have hlt := (h.shared party hmem k hk).2
      exact ⟨h.lookup_kept hmem hdead hk, by simp; omega⟩

/-- The lookup section. -/
theorem balanced_originSemaphore {config : GateConfig} {gate : Gate} {i : Nat} {party : Party}
    (h : Balanced config gate) (hi : gate.parties[i]? = some party)
    (hphase : party.phase = .called) :
    Balanced config (gate.originSemaphore config i party) := by
  have hmem : party ∈ gate.parties := List.mem_iff_getElem?.mpr ⟨i, hi⟩
  have hfree : party.semaphore = none := by
    simpa [hphase, Phase.owning, Phase.granted] using h.owned party hmem
  have hheld : ∀ (semaphore : Option Nat) (k : Nat),
      Party.holdsOrigin k { party with semaphore, phase := .located } = party.holdsOrigin k := by
    intro semaphore k
    simp [Party.holdsOrigin, hphase, Phase.granted]
  have hglobal : party.holdsGlobal = false := by
    simp [Party.holdsGlobal, hphase, Phase.holdsGlobal, Phase.granted]
  unfold Gate.originSemaphore
  split
  · rename_i hlimit
    refine h.put hi (by rw [hglobal]; rfl) rfl ?_ (by simp [hfree]) (by simp [hfree, hlimit])
      h.pending
    intro k available hk
    exact ⟨available, hk, by rw [hheld party.semaphore k]⟩
  · rename_i limit hlimit
    cases hlookup : gate.semaphore limit party.origin with
    | mk k after =>
        obtain ⟨hafter, hparties, hfound, hlt⟩ := balanced_semaphore h hlimit hlookup
        rw [← hparties] at hi
        refine hafter.put hi (by rw [hglobal]; rfl) rfl ?_ ?_ (by simp [hlimit, Phase.owning])
          hafter.pending
        · intro k' available hk
          exact ⟨available, hk, by rw [hheld (some k) k']⟩
        · intro k' hk
          rw [← Option.some.inj hk]
          exact ⟨hfound, hlt⟩

/-- The section of `try_acquire_immediate`. -/
theorem balanced_tryAcquireImmediate {config : GateConfig} {gate : Gate} {i : Nat}
    {party : Party} (h : Balanced config gate) (hi : gate.parties[i]? = some party)
    (hphase : party.phase = .located) :
    Balanced config (gate.tryAcquireImmediate i party) := by
  unfold Gate.tryAcquireImmediate
  split
  · exact h.stay hi hphase rfl rfl h.pending
  · split
    · rename_i permits htry
      exact h.grant hi htry (by rw [hphase]; rfl) (by rw [hphase]; rfl) rfl rfl rfl h.pending
    · rename_i permits htry
      obtain ⟨rfl, -⟩ := tryAcquirePermits_false htry
      exact h.stay hi hphase rfl rfl h.pending

/-- The section of `try_register`. -/
theorem balanced_tryRegister {config : GateConfig} {gate : Gate} {i : Nat} {party : Party}
    {blockedBy : PendingRequestBlockingReason} (h : Balanced config gate)
    (hi : gate.parties[i]? = some party) (hphase : party.phase = .registering blockedBy) :
    Balanced config (gate.tryRegister config i party) := by
  unfold Gate.tryRegister
  split
  · exact h.leave hi hphase rfl rfl rfl
  · rename_i hroom
    refine h.stay hi hphase rfl rfl ?_
    simp only [List.length_append, List.length_singleton]
    omega

/-- The section of `try_acquire_for_waiter`. -/
theorem balanced_tryAcquireForWaiter {config : GateConfig} {gate : Gate} {i : Nat}
    {party : Party} (h : Balanced config gate) (hi : gate.parties[i]? = some party)
    (hphase : party.phase = .enabled) :
    Balanced config (gate.tryAcquireForWaiter i party) := by
  have hpark : Balanced config (gate.put i { party with phase := .parked }) :=
    h.stay hi hphase rfl rfl h.pending
  unfold Gate.tryAcquireForWaiter
  split
  · exact hpark
  · rename_i head rest hwaiters
    split
    · exact hpark
    · split
      · rename_i permits htry
        refine h.grant hi htry (by rw [hphase]; rfl) (by rw [hphase]; rfl) rfl rfl rfl ?_
        have hbound := h.pending
        rw [hwaiters, List.length_cons] at hbound
        exact Nat.le_of_succ_le hbound
      · rename_i permits htry
        obtain ⟨rfl, -⟩ := tryAcquirePermits_false htry
        exact hpark

/-- The section of `remove_waiter`. -/
theorem balanced_removeWaiter {config : GateConfig} {gate : Gate} {i : Nat} {party : Party}
    (h : Balanced config gate) (hi : gate.parties[i]? = some party)
    (hphase : party.phase = .abandoned) : Balanced config (gate.removeWaiter i party) := by
  unfold Gate.removeWaiter
  split
  · refine h.stay hi hphase rfl rfl ?_
    exact Nat.le_trans List.length_eraseP_le h.pending
  · exact h.stay hi hphase rfl rfl h.pending

/-- The lookup of `notify_head`. -/
theorem balanced_notifyHead {config : GateConfig} {gate : Gate} {i : Nat} {party : Party}
    {granted : Bool} (h : Balanced config gate) (hi : gate.parties[i]? = some party)
    (hphase : party.phase = .notifyingHead granted) :
    Balanced config (gate.notifyHead i party granted) := by
  unfold Gate.notifyHead
  split
  · exact h.stay hi hphase (by cases granted <;> rfl) rfl h.pending
  · exact h.stay hi hphase rfl rfl h.pending

/-- A notification touches no permit and no phase. -/
theorem balanced_notifyOne {config : GateConfig} {gate : Gate} (target : Nat)
    (h : Balanced config gate) : Balanced config (gate.notifyOne target) := by
  unfold Gate.notifyOne Gate.update
  split
  · exact h
  · rename_i party htarget
    exact h.move htarget rfl rfl ⟨rfl, Or.inl ⟨rfl, rfl⟩⟩ h.pending

/-- The section of `notify_one`. -/
theorem balanced_notifyOne_setPhase {config : GateConfig} {gate : Gate} {i target : Nat}
    {party : Party} {granted : Bool} (h : Balanced config gate)
    (hi : gate.parties[i]? = some party) (hphase : party.phase = .notifyingOne target granted) :
    Balanced config ((gate.notifyOne target).setPhase i (Gate.afterNotify granted)) := by
  have hnotified := balanced_notifyOne target h
  unfold Gate.setPhase Gate.update
  split
  · exact hnotified
  · rename_i now hnow
    have hnowPhase : now.phase = .notifyingOne target granted := by
      rw [Gate.notifyOne, Gate.getElem?_update, hi, Option.map_some, Option.some.injEq] at hnow
      rw [← hnow]
      split <;> exact hphase
    exact hnotified.stay hnow hnowPhase (by cases granted <;> rfl) rfl hnotified.pending

/-- The release of the origin permit in `AcquirePermit::drop`. -/
theorem balanced_releaseOrigin {config : GateConfig} {gate : Gate} {i : Nat} {party : Party}
    (h : Balanced config gate) (hi : gate.parties[i]? = some party)
    (hphase : party.phase = .holding) :
    Balanced config
      ({ gate with permits := gate.permits.releaseOrigin party.semaphore }.put i
        { party with semaphore := none, phase := .releasedOrigin }) := by
  refine h.put hi ?_ (by simp) ?_ (by simp) rfl h.pending
  · simp [Party.holdsGlobal, hphase, Phase.holdsGlobal, Phase.granted]
  · intro k available hk
    obtain ⟨before, hbefore, rfl⟩ := Permits.getElem?_releaseOrigin hk
    exact ⟨before, hbefore, by simp [Party.holdsOrigin, hphase, Phase.granted]⟩

/-- The release of the global permit in `AcquirePermit::drop`. -/
theorem balanced_releaseGlobal {config : GateConfig} {gate : Gate} {i : Nat} {party : Party}
    (h : Balanced config gate) (hi : gate.parties[i]? = some party)
    (hphase : party.phase = .releasedOrigin) :
    Balanced config
      ({ gate with permits := gate.permits.releaseGlobal }.put i
        { party with phase := .notifyingHead false }) := by
  have hmem : party ∈ gate.parties := List.mem_iff_getElem?.mpr ⟨i, hi⟩
  have hkeeps : KeepsSemaphore party { party with phase := .notifyingHead false } :=
    ⟨rfl, Or.inl ⟨rfl, by rw [hphase]; rfl⟩⟩
  refine h.put hi ?_ rfl ?_ (h.shared_of_keeps hmem hkeeps) (h.owned_of_keeps hmem hkeeps)
    h.pending
  · simp [Party.holdsGlobal, hphase, Phase.holdsGlobal, Phase.granted, Permits.releaseGlobal]
  · intro k available hk
    exact ⟨available, hk, by simp [Party.holdsOrigin, hphase, Phase.granted]⟩

/-- Every section keeps the balance. -/
theorem balanced_advance {config : GateConfig} {gate next : Gate} {i : Nat} {party : Party}
    (h : Balanced config gate) (hi : gate.parties[i]? = some party)
    (hstep : gate.advance config i party = some next) : Balanced config next := by
  unfold Gate.advance at hstep
  cases hphase : party.phase <;> simp only [hphase] at hstep
  case called => exact Option.some.inj hstep ▸ balanced_originSemaphore h hi hphase
  case located => exact Option.some.inj hstep ▸ balanced_tryAcquireImmediate h hi hphase
  case registering => exact Option.some.inj hstep ▸ balanced_tryRegister h hi hphase
  case enabled => exact Option.some.inj hstep ▸ balanced_tryAcquireForWaiter h hi hphase
  case abandoned => exact Option.some.inj hstep ▸ balanced_removeWaiter h hi hphase
  case notifyingHead => exact Option.some.inj hstep ▸ balanced_notifyHead h hi hphase
  case notifyingOne => exact Option.some.inj hstep ▸ balanced_notifyOne_setPhase h hi hphase
  case holding => exact Option.some.inj hstep ▸ balanced_releaseOrigin h hi hphase
  case releasedOrigin => exact Option.some.inj hstep ▸ balanced_releaseGlobal h hi hphase
  case finished => simp at hstep
  case parked =>
    split at hstep
    · exact Option.some.inj hstep ▸ h.stay hi hphase rfl rfl h.pending
    · simp at hstep
  case queueing | looping =>
    exact Option.some.inj hstep ▸ h.stay hi hphase rfl rfl h.pending

/-- A new call holds nothing. -/
theorem balanced_call {config : GateConfig} {gate : Gate} (origin : Text)
    (h : Balanced config gate) :
    Balanced config { gate with parties := gate.parties ++ [.call origin] } := by
  refine ⟨?_, ?_, ?_, ?_, h.pending⟩
  · simpa [Party.call, Party.holdsGlobal, Phase.holdsGlobal, Phase.granted] using h.global
  · intro limit hlimit k available hk
    simpa [Party.call, Party.holdsOrigin, Phase.granted] using h.origins limit hlimit k available hk
  · intro party hmem k hk
    rcases List.mem_append.mp hmem with hmem | hmem
    · exact h.shared party hmem k hk
    · simp [List.mem_singleton.mp hmem, Party.call] at hk
  · intro party hmem
    rcases List.mem_append.mp hmem with hmem | hmem
    · exact h.owned party hmem
    · rw [List.mem_singleton.mp hmem]
      rfl

/-- Every event keeps the balance. -/
theorem balanced_step {config : GateConfig} {gate next : Gate} {event : Gate.Event}
    (h : Balanced config gate) (hstep : gate.step config event = some next) :
    Balanced config next := by
  rcases Gate.step_cases hstep with ⟨origin, rfl⟩ | ⟨i, party, hi, hsection⟩
  · exact balanced_call origin h
  · rcases hsection with hadvance | ⟨_, hphase, rfl⟩ | ⟨hphase, rfl⟩
    · exact balanced_advance h hi hadvance
    · exact h.leave hi hphase rfl rfl rfl
    · exact h.leave hi hphase rfl rfl rfl

/-- Every reachable gate is balanced. -/
theorem balanced_of_reachable {config : GateConfig} {gate : Gate}
    (h : (Gate.system config).Reachable gate) : Balanced config gate :=
  h.invariant (Balanced config) (balanced_new config)
    fun _ hbalanced hstep => balanced_step hbalanced hstep

/-! ## The limits -/

/-- The outstanding permits of an origin. -/
def Gate.outstandingOf (gate : Gate) (origin : Text) : Nat :=
  gate.parties.countP fun party => party.outstanding && party.origin == origin

theorem Party.holdsGlobal_of_outstanding {party : Party} (h : party.outstanding = true) :
    party.holdsGlobal = true := by
  rw [Party.outstanding, beq_iff_eq] at h
  simp [Party.holdsGlobal, h, Phase.holdsGlobal, Phase.granted]

/-- The party of an outstanding permit holds the semaphore that the map has for
its origin. -/
theorem Balanced.semaphore_of_outstanding {config : GateConfig} {gate : Gate} {party : Party}
    {limit : Nat} (h : Balanced config gate)
    (hlimit : config.maxActiveRequestsPerOrigin = some limit) (hmem : party ∈ gate.parties)
    (hout : party.outstanding = true) :
    ∃ k, party.semaphore = some k ∧ gate.semaphores.lookup party.origin = some k ∧
      k < gate.permits.origins.length := by
  have hphase : party.phase = .holding := by simpa [Party.outstanding] using hout
  have howned := h.owned party hmem
  rw [hphase, hlimit] at howned
  obtain ⟨k, hk⟩ := Option.isSome_iff_exists.mp howned
  exact ⟨k, hk, h.shared party hmem k hk⟩

/-- The outstanding permits of one origin all hold one semaphore, so its limit
bounds their number. -/
theorem Balanced.outstandingOf_le {config : GateConfig} {gate : Gate} {limit : Nat}
    (h : Balanced config gate) (hlimit : config.maxActiveRequestsPerOrigin = some limit)
    (origin : Text) : gate.outstandingOf origin ≤ limit := by
  by_cases hnone : gate.outstandingOf origin = 0
  · omega
  · obtain ⟨first, hfirst, hproperty⟩ := List.countP_pos_iff.mp (Nat.pos_of_ne_zero hnone)
    simp only [Bool.and_eq_true, beq_iff_eq] at hproperty
    obtain ⟨k, -, hmap, hlt⟩ := h.semaphore_of_outstanding hlimit hfirst hproperty.1
    rw [hproperty.2] at hmap
    have hle : gate.outstandingOf origin ≤ gate.parties.countP (Party.holdsOrigin k) := by
      apply List.countP_mono_left
      intro party hmem hparty
      simp only [Bool.and_eq_true, beq_iff_eq] at hparty
      obtain ⟨k', hsemaphore, hmap', -⟩ := h.semaphore_of_outstanding hlimit hmem hparty.1
      have hsame : k' = k := by
        rw [hparty.2, hmap] at hmap'
        exact (Option.some.inj hmap').symm
      have hphase : party.phase = .holding := by simpa [Party.outstanding] using hparty.1
      simp [Party.holdsOrigin, hphase, Phase.granted, hsemaphore, hsame]
    have hbalance := h.origins limit hlimit k _ (List.getElem?_eq_getElem hlt)
    omega

/-- The limits of the gate, in every state of every interleaving: outstanding
permits globally and per origin, one semaphore for each origin, the length of
the pending queue, and the balance of available and held permits. -/
theorem gate_capacity (config : GateConfig) (events : List Gate.Event) (gate : Gate)
    (hrun : (Gate.system config).run events = some gate) :
    gate.parties.countP Party.outstanding ≤ config.maxActiveRequests ∧
      (∀ limit, config.maxActiveRequestsPerOrigin = some limit →
        (∀ origin, gate.outstandingOf origin ≤ limit) ∧
        (∀ first ∈ gate.parties, ∀ second ∈ gate.parties,
          first.outstanding = true → second.outstanding = true →
          first.origin = second.origin →
          ∃ k, first.semaphore = some k ∧ second.semaphore = some k) ∧
        ∀ k available, gate.permits.origins[k]? = some available →
          available + gate.parties.countP (Party.holdsOrigin k) = limit) ∧
      gate.waiters.length ≤ config.maxPendingRequests ∧
      gate.permits.global + gate.parties.countP Party.holdsGlobal =
        config.maxActiveRequests := by
  have h := balanced_of_reachable (TransitionSystem.reachable_of_run hrun)
  refine ⟨?_, ?_, h.pending, h.global⟩
  · have hle : gate.parties.countP Party.outstanding ≤
        gate.parties.countP Party.holdsGlobal :=
      List.countP_mono_left fun party _ => Party.holdsGlobal_of_outstanding
    have hbalance := h.global
    omega
  · intro limit hlimit
    refine ⟨h.outstandingOf_le hlimit, ?_, h.origins limit hlimit⟩
    intro first hfirst second hsecond hout hout' horigin
    obtain ⟨k, hk, hmap, -⟩ := h.semaphore_of_outstanding hlimit hfirst hout
    obtain ⟨k', hk', hmap', -⟩ := h.semaphore_of_outstanding hlimit hsecond hout'
    rw [horigin, hmap'] at hmap
    exact ⟨k, hk, by rw [hk', Option.some.inj hmap]⟩

/-! One permit and one place in the queue: the first call holds the permit and
the second one waits. -/

def exampleConfig : GateConfig := ⟨1, some 1, 1⟩

def exampleEvents : List Gate.Event :=
  [.call "a", .advance 0, .advance 0, .call "a", .advance 1, .advance 1, .advance 1,
    .advance 1, .advance 1, .advance 1]

def exampleGate : Gate where
  permits := ⟨0, [0]⟩
  semaphores := [("a", 0)]
  nextWaiterId := 2
  waiters := [⟨1, 1⟩]
  parties :=
    [⟨"a", some 0, 0, ⟨false, .absent⟩, .holding⟩, ⟨"a", some 0, 1, ⟨false, .waiting⟩, .parked⟩]

theorem gate_capacity_example :
    (Gate.system exampleConfig).run exampleEvents = some exampleGate ∧
      exampleGate.parties.countP Party.outstanding ≤ 1 ∧ exampleGate.outstandingOf "a" ≤ 1 ∧
      exampleGate.permits.global + exampleGate.parties.countP Party.holdsGlobal = 1 := by
  have hrun : (Gate.system exampleConfig).run exampleEvents = some exampleGate := by decide
  have h := gate_capacity exampleConfig exampleEvents exampleGate hrun
  exact ⟨hrun, h.1, (h.2.1 1 rfl).1 "a", h.2.2.2⟩

end FogHttp.Acquire
