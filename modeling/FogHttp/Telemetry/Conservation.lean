import FogHttp.Lib.Positions
import FogHttp.Telemetry.Journal

/-!
# The journal loses no event

`Step` is the inversion lemma of the journal.  Two invariants follow from it:

* `Counted`: the counter of the queue is the number of slots that are in use, so a call
  that has reserved a slot finds room in the channel, and the drops are the reported ones
  and those still in the counter.
* `Placed`: the event of every call is in one place.
-/

namespace FogHttp.Telemetry

open Lib

/-! ## What a section does -/

namespace Journal

/-- What a section of a call does to the journal. -/
inductive Step (capacity : Nat) (journal : Journal) : Journal → Prop where
  | record (event : TelemetryEventRecord) :
      Step capacity journal { journal with
        recorders := journal.recorders ++
          [Recorder.mk event (.reserving (reserveEventSlot capacity).start)] }
  | drain (requestId : Option Nat) :
      Step capacity journal
        { journal with drains := journal.drains ++ [Drain.mk requestId [] 0 .locking] }
  /-- The loop learned the counter: it goes on, or there is no slot. -/
  | look (i : Nat) (recorder : Recorder) (cas : Cas Unit) (phase : RecorderPhase)
      (hi : journal.recorders[i]? = some recorder) (before : recorder.phase = .reserving cas)
      (after : phase = .noting ∨
        ∃ cas, phase = .reserving cas ∧ (reserveEventSlot capacity).Valid cas) :
      Step capacity journal (journal.putRecorder i { recorder with phase })
  | reserve (i : Nat) (recorder : Recorder) (cas : Cas Unit)
      (hi : journal.recorders[i]? = some recorder) (before : recorder.phase = .reserving cas)
      (free : journal.queuedEvents < capacity) :
      Step capacity journal
        ({ journal with queuedEvents := journal.queuedEvents + 1 }.putRecorder i
          { recorder with phase := .sending })
  | send (i : Nat) (recorder : Recorder) (hi : journal.recorders[i]? = some recorder)
      (before : recorder.phase = .sending) (room : journal.channel.length < capacity) :
      Step capacity journal ({ journal with
        channel := journal.channel ++ [JournalEntry.mk i recorder.event]
        entered := journal.entered ++ [JournalEntry.mk i recorder.event] }.putRecorder i
          { recorder with phase := .sent })
  | refuse (i : Nat) (recorder : Recorder) (hi : journal.recorders[i]? = some recorder)
      (before : recorder.phase = .sending) (full : ¬ journal.channel.length < capacity) :
      Step capacity journal (journal.putRecorder i { recorder with phase := .unreserving })
  | unreserve (i : Nat) (recorder : Recorder) (hi : journal.recorders[i]? = some recorder)
      (before : recorder.phase = .unreserving) :
      Step capacity journal
        ({ journal with queuedEvents := journal.queuedEvents - 1 }.putRecorder i
          { recorder with phase := .noting })
  | note (i : Nat) (recorder : Recorder) (hi : journal.recorders[i]? = some recorder)
      (before : recorder.phase = .noting) :
      Step capacity journal
        ({ journal with droppedEvents := journal.droppedEvents + 1 }.putRecorder i
          { recorder with phase := .dropped })
  | lock (d : Nat) (drain : Drain) (hd : journal.drains[d]? = some drain)
      (before : drain.phase = .locking) (unlocked : journal.lockedBy = none) :
      Step capacity journal (journal.lock d drain)
  | unlock (d : Nat) (drain : Drain) (hd : journal.drains[d]? = some drain)
      (before : drain.phase = .receiving) (empty : journal.channel = []) :
      Step capacity journal
        ({ journal with lockedBy := none }.putDrain d { drain with phase := .releasing })
  | take (d : Nat) (drain : Drain) (entry : JournalEntry) (channel : List JournalEntry)
      (hd : journal.drains[d]? = some drain) (before : drain.phase = .receiving)
      (first : journal.channel = entry :: channel)
      (takes : drain.takes entry.event.requestId = true) :
      Step capacity journal
        ({ journal with channel }.putDrain d { drain with events := drain.events ++ [entry] })
  | retain (d : Nat) (drain : Drain) (entry : JournalEntry) (channel : List JournalEntry)
      (hd : journal.drains[d]? = some drain) (before : drain.phase = .receiving)
      (first : journal.channel = entry :: channel)
      (leaves : drain.takes entry.event.requestId = false) :
      Step capacity journal
        { journal with channel, retained := journal.retained ++ [entry] }
  | release (d : Nat) (drain : Drain) (phase : DrainPhase)
      (hd : journal.drains[d]? = some drain) (before : drain.phase = .releasing)
      (after : phase = .swapping ∧ drain.requestId = none ∨ phase = .returned) :
      Step capacity journal
        ({ journal with queuedEvents := journal.queuedEvents - drain.events.length }.putDrain d
          { drain with phase })
  | swap (d : Nat) (drain : Drain) (hd : journal.drains[d]? = some drain)
      (before : drain.phase = .swapping) :
      Step capacity journal
        ({ journal with droppedEvents := 0 }.putDrain d
          { drain with droppedEvents := journal.droppedEvents, phase := .returned })

/-- The loops of `reserve_event_slot` store what they computed. -/
def Valid (capacity : Nat) (journal : Journal) : Prop :=
  ∀ recorder ∈ journal.recorders, ∀ cas, recorder.phase = .reserving cas →
    (reserveEventSlot capacity).Valid cas

section Sections

variable {capacity : Nat} {journal next : Journal} {i d : Nat} {spurious : Bool}
  {recorder : Recorder} {drain : Drain}

/-- The loop body reserves, or it goes to the drop of the event. -/
theorem afterReserve_body (capacity queued : Nat) :
    RecorderPhase.afterReserve ((reserveEventSlot capacity).body queued) = .noting ∨
      ∃ cas, RecorderPhase.afterReserve ((reserveEventSlot capacity).body queued) =
        .reserving cas ∧ (reserveEventSlot capacity).Valid cas := by
  have hvalid : (reserveEventSlot capacity).Valid ((reserveEventSlot capacity).body queued) :=
    AtomicLoop.valid_body rfl queued
  by_cases hfree : queued < capacity
  · have hbody : (reserveEventSlot capacity).body queued = .exchange queued (queued + 1) := by
      simp [AtomicLoop.body, reserveEventSlot, hfree]
    right
    rw [hbody] at hvalid ⊢
    exact ⟨_, rfl, hvalid⟩
  · left
    simp [AtomicLoop.body, reserveEventSlot, hfree, RecorderPhase.afterReserve]

theorem step_of_advanceRecorder (hvalid : journal.Valid capacity)
    (hi : journal.recorders[i]? = some recorder)
    (h : journal.advanceRecorder capacity i spurious recorder = some next) :
    Step capacity journal next := by
  unfold advanceRecorder at h
  split at h
  · rename_i cas hphase
    rw [Option.bind_eq_bind, Option.bind_eq_some_iff] at h
    obtain ⟨⟨queued, after⟩, hstep, hnext⟩ := h
    obtain rfl := Option.some.inj hnext
    have hcas := hvalid recorder (List.mem_of_getElem? hi) cas hphase
    obtain ⟨-, ⟨rfl, rfl⟩ | ⟨hupdate, rfl⟩⟩ := AtomicLoop.step_cases hcas hstep
    · exact .look i recorder cas _ hi hphase (afterReserve_body capacity journal.queuedEvents)
    · simp only [reserveEventSlot] at hupdate
      split at hupdate
      · rename_i hfree
        obtain rfl := Except.ok.inj hupdate
        exact .reserve i recorder cas hi hphase hfree
      · simp at hupdate
  · rename_i hphase
    obtain rfl := Option.some.inj h
    unfold trySend
    split
    · rename_i hroom
      exact .send i recorder hi hphase hroom
    · rename_i hfull
      exact .refuse i recorder hi hphase hfull
  · rename_i hphase
    exact Option.some.inj h ▸ .unreserve i recorder hi hphase
  · rename_i hphase
    exact Option.some.inj h ▸ .note i recorder hi hphase
  · simp at h
  · simp at h

theorem step_of_advanceDrain (hd : journal.drains[d]? = some drain)
    (h : journal.advanceDrain d drain = some next) : Step capacity journal next := by
  unfold advanceDrain at h
  split at h
  · rename_i hphase
    split at h
    · simp at h
    · rename_i hunlocked
      exact Option.some.inj h ▸ .lock d drain hd hphase (by simpa using hunlocked)
  · rename_i hphase
    obtain rfl := Option.some.inj h
    unfold tryRecv
    split
    · rename_i hempty
      exact .unlock d drain hd hphase hempty
    · rename_i entry channel hfirst
      split
      · rename_i htakes
        exact .take d drain entry channel hd hphase hfirst htakes
      · rename_i hleaves
        exact .retain d drain entry channel hd hphase hfirst (by simpa using hleaves)
  · rename_i hphase
    obtain rfl := Option.some.inj h
    refine .release d drain _ hd hphase ?_
    split
    · rename_i hnone
      exact Or.inl ⟨rfl, by simpa using hnone⟩
    · exact Or.inr rfl
  · rename_i hphase
    exact Option.some.inj h ▸ .swap d drain hd hphase
  · simp at h

/-- The inversion lemma of the journal. -/
theorem step_of_event {event : Event} (hvalid : journal.Valid capacity)
    (h : journal.step capacity event = some next) : Step capacity journal next := by
  cases event with
  | record event => exact Option.some.inj h ▸ .record event
  | drain requestId => exact Option.some.inj h ▸ .drain requestId
  | advanceRecorder i spurious =>
      simp only [step, Option.bind_eq_bind, Option.bind_eq_some_iff] at h
      obtain ⟨recorder, hi, h⟩ := h
      exact step_of_advanceRecorder hvalid hi h
  | advanceDrain d =>
      simp only [step, Option.bind_eq_bind, Option.bind_eq_some_iff] at h
      obtain ⟨drain, hd, h⟩ := h
      exact step_of_advanceDrain hd h

end Sections

/-! ## The counters -/

/-- The invariant of the two counters. -/
structure Counted (capacity : Nat) (journal : Journal) : Prop where
  valid : journal.Valid capacity
  queued : journal.queuedEvents =
    journal.retained.length + journal.channel.length +
      journal.recorders.countP (fun recorder => recorder.phase.reserved) +
      (journal.drains.map Drain.unreleased).sum
  bounded : journal.queuedEvents ≤ capacity
  /-- The channel has never refused an event. -/
  sends : ∀ recorder ∈ journal.recorders, recorder.phase ≠ .unreserving
  drops : (journal.drains.map Drain.droppedEvents).sum + journal.droppedEvents =
    journal.recorders.countP fun recorder => recorder.phase.isDropped
  /-- Only a drain of all events reports drops, and only once it has returned. -/
  reports : ∀ drain ∈ journal.drains, drain.droppedEvents = 0 ∨
    drain.phase = .returned ∧ drain.requestId = none
  swaps : ∀ drain ∈ journal.drains, drain.phase = .swapping → drain.requestId = none

theorem counted_new (capacity : Nat) : Counted capacity new where
  valid := by simp [Valid, new]
  queued := rfl
  bounded := Nat.zero_le _
  sends := by simp [new]
  drops := rfl
  reports := by simp [new]
  swaps := by simp [new]

section Counters

variable {capacity : Nat} {journal : Journal} {i d : Nat} {recorder after : Recorder}
  {drain done : Drain}

/-- A section of a recorder, which moves the counters along with its phase. -/
theorem Counted.putRecorder (h : Counted capacity journal) {queuedEvents droppedEvents : Nat}
    {channel entered : List JournalEntry} (hi : journal.recorders[i]? = some recorder)
    (hcas : ∀ cas, after.phase = .reserving cas → (reserveEventSlot capacity).Valid cas)
    (hsends : after.phase ≠ .unreserving)
    (hqueued : queuedEvents + recorder.phase.reserved.toNat + journal.channel.length =
      journal.queuedEvents + after.phase.reserved.toNat + channel.length)
    (hbounded : queuedEvents ≤ capacity)
    (hdrops : droppedEvents + recorder.phase.isDropped.toNat =
      journal.droppedEvents + after.phase.isDropped.toNat) :
    Counted capacity ({ journal with
      queuedEvents, droppedEvents, channel, entered }.putRecorder i after) where
  valid := forall_mem_set h.valid hcas
  queued := by
    have hcount := countP_set_add (fun recorder => recorder.phase.reserved) after hi
    have hsum := h.queued
    show queuedEvents = journal.retained.length + channel.length +
      (journal.recorders.set i after).countP (fun recorder => recorder.phase.reserved) +
      (journal.drains.map Drain.unreleased).sum
    omega
  bounded := hbounded
  sends := forall_mem_set h.sends hsends
  drops := by
    have hcount := countP_set_add (fun recorder => recorder.phase.isDropped) after hi
    have hsum := h.drops
    show (journal.drains.map Drain.droppedEvents).sum + droppedEvents =
      (journal.recorders.set i after).countP fun recorder => recorder.phase.isDropped
    omega
  reports := h.reports
  swaps := h.swaps

/-- A section of a drain, which moves the counters along with its batch. -/
theorem Counted.putDrain (h : Counted capacity journal) {queuedEvents droppedEvents : Nat}
    {channel retained : List JournalEntry} {lockedBy : Option Nat} {order : List Nat}
    (hd : journal.drains[d]? = some drain)
    (hqueued : queuedEvents + drain.unreleased + journal.retained.length +
        journal.channel.length =
      journal.queuedEvents + done.unreleased + retained.length + channel.length)
    (hbounded : queuedEvents ≤ journal.queuedEvents)
    (hdrops : done.droppedEvents + droppedEvents =
      drain.droppedEvents + journal.droppedEvents)
    (hreports : done.droppedEvents = 0 ∨ done.phase = .returned ∧ done.requestId = none)
    (hswaps : done.phase = .swapping → done.requestId = none) :
    Counted capacity ({ journal with
      queuedEvents, droppedEvents, channel, retained, lockedBy, order }.putDrain d done) where
  valid := h.valid
  queued := by
    have hcount := sum_map_set_add Drain.unreleased done hd
    have hsum := h.queued
    show queuedEvents = retained.length + channel.length +
      journal.recorders.countP (fun recorder => recorder.phase.reserved) +
      ((journal.drains.set d done).map Drain.unreleased).sum
    omega
  bounded := Nat.le_trans hbounded h.bounded
  sends := h.sends
  drops := by
    have hcount := sum_map_set_add Drain.droppedEvents done hd
    have hsum := h.drops
    show ((journal.drains.set d done).map Drain.droppedEvents).sum + droppedEvents =
      journal.recorders.countP fun recorder => recorder.phase.isDropped
    omega
  reports := forall_mem_set h.reports hreports
  swaps := forall_mem_set h.swaps hswaps

/-- What a drain has taken out is counted. -/
theorem Counted.unreleased_le (h : Counted capacity journal)
    (hd : journal.drains[d]? = some drain) : drain.unreleased ≤ journal.queuedEvents := by
  have hshare := le_sum_map Drain.unreleased hd
  have hsum := h.queued
  omega

/-- A reserved slot leaves room in the channel. -/
theorem Counted.room (h : Counted capacity journal) (hi : journal.recorders[i]? = some recorder)
    (hreserved : recorder.phase.reserved = true) : journal.channel.length < capacity := by
  have hpos : 0 < journal.recorders.countP fun recorder => recorder.phase.reserved :=
    List.countP_pos_iff.mpr ⟨recorder, List.mem_of_getElem? hi, hreserved⟩
  have hsum := h.queued
  have hbounded := h.bounded
  omega

/-- A drain that runs has reported nothing yet. -/
theorem Counted.droppedEvents_eq_zero (h : Counted capacity journal)
    (hd : journal.drains[d]? = some drain) (hphase : drain.phase ≠ .returned) :
    drain.droppedEvents = 0 := by
  rcases h.reports drain (List.mem_of_getElem? hd) with hzero | ⟨hreturned, -⟩
  · exact hzero
  · exact absurd hreturned hphase

end Counters

/-- Every section keeps the counters. -/
theorem Counted.step {capacity : Nat} {journal next : Journal} (h : Counted capacity journal)
    (hstep : Step capacity journal next) : Counted capacity next := by
  cases hstep with
  | record event =>
      refine ⟨?_, ?_, h.bounded, ?_, ?_, h.reports, h.swaps⟩
      · intro recorder hmem cas hphase
        rcases List.mem_append.mp hmem with hmem | hnew
        · exact h.valid recorder hmem cas hphase
        · obtain rfl := List.mem_singleton.mp hnew
          obtain rfl := RecorderPhase.reserving.inj hphase
          exact AtomicLoop.valid_start
      · rw [List.countP_append]
        exact h.queued
      · intro recorder hmem
        rcases List.mem_append.mp hmem with hmem | hnew
        · exact h.sends recorder hmem
        · obtain rfl := List.mem_singleton.mp hnew
          simp
      · rw [List.countP_append]
        exact h.drops
  | drain requestId =>
      refine ⟨h.valid, ?_, h.bounded, h.sends, ?_, ?_, ?_⟩
      · rw [List.map_append, List.sum_append]
        exact h.queued
      · rw [List.map_append, List.sum_append]
        exact h.drops
      · intro drain hmem
        rcases List.mem_append.mp hmem with hmem | hnew
        · exact h.reports drain hmem
        · obtain rfl := List.mem_singleton.mp hnew
          exact Or.inl rfl
      · intro drain hmem hphase
        rcases List.mem_append.mp hmem with hmem | hnew
        · exact h.swaps drain hmem hphase
        · obtain rfl := List.mem_singleton.mp hnew
          cases hphase
  | look i recorder cas phase hi hbefore hafter =>
      refine h.putRecorder hi ?_ ?_ ?_ h.bounded ?_ <;>
        rcases hafter with rfl | ⟨after, rfl, hvalid⟩ <;>
        simp_all [RecorderPhase.reserved, RecorderPhase.isDropped]
  | reserve i recorder cas hi hbefore hfree =>
      refine h.putRecorder hi (by simp) (by simp) ?_ hfree (by rw [hbefore]; rfl)
      rw [hbefore]
      rfl
  | send i recorder hi hbefore hroom =>
      refine h.putRecorder hi (by simp) (by simp) ?_ h.bounded (by rw [hbefore]; rfl)
      rw [hbefore, List.length_append]
      simp [RecorderPhase.reserved]
      omega
  | refuse i recorder hi hbefore hfull =>
      exact absurd (h.room hi (by rw [hbefore]; rfl)) hfull
  | unreserve i recorder hi hbefore =>
      exact absurd hbefore (h.sends recorder (List.mem_of_getElem? hi))
  | note i recorder hi hbefore =>
      refine h.putRecorder hi (by simp) (by simp) (by rw [hbefore]; rfl) h.bounded ?_
      rw [hbefore]
      rfl
  | lock d drain hd hbefore hunlocked =>
      have hzero := h.droppedEvents_eq_zero hd (by simp [hbefore])
      refine h.putDrain hd ?_ (Nat.le_refl _) rfl (Or.inl hzero) (by simp)
      have hsplit := List.length_eq_length_filter_add (l := journal.retained)
        fun entry => drain.takes entry.event.requestId
      simp only [Drain.unreleased, hbefore]
      omega
  | unlock d drain hd hbefore hempty =>
      have hzero := h.droppedEvents_eq_zero hd (by simp [hbefore])
      refine h.putDrain hd ?_ (Nat.le_refl _) rfl (Or.inl hzero) (by simp)
      simp [Drain.unreleased, hbefore]
  | take d drain entry channel hd hbefore hfirst htakes =>
      have hzero := h.droppedEvents_eq_zero hd (by simp [hbefore])
      refine h.putDrain hd ?_ (Nat.le_refl _) rfl (Or.inl hzero) (by simp [hbefore])
      simp only [Drain.unreleased, hbefore, hfirst, List.length_append, List.length_cons,
        List.length_nil]
      omega
  | retain d drain entry channel hd hbefore hfirst hleaves =>
      refine ⟨h.valid, ?_, h.bounded, h.sends, h.drops, h.reports, h.swaps⟩
      have hsum := h.queued
      rw [hfirst, List.length_cons] at hsum
      show journal.queuedEvents = (journal.retained ++ [entry]).length + channel.length +
        journal.recorders.countP (fun recorder => recorder.phase.reserved) +
        (journal.drains.map Drain.unreleased).sum
      rw [List.length_append, List.length_singleton]
      omega
  | release d drain phase hd hbefore hafter =>
      have hzero := h.droppedEvents_eq_zero hd (by simp [hbefore])
      have hle := h.unreleased_le hd
      refine h.putDrain hd ?_ (Nat.sub_le _ _) rfl (Or.inl hzero) ?_
      · simp only [Drain.unreleased, hbefore] at hle
        rcases hafter with ⟨rfl, -⟩ | rfl
        · simp only [Drain.unreleased, hbefore]
          omega
        · simp only [Drain.unreleased, hbefore]
          omega
      · intro hphase
        rcases hafter with ⟨-, hnone⟩ | rfl
        · exact hnone
        · cases hphase
  | swap d drain hd hbefore =>
      have hzero := h.droppedEvents_eq_zero hd (by simp [hbefore])
      have hnone := h.swaps drain (List.mem_of_getElem? hd) hbefore
      refine h.putDrain hd ?_ (Nat.le_refl _) ?_ (Or.inr ⟨rfl, hnone⟩) (by simp)
      · simp [Drain.unreleased, hbefore]
      · rw [hzero]
        exact Nat.add_comm _ _

/-! ## The places of an event -/

/-- The entry is the event of call `i`. -/
def ofRecorder (i : Nat) (entry : JournalEntry) : Bool := entry.recorder == i

/-- How often the event of call `i` is in a batch. -/
def drained (journal : Journal) (i : Nat) : Nat :=
  (journal.drains.map fun drain => drain.events.countP (ofRecorder i)).sum

/-- How often the event of call `i` is not in the journal. -/
def outside (journal : Journal) (i : Nat) : Nat :=
  journal.recorders[i]?.elim 0 fun recorder =>
    recorder.phase.beingSent.toNat + recorder.phase.isDropped.toNat

/-- In how many places the event of call `i` is. -/
def places (journal : Journal) (i : Nat) : Nat :=
  journal.drained i + journal.retained.countP (ofRecorder i) +
    journal.channel.countP (ofRecorder i) + journal.outside i

/-- The entry is in the journal or was taken out of it. -/
def Holds (journal : Journal) (entry : JournalEntry) : Prop :=
  entry ∈ journal.channel ∨ entry ∈ journal.retained ∨
    ∃ drain ∈ journal.drains, entry ∈ drain.events

structure Placed (journal : Journal) : Prop where
  places : ∀ i, journal.places i = if i < journal.recorders.length then 1 else 0
  /-- An entry carries the event of its call. -/
  holds : ∀ entry, journal.Holds entry →
    journal.recorders[entry.recorder]?.map Recorder.event = some entry.event
  fresh : ∀ drain ∈ journal.drains, drain.phase = .locking → drain.events = []

theorem placed_new : Placed new where
  places _ := rfl
  holds := by simp [Holds, new]
  fresh := by simp [new]

section Places

variable {journal : Journal} {i d : Nat} {recorder after : Recorder} {drain done : Drain}

theorem outside_eq (hi : journal.recorders[i]? = some recorder) :
    journal.outside i = recorder.phase.beingSent.toNat + recorder.phase.isDropped.toNat := by
  unfold outside
  rw [hi]
  rfl

theorem outside_set (hi : journal.recorders[i]? = some recorder) (j : Nat) :
    (journal.putRecorder i after).outside j =
      if j = i then after.phase.beingSent.toNat + after.phase.isDropped.toNat
      else journal.outside j := by
  have hlt := (List.getElem?_eq_some_iff.mp hi).1
  unfold outside putRecorder
  split
  · rename_i hj
    subst hj
    rw [List.getElem?_set_self hlt]
    rfl
  · rename_i hj
    rw [List.getElem?_set_ne (Ne.symm hj)]

/-- A section of a recorder that leaves its event where it is. -/
theorem Placed.putRecorder (h : Placed journal) {queuedEvents droppedEvents : Nat}
    (hi : journal.recorders[i]? = some recorder) (hevent : after.event = recorder.event)
    (hplace : after.phase.beingSent.toNat + after.phase.isDropped.toNat =
      recorder.phase.beingSent.toNat + recorder.phase.isDropped.toNat) :
    Placed ({ journal with queuedEvents, droppedEvents }.putRecorder i after) where
  places j := by
    have hbefore := h.places j
    have houtside : (journal.putRecorder i after).outside j = journal.outside j := by
      rw [outside_set hi]
      split
      · rename_i hj
        rw [hj, outside_eq hi, hplace]
      · rfl
    show journal.drained j + journal.retained.countP (ofRecorder j) +
      journal.channel.countP (ofRecorder j) + (journal.putRecorder i after).outside j =
        if j < (journal.recorders.set i after).length then 1 else 0
    rw [houtside, List.length_set]
    exact hbefore
  holds entry hentry := by
    show (journal.recorders.set i after)[entry.recorder]?.map Recorder.event = _
    rw [map_getElem?_set Recorder.event hi hevent]
    exact h.holds entry hentry
  fresh := h.fresh

/-- A section of a drain that moves entries between the journal and its batch. -/
theorem Placed.putDrain (h : Placed journal) {queuedEvents droppedEvents : Nat}
    {channel retained : List JournalEntry} {lockedBy : Option Nat} {order : List Nat}
    (hd : journal.drains[d]? = some drain)
    (hcount : ∀ p, done.events.countP p + retained.countP p + channel.countP p =
      drain.events.countP p + journal.retained.countP p + journal.channel.countP p)
    (hphase : done.phase ≠ .locking) :
    Placed ({ journal with
      queuedEvents, droppedEvents, channel, retained, lockedBy, order }.putDrain d done) where
  places i := by
    have hbefore := h.places i
    have hsum := sum_map_set_add (fun drain => drain.events.countP (ofRecorder i)) done hd
    have hmoved := hcount (ofRecorder i)
    simp only [Journal.places, drained] at hbefore
    show ((journal.drains.set d done).map fun drain => drain.events.countP (ofRecorder i)).sum +
      retained.countP (ofRecorder i) + channel.countP (ofRecorder i) + journal.outside i =
        if i < journal.recorders.length then 1 else 0
    omega
  holds entry hentry := by
    -- An entry is somewhere exactly when its count is positive.
    have hmem : ∀ entries : List JournalEntry,
        entry ∈ entries ↔ 0 < entries.countP fun other => other == entry := by
      intro entries
      simp [List.countP_pos_iff]
    have hmoved := hcount fun other => other == entry
    have hold : entry ∈ done.events ∨ entry ∈ retained ∨ entry ∈ channel →
        journal.Holds entry := by
      intro hsome
      have hpos : entry ∈ drain.events ∨ entry ∈ journal.retained ∨
          entry ∈ journal.channel := by
        rw [hmem, hmem, hmem] at hsome ⊢
        omega
      rcases hpos with hdrain | hretained | hchannel
      · exact Or.inr (Or.inr ⟨drain, List.mem_of_getElem? hd, hdrain⟩)
      · exact Or.inr (Or.inl hretained)
      · exact Or.inl hchannel
    apply h.holds
    rcases hentry with hchannel | hretained | ⟨other, hother, hevents⟩
    · exact hold (Or.inr (Or.inr hchannel))
    · exact hold (Or.inr (Or.inl hretained))
    · rcases List.mem_or_eq_of_mem_set hother with hother | rfl
      · exact Or.inr (Or.inr ⟨other, hother, hevents⟩)
      · exact hold (Or.inl hevents)
  fresh := forall_mem_set h.fresh fun hlocking => absurd hlocking hphase

/-- A call of `record` brings one event, which is not in the journal yet. -/
theorem Placed.record (h : Placed journal) (capacity : Nat) (event : TelemetryEventRecord) :
    Placed { journal with
      recorders := journal.recorders ++
        [Recorder.mk event (.reserving (reserveEventSlot capacity).start)] } := by
  have hkeep : ∀ {i : Nat} {recorder : Recorder}, journal.recorders[i]? = some recorder →
      (journal.recorders ++
        [Recorder.mk event (.reserving (reserveEventSlot capacity).start)])[i]? =
          some recorder := by
    intro i recorder hi
    rw [List.getElem?_append_left (List.getElem?_eq_some_iff.mp hi).1, hi]
  refine ⟨fun i => ?_, fun entry hentry => ?_, h.fresh⟩
  · have hbefore := h.places i
    simp only [Journal.places] at hbefore ⊢
    show journal.drained i + journal.retained.countP (ofRecorder i) +
      journal.channel.countP (ofRecorder i) + _ = _
    rcases Nat.lt_trichotomy i journal.recorders.length with hlt | rfl | hgt
    · have houtside : Journal.outside { journal with
          recorders := journal.recorders ++
            [Recorder.mk event (.reserving (reserveEventSlot capacity).start)] } i =
            journal.outside i := by
        rw [outside_eq (hkeep (List.getElem?_eq_getElem hlt)),
          outside_eq (List.getElem?_eq_getElem hlt)]
      rw [houtside]
      simp only [hlt, if_true] at hbefore
      simp only [List.length_append, List.length_singleton]
      rw [if_pos (by omega)]
      exact hbefore
    · have hnew : Journal.outside { journal with
          recorders := journal.recorders ++
            [Recorder.mk event (.reserving (reserveEventSlot capacity).start)] }
            journal.recorders.length = 1 := by
        rw [outside_eq (List.getElem?_concat_length)]
        rfl
      rw [hnew]
      simp only [Nat.lt_irrefl, if_false] at hbefore
      simp only [List.length_append, List.length_singleton]
      rw [if_pos (by omega)]
      omega
    · have hnone : Journal.outside { journal with
          recorders := journal.recorders ++
            [Recorder.mk event (.reserving (reserveEventSlot capacity).start)] } i = 0 := by
        unfold outside
        rw [List.getElem?_eq_none (by simp; omega)]
        rfl
      rw [hnone]
      rw [if_neg (by omega)] at hbefore
      simp only [List.length_append, List.length_singleton]
      rw [if_neg (by omega)]
      omega
  · obtain ⟨recorder, hi, hevent⟩ := Option.map_eq_some_iff.mp (h.holds entry hentry)
    exact Option.map_eq_some_iff.mpr ⟨recorder, hkeep hi, hevent⟩

/-- A drain starts with an empty batch. -/
theorem Placed.openDrain (h : Placed journal) (requestId : Option Nat) :
    Placed { journal with
      drains := journal.drains ++ [Drain.mk requestId [] 0 .locking] } := by
  refine ⟨fun i => ?_, fun entry hentry => ?_, ?_⟩
  · have hbefore := h.places i
    have hdrained : Journal.drained { journal with
        drains := journal.drains ++ [Drain.mk requestId [] 0 .locking] } i =
          journal.drained i := by
      simp [drained]
    simp only [Journal.places] at hbefore ⊢
    rw [hdrained]
    exact hbefore
  · apply h.holds
    rcases hentry with hchannel | hretained | ⟨drain, hmem, hevents⟩
    · exact Or.inl hchannel
    · exact Or.inr (Or.inl hretained)
    · rcases List.mem_append.mp hmem with hmem | hnew
      · exact Or.inr (Or.inr ⟨drain, hmem, hevents⟩)
      · obtain rfl := List.mem_singleton.mp hnew
        cases hevents
  · intro drain hmem hphase
    rcases List.mem_append.mp hmem with hmem | hnew
    · exact h.fresh drain hmem hphase
    · obtain rfl := List.mem_singleton.mp hnew
      rfl

/-- `send` moves the event of its recorder into the channel. -/
theorem Placed.send (h : Placed journal) (hi : journal.recorders[i]? = some recorder)
    (hbefore : recorder.phase = .sending) :
    Placed ({ journal with
      channel := journal.channel ++ [JournalEntry.mk i recorder.event]
      entered := journal.entered ++ [JournalEntry.mk i recorder.event] }.putRecorder i
        { recorder with phase := .sent }) := by
  refine ⟨fun j => ?_, fun entry hentry => ?_, h.fresh⟩
  · have hplace := h.places j
    have houtside := @outside_set journal i recorder { recorder with phase := .sent } hi j
    simp only [Journal.places] at hplace
    show journal.drained j + journal.retained.countP (ofRecorder j) +
      (journal.channel ++ [JournalEntry.mk i recorder.event]).countP (ofRecorder j) +
        (journal.putRecorder i { recorder with phase := .sent }).outside j =
          if j < (journal.recorders.set i _).length then 1 else 0
    rw [houtside, List.countP_append, List.countP_singleton, List.length_set, ← hplace]
    by_cases hj : j = i
    · subst hj
      rw [outside_eq hi, hbefore]
      simp [ofRecorder, RecorderPhase.beingSent, RecorderPhase.isDropped]
      omega
    · simp [ofRecorder, hj, Ne.symm hj]
  · have hsame := @map_getElem?_set _ _ Recorder.event journal.recorders i recorder
      { recorder with phase := .sent } hi rfl
    show (journal.recorders.set i _)[entry.recorder]?.map Recorder.event = _
    rw [hsame]
    rcases hentry with hchannel | hrest
    · rcases List.mem_append.mp hchannel with hchannel | hnew
      · exact h.holds entry (Or.inl hchannel)
      · obtain rfl := List.mem_singleton.mp hnew
        show journal.recorders[i]?.map Recorder.event = some recorder.event
        rw [hi]
        rfl
    · exact h.holds entry (Or.inr hrest)

/-- A drain moves an event it does not take from the channel to the retained ones. -/
theorem Placed.retain (h : Placed journal) {entry : JournalEntry} {channel : List JournalEntry}
    (hfirst : journal.channel = entry :: channel) :
    Placed { journal with channel, retained := journal.retained ++ [entry] } := by
  refine ⟨fun i => ?_, fun other hother => ?_, h.fresh⟩
  · have hplace := h.places i
    simp only [Journal.places, hfirst, List.countP_cons] at hplace
    show journal.drained i + (journal.retained ++ [entry]).countP (ofRecorder i) +
      channel.countP (ofRecorder i) + journal.outside i = _
    rw [List.countP_append, List.countP_singleton]
    exact (by omega : _ = _).trans hplace
  · apply h.holds
    unfold Holds
    rw [hfirst]
    rcases hother with hchannel | hretained | hdrain
    · exact Or.inl (List.mem_cons_of_mem _ hchannel)
    · rcases List.mem_append.mp hretained with hretained | hnew
      · exact Or.inr (Or.inl hretained)
      · obtain rfl := List.mem_singleton.mp hnew
        exact Or.inl (List.mem_cons_self ..)
    · exact Or.inr (Or.inr hdrain)

end Places

/-- Every section keeps every event in one place. -/
theorem Placed.step {capacity : Nat} {journal next : Journal} (h : Placed journal)
    (hstep : Step capacity journal next) : Placed next := by
  cases hstep with
  | record event => exact h.record capacity event
  | drain requestId => exact h.openDrain requestId
  | look i recorder cas phase hi hbefore hafter =>
      refine h.putRecorder hi rfl ?_
      rcases hafter with rfl | ⟨after, rfl, -⟩
      · rw [hbefore]
        rfl
      · rw [hbefore]
        rfl
  | reserve i recorder cas hi hbefore hfree =>
      exact h.putRecorder hi rfl (by rw [hbefore]; rfl)
  | send i recorder hi hbefore hroom => exact h.send hi hbefore
  | refuse i recorder hi hbefore hfull =>
      exact h.putRecorder hi rfl (by rw [hbefore]; rfl)
  | unreserve i recorder hi hbefore =>
      exact h.putRecorder hi rfl (by rw [hbefore]; rfl)
  | note i recorder hi hbefore =>
      exact h.putRecorder hi rfl (by rw [hbefore]; rfl)
  | lock d drain hd hbefore hunlocked =>
      refine h.putDrain hd (fun p => ?_) (by simp)
      have hempty := h.fresh drain (List.mem_of_getElem? hd) hbefore
      have hsplit := List.countP_eq_countP_filter_add journal.retained p
        fun entry => drain.takes entry.event.requestId
      simp only [hempty, List.countP_nil]
      omega
  | unlock d drain hd hbefore hempty =>
      exact h.putDrain hd (fun p => rfl) (by simp)
  | take d drain entry channel hd hbefore hfirst htakes =>
      refine h.putDrain hd (fun p => ?_) (by simp [hbefore])
      simp only [hfirst, List.countP_append, List.countP_cons, List.countP_nil]
      omega
  | retain d drain entry channel hd hbefore hfirst hleaves => exact h.retain hfirst
  | release d drain phase hd hbefore hafter =>
      refine h.putDrain hd (fun p => rfl) ?_
      rcases hafter with ⟨rfl, -⟩ | rfl
      · simp
      · simp
  | swap d drain hd hbefore =>
      exact h.putDrain hd (fun p => rfl) (by simp)

end Journal

end FogHttp.Telemetry
