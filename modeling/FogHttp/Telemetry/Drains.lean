import FogHttp.Telemetry.Conservation

/-!
# Drains keep the order of the events

Two drains never go through the journal at the same time, so the batches follow each
other in the order in which the drains took the lock.  `Ordered` is the invariant: for
every request id, these batches, the retained events and the channel are together the
events that entered the channel, in this order.  While a drain receives, no event that it
takes is retained, so it may skip the retained ones.

`journal_conserves` puts the invariants together.
-/

namespace FogHttp.Telemetry

open Lib

/-! ## Partitions by a key -/

section Partition

variable {α κ : Type} [BEq κ] [LawfulBEq κ]

/-- A partition by a property of a key keeps the order of the entries with one key. -/
theorem filter_partition (key : α → κ) (q : κ → Bool) (k : κ) (entries : List α) :
    (entries.filter (fun entry => q (key entry)) ++
      entries.filter fun entry => !q (key entry)).filter (fun entry => key entry == k) =
        entries.filter fun entry => key entry == k := by
  have hpart : ∀ b : Bool, (entries.filter fun entry => q (key entry) == b).filter
      (fun entry => key entry == k) =
        if q k = b then entries.filter fun entry => key entry == k else [] := by
    intro b
    rw [List.filter_filter]
    split
    · rename_i hq
      apply List.filter_congr
      intro entry _
      by_cases hkey : key entry = k
      · simp [hkey, hq]
      · simp [hkey]
    · rename_i hq
      rw [List.filter_eq_nil_iff]
      intro entry _
      by_cases hkey : key entry = k
      · simp [hkey, hq]
      · simp [hkey]
  have htaken := hpart true
  have hleft := hpart false
  simp only [beq_true] at htaken
  simp only [beq_false] at hleft
  rw [List.filter_append, htaken, hleft]
  cases q k <;> simp

end Partition

namespace Journal

/-- The batch of drain `d` as far as it has got. -/
def batch (journal : Journal) (d : Nat) : List JournalEntry :=
  journal.drains[d]?.elim [] Drain.events

/-- The batches in the order in which the drains took the lock. -/
def batches (journal : Journal) : List JournalEntry := journal.order.flatMap journal.batch

/-- The entry belongs to this request, or to none of them. -/
def ofRequest (requestId : Option Nat) (entry : JournalEntry) : Bool :=
  entry.event.requestId == requestId

structure Ordered (journal : Journal) : Prop where
  nodup : journal.order.Nodup
  /-- The drains in the order are those that have taken the lock. -/
  started : ∀ (d : Nat) (drain : Drain), journal.drains[d]? = some drain →
    (d ∈ journal.order ↔ drain.phase ≠ .locking)
  bounded : ∀ d ∈ journal.order, d < journal.drains.length
  locked : ∀ (d : Nat) (drain : Drain), journal.drains[d]? = some drain →
    drain.phase = .receiving → journal.lockedBy = some d
  last : ∀ d, journal.lockedBy = some d → ∃ before, journal.order = before ++ [d]
  /-- A drain that receives has left nothing behind that it takes. -/
  apart : ∀ (d : Nat) (drain : Drain), journal.drains[d]? = some drain →
    drain.phase = .receiving → ∀ entry ∈ journal.retained,
      drain.takes entry.event.requestId = false
  fifo : ∀ requestId,
    (journal.batches ++ journal.retained ++ journal.channel).filter (ofRequest requestId) =
      journal.entered.filter (ofRequest requestId)

theorem ordered_new : Ordered new where
  nodup := List.nodup_nil
  started := by simp [new]
  bounded := by simp [new]
  locked := by simp [new]
  last := by simp [new]
  apart := by simp [new]
  fifo _ := rfl

section Order

variable {journal : Journal} {d : Nat} {drain done : Drain}

/-- A list of batches without the one that a section changes. -/
theorem flatMap_batch_putDrain {order : List Nat} (hnot : d ∉ order) :
    order.flatMap (journal.putDrain d done).batch = order.flatMap journal.batch := by
  refine List.flatMap_congr fun e hmem => ?_
  have hne : d ≠ e := fun hsame => hnot (hsame ▸ hmem)
  unfold batch putDrain
  rw [List.getElem?_set_ne hne]

theorem batch_putDrain (hd : journal.drains[d]? = some drain) :
    (journal.putDrain d done).batch d = done.events := by
  unfold batch putDrain
  rw [List.getElem?_set_self (List.getElem?_eq_some_iff.mp hd).1]
  rfl

theorem batch_eq (hd : journal.drains[d]? = some drain) : journal.batch d = drain.events := by
  unfold batch
  rw [hd]
  rfl

/-- A section of a drain that has the lock or has had it, and keeps its batch. -/
theorem Ordered.settle (h : Ordered journal) {queuedEvents droppedEvents : Nat}
    {lockedBy : Option Nat} (hd : journal.drains[d]? = some drain)
    (hevents : done.events = drain.events) (hbefore : drain.phase ≠ .locking)
    (hlocking : done.phase ≠ .locking) (hreceiving : done.phase ≠ .receiving)
    (hkept : ∀ e, e ≠ d → journal.lockedBy = some e → lockedBy = some e)
    (hlast : ∀ e, lockedBy = some e → journal.lockedBy = some e) :
    Ordered ({ journal with queuedEvents, droppedEvents, lockedBy }.putDrain d done) where
  nodup := h.nodup
  started e holder he := by
    rcases getElem?_set_cases he with ⟨rfl, rfl⟩ | ⟨-, he⟩
    · exact iff_of_true ((h.started _ drain hd).mpr hbefore) hlocking
    · exact h.started e holder he
  bounded e hmem := by
    show e < (journal.drains.set d done).length
    rw [List.length_set]
    exact h.bounded e hmem
  locked e holder he hphase := by
    rcases getElem?_set_cases he with ⟨-, rfl⟩ | ⟨hne, he⟩
    · exact absurd hphase hreceiving
    · exact hkept e hne (h.locked e holder he hphase)
  last e he := h.last e (hlast e he)
  apart e holder he hphase := by
    rcases getElem?_set_cases he with ⟨-, rfl⟩ | ⟨-, he⟩
    · exact absurd hphase hreceiving
    · exact h.apart e holder he hphase
  fifo requestId := by
    have hbatches : (journal.putDrain d done).batches = journal.batches := by
      refine List.flatMap_congr fun e _ => ?_
      by_cases he : e = d
      · subst he
        rw [batch_putDrain hd, batch_eq hd, hevents]
      · unfold batch putDrain
        rw [List.getElem?_set_ne (Ne.symm he)]
    show ((journal.putDrain d done).batches ++ journal.retained ++ journal.channel).filter
      (ofRequest requestId) = _
    rw [hbatches]
    exact h.fifo requestId

/-- A drain goes through the retained events when it takes the lock. -/
theorem Ordered.lock (h : Ordered journal) (hd : journal.drains[d]? = some drain)
    (hbefore : drain.phase = .locking) (hunlocked : journal.lockedBy = none) :
    Ordered (journal.lock d drain) := by
  have hnot : d ∉ journal.order := by
    rw [h.started d drain hd]
    simp [hbefore]
  have hidle : ∀ (e : Nat) (holder : Drain), journal.drains[e]? = some holder →
      holder.phase ≠ .receiving := by
    intro e holder he hphase
    have hlocked := h.locked e holder he hphase
    rw [hunlocked] at hlocked
    cases hlocked
  constructor
  case nodup =>
    refine List.nodup_append.mpr ⟨h.nodup, by simp, ?_⟩
    intro e hmem other hother hsame
    rw [hsame, List.mem_singleton.mp hother] at hmem
    exact hnot hmem
  case started =>
    intro e holder he
    show e ∈ journal.order ++ [d] ↔ _
    rw [List.mem_append, List.mem_singleton]
    rcases getElem?_set_cases he with ⟨rfl, rfl⟩ | ⟨hne, he⟩
    · simp
    · simp only [hne, or_false]
      exact h.started e holder he
  case bounded =>
    intro e hmem
    show e < (journal.drains.set d _).length
    rw [List.length_set]
    rcases List.mem_append.mp hmem with hmem | hnew
    · exact h.bounded e hmem
    · obtain rfl := List.mem_singleton.mp hnew
      exact (List.getElem?_eq_some_iff.mp hd).1
  case locked =>
    intro e holder he hphase
    rcases getElem?_set_cases he with ⟨rfl, -⟩ | ⟨-, he⟩
    · rfl
    · exact absurd hphase (hidle e holder he)
  case last =>
    intro e he
    obtain rfl := Option.some.inj he
    exact ⟨journal.order, rfl⟩
  case apart =>
    intro e holder he hphase entry hmem
    rcases getElem?_set_cases he with ⟨rfl, rfl⟩ | ⟨-, he⟩
    · show drain.takes entry.event.requestId = false
      simpa using (List.mem_filter.mp hmem).2
    · exact absurd hphase (hidle e holder he)
  case fifo =>
    intro requestId
    have hpart : (journal.retained.filter (fun entry => drain.takes entry.event.requestId) ++
        journal.retained.filter fun entry => !drain.takes entry.event.requestId).filter
          (ofRequest requestId) = journal.retained.filter (ofRequest requestId) :=
      filter_partition (fun entry => entry.event.requestId) drain.takes requestId
        journal.retained
    have hbatches : (journal.lock d drain).batches =
        journal.batches ++
          journal.retained.filter fun entry => drain.takes entry.event.requestId := by
      show (journal.order ++ [d]).flatMap (journal.putDrain d _).batch = _
      rw [List.flatMap_append, flatMap_batch_putDrain hnot, List.flatMap_singleton,
        batch_putDrain hd]
      rfl
    rw [hbatches]
    show (journal.batches ++ journal.retained.filter _ ++ journal.retained.filter _ ++
      journal.channel).filter (ofRequest requestId) = journal.entered.filter _
    rw [← h.fifo requestId, List.append_assoc journal.batches, List.filter_append,
      List.filter_append, hpart, List.filter_append, List.filter_append]

/-- The drain that has the lock is the last one in the order. -/
theorem Ordered.receiving (h : Ordered journal) (hd : journal.drains[d]? = some drain)
    (hphase : drain.phase = .receiving) :
    ∃ before, journal.order = before ++ [d] ∧ d ∉ before ∧
      journal.batches = before.flatMap journal.batch ++ drain.events := by
  obtain ⟨before, hbefore⟩ := h.last d (h.locked d drain hd hphase)
  refine ⟨before, hbefore, ?_, ?_⟩
  · have hnodup := h.nodup
    rw [hbefore] at hnodup
    intro hmem
    exact (List.nodup_append.mp hnodup).2.2 d hmem d (by simp) rfl
  · rw [batches, hbefore, List.flatMap_append, List.flatMap_singleton, batch_eq hd]

/-- A drain takes an event out of the channel. -/
theorem Ordered.take (h : Ordered journal) {entry : JournalEntry}
    {channel : List JournalEntry} (hd : journal.drains[d]? = some drain)
    (hbefore : drain.phase = .receiving) (hfirst : journal.channel = entry :: channel)
    (htakes : drain.takes entry.event.requestId = true) :
    Ordered ({ journal with channel }.putDrain d
      { drain with events := drain.events ++ [entry] }) where
  nodup := h.nodup
  started e holder he := by
    rcases getElem?_set_cases he with ⟨rfl, rfl⟩ | ⟨-, he⟩
    · exact h.started _ drain hd
    · exact h.started e holder he
  bounded e hmem := by
    show e < (journal.drains.set d _).length
    rw [List.length_set]
    exact h.bounded e hmem
  locked e holder he hphase := by
    rcases getElem?_set_cases he with ⟨rfl, -⟩ | ⟨-, he⟩
    · exact h.locked _ drain hd hbefore
    · exact h.locked e holder he hphase
  last := h.last
  apart e holder he hphase := by
    rcases getElem?_set_cases he with ⟨rfl, rfl⟩ | ⟨-, he⟩
    · exact h.apart _ drain hd hbefore
    · exact h.apart e holder he hphase
  fifo requestId := by
    obtain ⟨before, horder, hnot, hbatches⟩ := h.receiving hd hbefore
    have hfifo := h.fifo requestId
    have hafter : (journal.putDrain d { drain with events := drain.events ++ [entry] }).batches =
        journal.batches ++ [entry] := by
      rw [hbatches]
      show journal.order.flatMap (journal.putDrain d _).batch = _
      rw [horder, List.flatMap_append, flatMap_batch_putDrain hnot, List.flatMap_singleton,
        batch_putDrain hd, List.append_assoc]
    show ((journal.putDrain d { drain with events := drain.events ++ [entry] }).batches ++
      journal.retained ++ channel).filter (ofRequest requestId) = journal.entered.filter _
    rw [hafter, ← hfifo, hfirst]
    by_cases hrequest : ofRequest requestId entry = true
    · -- No event of this request is retained.
      have hempty : journal.retained.filter (ofRequest requestId) = [] := by
        rw [List.filter_eq_nil_iff]
        intro other hother hsame
        have hleft := h.apart d drain hd hbefore other hother
        rw [beq_iff_eq.mp hsame, ← beq_iff_eq.mp hrequest, htakes] at hleft
        cases hleft
      simp [List.filter_append, hempty, hrequest]
    · simp [List.filter_append, hrequest]

/-- A drain leaves an event of another request for later. -/
theorem Ordered.retain (h : Ordered journal) {entry : JournalEntry}
    {channel : List JournalEntry} (hd : journal.drains[d]? = some drain)
    (hbefore : drain.phase = .receiving) (hfirst : journal.channel = entry :: channel)
    (hleaves : drain.takes entry.event.requestId = false) :
    Ordered { journal with channel, retained := journal.retained ++ [entry] } where
  nodup := h.nodup
  started := h.started
  bounded := h.bounded
  locked := h.locked
  last := h.last
  apart e holder he hphase other hmem := by
    have hsame := (h.locked e holder he hphase).symm.trans (h.locked d drain hd hbefore)
    obtain rfl := Option.some.inj hsame
    obtain rfl := Option.some.inj (he.symm.trans hd)
    rcases List.mem_append.mp hmem with hmem | hnew
    · exact h.apart _ _ hd hbefore other hmem
    · obtain rfl := List.mem_singleton.mp hnew
      exact hleaves
  fifo requestId := by
    have hfifo := h.fifo requestId
    rw [hfirst] at hfifo
    show (journal.batches ++ (journal.retained ++ [entry]) ++ channel).filter _ = _
    rw [← hfifo]
    simp

end Order

/-- Every section keeps the order of the events. -/
theorem Ordered.step {capacity : Nat} {journal next : Journal} (h : Ordered journal)
    (hstep : Step capacity journal next) : Ordered next := by
  cases hstep with
  | drain requestId =>
      have hbatch : ∀ e ∈ journal.order, Journal.batch { journal with
          drains := journal.drains ++ [Drain.mk requestId [] 0 .locking] } e =
            journal.batch e := by
        intro e hmem
        unfold batch
        rw [List.getElem?_append_left (h.bounded e hmem)]
      refine ⟨h.nodup, ?_, ?_, ?_, h.last, ?_, fun requestId => ?_⟩
      · intro e holder he
        rcases getElem?_push_cases he with he | ⟨rfl, rfl⟩
        · exact h.started e holder he
        · exact iff_of_false (fun hmem => absurd (h.bounded _ hmem) (Nat.lt_irrefl _)) (by simp)
      · intro e hmem
        show e < (journal.drains ++ [_]).length
        rw [List.length_append]
        exact Nat.lt_add_right 1 (h.bounded e hmem)
      · intro e holder he hphase
        rcases getElem?_push_cases he with he | ⟨-, rfl⟩
        · exact h.locked e holder he hphase
        · cases hphase
      · intro e holder he hphase
        rcases getElem?_push_cases he with he | ⟨-, rfl⟩
        · exact h.apart e holder he hphase
        · cases hphase
      · rw [batches, List.flatMap_congr hbatch]
        exact h.fifo requestId
  | send i recorder hi hbefore hroom =>
      refine ⟨h.nodup, h.started, h.bounded, h.locked, h.last, h.apart, fun requestId => ?_⟩
      show (journal.batches ++ journal.retained ++ (journal.channel ++ [_])).filter _ =
        (journal.entered ++ [_]).filter _
      rw [← List.append_assoc, List.filter_append, h.fifo requestId, List.filter_append]
  | lock d drain hd hbefore hunlocked => exact h.lock hd hbefore hunlocked
  | unlock d drain hd hbefore hempty =>
      have hlocked := h.locked d drain hd hbefore
      refine h.settle hd rfl (by simp [hbefore]) (by simp) (by simp) ?_ (by simp)
      intro e hne he
      rw [hlocked] at he
      exact absurd (Option.some.inj he).symm hne
  | take d drain entry channel hd hbefore hfirst htakes => exact h.take hd hbefore hfirst htakes
  | retain d drain entry channel hd hbefore hfirst hleaves =>
      exact h.retain hd hbefore hfirst hleaves
  | release d drain phase hd hbefore hafter =>
      refine h.settle hd rfl (by simp [hbefore]) ?_ ?_ (fun e _ he => he) fun e he => he
      · rcases hafter with ⟨rfl, -⟩ | rfl
        · simp
        · simp
      · rcases hafter with ⟨rfl, -⟩ | rfl
        · simp
        · simp
  | swap d drain hd hbefore =>
      exact h.settle hd rfl (by simp [hbefore]) (by simp) (by simp) (fun e _ he => he)
        fun e he => he
  -- The other sections leave the drains, the retained events and the channel alone.
  | _ => exact ⟨h.nodup, h.started, h.bounded, h.locked, h.last, h.apart, h.fifo⟩

/-! ## Runs -/

/-- What holds of a journal between any two sections. -/
structure Conserved (capacity : Nat) (journal : Journal) : Prop where
  /-- The event of every call is in one place: in the batch of one drain, retained, in the
  channel, being sent, or dropped. -/
  place : ∀ (i : Nat) (recorder : Recorder), journal.recorders[i]? = some recorder →
    journal.drained i + journal.retained.countP (ofRecorder i) +
      journal.channel.countP (ofRecorder i) + recorder.phase.beingSent.toNat +
      recorder.phase.isDropped.toNat = 1
  event : ∀ entry, journal.Holds entry →
    journal.recorders[entry.recorder]?.map Recorder.event = some entry.event
  queued : journal.queuedEvents =
    journal.retained.length + journal.channel.length +
      journal.recorders.countP (fun recorder => recorder.phase.reserved) +
      (journal.drains.map Drain.unreleased).sum
  bounded : journal.queuedEvents ≤ capacity
  /-- The two subtractions find the counter large enough. -/
  release : ∀ drain ∈ journal.drains, drain.phase = .releasing →
    drain.events.length ≤ journal.queuedEvents
  unreserve : ∀ recorder ∈ journal.recorders, recorder.phase = .unreserving →
    1 ≤ journal.queuedEvents
  /-- `try_send` finds room, and it has never refused an event. -/
  room : ∀ recorder ∈ journal.recorders, recorder.phase = .sending →
    journal.channel.length < capacity
  sends : ∀ recorder ∈ journal.recorders, recorder.phase ≠ .unreserving
  /-- The drops are the reported ones and those in the counter, and only a drain of all
  events reports some. -/
  drops : (journal.drains.map Drain.droppedEvents).sum + journal.droppedEvents =
    journal.recorders.countP fun recorder => recorder.phase.isDropped
  reports : ∀ drain ∈ journal.drains, drain.requestId ≠ none → drain.droppedEvents = 0
  /-- The order lists the drains that have taken the lock, each of them once. -/
  nodup : journal.order.Nodup
  started : ∀ (d : Nat) (drain : Drain), journal.drains[d]? = some drain →
    (d ∈ journal.order ↔ drain.phase ≠ .locking)
  /-- The events of one request leave the journal in the order in which they entered the
  channel. -/
  fifo : ∀ requestId,
    (journal.batches ++ journal.retained ++ journal.channel).filter (ofRequest requestId) =
      journal.entered.filter (ofRequest requestId)

theorem conserved_of_invariants {capacity : Nat} {journal : Journal}
    (hcounted : Counted capacity journal) (hplaced : Placed journal)
    (hordered : Ordered journal) : Conserved capacity journal where
  place i recorder hi := by
    have hplace := hplaced.places i
    rw [places, outside_eq hi, if_pos (List.getElem?_eq_some_iff.mp hi).1] at hplace
    omega
  event := hplaced.holds
  queued := hcounted.queued
  bounded := hcounted.bounded
  release drain hmem hphase := by
    obtain ⟨d, hd⟩ := List.mem_iff_getElem?.mp hmem
    have hle := hcounted.unreleased_le hd
    rw [Drain.unreleased, hphase] at hle
    exact hle
  unreserve recorder hmem hphase := absurd hphase (hcounted.sends recorder hmem)
  room recorder hmem hphase := by
    obtain ⟨i, hi⟩ := List.mem_iff_getElem?.mp hmem
    exact hcounted.room hi (by rw [hphase]; rfl)
  sends := hcounted.sends
  drops := hcounted.drops
  reports drain hmem hrequest := by
    rcases hcounted.reports drain hmem with hzero | ⟨-, hnone⟩
    · exact hzero
    · exact absurd hnone hrequest
  nodup := hordered.nodup
  started := hordered.started
  fifo := hordered.fifo

theorem conserved_of_reachable {capacity : Nat} {journal : Journal}
    (h : (system capacity).Reachable journal) : Conserved capacity journal := by
  have hinvariants : Counted capacity journal ∧ Placed journal ∧ Ordered journal := by
    refine h.invariant
      (fun journal => Counted capacity journal ∧ Placed journal ∧ Ordered journal)
      ⟨counted_new capacity, placed_new, ordered_new⟩ ?_
    rintro journal next event - ⟨hcounted, hplaced, hordered⟩ hevent
    have hstep := step_of_event hcounted.valid hevent
    exact ⟨hcounted.step hstep, hplaced.step hstep, hordered.step hstep⟩
  obtain ⟨hcounted, hplaced, hordered⟩ := hinvariants
  exact conserved_of_invariants hcounted hplaced hordered

/-- The journal conserves its events.  For every interleaving of calls of `record` and of
both kinds of drain, every recorded event is in one place, the counter of the queue is the
number of slots in use and stays within the capacity, the channel never refuses an event,
every drop is reported once or still counted, and the events of one request leave in the
order in which they entered. -/
theorem journal_conserves (capacity : Nat) (events : List Event) (journal : Journal)
    (hrun : (system capacity).run events = some journal) : Conserved capacity journal :=
  conserved_of_reachable (TransitionSystem.reachable_of_run hrun)

/-- The events of two requests. -/
def exampleEvent (requestId : Nat) : TelemetryEventRecord :=
  ⟨.connectionReused, some requestId, none, none, none, none, none, none⟩

/-- With room for one event the second one is dropped.  A drain of the second request
retains the first event, and a drain of all events returns it and reports the drop. -/
def exampleRun : List Event :=
  [.record (exampleEvent 1), .record (exampleEvent 2),
    .advanceRecorder 0 false, .advanceRecorder 0 false, .advanceRecorder 0 false,
    .advanceRecorder 1 false, .advanceRecorder 1 false,
    .drain (some 2), .advanceDrain 0, .advanceDrain 0, .advanceDrain 0, .advanceDrain 0,
    .drain none, .advanceDrain 1, .advanceDrain 1, .advanceDrain 1, .advanceDrain 1]

theorem journal_conserves_example :
    ∃ journal, (system 1).run exampleRun = some journal ∧
      journal.batch 1 = [JournalEntry.mk 0 (exampleEvent 1)] ∧
      journal.drains.map Drain.droppedEvents = [0, 1] ∧ Conserved 1 journal := by
  refine ⟨_, rfl, rfl, rfl, ?_⟩
  exact journal_conserves 1 exampleRun _ rfl

end Journal

end FogHttp.Telemetry
