import FogHttp.Lib.Positions
import FogHttp.Telemetry.Shutdown

/-!
# Each flag is recorded once

Every open has a flag `finished` and every connection a flag `closed`.  Whoever sets the
flag records the end, under a `TelemetryProducer` or, after the seal, as the closer.
`Accounted` is the invariant behind that: a record that exists and a record that the one
who set the flag is about to write add up to the flag.

* `active_producers` counts the calls between their `fetch_add` and their `fetch_sub`.
  So when the closer sees zero after the seal, no call is left that may still write.
* An open whose flag is not set is still known to the closer, through the pending opens
  or through the list that it took.

`Accounted.open_step` and `Accounted.connection_step` are the step lemmas for a section of
one open and of one connection.
-/

namespace FogHttp.Telemetry

open Lib

/-! ## Reading a state -/

theorem CallPhase.counted_of_writing {phase : CallPhase} (h : phase.writing = true) :
    phase.counted = true := by
  cases phase <;> first | rfl | cases h

namespace ConnectionOpen

def counted (entry : ConnectionOpen) : Bool :=
  match entry.stage with
  | .calling _ _ phase => phase.counted
  | _ => false

def writing (entry : ConnectionOpen) : Bool :=
  match entry.stage with
  | .calling _ _ phase => phase.writing
  | _ => false

/-- The call has set the flag and is about to record. -/
def recording (entry : ConnectionOpen) : Bool :=
  match entry.stage with
  | .calling (.finish _) _ .recording => true
  | _ => false

/-- Only a call with a `TelemetryProducer` may still write. -/
theorem counted_of_writing (entry : ConnectionOpen) (h : entry.writing = true) :
    entry.counted = true := by
  unfold writing at h
  unfold counted
  split at h
  · exact CallPhase.counted_of_writing h
  · cases h

theorem writing_of_recording (entry : ConnectionOpen) (h : entry.recording = true) :
    entry.writing = true := by
  unfold recording at h
  unfold writing
  split at h
  · rename_i hstage
    rw [hstage]
    rfl
  · cases h

end ConnectionOpen

namespace Connection

def counted (connection : Connection) : Bool :=
  match connection.call with
  | .calling phase => phase.counted
  | _ => false

def writing (connection : Connection) : Bool :=
  match connection.call with
  | .calling phase => phase.writing
  | _ => false

/-- The call has set the flag and is about to record. -/
def recording (connection : Connection) : Bool := connection.call == .calling .recording

/-- The call of `closed` is past the exchange of the flag, or was declined. -/
def settled (connection : Connection) : Bool :=
  match connection.call with
  | .returned | .calling .declining | .calling .releasing => true
  | _ => false

theorem counted_of_writing (connection : Connection) (h : connection.writing = true) :
    connection.counted = true := by
  unfold writing at h
  unfold counted
  split at h
  · exact CallPhase.counted_of_writing h
  · cases h

theorem writing_of_recording (connection : Connection) (h : connection.recording = true) :
    connection.writing = true := by
  unfold recording at h
  rw [beq_iff_eq] at h
  rw [writing, h]
  rfl

end Connection

namespace Closer

/-- The closer has set the flag of open `i` and is about to record. -/
def recordsOpen (i : Nat) : Closer → Bool
  | .recordingOpen j _ _ => j == i
  | _ => false

/-- The closer has set the flag of connection `c` and is about to record. -/
def recordsClosed (c : Nat) : Closer → Bool
  | .recordingClosed d _ => d == c
  | _ => false

/-- The opens that the closer has still to look at. -/
def awaited (pendingOpens : List Nat) : Closer → List Nat
  | .idle | .collecting _ _ => pendingOpens
  | .waiting opens _ | .finishing opens _ | .recordingOpen _ opens _ => opens
  | .closing _ | .recordingClosed _ _ | .returned => []

end Closer

/-- The records of the end of open `i`. -/
def openRecords (log : List (Subject × TelemetryEventRecord)) (i : Nat) : Nat :=
  log.countP fun entry => entry.1 == .ofOpen i &&
    (entry.2.eventType == .connectionOpened || entry.2.eventType == .connectionOpenFailed)

/-- The `ConnectionClosed` records of connection `c`. -/
def closedRecords (log : List (Subject × TelemetryEventRecord)) (c : Nat) : Nat :=
  log.countP fun entry => entry.1 == .ofConnection c &&
    entry.2.eventType == .connectionClosed

theorem openRecords_append (log : List (Subject × TelemetryEventRecord)) (i : Nat)
    (entry : Subject × TelemetryEventRecord) :
    openRecords (log ++ [entry]) i = openRecords log i + openRecords [entry] i :=
  List.countP_append

theorem closedRecords_append (log : List (Subject × TelemetryEventRecord)) (c : Nat)
    (entry : Subject × TelemetryEventRecord) :
    closedRecords (log ++ [entry]) c = closedRecords log c + closedRecords [entry] c :=
  List.countP_append

/-- A record of an open counts for that open only. -/
theorem openRecords_of_ne {subject : Subject} {event : TelemetryEventRecord} {i : Nat}
    (h : subject ≠ .ofOpen i) : openRecords [(subject, event)] i = 0 := by
  simp [openRecords, h]

theorem closedRecords_of_ne {subject : Subject} {event : TelemetryEventRecord} {c : Nat}
    (h : subject ≠ .ofConnection c) : closedRecords [(subject, event)] c = 0 := by
  simp [closedRecords, h]

/-! ## The invariant -/

/-- The subject exists. -/
def Subject.known (client : ClientTelemetry) : Subject → Prop
  | .ofOpen i => i < client.opens.length
  | .ofConnection c => c < client.connections.length

/-- The invariant of the flags and their records. -/
structure Accounted (client : ClientTelemetry) : Prop where
  producers : client.activeProducers = client.opens.countP ConnectionOpen.counted +
    client.connections.countP Connection.counted
  sealed : client.closed = false ↔ client.closer = .idle
  drained : client.closer.drained = true →
    (∀ entry ∈ client.opens, entry.writing = false) ∧
      ∀ connection ∈ client.connections, connection.writing = false
  known : ∀ entry ∈ client.log, entry.1.known client
  current : ∀ i, client.closer.recordsOpen i = true → i < client.opens.length
  opens : ∀ (i : Nat) (entry : ConnectionOpen), client.opens[i]? = some entry →
    openRecords client.log i + entry.recording.toNat + (client.closer.recordsOpen i).toNat =
      (entry.registered && entry.finished).toNat
  late : ∀ entry ∈ client.opens, entry.registered = false → entry.finished = true
  pending : ∀ (i : Nat) (entry : ConnectionOpen), client.opens[i]? = some entry →
    entry.finished = false → i ∈ client.closer.awaited client.pendingOpens
  closings : ∀ (c : Nat) (connection : Connection),
    client.connections[c]? = some connection →
      closedRecords client.log c + connection.recording.toNat +
        (client.closer.recordsClosed c).toNat = connection.closed.toNat
  declined : ∀ connection ∈ client.connections, connection.closed = false →
    connection.settled = true → client.closed = true

theorem accounted_new : Accounted .new where
  producers := rfl
  sealed := by simp [ClientTelemetry.new]
  drained := by simp [ClientTelemetry.new]
  known := by simp [ClientTelemetry.new]
  current := by simp [ClientTelemetry.new, Closer.recordsOpen]
  opens := by simp [ClientTelemetry.new]
  late := by simp [ClientTelemetry.new]
  pending := by simp [ClientTelemetry.new]
  closings := by simp [ClientTelemetry.new]
  declined := by simp [ClientTelemetry.new]

/-- Nothing is recorded about an open that does not exist yet. -/
theorem Accounted.openRecords_eq_zero {client : ClientTelemetry} (h : Accounted client) {i : Nat}
    (hi : client.opens.length ≤ i) : openRecords client.log i = 0 := by
  refine List.countP_eq_zero.mpr ?_
  intro entry hmem hkind
  have hsubject : entry.1 = .ofOpen i := by
    simp only [Bool.and_eq_true, beq_iff_eq] at hkind
    exact hkind.1
  have hknown := h.known entry hmem
  rw [hsubject] at hknown
  exact absurd hknown (Nat.not_lt.mpr hi)

theorem Accounted.closedRecords_eq_zero {client : ClientTelemetry} (h : Accounted client)
    {c : Nat} (hc : client.connections.length ≤ c) : closedRecords client.log c = 0 := by
  refine List.countP_eq_zero.mpr ?_
  intro entry hmem hkind
  have hsubject : entry.1 = .ofConnection c := by
    simp only [Bool.and_eq_true, beq_iff_eq] at hkind
    exact hkind.1
  have hknown := h.known entry hmem
  rw [hsubject] at hknown
  exact absurd hknown (Nat.not_lt.mpr hc)

/-! ## The step lemmas -/

/-- The step lemma for a section of open `i`. -/
theorem Accounted.open_step {client : ClientTelemetry} {i activeProducers : Nat}
    {old new : ConnectionOpen} {log : List (Subject × TelemetryEventRecord)}
    (h : Accounted client) (hi : client.opens[i]? = some old)
    (hproducers : activeProducers + old.counted.toNat =
      client.activeProducers + new.counted.toNat)
    (hwriting : new.writing = true → old.writing = true ∨ client.closed = false)
    (hlog : log = client.log ∨ ∃ event, log = client.log ++ [(.ofOpen i, event)])
    (hbalance : openRecords log i + new.recording.toNat +
      (client.closer.recordsOpen i).toNat = (new.registered && new.finished).toNat)
    (hregistered : new.registered = old.registered)
    (hfinished : old.finished = true → new.finished = true) :
    Accounted { client with
      activeProducers, opens := client.opens.set i new, log } := by
  have hmem : old ∈ client.opens := List.mem_iff_getElem?.mpr ⟨i, hi⟩
  have hothers : ∀ j, j ≠ i → openRecords log j = openRecords client.log j := by
    intro j hj
    rcases hlog with rfl | ⟨event, rfl⟩
    · rfl
    · rw [openRecords_append, openRecords_of_ne]
      · rfl
      · intro hsame
        exact hj (Subject.ofOpen.inj hsame).symm
  have hclosed : ∀ c, closedRecords log c = closedRecords client.log c := by
    intro c
    rcases hlog with rfl | ⟨event, rfl⟩
    · rfl
    · rw [closedRecords_append, closedRecords_of_ne (by simp)]
      rfl
  refine ⟨?_, h.sealed, ?_, ?_, ?_, ?_, ?_, ?_, ?_, h.declined⟩
  · have hcount := countP_set_add ConnectionOpen.counted new hi
    have hbefore := h.producers
    show activeProducers = (client.opens.set i new).countP ConnectionOpen.counted +
      client.connections.countP Connection.counted
    omega
  · intro hdrained
    obtain ⟨hopens, hconnections⟩ := h.drained hdrained
    refine ⟨forall_mem_set hopens ?_, hconnections⟩
    by_contra hnot
    rcases hwriting (by simpa using hnot) with hold | hopen
    · rw [hopens old hmem] at hold
      cases hold
    · have hidle := h.sealed.mp hopen
      rw [show client.closer = .idle from hidle] at hdrained
      cases hdrained
  · intro entry hentry
    have hknown : ∀ subject : Subject, subject.known client →
        subject.known { client with activeProducers, opens := client.opens.set i new, log } := by
      intro subject
      cases subject with
      | ofOpen j =>
          intro hj
          show j < (client.opens.set i new).length
          rw [List.length_set]
          exact hj
      | ofConnection c => exact fun hc => hc
    rcases hlog with rfl | ⟨event, rfl⟩
    · exact hknown _ (h.known entry hentry)
    · rcases List.mem_append.mp hentry with hentry | hentry
      · exact hknown _ (h.known entry hentry)
      · obtain rfl := List.mem_singleton.mp hentry
        exact hknown _ (List.getElem?_eq_some_iff.mp hi).1
  · intro j hj
    show j < (client.opens.set i new).length
    rw [List.length_set]
    exact h.current j hj
  · intro j entry hj
    rcases getElem?_set_cases hj with ⟨rfl, rfl⟩ | ⟨hne, hj⟩
    · exact hbalance
    · show openRecords log j + _ + _ = _
      rw [hothers j hne]
      exact h.opens j entry hj
  · refine forall_mem_set h.late fun hnew => hfinished ?_
    exact h.late old hmem (hregistered ▸ hnew)
  · intro j entry hj hunfinished
    rcases getElem?_set_cases hj with ⟨rfl, rfl⟩ | ⟨hne, hj⟩
    · refine h.pending j old hi ?_
      by_contra hold
      rw [hfinished (by simpa using hold)] at hunfinished
      cases hunfinished
    · exact h.pending j entry hj hunfinished
  · intro c connection hc
    show closedRecords log c + _ + _ = _
    rw [hclosed c]
    exact h.closings c connection hc

/-- The step lemma for a section of connection `c`. -/
theorem Accounted.connection_step {client : ClientTelemetry} {c activeProducers : Nat}
    {old new : Connection} {log : List (Subject × TelemetryEventRecord)}
    (h : Accounted client) (hc : client.connections[c]? = some old)
    (hproducers : activeProducers + old.counted.toNat =
      client.activeProducers + new.counted.toNat)
    (hwriting : new.writing = true → old.writing = true ∨ client.closed = false)
    (hlog : log = client.log ∨ ∃ event, log = client.log ++ [(.ofConnection c, event)])
    (hbalance : closedRecords log c + new.recording.toNat +
      (client.closer.recordsClosed c).toNat = new.closed.toNat)
    (hdeclined : new.closed = false → new.settled = true → client.closed = true) :
    Accounted { client with
      activeProducers, connections := client.connections.set c new, log } := by
  have hmem : old ∈ client.connections := List.mem_iff_getElem?.mpr ⟨c, hc⟩
  have hothers : ∀ d, d ≠ c → closedRecords log d = closedRecords client.log d := by
    intro d hd
    rcases hlog with rfl | ⟨event, rfl⟩
    · rfl
    · rw [closedRecords_append, closedRecords_of_ne]
      · rfl
      · intro hsame
        exact hd (Subject.ofConnection.inj hsame).symm
  have hopen : ∀ i, openRecords log i = openRecords client.log i := by
    intro i
    rcases hlog with rfl | ⟨event, rfl⟩
    · rfl
    · rw [openRecords_append, openRecords_of_ne (by simp)]
      rfl
  refine ⟨?_, h.sealed, ?_, ?_, h.current, ?_, h.late, h.pending, ?_,
    forall_mem_set h.declined hdeclined⟩
  · have hcount := countP_set_add Connection.counted new hc
    have hbefore := h.producers
    show activeProducers = client.opens.countP ConnectionOpen.counted +
      (client.connections.set c new).countP Connection.counted
    omega
  · intro hdrained
    obtain ⟨hopens, hconnections⟩ := h.drained hdrained
    refine ⟨hopens, forall_mem_set hconnections ?_⟩
    by_contra hnot
    rcases hwriting (by simpa using hnot) with hold | hunsealed
    · rw [hconnections old hmem] at hold
      cases hold
    · have hidle := h.sealed.mp hunsealed
      rw [show client.closer = .idle from hidle] at hdrained
      cases hdrained
  · intro entry hentry
    have hknown : ∀ subject : Subject, subject.known client → subject.known { client with
        activeProducers, connections := client.connections.set c new, log } := by
      intro subject
      cases subject with
      | ofOpen i => exact fun hi => hi
      | ofConnection d =>
          intro hd
          show d < (client.connections.set c new).length
          rw [List.length_set]
          exact hd
    rcases hlog with rfl | ⟨event, rfl⟩
    · exact hknown _ (h.known entry hentry)
    · rcases List.mem_append.mp hentry with hentry | hentry
      · exact hknown _ (h.known entry hentry)
      · obtain rfl := List.mem_singleton.mp hentry
        exact hknown _ (List.getElem?_eq_some_iff.mp hc).1
  · intro i entry hi
    show openRecords log i + _ + _ = _
    rw [hopen i]
    exact h.opens i entry hi
  · intro d connection hd
    rcases getElem?_set_cases hd with ⟨rfl, rfl⟩ | ⟨hne, hd⟩
    · exact hbalance
    · show closedRecords log d + _ + _ = _
      rw [hothers d hne]
      exact h.closings d connection hd

/-! ## The sections of a call -/

/-- What a common section of a recording call does to the count of producers and to its
own phase. -/
structure Produced (client : ClientTelemetry) (phase : CallPhase) (after : ClientTelemetry)
    (next : Option CallPhase) : Prop where
  producers : (phase.counted = true → 0 < client.activeProducers) →
    after.activeProducers + phase.counted.toNat =
      client.activeProducers + (next.any CallPhase.counted).toNat
  rest : after = { client with activeProducers := after.activeProducers }
  writing : next.any CallPhase.writing = true → client.closed = false
  recording : next ≠ some .recording
  settled : next = none ∨ next = some .declining → phase = .declining ∨ phase = .releasing ∨
    client.closed = true
  releasing : next ≠ some .releasing

theorem produced_of_produce {client after : ClientTelemetry} {phase : CallPhase}
    {next : Option CallPhase} (h : client.produce phase = some (after, next)) :
    Produced client phase after next := by
  cases phase with
  | loading =>
      obtain ⟨rfl, rfl⟩ := Prod.mk.inj (Option.some.inj h)
      cases hclosed : client.closed <;>
        refine ⟨fun _ => rfl, rfl, ?_, ?_, ?_, ?_⟩ <;>
        simp [hclosed, CallPhase.writing]
  | counting =>
      obtain ⟨rfl, rfl⟩ := Prod.mk.inj (Option.some.inj h)
      refine ⟨fun _ => rfl, rfl, ?_, ?_, ?_, ?_⟩ <;> simp [CallPhase.writing]
  | checking =>
      obtain ⟨rfl, rfl⟩ := Prod.mk.inj (Option.some.inj h)
      cases hclosed : client.closed <;>
        refine ⟨fun _ => rfl, rfl, ?_, ?_, ?_, ?_⟩ <;>
        simp [hclosed, CallPhase.writing]
  | declining | releasing =>
      obtain ⟨rfl, rfl⟩ := Prod.mk.inj (Option.some.inj h)
      refine ⟨?_, rfl, ?_, ?_, ?_, ?_⟩
      · intro hpos
        have hcount := hpos rfl
        show client.activeProducers - 1 + 1 = client.activeProducers + 0
        omega
      all_goals simp
  | producing | recording => cases h

/-- A counted open is one of the active producers. -/
theorem Accounted.activeProducers_pos_of_open {client : ClientTelemetry} (h : Accounted client)
    {entry : ConnectionOpen} (hmem : entry ∈ client.opens) (hcounted : entry.counted = true) :
    0 < client.activeProducers := by
  have hpos := List.countP_pos_iff.mpr ⟨entry, hmem, hcounted⟩
  have htotal := h.producers
  omega

theorem Accounted.activeProducers_pos_of_connection {client : ClientTelemetry}
    (h : Accounted client) {connection : Connection} (hmem : connection ∈ client.connections)
    (hcounted : connection.counted = true) : 0 < client.activeProducers := by
  have hpos := List.countP_pos_iff.mpr ⟨connection, hmem, hcounted⟩
  have htotal := h.producers
  omega

/-- An open after a section that its calls have in common. -/
theorem flags_nextStage (entry : ConnectionOpen) (call : OpenCall) (rest : List OpenCall)
    {next : Option CallPhase} (h : next ≠ some .recording) :
    ConnectionOpen.counted
        { entry with stage := ClientTelemetry.nextStage call rest next } =
          next.any CallPhase.counted ∧
      ConnectionOpen.writing
        { entry with stage := ClientTelemetry.nextStage call rest next } =
          next.any CallPhase.writing ∧
      ConnectionOpen.recording
        { entry with stage := ClientTelemetry.nextStage call rest next } = false := by
  cases next with
  | none =>
      cases rest with
      | nil => exact ⟨rfl, rfl, rfl⟩
      | cons call rest => cases call <;> exact ⟨rfl, rfl, rfl⟩
  | some phase =>
      have hphase : phase ≠ .recording := fun hsame => h (hsame ▸ rfl)
      refine ⟨rfl, rfl, ?_⟩
      cases call <;> cases phase <;> first | rfl | exact absurd rfl hphase

/-- A section of an open that only moves its call on. -/
theorem Accounted.open_move {client : ClientTelemetry} {i activeProducers : Nat}
    {entry : ConnectionOpen} {stage : OpenStage} (h : Accounted client)
    (hi : client.opens[i]? = some entry)
    (hproducers : activeProducers + entry.counted.toNat =
      client.activeProducers + (ConnectionOpen.counted { entry with stage }).toNat)
    (hwriting : ConnectionOpen.writing { entry with stage } = true →
      entry.writing = true ∨ client.closed = false)
    (hrecording : ConnectionOpen.recording { entry with stage } = entry.recording) :
    Accounted { client with
      activeProducers, opens := client.opens.set i { entry with stage } } := by
  refine h.open_step hi hproducers hwriting (Or.inl rfl) ?_ rfl fun hfinished => hfinished
  rw [hrecording]
  exact h.opens i entry hi

/-- The common sections of a call that consumes an open. -/
theorem accounted_produceOpen {client after : ClientTelemetry} {i : Nat}
    {entry : ConnectionOpen} {call : OpenCall} {rest : List OpenCall} {phase : CallPhase}
    {next : Option CallPhase} (h : Accounted client) (hi : client.opens[i]? = some entry)
    (hstage : entry.stage = .calling call rest phase)
    (hproduce : client.produce phase = some (after, next)) :
    Accounted (after.putOpen i { entry with
      stage := ClientTelemetry.nextStage call rest next }) := by
  have hproduced := produced_of_produce hproduce
  have hmem : entry ∈ client.opens := List.mem_iff_getElem?.mpr ⟨i, hi⟩
  have hcounted : entry.counted = phase.counted := by
    simp [ConnectionOpen.counted, hstage]
  have hnotRecording : entry.recording = false := by
    have hphase : phase ≠ .recording := by
      intro hsame
      rw [hsame] at hproduce
      cases hproduce
    unfold ConnectionOpen.recording
    rw [hstage]
    cases call <;> cases phase <;> first | rfl | exact absurd rfl hphase
  have hproducers := hproduced.producers fun hphase =>
    h.activeProducers_pos_of_open hmem (hcounted.trans hphase)
  obtain ⟨hnextCounted, hnextWriting, hnextRecording⟩ :=
    flags_nextStage entry call rest hproduced.recording
  rw [hproduced.rest]
  refine h.open_move hi ?_ ?_ ?_
  · rw [hnextCounted, hcounted]
    exact hproducers
  · rw [hnextWriting]
    exact fun hwriting => Or.inr (hproduced.writing hwriting)
  · rw [hnextRecording, hnotRecording]

/-- A new connection before the seal. -/
theorem Accounted.push_connection {client : ClientTelemetry} (h : Accounted client)
    (hidle : client.closer = .idle) (opener : Nat) (origin : Option Text)
    (registered : List Nat) :
    Accounted { client with
      connections := client.connections ++ [Connection.mk opener origin false 1 .due]
      registered } := by
  refine ⟨?_, h.sealed, ?_, ?_, h.current, h.opens, h.late, h.pending, ?_, ?_⟩
  · rw [List.countP_append, ← Nat.add_assoc, ← h.producers]
    rfl
  · intro hdrained
    rw [show client.closer = .idle from hidle] at hdrained
    cases hdrained
  · intro entry hmem
    have hknown := h.known entry hmem
    cases hsubject : entry.1 with
    | ofOpen i =>
        rw [hsubject] at hknown
        exact hknown
    | ofConnection c =>
        rw [hsubject] at hknown
        show c < (client.connections ++ [_]).length
        rw [List.length_append]
        exact Nat.lt_add_right 1 hknown
  · intro c connection hc
    rcases getElem?_push_cases hc with hc | ⟨rfl, rfl⟩
    · exact h.closings c connection hc
    · show closedRecords client.log _ + 0 + _ = 0
      rw [h.closedRecords_eq_zero (Nat.le_refl _), hidle]
      rfl
  · intro connection hmem hunclosed hsettled
    rcases List.mem_append.mp hmem with hmem | hmem
    · exact h.declined connection hmem hunclosed hsettled
    · obtain rfl := List.mem_singleton.mp hmem
      cases hsettled

/-- The section of `opened_connection` under the lock. -/
theorem accounted_openedConnection {client next : ClientTelemetry} {i : Nat}
    {entry : ConnectionOpen} {rest : List OpenCall} {pruned : List Nat} (h : Accounted client)
    (hi : client.opens[i]? = some entry) (hstage : entry.stage = .calling .opened rest .producing)
    (hstep : client.openedConnection i entry rest pruned = some next) : Accounted next := by
  have hmem : entry ∈ client.opens := List.mem_iff_getElem?.mpr ⟨i, hi⟩
  have hflags : entry.counted = true ∧ entry.recording = false := by
    simp [ConnectionOpen.counted, ConnectionOpen.recording, hstage, CallPhase.counted]
  unfold ClientTelemetry.openedConnection at hstep
  split at hstep
  · simp at hstep
  · split at hstep
    · obtain rfl := Option.some.inj hstep
      refine h.open_move hi ?_ ?_ ?_
      · rw [hflags.1]
        rfl
      · simp [ConnectionOpen.writing, CallPhase.writing]
      · rw [hflags.2]
        rfl
    · rename_i hunsealed
      obtain rfl := Option.some.inj hstep
      simp only [Bool.or_eq_true, not_or, Bool.not_eq_true] at hunsealed
      obtain ⟨hopen, hunfinished⟩ := hunsealed
      have hidle := h.sealed.mp hopen
      have hregistered : entry.registered = true := by
        by_contra hnot
        rw [h.late entry hmem (by simpa using hnot)] at hunfinished
        cases hunfinished
      have hnone := h.opens i entry hi
      rw [hunfinished, hflags.2, Bool.and_false] at hnone
      refine (h.push_connection hidle i entry.origin _).open_step hi ?_ ?_ (Or.inr ⟨_, rfl⟩) ?_
        rfl fun _ => rfl
      · rw [hflags.1]
        rfl
      · simp [ConnectionOpen.writing, CallPhase.writing]
      · have hone : openRecords
            [(Subject.ofOpen i, TelemetryEventRecord.connectionOpened entry.origin)] i = 1 := by
          simp [openRecords, TelemetryEventRecord.connectionOpened]
        rw [openRecords_append, hone, hregistered]
        simp only [Bool.toNat_false] at hnone
        show openRecords client.log i + 1 + 0 + (client.closer.recordsOpen i).toNat = 1
        omega

/-- A new open.  Its flag is set from the start exactly when it comes after the seal. -/
theorem Accounted.push_open {client : ClientTelemetry} {pendingOpens : List Nat}
    (h : Accounted client) (origin : Option Text) (registered : Bool)
    (hpending : ∀ (i : Nat) (entry : ConnectionOpen), client.opens[i]? = some entry →
      entry.finished = false → i ∈ client.closer.awaited pendingOpens)
    (hnew : registered = true → client.opens.length ∈ client.closer.awaited pendingOpens) :
    Accounted { client with
      opens := client.opens ++ [ConnectionOpen.mk origin registered (!registered) .held]
      pendingOpens } := by
  refine ⟨?_, h.sealed, ?_, ?_, ?_, ?_, ?_, ?_, h.closings, h.declined⟩
  · rw [List.countP_append, h.producers]
    rfl
  · intro hdrained
    obtain ⟨hopens, hconnections⟩ := h.drained hdrained
    refine ⟨?_, hconnections⟩
    intro entry hmem
    rcases List.mem_append.mp hmem with hmem | hmem
    · exact hopens entry hmem
    · obtain rfl := List.mem_singleton.mp hmem
      rfl
  · intro entry hmem
    have hknown := h.known entry hmem
    cases hsubject : entry.1 with
    | ofOpen i =>
        rw [hsubject] at hknown
        show i < (client.opens ++ [_]).length
        rw [List.length_append]
        exact Nat.lt_add_right 1 hknown
    | ofConnection c =>
        rw [hsubject] at hknown
        exact hknown
  · intro i hi
    show i < (client.opens ++ [_]).length
    rw [List.length_append]
    exact Nat.lt_add_right 1 (h.current i hi)
  · intro i entry hi
    rcases getElem?_push_cases hi with hi | ⟨rfl, rfl⟩
    · exact h.opens i entry hi
    · have hnobody : client.closer.recordsOpen client.opens.length = false := by
        by_contra hnot
        exact absurd (h.current _ (by simpa using hnot)) (Nat.lt_irrefl _)
      show openRecords client.log _ + 0 + (client.closer.recordsOpen _).toNat =
        (registered && !registered).toNat
      rw [h.openRecords_eq_zero (Nat.le_refl _), hnobody, Bool.and_not_self]
      rfl
  · intro entry hmem hlate
    rcases List.mem_append.mp hmem with hmem | hmem
    · exact h.late entry hmem hlate
    · obtain rfl := List.mem_singleton.mp hmem
      simpa using hlate
  · intro i entry hi hunfinished
    rcases getElem?_push_cases hi with hi | ⟨rfl, rfl⟩
    · exact hpending i entry hi hunfinished
    · exact hnew (by simpa using hunfinished)

/-- A call of `connection_open`. -/
theorem accounted_connectionOpen {client next : ClientTelemetry} {origin : Option Text}
    {pruned : List Nat} (h : Accounted client)
    (hstep : client.connectionOpen origin pruned = some next) : Accounted next := by
  unfold ClientTelemetry.connectionOpen at hstep
  split at hstep
  · simp at hstep
  · rename_i hguard
    obtain ⟨-, hpruned⟩ := not_or.mp hguard
    rw [Decidable.not_not] at hpruned
    -- An open whose flag is not set survives the cleanup.
    have hkept : ∀ (i : Nat) (entry : ConnectionOpen), client.opens[i]? = some entry →
        entry.finished = false → ∀ added : List Nat, i ∈ client.closer.awaited
          ((client.pendingOpens.filter fun i => i ∉ pruned) ++ added) := by
      intro i entry hi hunfinished added
      have hbefore := h.pending i entry hi hunfinished
      have hnot : i ∉ pruned := by
        intro hmem
        have hfinished := hpruned i hmem
        rw [hi, Option.any_some, hunfinished] at hfinished
        cases hfinished
      cases hcloser : client.closer <;> rw [hcloser] at hbefore
      case idle | collecting =>
        exact List.mem_append_left _ (List.mem_filter.mpr ⟨hbefore, by simpa using hnot⟩)
      all_goals exact hbefore
    split at hstep
    · obtain rfl := Option.some.inj hstep
      refine h.push_open origin false ?_ (by simp)
      intro i entry hi hunfinished
      rw [← List.append_nil (List.filter _ _)]
      exact hkept i entry hi hunfinished []
    · rename_i hunsealed
      obtain rfl := Option.some.inj hstep
      have hidle := h.sealed.mp (by simpa using hunsealed)
      refine h.push_open origin true (fun i entry hi hunfinished => hkept i entry hi hunfinished _)
        fun _ => ?_
      rw [hidle]
      exact List.mem_append_right _ (List.mem_singleton.mpr rfl)

/-- Every section of a call that consumes an open. -/
theorem accounted_advanceOpen {client next : ClientTelemetry} {i : Nat} {entry : ConnectionOpen}
    {pruned : List Nat} (h : Accounted client) (hi : client.opens[i]? = some entry)
    (hstep : client.advanceOpen i entry pruned = some next) : Accounted next := by
  have hmem : entry ∈ client.opens := List.mem_iff_getElem?.mpr ⟨i, hi⟩
  have hbalance := h.opens i entry hi
  unfold ClientTelemetry.advanceOpen at hstep
  split at hstep
  · rename_i rest hstage
    exact accounted_openedConnection h hi hstage hstep
  · rename_i errorType rest hstage
    have hflags : entry.counted = true ∧ entry.writing = true ∧ entry.recording = false := by
      simp [ConnectionOpen.counted, ConnectionOpen.writing, ConnectionOpen.recording, hstage,
        CallPhase.counted, CallPhase.writing]
    split at hstep
    · obtain rfl := Option.some.inj hstep
      refine h.open_move hi ?_ (fun _ => Or.inl hflags.2.1) ?_
      · rw [hflags.1]
        rfl
      · rw [hflags.2.2]
        rfl
    · rename_i hunfinished
      rw [Bool.not_eq_true] at hunfinished
      obtain rfl := Option.some.inj hstep
      have hregistered : entry.registered = true := by
        by_contra hnot
        rw [h.late entry hmem (by simpa using hnot)] at hunfinished
        cases hunfinished
      refine h.open_step hi ?_ (fun _ => Or.inl hflags.2.1) (Or.inl rfl) ?_ rfl fun _ => rfl
      · rw [hflags.1]
        rfl
      · rw [hunfinished, hflags.2.2, Bool.and_false] at hbalance
        rw [hregistered]
        simp only [Bool.toNat_false] at hbalance
        show openRecords client.log i + 1 + (client.closer.recordsOpen i).toNat = 1
        omega
  · rename_i errorType rest hstage
    have hflags : entry.counted = true ∧ entry.writing = true ∧ entry.recording = true := by
      simp [ConnectionOpen.counted, ConnectionOpen.writing, ConnectionOpen.recording, hstage,
        CallPhase.counted, CallPhase.writing]
    obtain rfl := Option.some.inj hstep
    refine h.open_step hi ?_ (fun _ => Or.inl hflags.2.1) (Or.inr ⟨_, rfl⟩) ?_ rfl
      fun hfinished => hfinished
    · rw [hflags.1]
      rfl
    · have hone : openRecords [(Subject.ofOpen i,
          TelemetryEventRecord.connectionOpenFailed entry.origin errorType)] i = 1 := by
        simp [openRecords, TelemetryEventRecord.connectionOpenFailed]
      rw [openRecords_append, hone]
      rw [hflags.2.2] at hbalance
      exact hbalance
  · rename_i call rest phase _ _ _ hstage
    simp only [Option.bind_eq_bind, Option.bind_eq_some_iff] at hstep
    obtain ⟨⟨after, next⟩, hproduce, hstep⟩ := hstep
    obtain rfl := Option.some.inj hstep
    exact accounted_produceOpen h hi hstage hproduce
  · simp at hstep

/-- A section of a connection that leaves its flag alone. -/
theorem Accounted.connection_move {client : ClientTelemetry} {c activeProducers handles : Nat}
    {connection : Connection} {call : ClosedCall} (h : Accounted client)
    (hc : client.connections[c]? = some connection)
    (hproducers : activeProducers + connection.counted.toNat =
      client.activeProducers + (Connection.counted { connection with handles, call }).toNat)
    (hwriting : Connection.writing { connection with handles, call } = true →
      connection.writing = true ∨ client.closed = false)
    (hrecording : Connection.recording { connection with handles, call } =
      connection.recording)
    (hsettled : connection.closed = false →
      Connection.settled { connection with handles, call } = true → client.closed = true) :
    Accounted { client with
      activeProducers
      connections := client.connections.set c { connection with handles, call } } := by
  refine h.connection_step hc hproducers hwriting (Or.inl rfl) ?_ hsettled
  rw [hrecording]
  exact h.closings c connection hc

section

variable {client after : ClientTelemetry} {c : Nat} {connection : Connection}

/-- The section of a call of `closed` that looks at the mark. -/
theorem Accounted.check_closed (h : Accounted client)
    (hc : client.connections[c]? = some connection) (hcall : connection.call = .calling .producing)
    (hstep : client.advanceClosed c connection = some after) : Accounted after := by
  have hbalance := h.closings c connection hc
  have hflags : connection.counted = true ∧ connection.writing = true ∧
      connection.recording = false := by
    simp [Connection.counted, Connection.writing, Connection.recording, hcall,
      CallPhase.counted, CallPhase.writing]
  simp only [ClientTelemetry.advanceClosed, hcall] at hstep
  split at hstep
  · rename_i hclosed
    obtain rfl := Option.some.inj hstep
    refine h.connection_move hc ?_ (fun _ => Or.inl hflags.2.1) ?_ ?_
    · rw [hflags.1]
      rfl
    · rw [hflags.2.2]
      rfl
    · intro hunclosed
      rw [hclosed] at hunclosed
      cases hunclosed
  · rename_i hunclosed
    rw [Bool.not_eq_true] at hunclosed
    obtain rfl := Option.some.inj hstep
    refine h.connection_step hc ?_ (fun _ => Or.inl hflags.2.1) (Or.inl rfl) ?_ (by simp)
    · rw [hflags.1]
      rfl
    · rw [hunclosed, hflags.2.2] at hbalance
      simp only [Bool.toNat_false] at hbalance
      show closedRecords client.log c + 1 + (client.closer.recordsClosed c).toNat = 1
      omega

/-- The section that records the event. -/
theorem Accounted.record_closed (h : Accounted client)
    (hc : client.connections[c]? = some connection) (hcall : connection.call = .calling .recording)
    (hstep : client.advanceClosed c connection = some after) : Accounted after := by
  have hbalance := h.closings c connection hc
  have hflags : connection.counted = true ∧ connection.writing = true ∧
      connection.recording = true := by
    simp [Connection.counted, Connection.writing, Connection.recording, hcall,
      CallPhase.counted, CallPhase.writing]
  have hclosed : connection.closed = true := by
    by_contra hnot
    rw [hflags.2.2, show connection.closed = false by simpa using hnot] at hbalance
    simp only [Bool.toNat_false, Bool.toNat_true] at hbalance
    omega
  simp only [ClientTelemetry.advanceClosed, hcall] at hstep
  obtain rfl := Option.some.inj hstep
  refine h.connection_step hc ?_ (fun _ => Or.inl hflags.2.1) (Or.inr ⟨_, rfl⟩) ?_ ?_
  · rw [hflags.1]
    rfl
  · have hone : closedRecords [(Subject.ofConnection c,
        TelemetryEventRecord.connectionClosed connection.origin)] c = 1 := by
      simp [closedRecords, TelemetryEventRecord.connectionClosed]
    rw [closedRecords_append, hone]
    rw [hflags.2.2] at hbalance
    exact hbalance
  · intro hunclosed
    rw [show connection.closed = false from hunclosed] at hclosed
    cases hclosed

/-- A section of the gate around the event. -/
theorem Accounted.produce_closed {phase : CallPhase} {next : Option CallPhase}
    (h : Accounted client) (hc : client.connections[c]? = some connection)
    (hcall : connection.call = .calling phase)
    (hproduce : client.produce phase = some (after, next)) :
    Accounted (after.putConnection c
      { connection with call := ClientTelemetry.nextCall next }) := by
  have hmem : connection ∈ client.connections := List.mem_iff_getElem?.mpr ⟨c, hc⟩
  have hproduced := produced_of_produce hproduce
  have hcounted : connection.counted = phase.counted := by
    simp [Connection.counted, hcall]
  have hnotRecording : connection.recording = false := by
    rw [Connection.recording, hcall]
    cases phase <;> first | rfl | cases hproduce
  have hproducers := hproduced.producers fun hphase =>
    h.activeProducers_pos_of_connection hmem (hcounted.trans hphase)
  rw [hproduced.rest]
  refine h.connection_move hc ?_ ?_ ?_ ?_
  · rw [hcounted, hproducers]
    cases next <;> rfl
  · intro hwriting
    refine Or.inr (hproduced.writing ?_)
    cases next <;> exact hwriting
  · rw [hnotRecording]
    have hne := hproduced.recording
    cases next with
    | none => rfl
    | some next => cases next <;> first | rfl | exact absurd rfl hne
  · intro hunclosed hsettled
    have hends : next = none ∨ next = some .declining := by
      have hnotReleasing := hproduced.releasing
      cases next with
      | none => exact Or.inl rfl
      | some next =>
          cases next <;> first
            | exact Or.inr rfl
            | exact absurd rfl hnotReleasing
            | cases hsettled
    rcases hproduced.settled hends with hphase | hphase | hsealed
    · exact h.declined connection hmem hunclosed (by rw [Connection.settled, hcall, hphase])
    · exact h.declined connection hmem hunclosed (by rw [Connection.settled, hcall, hphase])
    · exact hsealed

end

/-- Every section of a call of `closed`. -/
theorem accounted_advanceClosed {client next : ClientTelemetry} {c : Nat}
    {connection : Connection} (h : Accounted client)
    (hc : client.connections[c]? = some connection)
    (hstep : client.advanceClosed c connection = some next) : Accounted next := by
  have hsection := hstep
  unfold ClientTelemetry.advanceClosed at hsection
  split at hsection
  · rename_i hcall
    exact h.check_closed hc hcall hstep
  · rename_i hcall
    exact h.record_closed hc hcall hstep
  · rename_i hcall
    simp only [Option.bind_eq_bind, Option.bind_eq_some_iff] at hsection
    obtain ⟨⟨after, phase⟩, hproduce, hsection⟩ := hsection
    obtain rfl := Option.some.inj hsection
    exact h.produce_closed hc hcall hproduce
  · simp at hsection

/-! ## The closer -/

/-- What a section of `close_connections` does. -/
inductive ClosingStep (client : ClientTelemetry) (errorType : TelemetryErrorType) :
    ClientTelemetry → Prop where
  | close (before : client.closer = .idle) :
      ClosingStep client errorType
        { client with closed := true, closer := .collecting client.registered [] }
  | upgrade (c : Nat) (rest collected : List Nat)
      (before : client.closer = .collecting (c :: rest) collected) :
      ClosingStep client errorType { client with
        closer := .collecting rest (if client.upgrade c then collected ++ [c] else collected) }
  | takeOpens (collected : List Nat) (before : client.closer = .collecting [] collected) :
      ClosingStep client errorType { client with
        registered := [], pendingOpens := []
        closer := .waiting client.pendingOpens collected }
  | goOn (opens collected : List Nat) (before : client.closer = .waiting opens collected)
      (zero : client.activeProducers = 0) :
      ClosingStep client errorType { client with closer := .finishing opens collected }
  | skipOpen (i : Nat) (opens collected : List Nat) (entry : ConnectionOpen)
      (before : client.closer = .finishing (i :: opens) collected)
      (hi : client.opens[i]? = some entry) (finished : entry.finished = true) :
      ClosingStep client errorType { client with closer := .finishing opens collected }
  | claimOpen (i : Nat) (opens collected : List Nat) (entry : ConnectionOpen)
      (before : client.closer = .finishing (i :: opens) collected)
      (hi : client.opens[i]? = some entry) (unfinished : entry.finished = false) :
      ClosingStep client errorType
        ({ client with closer := .recordingOpen i opens collected }.putOpen i
          { entry with finished := true })
  | recordOpen (i : Nat) (opens collected : List Nat) (entry : ConnectionOpen)
      (before : client.closer = .recordingOpen i opens collected)
      (hi : client.opens[i]? = some entry) :
      ClosingStep client errorType
        ({ client with closer := .finishing opens collected }.record (.ofOpen i)
          (.connectionOpenFailed entry.origin errorType))
  | endOpens (collected : List Nat) (before : client.closer = .finishing [] collected) :
      ClosingStep client errorType { client with closer := .closing collected }
  | skipConnection (c : Nat) (collected : List Nat) (connection : Connection)
      (before : client.closer = .closing (c :: collected))
      (hc : client.connections[c]? = some connection) (closed : connection.closed = true) :
      ClosingStep client errorType { client with closer := .closing collected }
  | claimConnection (c : Nat) (collected : List Nat) (connection : Connection)
      (before : client.closer = .closing (c :: collected))
      (hc : client.connections[c]? = some connection) (unclosed : connection.closed = false) :
      ClosingStep client errorType
        ({ client with closer := .recordingClosed c collected }.putConnection c
          { connection with closed := true })
  | recordConnection (c : Nat) (collected : List Nat) (connection : Connection)
      (before : client.closer = .recordingClosed c collected)
      (hc : client.connections[c]? = some connection) :
      ClosingStep client errorType
        ({ client with closer := .closing collected }.record (.ofConnection c)
          (.connectionClosed connection.origin))
  | endConnections (before : client.closer = .closing []) :
      ClosingStep client errorType { client with closer := .returned }

theorem closingStep_of_closeConnections {client next : ClientTelemetry}
    {errorType : TelemetryErrorType}
    (hstep : client.closeConnections errorType = some next) :
    ClosingStep client errorType next := by
  unfold ClientTelemetry.closeConnections at hstep
  split at hstep
  · rename_i hcloser
    obtain rfl := Option.some.inj hstep
    exact .close hcloser
  · rename_i c rest collected hcloser
    obtain rfl := Option.some.inj hstep
    exact .upgrade c rest collected hcloser
  · rename_i collected hcloser
    obtain rfl := Option.some.inj hstep
    exact .takeOpens collected hcloser
  · rename_i opens collected hcloser
    split at hstep
    · rename_i hzero
      obtain rfl := Option.some.inj hstep
      exact .goOn opens collected hcloser hzero
    · cases hstep
  · rename_i i opens collected hcloser
    obtain ⟨entry, hi, hstep⟩ := Option.bind_eq_some_iff.mp hstep
    split at hstep
    · rename_i hfinished
      obtain rfl := Option.some.inj hstep
      exact .skipOpen i opens collected entry hcloser hi hfinished
    · rename_i hunfinished
      obtain rfl := Option.some.inj hstep
      exact .claimOpen i opens collected entry hcloser hi (by simpa using hunfinished)
  · rename_i i opens collected hcloser
    obtain ⟨entry, hi, hstep⟩ := Option.bind_eq_some_iff.mp hstep
    obtain rfl := Option.some.inj hstep
    exact .recordOpen i opens collected entry hcloser hi
  · rename_i collected hcloser
    obtain rfl := Option.some.inj hstep
    exact .endOpens collected hcloser
  · rename_i c collected hcloser
    obtain ⟨connection, hc, hstep⟩ := Option.bind_eq_some_iff.mp hstep
    split at hstep
    · rename_i hclosed
      obtain rfl := Option.some.inj hstep
      exact .skipConnection c collected connection hcloser hc hclosed
    · rename_i hunclosed
      obtain rfl := Option.some.inj hstep
      exact .claimConnection c collected connection hcloser hc (by simpa using hunclosed)
  · rename_i c collected hcloser
    obtain ⟨connection, hc, hstep⟩ := Option.bind_eq_some_iff.mp hstep
    obtain rfl := Option.some.inj hstep
    exact .recordConnection c collected connection hcloser hc
  · rename_i hcloser
    obtain rfl := Option.some.inj hstep
    exact .endConnections hcloser
  · cases hstep

/-- Whatever the closer does, it does after the seal. -/
theorem Accounted.closed_of_closer {client : ClientTelemetry} (h : Accounted client)
    (hcloser : client.closer ≠ .idle) : client.closed = true := by
  by_contra hnot
  exact hcloser (h.sealed.mp (by simpa using hnot))

/-- A section of the closer that touches no flag and no record. -/
theorem Accounted.closer_move {client : ClientTelemetry} {closer : Closer}
    {registered pendingOpens : List Nat} (h : Accounted client)
    (hsealed : client.closer ≠ .idle) (hnext : closer ≠ .idle)
    (hdrained : closer.drained = true → client.closer.drained = true ∨
      client.activeProducers = 0)
    (hopen : ∀ i, closer.recordsOpen i = client.closer.recordsOpen i)
    (hclosed : ∀ c, closer.recordsClosed c = client.closer.recordsClosed c)
    (hpending : ∀ (i : Nat) (entry : ConnectionOpen), client.opens[i]? = some entry →
      entry.finished = false → i ∈ client.closer.awaited client.pendingOpens →
        i ∈ closer.awaited pendingOpens) :
    Accounted { client with closer, registered, pendingOpens } := by
  have hclosedFlag := h.closed_of_closer hsealed
  refine ⟨h.producers, ?_, ?_, h.known, ?_, ?_, h.late, ?_, ?_, h.declined⟩
  · constructor
    · intro hunsealed
      rw [hclosedFlag] at hunsealed
      cases hunsealed
    · exact fun himpossible => absurd himpossible hnext
  · intro hafter
    rcases hdrained hafter with hbefore | hzero
    · exact h.drained hbefore
    · have htotal := h.producers
      rw [hzero] at htotal
      obtain ⟨hopens, hconnections⟩ := Nat.add_eq_zero_iff.mp htotal.symm
      constructor
      · intro entry hmem
        by_contra hnot
        exact List.countP_eq_zero.mp hopens entry hmem
          (entry.counted_of_writing (by simpa using hnot))
      · intro connection hmem
        by_contra hnot
        exact List.countP_eq_zero.mp hconnections connection hmem
          (connection.counted_of_writing (by simpa using hnot))
  · intro i hi
    rw [hopen i] at hi
    exact h.current i hi
  · intro i entry hi
    rw [hopen i]
    exact h.opens i entry hi
  · intro i entry hi hunfinished
    exact hpending i entry hi hunfinished (h.pending i entry hi hunfinished)
  · intro c connection hc
    rw [hclosed c]
    exact h.closings c connection hc

/-- A section of the closer that awaits the same opens after as before. -/
theorem Accounted.closer_pass {client : ClientTelemetry} {before closer : Closer}
    {registered pendingOpens : List Nat} (h : Accounted client)
    (hcloser : client.closer = before) (hsealed : before ≠ .idle) (hnext : closer ≠ .idle)
    (hdrained : closer.drained = true → before.drained = true ∨ client.activeProducers = 0)
    (hopen : ∀ i, closer.recordsOpen i = before.recordsOpen i)
    (hclosed : ∀ c, closer.recordsClosed c = before.recordsClosed c)
    (hawaited : closer.awaited pendingOpens = before.awaited client.pendingOpens) :
    Accounted { client with closer, registered, pendingOpens } := by
  subst hcloser
  refine h.closer_move hsealed hnext hdrained hopen hclosed ?_
  intro i entry _ _ hbefore
  rw [hawaited]
  exact hbefore

/-- The store of `closed`. -/
theorem Accounted.seal {client : ClientTelemetry} (h : Accounted client)
    (hidle : client.closer = .idle) :
    Accounted { client with closed := true, closer := .collecting client.registered [] } := by
  refine ⟨h.producers, by simp, by simp [Closer.drained], h.known, by simp [Closer.recordsOpen],
    ?_, h.late, ?_, ?_, fun _ _ _ _ => rfl⟩
  · intro i entry hi
    have hbalance := h.opens i entry hi
    rw [hidle] at hbalance
    exact hbalance
  · intro i entry hi hunfinished
    have hbefore := h.pending i entry hi hunfinished
    rw [hidle] at hbefore
    exact hbefore
  · intro c connection hc
    have hbalance := h.closings c connection hc
    rw [hidle] at hbalance
    exact hbalance

/-- The exchange of the flag of an open in `finish_after_seal`. -/
theorem Accounted.claim_open {client : ClientTelemetry} {i : Nat} {entry : ConnectionOpen}
    {opens collected : List Nat} (h : Accounted client)
    (hcloser : client.closer = .finishing (i :: opens) collected)
    (hi : client.opens[i]? = some entry) (hunfinished : entry.finished = false) :
    Accounted ({ client with closer := .recordingOpen i opens collected }.putOpen i
      { entry with finished := true }) := by
  have hmem : entry ∈ client.opens := List.mem_iff_getElem?.mpr ⟨i, hi⟩
  have hlt := (List.getElem?_eq_some_iff.mp hi).1
  have hclosed := h.closed_of_closer (by simp [hcloser])
  have hregistered : entry.registered = true := by
    by_contra hnot
    rw [h.late entry hmem (by simpa using hnot)] at hunfinished
    cases hunfinished
  refine ⟨?_, ?_, ?_, ?_, ?_, ?_, forall_mem_set h.late fun _ => rfl, ?_, ?_, h.declined⟩
  · have hcount := countP_set_add ConnectionOpen.counted { entry with finished := true } hi
    have hsame : ConnectionOpen.counted { entry with finished := true } = entry.counted := rfl
    have hbefore := h.producers
    show client.activeProducers =
      (client.opens.set i { entry with finished := true }).countP ConnectionOpen.counted +
        client.connections.countP Connection.counted
    rw [hsame] at hcount
    omega
  · simp [ClientTelemetry.putOpen, hclosed]
  · intro _
    obtain ⟨hopens, hconnections⟩ := h.drained (by rw [hcloser]; rfl)
    exact ⟨forall_mem_set hopens (hopens entry hmem), hconnections⟩
  · intro record hrecord
    have hknown := h.known record hrecord
    cases hsubject : record.1 with
    | ofOpen j =>
        rw [hsubject] at hknown
        show j < (client.opens.set i _).length
        rw [List.length_set]
        exact hknown
    | ofConnection c =>
        rw [hsubject] at hknown
        exact hknown
  · intro j hj
    obtain rfl : i = j := beq_iff_eq.mp hj
    show i < (client.opens.set i _).length
    rw [List.length_set]
    exact hlt
  · intro j other hj
    rcases getElem?_set_cases hj with ⟨rfl, rfl⟩ | ⟨hne, hj⟩
    · have hbalance := h.opens j entry hi
      rw [hunfinished, hcloser, Bool.and_false] at hbalance
      show openRecords client.log j + entry.recording.toNat + (j == j).toNat =
        (entry.registered && true).toNat
      rw [hregistered, beq_self_eq_true]
      exact congrArg (· + 1) hbalance
    · have hbalance := h.opens j other hj
      rw [hcloser] at hbalance
      show openRecords client.log j + other.recording.toNat + (i == j).toNat = _
      rw [beq_eq_false_iff_ne.mpr (Ne.symm hne)]
      exact hbalance
  · intro j other hj hother
    rcases getElem?_set_cases hj with ⟨-, rfl⟩ | ⟨hne, hj⟩
    · cases hother
    · have hbefore := h.pending j other hj hother
      rw [hcloser] at hbefore
      exact (List.mem_cons.mp hbefore).resolve_left hne
  · intro c connection hc
    have hbalance := h.closings c connection hc
    rw [hcloser] at hbalance
    exact hbalance

/-- The exchange of the flag of a connection in `closed_after_seal`. -/
theorem Accounted.claim_connection {client : ClientTelemetry} {c : Nat}
    {connection : Connection} {collected : List Nat} (h : Accounted client)
    (hcloser : client.closer = .closing (c :: collected))
    (hc : client.connections[c]? = some connection) (hunclosed : connection.closed = false) :
    Accounted ({ client with closer := .recordingClosed c collected }.putConnection c
      { connection with closed := true }) := by
  have hmem : connection ∈ client.connections := List.mem_iff_getElem?.mpr ⟨c, hc⟩
  have hlt := (List.getElem?_eq_some_iff.mp hc).1
  have hclosed := h.closed_of_closer (by simp [hcloser])
  refine ⟨?_, ?_, ?_, ?_, ?_, ?_, h.late, ?_, ?_, forall_mem_set h.declined fun _ _ => hclosed⟩
  · have hcount := countP_set_add Connection.counted { connection with closed := true } hc
    have hsame : Connection.counted { connection with closed := true } =
      connection.counted := rfl
    have hbefore := h.producers
    show client.activeProducers = client.opens.countP ConnectionOpen.counted +
      (client.connections.set c { connection with closed := true }).countP Connection.counted
    rw [hsame] at hcount
    omega
  · simp [ClientTelemetry.putConnection, hclosed]
  · intro _
    obtain ⟨hopens, hconnections⟩ := h.drained (by rw [hcloser]; rfl)
    exact ⟨hopens, forall_mem_set hconnections (hconnections connection hmem)⟩
  · intro record hrecord
    have hknown := h.known record hrecord
    cases hsubject : record.1 with
    | ofOpen i =>
        rw [hsubject] at hknown
        exact hknown
    | ofConnection d =>
        rw [hsubject] at hknown
        show d < (client.connections.set c _).length
        rw [List.length_set]
        exact hknown
  · intro i hi
    cases hi
  · intro i entry hi
    have hbalance := h.opens i entry hi
    rw [hcloser] at hbalance
    exact hbalance
  · intro i entry hi hunfinished
    have hbefore := h.pending i entry hi hunfinished
    rw [hcloser] at hbefore
    exact hbefore
  · intro d other hd
    rcases getElem?_set_cases hd with ⟨rfl, rfl⟩ | ⟨hne, hd⟩
    · have hbalance := h.closings d connection hc
      rw [hunclosed, hcloser] at hbalance
      show closedRecords client.log d + connection.recording.toNat + (d == d).toNat = 1
      rw [beq_self_eq_true]
      exact congrArg (· + 1) hbalance
    · have hbalance := h.closings d other hd
      rw [hcloser] at hbalance
      show closedRecords client.log d + other.recording.toNat + (c == d).toNat = _
      rw [beq_eq_false_iff_ne.mpr (Ne.symm hne)]
      exact hbalance

/-- The record of the closer about an open whose flag it has set. -/
theorem Accounted.record_open {client : ClientTelemetry} {i : Nat} {opens collected : List Nat}
    (h : Accounted client) (hcloser : client.closer = .recordingOpen i opens collected)
    (origin : Option Text) (errorType : TelemetryErrorType) :
    Accounted ({ client with closer := .finishing opens collected }.record (.ofOpen i)
      (.connectionOpenFailed origin errorType)) := by
  have hclosed := h.closed_of_closer (by simp [hcloser])
  have hone : openRecords [(Subject.ofOpen i,
      TelemetryEventRecord.connectionOpenFailed origin errorType)] i = 1 := by
    simp [openRecords, TelemetryEventRecord.connectionOpenFailed]
  refine ⟨h.producers, ?_, ?_, ?_, ?_, ?_, h.late, ?_, ?_, h.declined⟩
  · simp [ClientTelemetry.record, hclosed]
  · intro _
    exact h.drained (by rw [hcloser]; rfl)
  · intro record hrecord
    rcases List.mem_append.mp hrecord with hrecord | hrecord
    · exact h.known record hrecord
    · obtain rfl := List.mem_singleton.mp hrecord
      exact h.current i (by rw [hcloser]; exact beq_self_eq_true i)
  · intro j hj
    cases hj
  · intro j entry hj
    have hbalance := h.opens j entry hj
    rw [hcloser] at hbalance
    show openRecords (client.log ++ [_]) j + entry.recording.toNat + 0 = _
    rw [openRecords_append]
    by_cases hij : i = j
    · subst hij
      rw [show (Closer.recordingOpen i opens collected).recordsOpen i = true from
        beq_self_eq_true i] at hbalance
      rw [hone]
      simp only [Bool.toNat_true] at hbalance
      omega
    · rw [show (Closer.recordingOpen i opens collected).recordsOpen j = false from
        beq_eq_false_iff_ne.mpr hij] at hbalance
      rw [openRecords_of_ne (by simpa using hij)]
      exact hbalance
  · intro j entry hj hunfinished
    have hbefore := h.pending j entry hj hunfinished
    rw [hcloser] at hbefore
    exact hbefore
  · intro c connection hc
    have hbalance := h.closings c connection hc
    rw [hcloser] at hbalance
    show closedRecords (client.log ++ [_]) c + _ + 0 = _
    rw [closedRecords_append, closedRecords_of_ne (by simp)]
    exact hbalance

/-- The record of the closer about a connection whose flag it has set. -/
theorem Accounted.record_connection {client : ClientTelemetry} {c : Nat} {connection : Connection}
    {collected : List Nat} (h : Accounted client)
    (hcloser : client.closer = .recordingClosed c collected)
    (hc : client.connections[c]? = some connection) :
    Accounted ({ client with closer := .closing collected }.record (.ofConnection c)
      (.connectionClosed connection.origin)) := by
  have hclosed := h.closed_of_closer (by simp [hcloser])
  have hone : closedRecords [(Subject.ofConnection c,
      TelemetryEventRecord.connectionClosed connection.origin)] c = 1 := by
    simp [closedRecords, TelemetryEventRecord.connectionClosed]
  refine ⟨h.producers, ?_, ?_, ?_, ?_, ?_, h.late, ?_, ?_, h.declined⟩
  · simp [ClientTelemetry.record, hclosed]
  · intro _
    exact h.drained (by rw [hcloser]; rfl)
  · intro record hrecord
    rcases List.mem_append.mp hrecord with hrecord | hrecord
    · exact h.known record hrecord
    · obtain rfl := List.mem_singleton.mp hrecord
      exact (List.getElem?_eq_some_iff.mp hc).1
  · intro j hj
    cases hj
  · intro i entry hi
    have hbalance := h.opens i entry hi
    rw [hcloser] at hbalance
    show openRecords (client.log ++ [_]) i + _ + 0 = _
    rw [openRecords_append, openRecords_of_ne (by simp)]
    exact hbalance
  · intro i entry hi hunfinished
    have hbefore := h.pending i entry hi hunfinished
    rw [hcloser] at hbefore
    exact hbefore
  · intro d other hd
    have hbalance := h.closings d other hd
    rw [hcloser] at hbalance
    show closedRecords (client.log ++ [_]) d + other.recording.toNat + 0 = _
    rw [closedRecords_append]
    by_cases hcd : c = d
    · subst hcd
      rw [show (Closer.recordingClosed c collected).recordsClosed c = true from
        beq_self_eq_true c] at hbalance
      rw [hone]
      simp only [Bool.toNat_true] at hbalance
      omega
    · rw [show (Closer.recordingClosed c collected).recordsClosed d = false from
        beq_eq_false_iff_ne.mpr hcd] at hbalance
      rw [closedRecords_of_ne (by simpa using hcd)]
      exact hbalance

/-- Every section of `close_connections`. -/
theorem accounted_closeConnections {client next : ClientTelemetry}
    {errorType : TelemetryErrorType} (h : Accounted client)
    (hstep : client.closeConnections errorType = some next) : Accounted next := by
  cases closingStep_of_closeConnections hstep with
  | close hcloser => exact h.seal hcloser
  | upgrade c rest collected hcloser =>
      exact h.closer_pass hcloser (by simp) (by simp) (by simp [Closer.drained])
        (fun _ => rfl) (fun _ => rfl) rfl
  | takeOpens collected hcloser =>
      exact h.closer_pass hcloser (by simp) (by simp) (by simp [Closer.drained])
        (fun _ => rfl) (fun _ => rfl) rfl
  | goOn opens collected hcloser hzero =>
      exact h.closer_pass hcloser (by simp) (by simp) (fun _ => Or.inr hzero)
        (fun _ => rfl) (fun _ => rfl) rfl
  | skipOpen i opens collected entry hcloser hi hfinished =>
      refine h.closer_move (by simp [hcloser]) (by simp)
        (fun _ => Or.inl (by rw [hcloser]; rfl)) (by simp [hcloser, Closer.recordsOpen])
        (by simp [hcloser, Closer.recordsClosed]) ?_
      intro j other hj hunfinished hbefore
      rw [hcloser] at hbefore
      refine (List.mem_cons.mp hbefore).resolve_left ?_
      intro hsame
      subst hsame
      rw [Option.some.inj (hi.symm.trans hj), hunfinished] at hfinished
      cases hfinished
  | claimOpen i opens collected entry hcloser hi hunfinished =>
      exact h.claim_open hcloser hi hunfinished
  | recordOpen i opens collected entry hcloser hi =>
      exact h.record_open hcloser entry.origin errorType
  | endOpens collected hcloser =>
      exact h.closer_pass hcloser (by simp) (by simp) (fun _ => Or.inl rfl)
        (fun _ => rfl) (fun _ => rfl) rfl
  | skipConnection c collected connection hcloser hc hclosed =>
      exact h.closer_pass hcloser (by simp) (by simp) (fun _ => Or.inl rfl)
        (fun _ => rfl) (fun _ => rfl) rfl
  | claimConnection c collected connection hcloser hc hunclosed =>
      exact h.claim_connection hcloser hc hunclosed
  | recordConnection c collected connection hcloser hc =>
      exact h.record_connection hcloser hc
  | endConnections hcloser =>
      exact h.closer_pass hcloser (by simp) (by simp) (fun _ => Or.inl rfl)
        (fun _ => rfl) (fun _ => rfl) rfl

/-! ## Runs -/

/-- Every step keeps the account. -/
theorem accounted_step {client next : ClientTelemetry} {event : ClientTelemetry.Event}
    (h : Accounted client) (hstep : client.step event = some next) : Accounted next := by
  cases event with
  | connectionOpen origin pruned => exact accounted_connectionOpen h hstep
  | consume i how terminalErrorType =>
      simp only [ClientTelemetry.step, Option.bind_eq_bind, Option.bind_eq_some_iff] at hstep
      obtain ⟨entry, hi, hstep⟩ := hstep
      split at hstep
      · rename_i hstage
        obtain rfl := Option.some.inj hstep
        have hflags : entry.counted = false ∧ entry.recording = false := by
          simp [ConnectionOpen.counted, ConnectionOpen.recording, hstage]
        cases how <;> refine h.open_move hi ?_ (by simp [ConnectionOpen.writing,
          ClientTelemetry.stageOf, ClientTelemetry.OpenUse.calls, CallPhase.writing]) ?_
        all_goals first
          | rw [hflags.1]; rfl
          | rw [hflags.2]; rfl
      · simp at hstep
  | advanceOpen i pruned =>
      simp only [ClientTelemetry.step, Option.bind_eq_bind, Option.bind_eq_some_iff] at hstep
      obtain ⟨entry, hi, hstep⟩ := hstep
      exact accounted_advanceOpen h hi hstep
  | clone c =>
      simp only [ClientTelemetry.step, Option.bind_eq_bind, Option.bind_eq_some_iff] at hstep
      obtain ⟨connection, hc, hstep⟩ := hstep
      split at hstep
      · obtain rfl := Option.some.inj hstep
        exact h.connection_move hc rfl Or.inl rfl
          (h.declined connection (List.mem_iff_getElem?.mpr ⟨c, hc⟩))
      · simp at hstep
  | callClosed c =>
      simp only [ClientTelemetry.step, Option.bind_eq_bind, Option.bind_eq_some_iff] at hstep
      obtain ⟨connection, hc, hstep⟩ := hstep
      split at hstep
      · rename_i hguard
        obtain rfl := Option.some.inj hstep
        have hflags : connection.counted = false ∧ connection.recording = false := by
          simp [Connection.counted, Connection.recording, hguard.2]
        refine h.connection_move hc ?_ (by simp [Connection.writing, CallPhase.writing]) ?_
          (by simp [Connection.settled])
        · rw [hflags.1]
          rfl
        · rw [hflags.2]
          rfl
      · simp at hstep
  | advanceClosed c =>
      simp only [ClientTelemetry.step, Option.bind_eq_bind, Option.bind_eq_some_iff] at hstep
      obtain ⟨connection, hc, hstep⟩ := hstep
      exact accounted_advanceClosed h hc hstep
  | dropHandle c =>
      simp only [ClientTelemetry.step, Option.bind_eq_bind, Option.bind_eq_some_iff] at hstep
      obtain ⟨connection, hc, hstep⟩ := hstep
      split at hstep
      · obtain rfl := Option.some.inj hstep
        exact h.connection_move hc rfl Or.inl rfl
          (h.declined connection (List.mem_iff_getElem?.mpr ⟨c, hc⟩))
      · simp at hstep
  | closeConnections errorType => exact accounted_closeConnections h hstep

/-- The account of every reachable state. -/
theorem accounted_of_reachable {client : ClientTelemetry}
    (h : ClientTelemetry.system.Reachable client) : Accounted client :=
  h.invariant Accounted accounted_new fun _ haccounted hstep => accounted_step haccounted hstep

end FogHttp.Telemetry
