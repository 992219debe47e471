import FogHttp.Connection.Idle
import FogHttp.Lib.Positions

/-!
# The gauges of idle connections

`Accounts` is the invariant of the gauges: they count the connections that are marked as
counted, and the marks agree with `idle_since` except in the middle of a section.

All operations replace one call and its connection.  `Accounts.put` is the lemma for such a
step, and the operations provide its hypotheses.
-/

namespace FogHttp.IdleConnections

open Lib
open ConnectionUse (ResponseBodyLifecycleOutcome UseEnding)

/-! ## The gauges -/

/-- The marks of a connection in the middle of a section. -/
def Section.Holds (connection : Connection) : Section → Prop
  | .leftIdle _ => connection.idleSince = false ∧ connection.gauged = true ∧
      connection.originGauged = true
  | .originLeftIdle _ => connection.idleSince = false ∧ connection.gauged = false ∧
      connection.originGauged = true
  | .becameIdle => connection.idleSince = true ∧ connection.gauged = false ∧
      connection.originGauged = false
  | .originBecameIdle => connection.idleSince = true ∧ connection.gauged = true ∧
      connection.originGauged = false
  | .ending (.countUse _) => connection.idleSince = false ∧ connection.gauged = false ∧
      connection.originGauged = false
  | .ending .unlock => connection.gauged = connection.idleSince ∧
      connection.originGauged = connection.idleSince

theorem responseFinished_ne_locked (telemetryFinished : Bool)
    (outcome : ResponseBodyLifecycleOutcome) (rest : Section) :
    responseFinished telemetryFinished outcome ≠ .locked rest := by
  cases outcome <;> cases telemetryFinished <;> simp [responseFinished]

/-- A guard does not take the idle mutex when it looks at its upload. -/
theorem afterCheck_ne_locked (incomplete : Bool) (ending : UseEnding) (rest : Section) :
    afterCheck incomplete ending ≠ .locked rest := by
  cases ending with
  | finish outcome telemetryFinished =>
      cases incomplete
      · exact responseFinished_ne_locked telemetryFinished outcome rest
      · simp [afterCheck]
  | abort => cases incomplete <;> simp [afterCheck]
  | drop =>
      cases incomplete
      · exact responseFinished_ne_locked true .aborted rest
      · simp [afterCheck]
  | superseded telemetryFinished => exact responseFinished_ne_locked telemetryFinished .closed rest

namespace Connection

/-- The connection is counted in the gauge of this `OriginMetrics`. -/
def countedBy (m : Nat) (connection : Connection) : Bool :=
  connection.originGauged && connection.originMetrics == some m

/-- The connection is idle and belongs to this `OriginMetrics`. -/
def idleOf (m : Nat) (connection : Connection) : Bool :=
  connection.idleSince && connection.originMetrics == some m

end Connection

namespace Client

structure Accounts (client : Client) : Prop where
  /-- Between two sections a connection is counted exactly when it is idle. -/
  settled : ∀ connection ∈ client.connections, connection.idleLock = none →
    connection.gauged = connection.idleSince ∧
      connection.originGauged = connection.idleSince
  held : ∀ (k : Nat) (call : Call) (rest : Section), client.calls[k]? = some call →
    call.phase = .locked rest →
      ∃ connection, client.connections[call.connection]? = some connection ∧
        connection.idleLock = some k ∧ rest.Holds connection
  gauge : client.idleConnections = client.connections.countP Connection.gauged
  originGauge : ∀ m, client.originIdle m = client.connections.countP (Connection.countedBy m)
  aborted : ∀ connection ∈ client.connections, connection.aborted = true →
    connection.idleSince = false
  /-- A closed connection is idle only while the call that closes it is on its way to its
  section. -/
  closing : ∀ (c : Nat) (connection : Connection), client.connections[c]? = some connection →
    connection.closed = true → connection.idleSince = true →
      ∃ call ∈ client.calls, call.connection = c ∧ call.phase = .next .leaveIdle

theorem accounts_new : Accounts new where
  settled := by simp [new]
  held := by simp [new]
  gauge := rfl
  originGauge _ := rfl
  aborted := by simp [new]
  closing := by simp [new]

section Put

variable {client : Client} {k : Nat} {call : Call} {connection after : Connection}
  {phase : CallPhase} {idleConnections : Nat} {originIdle : Nat → Nat}
  {guards : List ConnectionUseGuard} {incomplete : Bool}

/-- A step of a call that replaces its connection. -/
theorem Accounts.put (h : Accounts client) (hk : client.calls[k]? = some call)
    (hc : client.connections[call.connection]? = some connection)
    (hfree : connection.idleLock = none ∨ connection.idleLock = some k ∨
      ∃ closed, after = { connection with closed })
    (hsettled : after.idleLock = none →
      after.gauged = after.idleSince ∧ after.originGauged = after.idleSince)
    (hheld : ∀ rest, phase = .locked rest → after.idleLock = some k ∧ rest.Holds after)
    (hgauge : idleConnections + connection.gauged.toNat =
      client.idleConnections + after.gauged.toNat)
    (horigin : ∀ m, originIdle m + (connection.countedBy m).toNat =
      client.originIdle m + (after.countedBy m).toNat)
    (haborted : after.aborted = true → after.idleSince = false)
    (hclosing : after.closed = true → after.idleSince = true → phase = .next .leaveIdle ∨
      connection.closed = true ∧ connection.idleSince = true ∧
        call.phase ≠ .next .leaveIdle) :
    Accounts ({ client with idleConnections, originIdle, guards }.put k
      { call with incomplete } (after, phase)) where
  settled := forall_mem_set h.settled hsettled
  held j other rest hj hphase := by
    have hlt := (List.getElem?_eq_some_iff.mp hc).1
    rcases getElem?_set_cases hj with ⟨rfl, rfl⟩ | ⟨hne, hj⟩
    · exact ⟨after, List.getElem?_set_self hlt, hheld rest hphase⟩
    · obtain ⟨own, hown, hlock, hholds⟩ := h.held j other rest hj hphase
      by_cases hsame : call.connection = other.connection
      · -- The other call holds the mutex, so this one does not change what it protects.
        rw [← hsame] at hown
        obtain rfl := Option.some.inj (hc.symm.trans hown)
        rcases hfree with hnone | hmine | ⟨closed, hafter⟩
        · rw [hnone] at hlock
          cases hlock
        · rw [hmine] at hlock
          exact absurd (Option.some.inj hlock).symm hne
        · refine ⟨after, ?_, ?_, ?_⟩
          · show (client.connections.set call.connection after)[other.connection]? = _
            rw [← hsame, List.getElem?_set_self hlt]
          · rw [hafter]
            exact hlock
          · rw [hafter]
            cases rest with
            | ending rest => cases rest <;> exact hholds
            | _ => exact hholds
      · refine ⟨own, ?_, hlock, hholds⟩
        show (client.connections.set call.connection after)[other.connection]? = _
        rw [List.getElem?_set_ne hsame, hown]
  gauge := by
    have hcount := countP_set_add Connection.gauged after hc
    have hbefore := h.gauge
    show idleConnections = (client.connections.set call.connection after).countP _
    omega
  originGauge m := by
    have hcount := countP_set_add (Connection.countedBy m) after hc
    have hbefore := h.originGauge m
    have hmoved := horigin m
    show originIdle m = (client.connections.set call.connection after).countP _
    omega
  aborted := forall_mem_set h.aborted haborted
  closing c other hother hclosed hidle := by
    have hkeep : call.phase ≠ .next .leaveIdle →
        (∃ other ∈ client.calls, other.connection = c ∧ other.phase = .next .leaveIdle) →
        ∃ other ∈ client.calls.set k { call with incomplete, phase },
          other.connection = c ∧ other.phase = .next .leaveIdle := by
      intro hphase hex
      exact exists_mem_set hk (fun hcall => hphase hcall.2) hex
    rcases getElem?_set_cases hother with ⟨rfl, rfl⟩ | ⟨hne, hother⟩
    · rcases hclosing hclosed hidle with hphase | ⟨hclosed, hidle, hphase⟩
      · exact ⟨_, mem_set_self hk, rfl, hphase⟩
      · exact hkeep hphase (h.closing _ connection hc hclosed hidle)
    · obtain ⟨own, hmem, hown, hphase⟩ := h.closing c other hother hclosed hidle
      refine exists_mem_set hk ?_ ⟨own, hmem, hown, hphase⟩
      exact fun hcall => hne (hcall.1.symm)

/-- A step of a call that leaves its connection as it is. -/
theorem Accounts.move (h : Accounts client) (hk : client.calls[k]? = some call)
    (hc : client.connections[call.connection]? = some connection)
    (hphase : ∀ rest, phase ≠ .locked rest) (hbefore : call.phase ≠ .next .leaveIdle) :
    Accounts (client.put k { call with incomplete } (connection, phase)) := by
  refine h.put hk hc (Or.inr (Or.inr ⟨connection.closed, rfl⟩)) ?_ ?_ rfl (fun m => rfl) ?_ ?_
  · exact h.settled connection (List.mem_of_getElem? hc)
  · exact fun rest hrest => absurd hrest (hphase rest)
  · exact h.aborted connection (List.mem_of_getElem? hc)
  · exact fun hclosed hidle => Or.inr ⟨hclosed, hidle, hbefore⟩

/-- A call takes the idle mutex and takes the connection out of idleness. -/
theorem Accounts.leaveIdleLocked (h : Accounts client) (hk : client.calls[k]? = some call)
    (hc : client.connections[call.connection]? = some connection)
    (hunlocked : connection.idleLock = none) {aborted : Bool} {rest : SectionEnd} :
    Accounts (client.put k call ({ connection with aborted }.leaveIdleLocked k rest)) := by
  obtain ⟨hgauged, horigin⟩ := h.settled connection (List.mem_of_getElem? hc) hunlocked
  unfold Connection.leaveIdleLocked
  split
  · rename_i hidle
    simp only at hidle
    rw [hidle] at hgauged horigin
    refine @Accounts.put client k call connection _ _ _ _ _ call.incomplete h hk hc
      (Or.inl hunlocked) (by simp) ?_ rfl (fun m => rfl) (by simp) (by simp)
    intro other hother
    obtain rfl := CallPhase.locked.inj hother
    exact ⟨rfl, rfl, hgauged, horigin⟩
  · rename_i hidle
    simp only [Bool.not_eq_true] at hidle
    rw [hidle] at hgauged horigin
    refine @Accounts.put client k call connection _ _ _ _ _ call.incomplete h hk hc
      (Or.inl hunlocked) (by simp) ?_ rfl (fun m => rfl) (fun _ => hidle) ?_
    · intro other hother
      obtain rfl := CallPhase.locked.inj hother
      cases rest with
      | countUse requestBody => exact ⟨rfl, hidle, hgauged, horigin⟩
      | unlock => exact ⟨rfl, hgauged.trans hidle.symm, horigin.trans hidle.symm⟩
    · intro _ hidle'
      rw [hidle] at hidle'
      cases hidle'

/-- `enter_idle` takes the idle mutex and makes the connection idle, or does nothing. -/
theorem Accounts.enterIdle (h : Accounts client) (hk : client.calls[k]? = some call)
    (hc : client.connections[call.connection]? = some connection)
    (hunlocked : connection.idleLock = none) (hbefore : call.phase = .next .enterIdle)
    (useId : Nat) : Accounts (client.put k call (connection.enterIdle k useId)) := by
  have hstay : Accounts (client.put k call (connection, .returned)) :=
    @Accounts.move client k call connection .returned call.incomplete h hk hc (by simp)
      (by simp [hbefore])
  obtain ⟨hgauged, horigin⟩ := h.settled connection (List.mem_of_getElem? hc) hunlocked
  unfold Connection.enterIdle
  split
  · exact hstay
  · rename_i hallowed
    split
    · exact hstay
    · rename_i hidle
      simp only [Bool.or_eq_true, not_or, Bool.not_eq_true] at hallowed hidle
      rw [hidle] at hgauged horigin
      refine @Accounts.put client k call connection _ _ _ _ _ call.incomplete h hk hc
        (Or.inl hunlocked) (by simp) ?_ rfl (fun m => rfl) ?_ ?_
      · intro rest hrest
        obtain rfl := CallPhase.locked.inj hrest
        exact ⟨rfl, rfl, hgauged, horigin⟩
      · intro haborted
        rw [hallowed.1.2] at haborted
        cases haborted
      · intro hclosed
        rw [hallowed.1.1] at hclosed
        cases hclosed

theorem Accounts.abortLocked (h : Accounts client) (hk : client.calls[k]? = some call)
    (hc : client.connections[call.connection]? = some connection)
    (hunlocked : connection.idleLock = none) (hbefore : call.phase ≠ .next .leaveIdle) :
    Accounts (client.put k call (connection.abortCurrentConnectionUseLocked k)) := by
  unfold Connection.abortCurrentConnectionUseLocked
  split
  · exact @Accounts.move client k call connection .returned call.incomplete h hk hc (by simp)
      hbefore
  · exact h.leaveIdleLocked hk hc hunlocked

/-- An operation outside the idle mutex keeps the accounts. -/
theorem Accounts.exec (h : Accounts client) (hk : client.calls[k]? = some call)
    (hc : client.connections[call.connection]? = some connection) {previousIncomplete : Bool}
    {op : Op} (hphase : call.phase = .next op) {next : Client}
    (hstep : client.exec k call connection previousIncomplete op = some next) :
    Accounts next := by
  have hmove : ∀ {phase : CallPhase} {incomplete : Bool}, (∀ rest, phase ≠ .locked rest) →
      op ≠ .leaveIdle →
        Accounts (client.put k { call with incomplete } (connection, phase)) := by
    intro phase incomplete hunlocked hop
    refine h.move hk hc hunlocked ?_
    rw [hphase]
    exact fun hsame => hop (CallPhase.next.inj hsame)
  cases op with
  | startUse requestBody =>
      simp only [Client.exec] at hstep
      split at hstep
      · simp at hstep
      · rename_i hlock
        exact Option.some.inj hstep ▸
          h.leaveIdleLocked hk hc (by simpa using hlock)
  | beginRequestWriteTimeout =>
      obtain rfl := Option.some.inj hstep
      refine @hmove _ call.incomplete (fun rest => ?_) (by simp)
      split
      · simp
      · split
        · simp
        · simp
  | endUse ending =>
      obtain rfl := Option.some.inj hstep
      exact hmove (afterCheck_ne_locked _ ending) (by simp)
  | enterIdle =>
      simp only [Client.exec] at hstep
      split at hstep
      · simp at hstep
      · rename_i hlock
        rw [Option.bind_eq_bind, Option.bind_eq_some_iff] at hstep
        obtain ⟨useId, -, hstep⟩ := hstep
        exact Option.some.inj hstep ▸ h.enterIdle hk hc (by simpa using hlock) hphase useId
  | abortConnectionUse =>
      simp only [Client.exec] at hstep
      split at hstep
      · simp at hstep
      · rename_i hlock
        rw [Option.bind_eq_bind, Option.bind_eq_some_iff] at hstep
        obtain ⟨useId, -, hstep⟩ := hstep
        obtain rfl := Option.some.inj hstep
        unfold Connection.abortConnectionUse
        split
        · exact h.abortLocked hk hc (by simpa using hlock) (by simp [hphase])
        · exact @hmove .returned call.incomplete (by simp) (by simp)
  | abortCurrentConnectionUse =>
      simp only [Client.exec] at hstep
      split at hstep
      · simp at hstep
      · rename_i hlock
        exact Option.some.inj hstep ▸
          h.abortLocked hk hc (by simpa using hlock) (by simp [hphase])
  | connectionClosed =>
      obtain rfl := Option.some.inj hstep
      split
      · exact @hmove .returned call.incomplete (by simp) (by simp)
      · refine @Accounts.put client k call connection _ _ _ _ _ call.incomplete h hk hc
          (Or.inr (Or.inr ⟨true, rfl⟩)) ?_ (by simp) rfl (fun m => rfl) ?_ ?_
        · exact h.settled connection (List.mem_of_getElem? hc)
        · exact h.aborted connection (List.mem_of_getElem? hc)
        · exact fun _ _ => Or.inl rfl
  | leaveIdle =>
      simp only [Client.exec] at hstep
      split at hstep
      · simp at hstep
      · rename_i hlock
        exact Option.some.inj hstep ▸
          h.leaveIdleLocked hk hc (by simpa using hlock)

/-- The gauges of the origins after one of them was updated. -/
theorem updateOrigin_apply (client : Client) (originMetrics : Option Nat) (update : Nat → Nat)
    (m : Nat) : client.updateOrigin originMetrics update m =
      if originMetrics = some m then update (client.originIdle m) else client.originIdle m := by
  unfold updateOrigin
  cases originMetrics with
  | none => rfl
  | some own =>
      by_cases hm : own = m
      · subst hm
        simp
      · rw [if_neg (by simpa using hm)]
        exact Function.update_of_ne (Ne.symm hm) _ _

/-- What is counted is at most the gauge. -/
theorem Accounts.gauged_pos (h : Accounts client)
    (hc : client.connections[call.connection]? = some connection)
    (hgauged : connection.gauged = true) : 1 ≤ client.idleConnections := by
  rw [h.gauge]
  exact List.countP_pos_iff.mpr ⟨connection, List.mem_of_getElem? hc, hgauged⟩

theorem Accounts.originGauged_pos (h : Accounts client)
    (hc : client.connections[call.connection]? = some connection) {m : Nat}
    (hcounted : connection.countedBy m = true) : 1 ≤ client.originIdle m := by
  rw [h.originGauge]
  exact List.countP_pos_iff.mpr ⟨connection, List.mem_of_getElem? hc, hcounted⟩

/-- A part of a section keeps the accounts. -/
theorem Accounts.execSection (h : Accounts client) (hk : client.calls[k]? = some call)
    (hc : client.connections[call.connection]? = some connection) {rest : Section}
    (hphase : call.phase = .locked rest) :
    Accounts (client.execSection k call connection rest) := by
  obtain ⟨own, hown, hlock, hholds⟩ := h.held k call rest hk hphase
  obtain rfl := Option.some.inj (hc.symm.trans hown)
  have haborted := h.aborted connection (List.mem_of_getElem? hc)
  have hnot : call.phase ≠ .next .leaveIdle := by simp [hphase]
  cases rest with
  | leftIdle rest =>
      obtain ⟨hidle, hgauged, horigin⟩ := hholds
      have hpos := h.gauged_pos hc hgauged
      refine @Accounts.put client k call connection _ _ _ _ _ call.incomplete h hk hc
        (Or.inr (Or.inl hlock)) (by simp [hlock]) ?_ ?_ (fun m => rfl) haborted ?_
      · intro other hother
        obtain rfl := CallPhase.locked.inj hother
        exact ⟨hlock, hidle, rfl, horigin⟩
      · rw [hgauged]
        simp only [Bool.toNat_true, Bool.toNat_false]
        omega
      · exact fun hclosed hidle => Or.inr ⟨hclosed, hidle, hnot⟩
  | originLeftIdle rest =>
      obtain ⟨hidle, hgauged, horigin⟩ := hholds
      refine @Accounts.put client k call connection _ _ _ _ _ call.incomplete h hk hc
        (Or.inr (Or.inl hlock)) (by simp [hlock]) ?_ rfl ?_ haborted ?_
      · intro other hother
        obtain rfl := CallPhase.locked.inj hother
        cases rest with
        | countUse requestBody => exact ⟨hlock, hidle, hgauged, rfl⟩
        | unlock => exact ⟨hlock, hgauged.trans hidle.symm, hidle.symm⟩
      · intro m
        rw [updateOrigin_apply]
        by_cases hm : connection.originMetrics = some m
        · have hpos := @Accounts.originGauged_pos client call connection h hc m
            (by simp [Connection.countedBy, horigin, hm])
          simp [Connection.countedBy, horigin, hm]
          omega
        · simp [Connection.countedBy, hm]
      · exact fun hclosed hidle => Or.inr ⟨hclosed, hidle, hnot⟩
  | becameIdle =>
      obtain ⟨hidle, hgauged, horigin⟩ := hholds
      refine @Accounts.put client k call connection _ _ _ _ _ call.incomplete h hk hc
        (Or.inr (Or.inl hlock)) (by simp [hlock]) ?_ ?_ (fun m => rfl) haborted ?_
      · intro other hother
        obtain rfl := CallPhase.locked.inj hother
        exact ⟨hlock, hidle, rfl, horigin⟩
      · rw [hgauged]
        rfl
      · exact fun hclosed hidle => Or.inr ⟨hclosed, hidle, hnot⟩
  | originBecameIdle =>
      obtain ⟨hidle, hgauged, horigin⟩ := hholds
      refine @Accounts.put client k call connection _ _ _ _ _ call.incomplete h hk hc
        (Or.inr (Or.inl hlock)) (by simp [hlock]) ?_ rfl ?_ haborted ?_
      · intro other hother
        obtain rfl := CallPhase.locked.inj hother
        exact ⟨hlock, hgauged.trans hidle.symm, hidle.symm⟩
      · intro m
        rw [updateOrigin_apply]
        by_cases hm : connection.originMetrics = some m
        · simp [Connection.countedBy, horigin, hm]
        · simp [Connection.countedBy, beq_false_of_ne hm, hm]
      · exact fun hclosed hidle => Or.inr ⟨hclosed, hidle, hnot⟩
  | ending rest =>
      cases rest with
      | countUse requestBody =>
          obtain ⟨hidle, hgauged, horigin⟩ := hholds
          refine @Accounts.put client k call connection _ _ _ _ _ call.incomplete h hk hc
            (Or.inr (Or.inl hlock)) ?_ (by simp) rfl (fun m => rfl) haborted ?_
          · exact fun _ => ⟨hgauged.trans hidle.symm, horigin.trans hidle.symm⟩
          · exact fun hclosed hidle => Or.inr ⟨hclosed, hidle, hnot⟩
      | unlock =>
          refine @Accounts.put client k call connection _ _ _ _ _ call.incomplete h hk hc
            (Or.inr (Or.inl hlock)) (fun _ => hholds) (by simp) rfl (fun m => rfl) haborted ?_
          exact fun hclosed hidle => Or.inr ⟨hclosed, hidle, hnot⟩

end Put

/-- A new call has not come to any section. -/
theorem Accounts.call {client : Client} (h : Accounts client) (connection : Nat)
    (guard : Option Nat) (op : Op) {guards : List ConnectionUseGuard} :
    Accounts ({ client with guards }.call connection guard op) where
  settled := h.settled
  held k other rest hk hphase := by
    rcases getElem?_push_cases hk with hk | ⟨-, rfl⟩
    · exact h.held k other rest hk hphase
    · cases hphase
  gauge := h.gauge
  originGauge := h.originGauge
  aborted := h.aborted
  closing c other hc hclosed hidle := by
    obtain ⟨call, hmem, hcall⟩ := h.closing c other hc hclosed hidle
    exact ⟨call, List.mem_append_left _ hmem, hcall⟩

/-- Every step keeps the accounts. -/
theorem Accounts.step {client next : Client} (h : Accounts client) {event : Event}
    (hstep : client.step event = some next) : Accounts next := by
  cases event with
  | connect originMetrics =>
      obtain rfl := Option.some.inj hstep
      have hkeep : ∀ {c : Nat} {connection : Connection},
          client.connections[c]? = some connection →
            (client.connections ++ [Connection.mk originMetrics 0 false none false false false
              false])[c]? = some connection := by
        intro c connection hc
        rw [List.getElem?_append_left (List.getElem?_eq_some_iff.mp hc).1, hc]
      constructor
      case settled =>
        intro connection hmem hunlocked
        rcases List.mem_append.mp hmem with hmem | hnew
        · exact h.settled connection hmem hunlocked
        · obtain rfl := List.mem_singleton.mp hnew
          exact ⟨rfl, rfl⟩
      case held =>
        intro k call rest hk hphase
        obtain ⟨connection, hc, hholds⟩ := h.held k call rest hk hphase
        exact ⟨connection, hkeep hc, hholds⟩
      case gauge =>
        rw [List.countP_append]
        exact h.gauge
      case originGauge =>
        intro m
        rw [List.countP_append]
        exact h.originGauge m
      case aborted =>
        intro connection hmem haborted
        rcases List.mem_append.mp hmem with hmem | hnew
        · exact h.aborted connection hmem haborted
        · obtain rfl := List.mem_singleton.mp hnew
          rfl
      case closing =>
        intro c connection hc hclosed
        rcases getElem?_push_cases hc with hc | ⟨-, rfl⟩
        · exact h.closing c connection hc hclosed
        · cases hclosed
  | startUse connection requestBody =>
      simp only [Client.step] at hstep
      split at hstep
      · exact Option.some.inj hstep ▸ h.call connection none (.startUse requestBody)
      · simp at hstep
  | endUse g ending =>
      simp only [Client.step, Option.bind_eq_bind, Option.bind_eq_some_iff] at hstep
      obtain ⟨guard, -, startUse, -, hstep⟩ := hstep
      split at hstep
      · simp at hstep
      · exact Option.some.inj hstep ▸ h.call guard.connection (some g) (.endUse ending)
  | abort connection =>
      simp only [Client.step] at hstep
      split at hstep
      · exact Option.some.inj hstep ▸ h.call connection none .abortCurrentConnectionUse
      · simp at hstep
  | close connection =>
      simp only [Client.step] at hstep
      split at hstep
      · exact Option.some.inj hstep ▸ h.call connection none .connectionClosed
      · simp at hstep
  | body body complete =>
      obtain rfl := Option.some.inj hstep
      exact ⟨h.settled, h.held, h.gauge, h.originGauge, h.aborted, h.closing⟩
  | advance k previousIncomplete =>
      simp only [Client.step, Option.bind_eq_bind, Option.bind_eq_some_iff] at hstep
      obtain ⟨call, hk, connection, hc, hstep⟩ := hstep
      unfold Client.advance at hstep
      split at hstep
      · rename_i op hphase
        exact h.exec hk hc hphase hstep
      · rename_i rest hphase
        exact Option.some.inj hstep ▸ h.execSection hk hc hphase
      · simp at hstep

end Client

end FogHttp.IdleConnections
