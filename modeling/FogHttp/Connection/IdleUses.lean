import FogHttp.Connection.IdleAccounts

/-!
# Idle connections were left reusable

`Uses` is the invariant of the guards: what a guard still has to do fits to the way it has
ended, and an idle connection was made idle by the guard of its last use.
`idle_connections_accounted` puts it together with the gauges.
-/

namespace FogHttp.IdleConnections

open Lib
open ConnectionUse (ResponseBodyLifecycleOutcome UseEnding)

/-! ## The guards -/

/-- How an idle connection was last used. -/
def reused : UseEnding := .finish .reuseEligible true

/-- The operations of a call that ends this guard. -/
def Op.EndsGuard (guard : ConnectionUseGuard) (incomplete : Bool) : Op → Prop
  | .endUse ending => guard.ending = some ending
  | .enterIdle => guard.ending = some reused
  | .abortConnectionUse => True
  | .abortCurrentConnectionUse => incomplete = true
  | _ => False

/-- The operations of the other calls. -/
def Op.free : Op → Bool
  | .endUse _ | .enterIdle | .abortConnectionUse => false
  | _ => true

/-- How a section ends. -/
def Section.sectionEnd : Section → SectionEnd
  | .leftIdle rest | .originLeftIdle rest | .ending rest => rest
  | .becameIdle | .originBecameIdle => .unlock

/-- What a call still has to do belongs to it. -/
structure Call.Valid (guards : List ConnectionUseGuard) (call : Call) : Prop where
  free : call.guard = none → ∀ op, call.phase = .next op → op.free = true
  guard : ∀ g, call.guard = some g →
    ∃ guard, guards[g]? = some guard ∧ guard.connection = call.connection ∧
      guard.ending.isSome = true ∧
      (∀ op, call.phase = .next op → op.EndsGuard guard call.incomplete) ∧
      ∀ rest, call.phase = .locked rest → rest.sectionEnd = .unlock

/-- The call returns, or it will when its section is over. -/
def CallPhase.Settles (phase : CallPhase) : Prop :=
  phase = .returned ∨ ∃ rest, phase = .locked rest ∧ rest.sectionEnd = .unlock

section Calls

variable {guards : List ConnectionUseGuard} {call : Call} {phase : CallPhase}

theorem Call.Valid.settle (h : call.Valid guards) (hphase : phase.Settles) :
    Call.Valid guards { call with phase } where
  free _ op hop := by
    rcases hphase with rfl | ⟨rest, rfl, -⟩
    · cases hop
    · cases hop
  guard g hg := by
    obtain ⟨guard, hguard, hsame, hending, -, -⟩ := h.guard g hg
    refine ⟨guard, hguard, hsame, hending, fun op hop => ?_, fun rest hrest => ?_⟩
    · rcases hphase with rfl | ⟨rest, rfl, -⟩
      · cases hop
      · cases hop
    · rcases hphase with rfl | ⟨own, rfl, hend⟩
      · cases hrest
      · exact CallPhase.locked.inj hrest ▸ hend

/-- A call that does not end a guard goes on with an operation of its own. -/
theorem Call.Valid.of_free (hnone : call.guard = none)
    (hfree : ∀ op, phase = .next op → op.free = true) :
    Call.Valid guards { call with phase } where
  free _ := hfree
  guard g hg := by
    rw [show call.guard = some g from hg] at hnone
    cases hnone

/-- A call on an operation that no guard does ends no guard. -/
theorem Call.Valid.none_of_phase (h : call.Valid guards) {op : Op}
    (hphase : call.phase = .next op)
    (hnot : ∀ guard incomplete, ¬ op.EndsGuard guard incomplete) : call.guard = none := by
  cases hg : call.guard with
  | none => rfl
  | some g =>
      obtain ⟨guard, -, -, -, hops, -⟩ := h.guard g hg
      exact absurd (hops op hphase) (hnot guard call.incomplete)

theorem Call.Valid.congr {other : List ConnectionUseGuard} (h : call.Valid guards)
    (hkeep : ∀ (g : Nat) (guard : ConnectionUseGuard), call.guard = some g →
      guards[g]? = some guard → guard.ending.isSome = true → other[g]? = some guard) :
    call.Valid other where
  free := h.free
  guard g hg := by
    obtain ⟨guard, hguard, hsame, hending, hrest⟩ := h.guard g hg
    exact ⟨guard, hkeep g guard hg hguard hending, hsame, hending, hrest⟩

end Calls

namespace Connection

variable (connection : Connection) (k useId : Nat)

theorem leaveIdleLocked_spec (rest : SectionEnd) :
    (connection.leaveIdleLocked k rest).1.idleSince = false ∧
      (connection.leaveIdleLocked k rest).1.observedUses = connection.observedUses ∧
      (connection.leaveIdleLocked k rest).1.aborted = connection.aborted ∧
      ∃ inner, (connection.leaveIdleLocked k rest).2 = .locked inner ∧
        inner.sectionEnd = rest := by
  unfold leaveIdleLocked
  split
  · exact ⟨rfl, rfl, rfl, _, rfl, rfl⟩
  · rename_i hidle
    exact ⟨by simpa using hidle, rfl, rfl, _, rfl, rfl⟩

/-- What a guard does to its connection: it enters idleness or aborts it only when the use
is the current one. -/
theorem enterIdle_spec :
    (connection.enterIdle k useId).1.observedUses = connection.observedUses ∧
      (connection.enterIdle k useId).1.aborted = connection.aborted ∧
      (connection.enterIdle k useId).2.Settles ∧
      ((connection.enterIdle k useId).1.idleSince = true →
        connection.idleSince = true ∨ useId + 1 = connection.observedUses) := by
  unfold enterIdle
  split
  · exact ⟨rfl, rfl, Or.inl rfl, Or.inl⟩
  · rename_i hallowed
    split
    · exact ⟨rfl, rfl, Or.inl rfl, Or.inl⟩
    · simp only [Bool.or_eq_true, not_or, Bool.not_eq_true, Bool.not_eq_false', isCurrentUse,
        beq_iff_eq] at hallowed
      exact ⟨rfl, rfl, Or.inr ⟨_, rfl, rfl⟩, fun _ => Or.inr hallowed.2.symm⟩

theorem abortCurrentConnectionUseLocked_spec :
    (connection.abortCurrentConnectionUseLocked k).1.observedUses = connection.observedUses ∧
      (connection.abortCurrentConnectionUseLocked k).2.Settles ∧
      ((connection.abortCurrentConnectionUseLocked k).1.idleSince = true →
        connection.idleSince = true) := by
  unfold abortCurrentConnectionUseLocked
  split
  · exact ⟨rfl, Or.inl rfl, id⟩
  · obtain ⟨hidle, hobserved, -, rest, hrest, hend⟩ :=
      leaveIdleLocked_spec { connection with aborted := true } k .unlock
    refine ⟨hobserved, Or.inr ⟨rest, hrest, hend⟩, fun htrue => ?_⟩
    rw [hidle] at htrue
    cases htrue

theorem abortConnectionUse_spec :
    (connection.abortConnectionUse k useId).1.observedUses = connection.observedUses ∧
      (connection.abortConnectionUse k useId).2.Settles ∧
      ((connection.abortConnectionUse k useId).1.idleSince = true →
        connection.idleSince = true) ∧
      ((connection.abortConnectionUse k useId).1.aborted = true →
        connection.aborted = true ∨ useId + 1 = connection.observedUses) := by
  unfold abortConnectionUse
  split
  · rename_i hcurrent
    obtain ⟨hobserved, hsettles, hidle⟩ := abortCurrentConnectionUseLocked_spec connection k
    refine ⟨hobserved, hsettles, hidle, fun _ => Or.inr ?_⟩
    rw [isCurrentUse, beq_iff_eq] at hcurrent
    exact hcurrent.symm
  · exact ⟨rfl, Or.inl rfl, id, Or.inl⟩

end Connection

namespace Client

structure Uses (client : Client) : Prop where
  bounded : ∀ guard ∈ client.guards, ∃ connection,
    client.connections[guard.connection]? = some connection ∧
      guard.useId < connection.observedUses
  unique : ∀ (g h : Nat) (guard other : ConnectionUseGuard), client.guards[g]? = some guard →
    client.guards[h]? = some other → guard.connection = other.connection →
      guard.useId = other.useId → g = h
  valid : ∀ call ∈ client.calls, call.Valid client.guards
  recent : ∀ (c : Nat) (connection : Connection), client.connections[c]? = some connection →
    connection.idleSince = true → ∃ guard ∈ client.guards, guard.connection = c ∧
      guard.useId + 1 = connection.observedUses ∧ guard.ending = some reused

theorem uses_new : Uses new where
  bounded := by simp [new]
  unique := by simp [new]
  valid := by simp [new]
  recent := by simp [new]

section PutUses

variable {client : Client} {k : Nat} {call : Call} {connection : Connection}
  {incomplete : Bool}

/-- A step of a call that replaces its connection and counts no use. -/
theorem Uses.put (h : Uses client) {idleConnections : Nat} {originIdle : Nat → Nat}
    {result : Connection × CallPhase}
    (hc : client.connections[call.connection]? = some connection)
    (hobserved : result.1.observedUses = connection.observedUses)
    (hvalid : Call.Valid client.guards { call with incomplete, phase := result.2 })
    (hrecent : result.1.idleSince = true → connection.idleSince = true ∨
      ∃ guard ∈ client.guards, guard.connection = call.connection ∧
        guard.useId + 1 = connection.observedUses ∧ guard.ending = some reused) :
    Uses ({ client with idleConnections, originIdle }.put k { call with incomplete } result) where
  bounded guard hmem := by
    obtain ⟨own, hown, hlt⟩ := h.bounded guard hmem
    by_cases hsame : call.connection = guard.connection
    · rw [← hsame] at hown ⊢
      obtain rfl := Option.some.inj (hc.symm.trans hown)
      exact ⟨result.1, List.getElem?_set_self (List.getElem?_eq_some_iff.mp hc).1,
        by rw [hobserved]; exact hlt⟩
    · refine ⟨own, ?_, hlt⟩
      show (client.connections.set call.connection result.1)[guard.connection]? = _
      rw [List.getElem?_set_ne hsame, hown]
  unique := h.unique
  valid := forall_mem_set h.valid hvalid
  recent c other hother hidle := by
    rcases getElem?_set_cases hother with ⟨rfl, rfl⟩ | ⟨-, hother⟩
    · rw [hobserved]
      rcases hrecent hidle with hbefore | hguard
      · exact h.recent _ connection hc hbefore
      · exact hguard
    · exact h.recent c other hother hidle

/-- The guard that a call ends. -/
theorem Uses.guard_of_useId (h : Uses client) (hk : client.calls[k]? = some call) {useId : Nat}
    (huse : client.useId call = some useId) :
    ∃ g guard, call.guard = some g ∧ client.guards[g]? = some guard ∧ guard.useId = useId ∧
      guard.connection = call.connection ∧
      ∀ op, call.phase = .next op → op.EndsGuard guard call.incomplete := by
  simp only [Client.useId, Option.bind_eq_bind, Option.bind_eq_some_iff] at huse
  obtain ⟨g, hg, guard, hguard, huse⟩ := huse
  obtain ⟨own, hown, hsame, -, hops, -⟩ := (h.valid call (List.mem_of_getElem? hk)).guard g hg
  obtain rfl := Option.some.inj (hguard.symm.trans hown)
  exact ⟨g, guard, hg, hguard, Option.some.inj huse, hsame, hops⟩

/-- What a guard does next fits to the way it ends. -/
theorem responseFinished_endsGuard {guard : ConnectionUseGuard} {telemetryFinished : Bool}
    {outcome : ResponseBodyLifecycleOutcome}
    (hending : outcome = .reuseEligible → telemetryFinished = true →
      guard.ending = some reused) :
    ∀ op, responseFinished telemetryFinished outcome = .next op → op.EndsGuard guard incomplete := by
  intro op hop
  cases outcome with
  | reuseEligible =>
      cases telemetryFinished
      · obtain rfl := CallPhase.next.inj hop
        trivial
      · obtain rfl := CallPhase.next.inj hop
        exact hending rfl rfl
  | closed =>
      cases telemetryFinished
      · obtain rfl := CallPhase.next.inj hop
        trivial
      · cases hop
  | aborted =>
      obtain rfl := CallPhase.next.inj hop
      trivial

theorem afterCheck_endsGuard {guard : ConnectionUseGuard} {ending : UseEnding}
    (hending : guard.ending = some ending) :
    ∀ op, afterCheck incomplete ending = .next op → op.EndsGuard guard incomplete := by
  cases ending with
  | finish outcome telemetryFinished =>
      cases incomplete with
      | true =>
          intro op hop
          obtain rfl := CallPhase.next.inj hop
          rfl
      | false =>
          apply responseFinished_endsGuard
          rintro rfl rfl
          exact hending
  | abort =>
      intro op hop
      cases incomplete
      · obtain rfl := CallPhase.next.inj hop
        trivial
      · obtain rfl := CallPhase.next.inj hop
        rfl
  | drop =>
      intro op hop
      cases incomplete
      · obtain rfl := CallPhase.next.inj hop
        trivial
      · obtain rfl := CallPhase.next.inj hop
        rfl
  | superseded telemetryFinished =>
      exact @responseFinished_endsGuard incomplete guard telemetryFinished .closed (by simp)

/-- An operation outside the idle mutex keeps the invariant of the guards. -/
theorem Uses.exec (h : Uses client) (hk : client.calls[k]? = some call)
    (hc : client.connections[call.connection]? = some connection) {previousIncomplete : Bool}
    {op : Op} (hphase : call.phase = .next op) {next : Client}
    (hstep : client.exec k call connection previousIncomplete op = some next) :
    Uses next := by
  have hvalid := h.valid call (List.mem_of_getElem? hk)
  cases op with
  | startUse requestBody =>
      simp only [Client.exec] at hstep
      split at hstep
      · simp at hstep
      · obtain rfl := Option.some.inj hstep
        have hnone := hvalid.none_of_phase hphase (by simp [Op.EndsGuard])
        obtain ⟨hidle, hobserved, -, rest, hrest, -⟩ :=
          connection.leaveIdleLocked_spec k (.countUse requestBody)
        refine @Uses.put client k call connection call.incomplete h _ _ _ hc hobserved ?_ ?_
        · refine Call.Valid.of_free hnone fun op hop => ?_
          rw [hrest] at hop
          cases hop
        · intro htrue
          rw [hidle] at htrue
          cases htrue
  | beginRequestWriteTimeout =>
      obtain rfl := Option.some.inj hstep
      have hnone := hvalid.none_of_phase hphase (by simp [Op.EndsGuard])
      refine @Uses.put client k call connection call.incomplete h _ _ _ hc rfl ?_ Or.inl
      refine Call.Valid.of_free hnone fun op hop => ?_
      split at hop
      · cases hop
      · split at hop
        · obtain rfl := CallPhase.next.inj hop
          rfl
        · cases hop
  | endUse ending =>
      obtain rfl := Option.some.inj hstep
      refine h.put hc rfl ⟨fun hnone => ?_, fun g hg => ?_⟩ Or.inl
      · exact absurd (hvalid.free hnone _ hphase) (by simp [Op.free])
      · obtain ⟨guard, hguard, hsame, hending, hops, -⟩ := hvalid.guard g hg
        refine ⟨guard, hguard, hsame, hending, afterCheck_endsGuard (hops _ hphase), ?_⟩
        exact fun rest hrest => absurd hrest (afterCheck_ne_locked _ ending rest)
  | enterIdle =>
      simp only [Client.exec] at hstep
      split at hstep
      · simp at hstep
      · rw [Option.bind_eq_bind, Option.bind_eq_some_iff] at hstep
        obtain ⟨useId, huse, hstep⟩ := hstep
        obtain rfl := Option.some.inj hstep
        obtain ⟨hobserved, -, hsettles, hidle⟩ := connection.enterIdle_spec k useId
        obtain ⟨g, guard, -, hguard, hid, hsame, hops⟩ := h.guard_of_useId hk huse
        refine @Uses.put client k call connection call.incomplete h _ _ _ hc hobserved
          (hvalid.settle hsettles) fun htrue => ?_
        rcases hidle htrue with hbefore | hcurrent
        · exact Or.inl hbefore
        · exact Or.inr ⟨guard, List.mem_of_getElem? hguard, hsame, by rw [hid, hcurrent],
            hops _ hphase⟩
  | abortConnectionUse =>
      simp only [Client.exec] at hstep
      split at hstep
      · simp at hstep
      · rw [Option.bind_eq_bind, Option.bind_eq_some_iff] at hstep
        obtain ⟨useId, huse, hstep⟩ := hstep
        obtain rfl := Option.some.inj hstep
        obtain ⟨hobserved, hsettles, hidle, -⟩ := connection.abortConnectionUse_spec k useId
        exact @Uses.put client k call connection call.incomplete h _ _ _ hc hobserved
          (hvalid.settle hsettles) fun htrue => Or.inl (hidle htrue)
  | abortCurrentConnectionUse =>
      simp only [Client.exec] at hstep
      split at hstep
      · simp at hstep
      · obtain rfl := Option.some.inj hstep
        obtain ⟨hobserved, hsettles, hidle⟩ := connection.abortCurrentConnectionUseLocked_spec k
        exact @Uses.put client k call connection call.incomplete h _ _ _ hc hobserved
          (hvalid.settle hsettles) fun htrue => Or.inl (hidle htrue)
  | connectionClosed =>
      obtain rfl := Option.some.inj hstep
      have hnone := hvalid.none_of_phase hphase (by simp [Op.EndsGuard])
      split
      · exact @Uses.put client k call connection call.incomplete h _ _ _ hc rfl
          (hvalid.settle (Or.inl rfl)) Or.inl
      · refine @Uses.put client k call connection call.incomplete h _ _ _ hc rfl ?_ Or.inl
        refine Call.Valid.of_free hnone fun op hop => ?_
        obtain rfl := CallPhase.next.inj hop
        rfl
  | leaveIdle =>
      simp only [Client.exec] at hstep
      split at hstep
      · simp at hstep
      · obtain rfl := Option.some.inj hstep
        obtain ⟨hidle, hobserved, -, rest, hrest, hend⟩ :=
          connection.leaveIdleLocked_spec k .unlock
        refine @Uses.put client k call connection call.incomplete h _ _ _ hc hobserved
          (hvalid.settle (Or.inr ⟨rest, hrest, hend⟩)) fun htrue => ?_
        rw [hidle] at htrue
        cases htrue

/-- The section of a start ends: the use is counted, and its guard is the only one with
this use id. -/
theorem Uses.countUse (h : Uses client) (hk : client.calls[k]? = some call)
    (hc : client.connections[call.connection]? = some connection)
    (hidle : connection.idleSince = false) {requestBody : Option Nat}
    (hphase : call.phase = .locked (.ending (.countUse requestBody))) :
    Uses (client.execSection k call connection (.ending (.countUse requestBody))) := by
  have hlt := (List.getElem?_eq_some_iff.mp hc).1
  have hvalid := h.valid call (List.mem_of_getElem? hk)
  have hkeep : ∀ {g : Nat} {guard new : ConnectionUseGuard}, client.guards[g]? = some guard →
      (client.guards ++ [new])[g]? = some guard := by
    intro g guard new hg
    rw [List.getElem?_append_left (List.getElem?_eq_some_iff.mp hg).1, hg]
  -- The uses that were counted before have smaller ids.
  have hold : ∀ guard ∈ client.guards, guard.connection = call.connection →
      guard.useId < connection.observedUses := by
    intro guard hmem hsame
    obtain ⟨own, hown, hless⟩ := h.bounded guard hmem
    rw [hsame] at hown
    obtain rfl := Option.some.inj (hc.symm.trans hown)
    exact hless
  have hnone : call.guard = none := by
    cases hg : call.guard with
    | none => rfl
    | some g =>
        obtain ⟨guard, -, -, -, -, hlocked⟩ := hvalid.guard g hg
        exact absurd (hlocked _ hphase) (by simp [Section.sectionEnd])
  constructor
  case bounded =>
    intro guard hmem
    have hpush : ∀ own : Connection, client.connections[guard.connection]? = some own →
        guard.useId < own.observedUses →
          ∃ other, (client.connections.set call.connection { connection with
            observedUses := connection.observedUses + 1
            idleLock := none })[guard.connection]? = some other ∧
              guard.useId < other.observedUses := by
      intro own hown hless
      by_cases hsame : call.connection = guard.connection
      · rw [← hsame] at hown ⊢
        obtain rfl := Option.some.inj (hc.symm.trans hown)
        exact ⟨_, List.getElem?_set_self hlt, Nat.lt_succ_of_lt hless⟩
      · exact ⟨own, by rw [List.getElem?_set_ne hsame, hown], hless⟩
    rcases List.mem_append.mp hmem with hmem | hnew
    · obtain ⟨own, hown, hless⟩ := h.bounded guard hmem
      exact hpush own hown hless
    · obtain rfl := List.mem_singleton.mp hnew
      exact ⟨_, List.getElem?_set_self hlt, Nat.lt_succ_self _⟩
  case unique =>
    intro g g' guard other hg hg' hsame hid
    rcases getElem?_push_cases hg with hg | ⟨rfl, rfl⟩
    · rcases getElem?_push_cases hg' with hg' | ⟨-, rfl⟩
      · exact h.unique g g' guard other hg hg' hsame hid
      · exact absurd (hold guard (List.mem_of_getElem? hg) hsame) (by rw [hid]; simp)
    · rcases getElem?_push_cases hg' with hg' | ⟨rfl, -⟩
      · exact absurd (hold other (List.mem_of_getElem? hg') hsame.symm) (by rw [← hid]; simp)
      · rfl
  case valid =>
    refine forall_mem_set ?_ ?_
    · exact fun other hmem => (h.valid other hmem).congr fun g guard _ hg _ => hkeep hg
    · refine Call.Valid.of_free hnone fun op hop => ?_
      obtain rfl := CallPhase.next.inj hop
      rfl
  case recent =>
    intro c other hother hidle'
    rcases getElem?_set_cases hother with ⟨-, rfl⟩ | ⟨-, hother⟩
    · rw [show connection.idleSince = true from hidle'] at hidle
      cases hidle
    · obtain ⟨guard, hmem, hguard⟩ := h.recent c other hother hidle'
      exact ⟨guard, List.mem_append_left _ hmem, hguard⟩

/-- A part of a section keeps the invariant of the guards. -/
theorem Uses.execSection (h : Uses client) (haccounts : Accounts client)
    (hk : client.calls[k]? = some call)
    (hc : client.connections[call.connection]? = some connection) {rest : Section}
    (hphase : call.phase = .locked rest) :
    Uses (client.execSection k call connection rest) := by
  have hvalid := h.valid call (List.mem_of_getElem? hk)
  have hnext : ∀ {rest' : Section}, rest'.sectionEnd = rest.sectionEnd →
      Call.Valid client.guards { call with phase := .locked rest' } := by
    intro rest' hend
    refine ⟨fun _ _ hop => CallPhase.noConfusion hop, fun g hg => ?_⟩
    obtain ⟨guard, hguard, hsame, hending, -, hlocked⟩ := hvalid.guard g hg
    refine ⟨guard, hguard, hsame, hending, fun _ hop => CallPhase.noConfusion hop,
      fun other hother => ?_⟩
    obtain rfl := CallPhase.locked.inj hother
    rw [hend]
    exact hlocked rest hphase
  cases rest with
  | leftIdle rest =>
      exact @Uses.put client k call connection call.incomplete h _ _ _ hc rfl (hnext rfl) Or.inl
  | originLeftIdle rest =>
      exact @Uses.put client k call connection call.incomplete h _ _ _ hc rfl (hnext rfl) Or.inl
  | becameIdle =>
      exact @Uses.put client k call connection call.incomplete h _ _ _ hc rfl (hnext rfl) Or.inl
  | originBecameIdle =>
      exact @Uses.put client k call connection call.incomplete h _ _ _ hc rfl (hnext rfl) Or.inl
  | ending rest =>
      cases rest with
      | countUse requestBody =>
          obtain ⟨own, hown, -, hholds⟩ := haccounts.held k call _ hk hphase
          obtain rfl := Option.some.inj (hc.symm.trans hown)
          exact h.countUse hk hc hholds.1 hphase
      | unlock =>
          exact @Uses.put client k call connection call.incomplete h _ _ _ hc rfl
            (hvalid.settle (Or.inl rfl)) Or.inl

end PutUses

section StepUses

variable {client next : Client}

/-- A call that ends no guard begins. -/
theorem Uses.call (h : Uses client) {connection : Nat} {op : Op} (hfree : op.free = true) :
    Uses (client.call connection none op) where
  bounded := h.bounded
  unique := h.unique
  valid call hmem := by
    rcases List.mem_append.mp hmem with hmem | hnew
    · exact h.valid call hmem
    · obtain rfl := List.mem_singleton.mp hnew
      refine ⟨fun _ op hop => ?_, fun g hg => ?_⟩
      · obtain rfl := CallPhase.next.inj hop
        exact hfree
      · cases hg
  recent := h.recent

/-- A guard begins to end. -/
theorem Uses.endUse (h : Uses client) {g : Nat} {guard : ConnectionUseGuard}
    (hg : client.guards[g]? = some guard) (hnone : guard.ending = none) (ending : UseEnding) :
    Uses ({ client with
      guards := client.guards.set g { guard with ending := some ending } }.call
        guard.connection (some g) (.endUse ending)) where
  bounded := forall_mem_set h.bounded (h.bounded guard (List.mem_of_getElem? hg))
  unique i j first second hi hj hsame hid := by
    have hold : ∀ {i : Nat} {entry : ConnectionUseGuard},
        (client.guards.set g { guard with ending := some ending })[i]? = some entry →
          ∃ old, client.guards[i]? = some old ∧ old.connection = entry.connection ∧
            old.useId = entry.useId := by
      intro i entry hi
      rcases getElem?_set_cases hi with ⟨rfl, rfl⟩ | ⟨-, hi⟩
      · exact ⟨guard, hg, rfl, rfl⟩
      · exact ⟨entry, hi, rfl, rfl⟩
    obtain ⟨old, hold₁, hconnection₁, hid₁⟩ := hold hi
    obtain ⟨other, hold₂, hconnection₂, hid₂⟩ := hold hj
    exact h.unique i j old other hold₁ hold₂ (by rw [hconnection₁, hsame, hconnection₂])
      (by rw [hid₁, hid, hid₂])
  valid call hmem := by
    rcases List.mem_append.mp hmem with hmem | hnew
    · refine (h.valid call hmem).congr fun g' other _ hg' hending => ?_
      have hne : g ≠ g' := by
        intro hsame
        subst hsame
        obtain rfl := Option.some.inj (hg.symm.trans hg')
        rw [hnone] at hending
        cases hending
      show (client.guards.set g _)[g']? = some other
      rw [List.getElem?_set_ne hne, hg']
    · obtain rfl := List.mem_singleton.mp hnew
      refine ⟨fun habsurd => absurd habsurd (by simp), fun g' hg' => ?_⟩
      obtain rfl := Option.some.inj hg'
      refine ⟨_, List.getElem?_set_self (List.getElem?_eq_some_iff.mp hg).1, rfl, rfl, ?_, ?_⟩
      · intro op hop
        obtain rfl := CallPhase.next.inj hop
        rfl
      · exact fun rest hrest => CallPhase.noConfusion hrest
  recent c connection hc hidle := by
    refine exists_mem_set hg ?_ (h.recent c connection hc hidle)
    rintro ⟨-, -, hreused⟩
    rw [hnone] at hreused
    cases hreused

/-- Every step keeps the invariant of the guards. -/
theorem Uses.step (h : Uses client) (haccounts : Accounts client) {event : Event}
    (hstep : client.step event = some next) : Uses next := by
  cases event with
  | connect originMetrics =>
      obtain rfl := Option.some.inj hstep
      refine ⟨?_, h.unique, h.valid, ?_⟩
      · intro guard hmem
        obtain ⟨connection, hc, hlt⟩ := h.bounded guard hmem
        refine ⟨connection, ?_, hlt⟩
        show (client.connections ++ [_])[guard.connection]? = _
        rw [List.getElem?_append_left (List.getElem?_eq_some_iff.mp hc).1, hc]
      · intro c connection hc hidle
        rcases getElem?_push_cases hc with hc | ⟨-, rfl⟩
        · exact h.recent c connection hc hidle
        · cases hidle
  | startUse connection requestBody =>
      simp only [Client.step] at hstep
      split at hstep
      · exact Option.some.inj hstep ▸ h.call rfl
      · simp at hstep
  | endUse g ending =>
      simp only [Client.step, Option.bind_eq_bind, Option.bind_eq_some_iff] at hstep
      obtain ⟨guard, hg, startUse, -, hstep⟩ := hstep
      split at hstep
      · simp at hstep
      · rename_i hallowed
        rw [not_or, Option.not_isSome_iff_eq_none] at hallowed
        exact Option.some.inj hstep ▸ h.endUse hg hallowed.1 ending
  | abort connection =>
      simp only [Client.step] at hstep
      split at hstep
      · exact Option.some.inj hstep ▸ h.call rfl
      · simp at hstep
  | close connection =>
      simp only [Client.step] at hstep
      split at hstep
      · exact Option.some.inj hstep ▸ h.call rfl
      · simp at hstep
  | body body complete =>
      obtain rfl := Option.some.inj hstep
      exact ⟨h.bounded, h.unique, h.valid, h.recent⟩
  | advance k previousIncomplete =>
      simp only [Client.step, Option.bind_eq_bind, Option.bind_eq_some_iff] at hstep
      obtain ⟨call, hk, connection, hc, hstep⟩ := hstep
      unfold Client.advance at hstep
      split at hstep
      · rename_i op hphase
        exact h.exec hk hc hphase hstep
      · rename_i rest hphase
        exact Option.some.inj hstep ▸ h.execSection haccounts hk hc hphase
      · simp at hstep

end StepUses

/-! ## What a guard can do -/

/-- What a step of a call that ends this guard may do to its connection: the connection
becomes idle only by a reuse-eligible finish of its current use, and it is aborted only by
its current use or when the guard has found its upload incomplete. -/
structure GuardStep (call : Call) (guard : ConnectionUseGuard)
    (connection after : Connection) : Prop where
  idle : connection.idleSince = false → after.idleSince = true →
    guard.useId + 1 = connection.observedUses ∧ guard.ending = some reused
  aborts : connection.aborted = false → after.aborted = true →
    guard.useId + 1 = connection.observedUses ∨ call.incomplete = true

section GuardSteps

variable {client next : Client} {k g : Nat} {call : Call} {guard : ConnectionUseGuard}
  {connection after : Connection}

theorem guardStep_of_same (hidle : after.idleSince = true → connection.idleSince = true)
    (haborted : after.aborted = true → connection.aborted = true) :
    GuardStep call guard connection after where
  idle hfalse htrue := by
    rw [hidle htrue] at hfalse
    cases hfalse
  aborts hfalse htrue := by
    rw [haborted htrue] at hfalse
    cases hfalse

theorem connection_put {other : Call} (hsame : other.connection = call.connection)
    {originIdle : Nat → Nat} {idleConnections : Nat} {guards : List ConnectionUseGuard}
    {result : Connection × CallPhase}
    (hc : client.connections[call.connection]? = some connection)
    (hafter : ({ client with idleConnections, originIdle, guards }.put k other
      result).connections[call.connection]? = some after) : after = result.1 := by
  have hset : (client.connections.set other.connection result.1)[call.connection]? =
      some after := hafter
  rw [hsame, List.getElem?_set_self (List.getElem?_eq_some_iff.mp hc).1] at hset
  exact (Option.some.inj hset).symm

theorem guardStep_of_advance (h : Uses client) (hk : client.calls[k]? = some call)
    (hc : client.connections[call.connection]? = some connection) {previousIncomplete : Bool}
    (hstep : client.advance k call connection previousIncomplete = some next)
    (hg : call.guard = some g) (hguard : client.guards[g]? = some guard)
    (hafter : next.connections[call.connection]? = some after) :
    GuardStep call guard connection after := by
  obtain ⟨own, hown, -, -, hops, -⟩ := (h.valid call (List.mem_of_getElem? hk)).guard g hg
  obtain rfl := Option.some.inj (hguard.symm.trans hown)
  have huse : client.useId call = some guard.useId := by
    simp [Client.useId, hg, hguard]
  unfold Client.advance at hstep
  cases hphase : call.phase with
  | returned => simp [hphase] at hstep
  | locked rest =>
      simp only [hphase, Option.some.injEq] at hstep
      subst hstep
      cases rest with
      | ending rest =>
          cases rest with
          | countUse requestBody =>
              obtain rfl := connection_put rfl hc hafter
              exact guardStep_of_same id id
          | unlock =>
              obtain rfl := connection_put rfl hc hafter
              exact guardStep_of_same id id
      | _ =>
          obtain rfl := connection_put rfl hc hafter
          exact guardStep_of_same id id
  | next op =>
      simp only [hphase] at hstep
      have hends := hops op hphase
      cases op with
      | endUse ending =>
          obtain rfl := Option.some.inj hstep
          obtain rfl := @connection_put client k call connection after
            { call with incomplete := client.incompleteUpload call } rfl _ _ _ _ hc hafter
          exact guardStep_of_same id id
      | enterIdle =>
          simp only [Client.exec, huse] at hstep
          split at hstep
          · simp at hstep
          · obtain rfl := Option.some.inj hstep
            obtain rfl := connection_put rfl hc hafter
            obtain ⟨-, haborted, -, hidle⟩ := connection.enterIdle_spec k guard.useId
            refine ⟨fun hfalse htrue => ?_, fun hfalse htrue => ?_⟩
            · rcases hidle htrue with hbefore | hcurrent
              · rw [hbefore] at hfalse
                cases hfalse
              · exact ⟨hcurrent, hends⟩
            · rw [haborted, hfalse] at htrue
              cases htrue
      | abortConnectionUse =>
          simp only [Client.exec, huse] at hstep
          split at hstep
          · simp at hstep
          · obtain rfl := Option.some.inj hstep
            obtain rfl := connection_put rfl hc hafter
            obtain ⟨-, -, hidle, haborted⟩ := connection.abortConnectionUse_spec k guard.useId
            refine ⟨fun hfalse htrue => ?_, fun hfalse htrue => ?_⟩
            · rw [hidle htrue] at hfalse
              cases hfalse
            · rcases haborted htrue with hbefore | hcurrent
              · rw [hbefore] at hfalse
                cases hfalse
              · exact Or.inl hcurrent
      | abortCurrentConnectionUse =>
          simp only [Client.exec] at hstep
          split at hstep
          · simp at hstep
          · obtain rfl := Option.some.inj hstep
            obtain rfl := connection_put rfl hc hafter
            obtain ⟨-, -, hidle⟩ := connection.abortCurrentConnectionUseLocked_spec k
            refine ⟨fun hfalse htrue => ?_, fun _ _ => Or.inr hends⟩
            rw [hidle htrue] at hfalse
            cases hfalse
      | _ => exact hends.elim

end GuardSteps

/-! ## Runs -/

/-- What holds of the idle connections between any two steps. -/
structure Accounted (client : Client) : Prop where
  /-- The gauges are the numbers of idle connections, except that a connection in the middle
  of its section may still be counted or not be counted yet. -/
  settled : ∀ connection ∈ client.connections, connection.idleLock = none →
    connection.gauged = connection.idleSince ∧ connection.originGauged = connection.idleSince
  gauge : client.idleConnections = client.connections.countP Connection.gauged
  originGauge : ∀ m, client.originIdle m = client.connections.countP (Connection.countedBy m)
  idle : (∀ connection ∈ client.connections, connection.idleLock = none) →
    client.idleConnections = client.connections.countP Connection.idleSince ∧
      ∀ m, client.originIdle m = client.connections.countP (Connection.idleOf m)
  /-- The gauges are positive where they are decreased. -/
  leftIdle : ∀ call ∈ client.calls, ∀ rest, call.phase = .locked (.leftIdle rest) →
    1 ≤ client.idleConnections
  originLeftIdle : ∀ call ∈ client.calls, ∀ rest, call.phase = .locked (.originLeftIdle rest) →
    ∀ (connection : Connection) (m : Nat),
      client.connections[call.connection]? = some connection →
        connection.originMetrics = some m → 1 ≤ client.originIdle m
  aborted : ∀ connection ∈ client.connections, connection.aborted = true →
    connection.idleSince = false
  /-- A closed connection is idle only until the call that closes it comes to its section. -/
  closed : ∀ (c : Nat) (connection : Connection), client.connections[c]? = some connection →
    connection.closed = true → connection.idleSince = true →
      ∃ call ∈ client.calls, call.connection = c ∧ call.phase = .next .leaveIdle
  /-- The last use of an idle connection finished reuse-eligible. -/
  lastUse : ∀ (c : Nat) (connection : Connection), client.connections[c]? = some connection →
    connection.idleSince = true →
      (∃ guard ∈ client.guards, guard.connection = c ∧
        guard.useId + 1 = connection.observedUses) ∧
      ∀ guard ∈ client.guards, guard.connection = c →
        guard.useId + 1 = connection.observedUses → guard.ending = some reused
  guards : ∀ (k g : Nat) (call : Call) (guard : ConnectionUseGuard)
    (connection after : Connection) (previousIncomplete : Bool) (next : Client),
      client.calls[k]? = some call → call.guard = some g → client.guards[g]? = some guard →
        client.step (.advance k previousIncomplete) = some next →
          client.connections[call.connection]? = some connection →
            next.connections[call.connection]? = some after →
              GuardStep call guard connection after

theorem idle_of_accounts {client : Client} (h : Accounts client)
    (hunlocked : ∀ connection ∈ client.connections, connection.idleLock = none) :
    client.idleConnections = client.connections.countP Connection.idleSince ∧
      ∀ m, client.originIdle m = client.connections.countP (Connection.idleOf m) := by
  constructor
  · rw [h.gauge]
    apply List.countP_congr
    intro connection hmem
    rw [(h.settled connection hmem (hunlocked connection hmem)).1]
  · intro m
    rw [h.originGauge]
    apply List.countP_congr
    intro connection hmem
    rw [Connection.countedBy, (h.settled connection hmem (hunlocked connection hmem)).2]
    rfl

theorem accounted_of_invariants {client : Client} (haccounts : Accounts client)
    (huses : Uses client) : Accounted client where
  settled := haccounts.settled
  gauge := haccounts.gauge
  originGauge := haccounts.originGauge
  idle := idle_of_accounts haccounts
  leftIdle call hmem rest hphase := by
    obtain ⟨k, hk⟩ := List.mem_iff_getElem?.mp hmem
    obtain ⟨connection, hc, -, -, hgauged, -⟩ := haccounts.held k call _ hk hphase
    exact haccounts.gauged_pos hc hgauged
  originLeftIdle call hmem rest hphase connection m hc hm := by
    obtain ⟨k, hk⟩ := List.mem_iff_getElem?.mp hmem
    obtain ⟨own, hown, -, -, -, horigin⟩ := haccounts.held k call _ hk hphase
    obtain rfl := Option.some.inj (hc.symm.trans hown)
    exact haccounts.originGauged_pos hc (by simp [Connection.countedBy, horigin, hm])
  aborted := haccounts.aborted
  closed := haccounts.closing
  lastUse c connection hc hidle := by
    obtain ⟨last, hlast, hconnection, hid, hreused⟩ := huses.recent c connection hc hidle
    refine ⟨⟨last, hlast, hconnection, hid⟩, fun guard hmem hsame hcurrent => ?_⟩
    obtain ⟨i, hi⟩ := List.mem_iff_getElem?.mp hlast
    obtain ⟨j, hj⟩ := List.mem_iff_getElem?.mp hmem
    have hij := huses.unique i j last guard hi hj (by rw [hconnection, hsame]) (by omega)
    subst hij
    rw [← Option.some.inj (hi.symm.trans hj)]
    exact hreused
  guards k g call guard connection after previousIncomplete next hk hg hguard hstep hc hafter := by
    simp only [Client.step, hk, hc, Option.bind_eq_bind, Option.bind_some] at hstep
    exact guardStep_of_advance huses hk hc hstep hg hguard hafter

theorem accounted_of_reachable {client : Client} (h : system.Reachable client) :
    Accounted client := by
  have hinvariants : Accounts client ∧ Uses client := by
    refine h.invariant (fun client => Accounts client ∧ Uses client) ⟨accounts_new, uses_new⟩ ?_
    rintro client next event - ⟨haccounts, huses⟩ hstep
    exact ⟨haccounts.step hstep, huses.step haccounts hstep⟩
  exact accounted_of_invariants hinvariants.1 hinvariants.2

/-- Idle connections are accounted for, in every interleaving of the calls on any number of
connections. -/
theorem idle_connections_accounted (events : List Event) (client : Client)
    (hrun : system.run events = some client) : Accounted client :=
  accounted_of_reachable (TransitionSystem.reachable_of_run hrun)

/-- One connection is used once, and its guard finishes reuse-eligible. -/
def exampleUse : List Event :=
  [.connect (some 0), .startUse 0 none, .advance 0 false, .advance 0 false, .advance 0 false,
    .endUse 0 reused, .advance 1 false, .advance 1 false]

/-- The guard goes to the end of its section. -/
def exampleIdle : List Event := exampleUse ++ [.advance 1 false, .advance 1 false, .advance 1 false]

theorem idle_connections_accounted_example :
    ∃ client, system.run exampleIdle = some client ∧ client.idleConnections = 1 ∧
      client.connections.countP Connection.idleSince = 1 := by
  refine ⟨_, rfl, rfl, ?_⟩
  have hidle := (idle_connections_accounted exampleIdle _ rfl).idle (by decide)
  exact hidle.1.symm

/-- In the middle of a section the gauge is behind, and a connection that is being closed is
idle until its section. -/
theorem idle_accounting_overlaps :
    (¬ ∀ (events : List Event) (client : Client), system.run events = some client →
      client.idleConnections = client.connections.countP Connection.idleSince) ∧
    ¬ ∀ (events : List Event) (client : Client), system.run events = some client →
      ∀ connection ∈ client.connections, connection.closed = true →
        connection.idleSince = false := by
  constructor
  · intro hall
    have hgauge := hall exampleUse _ rfl
    exact absurd hgauge (by decide)
  · intro hall
    have hclosed := hall (exampleIdle ++ [.close 0, .advance 2 false]) _ rfl
    exact absurd hclosed (by decide)

end Client

end FogHttp.IdleConnections
