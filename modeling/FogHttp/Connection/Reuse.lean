import FogHttp.Connection.Telemetry

/-!
# No reuse after an incomplete upload

A request body that was not sent completely leaves the connection with an
unfinished message, so the connection must not carry another request.  Three
kinds of threads can find this out, under different mutexes, and the poll side
must learn of it.

* `Exec` says what an operation can do to the parts of the state that matter
  here, and `Moves` what a step can do.  All invariants are derived from them.
* `Handshake` is the invariant of the abort flag, the idle mutex and the waker
  slot.  The slot is emptied by the abort that set the flag or by the drop of
  the connection, and nothing is registered once the flag is set.
* `Committed` is stable: a thread that found an incomplete body has the abort
  before it until the flag is set.

The waker that a poll registered is woken by the abort, except when the drop of
the connection took it out of the slot before.
-/

namespace FogHttp.ConnectionUse

open Lib

/-! ## What an operation can do -/

/-- An operation of an abort that holds the idle mutex. -/
def Op.isTail : Op → Bool
  | .takeIoWaker | .wakeAborted _ => true
  | _ => false

/-- The part of the state that the handshake is about is the same, and an aborted
connection does not become idle. -/
structure Framed (telemetry next : ConnectionTelemetry) : Prop where
  idleLock : next.idleLock = telemetry.idleLock
  aborted : next.aborted = telemetry.aborted
  ioWaker : next.ioWaker = telemetry.ioWaker
  registered : next.registered = telemetry.registered
  discarded : next.discarded = telemetry.discarded
  abortWakes : next.abortWakes = telemetry.abortWakes
  idle : telemetry.aborted = true → next.idle = true → telemetry.idle = true

/-- The number of uses is the same too. -/
structure Quiet (telemetry next : ConnectionTelemetry) : Prop extends Framed telemetry next where
  observedUses : next.observedUses = telemetry.observedUses

theorem Quiet.refl (telemetry : ConnectionTelemetry) : Quiet telemetry telemetry :=
  ⟨⟨rfl, rfl, rfl, rfl, rfl, rfl, fun _ hidle => hidle⟩, rfl⟩

/-- What an operation can do. -/
inductive Exec (thread : Thread) (telemetry : ConnectionTelemetry) :
    Op → ConnectionTelemetry → List Op → Prop where
  | quiet {op : Op} {next : ConnectionTelemetry} {more : List Op} (hop : op.isTail = false)
      (hquiet : Quiet telemetry next) (hmore : ∀ other ∈ more, other.isTail = false) :
      Exec thread telemetry op next more
  /-- The first abort takes the idle mutex and sets the flag. -/
  | abort {op : Op} (hop : op.isTail = false) (hfree : telemetry.idleLock = none)
      (hfirst : telemetry.aborted = false) :
      Exec thread telemetry op
        { telemetry.leaveIdleLocked with aborted := true, idleLock := some thread }
        [.takeIoWaker]
  | take : Exec thread telemetry .takeIoWaker { telemetry with ioWaker := none }
      [.wakeAborted telemetry.ioWaker]
  | wake (waker : Option Waker) : Exec thread telemetry (.wakeAborted waker)
      { telemetry with
        abortWakes := telemetry.abortWakes ++ waker.toList
        idleLock := none } []
  | discard : Exec thread telemetry .discardIoWaker
      { telemetry with
        ioWaker := none
        discarded := telemetry.discarded ++ telemetry.ioWaker.toList } []

variable {thread : Thread} {telemetry next : ConnectionTelemetry} {op : Op} {more : List Op}

theorem quiet_leaveIdleLocked (telemetry : ConnectionTelemetry) :
    Quiet telemetry telemetry.leaveIdleLocked := by
  unfold ConnectionTelemetry.leaveIdleLocked
  split
  · exact ⟨⟨rfl, rfl, rfl, rfl, rfl, rfl, fun _ hidle => by simp at hidle⟩, rfl⟩
  · exact .refl telemetry

@[simp] theorem leaveIdleLocked_idle (telemetry : ConnectionTelemetry) :
    telemetry.leaveIdleLocked.idle = false := by
  unfold ConnectionTelemetry.leaveIdleLocked
  split
  · rfl
  · rename_i hidle
    simpa using hidle

theorem quiet_enterIdle (telemetry : ConnectionTelemetry) (useId : Nat) :
    Quiet telemetry (telemetry.enterIdle useId) := by
  unfold ConnectionTelemetry.enterIdle
  split
  · exact .refl telemetry
  · rename_i hlive
    simp only [Bool.or_eq_true, not_or] at hlive
    split
    · exact .refl telemetry
    · exact ⟨⟨rfl, rfl, rfl, rfl, rfl, rfl, fun haborted => absurd haborted hlive.1.2⟩, rfl⟩

/-- Only the state of the write timeout and the wakes differ. -/
theorem quiet_writeTimeout (telemetry : ConnectionTelemetry)
    (writeTimeout : WriteTimeoutState) (wakes : List Waker) :
    Quiet telemetry { telemetry with writeTimeout, wakes } :=
  ⟨⟨rfl, rfl, rfl, rfl, rfl, rfl, fun _ hidle => hidle⟩, rfl⟩

/-- The abort section either finds the flag set or is the first abort. -/
theorem exec_abortLocked (hop : op.isTail = false) (hfree : telemetry.idleLock = none) :
    Exec thread telemetry op (telemetry.abortCurrentConnectionUseLocked thread).1
      (telemetry.abortCurrentConnectionUseLocked thread).2 := by
  unfold ConnectionTelemetry.abortCurrentConnectionUseLocked
  split
  · exact .quiet hop (.refl telemetry) (by simp)
  · rename_i hfirst
    exact .abort hop hfree (by simpa using hfirst)

theorem endUse_ops_isTail (useId : Nat) (incomplete : Bool) (ending : UseEnding) :
    ∀ other ∈ ending.ops useId incomplete, other.isTail = false := by
  cases ending <;> cases incomplete <;> simp [UseEnding.ops, Op.isTail]

theorem responseFinished_ops_isTail (useId : Nat) (telemetryFinished : Bool)
    (outcome : ResponseBodyLifecycleOutcome) :
    ∀ other ∈ responseFinishedOps useId telemetryFinished outcome, other.isTail = false := by
  cases outcome <;> cases telemetryFinished <;> simp [responseFinishedOps, Op.isTail]

theorem afterInner_isTail (poll : IoPoll) :
    ∀ other ∈ ConnectionTelemetry.afterInner poll, other.isTail = false := by
  obtain ⟨kind, waker, inner, elapsed⟩ := poll
  cases kind <;> rcases inner with progress | - | - <;>
    simp [ConnectionTelemetry.afterInner, Op.isTail]
  all_goals cases progress <;> simp

/-- The sections of the write timeout. -/
theorem exec_beginRequestWriteTimeout (use : Use) :
    Exec thread telemetry (.beginRequestWriteTimeout use)
      (telemetry.beginRequestWriteTimeout use).1
      (telemetry.beginRequestWriteTimeout use).2 := by
  unfold ConnectionTelemetry.beginRequestWriteTimeout
  split
  · exact .quiet rfl (.refl telemetry) (by simp)
  · split
    · exact .quiet rfl (.refl telemetry) (by simp [Op.isTail])
    · exact .quiet rfl (quiet_writeTimeout telemetry _ _) (by simp [Op.isTail])

theorem exec_pollRequestReady (poll : IoPoll) :
    Exec thread telemetry (.pollRequestReady poll) (telemetry.pollRequestReady poll).1
      (telemetry.pollRequestReady poll).2 := by
  unfold ConnectionTelemetry.pollRequestReady ConnectionTelemetry.updatePendingWaker
  split
  · dsimp only
    split
    · exact .quiet rfl (quiet_writeTimeout telemetry _ _) (by simp [Op.isTail])
    · split <;> exact .quiet rfl (quiet_writeTimeout telemetry _ _) (by simp [Op.isTail])
  · dsimp only
    split
    · exact .quiet rfl (quiet_writeTimeout telemetry _ _) (by simp [Op.isTail])
    · split
      · exact .quiet rfl (.refl telemetry) (by simp [Op.isTail])
      · exact .quiet rfl (quiet_writeTimeout telemetry _ _) (by simp [Op.isTail])

theorem exec_pollPendingWriteTimeout (poll : IoPoll) :
    Exec thread telemetry (.pollPendingWriteTimeout poll)
      (telemetry.pollPendingWriteTimeout poll).1
      (telemetry.pollPendingWriteTimeout poll).2 := by
  unfold ConnectionTelemetry.pollPendingWriteTimeout ConnectionTelemetry.updatePendingWaker
  split
  · split
    · exact .quiet rfl (quiet_writeTimeout telemetry _ _) (by simp [Op.isTail])
    · split
      · exact .quiet rfl (quiet_writeTimeout telemetry _ _) (by simp [Op.isTail])
      · exact .quiet rfl (.refl telemetry) (by simp [Op.isTail])
  · exact .quiet rfl (quiet_writeTimeout telemetry _ _) (by simp [Op.isTail])

theorem quiet_finishRequestWriteTimeout (telemetry : ConnectionTelemetry) (useId : Nat) :
    Quiet telemetry (telemetry.finishRequestWriteTimeout useId) := by
  unfold ConnectionTelemetry.finishRequestWriteTimeout
  split
  · exact quiet_writeTimeout telemetry _ _
  · exact .refl telemetry

theorem quiet_requestTransportFlushed (telemetry : ConnectionTelemetry) :
    Quiet telemetry telemetry.requestTransportFlushed := by
  unfold ConnectionTelemetry.requestTransportFlushed
  split
  · exact .refl telemetry
  · split <;> exact quiet_writeTimeout telemetry _ _

/-- The inversion lemma of the operations. -/
theorem exec_cases {result : ConnectionTelemetry × List Op}
    (h : op.exec thread telemetry = some result) :
    Exec thread telemetry op result.1 result.2 := by
  cases op with
  | beginRequestWriteTimeout use =>
      simp only [Op.exec, Option.some.injEq] at h
      rw [← h]
      exact exec_beginRequestWriteTimeout use
  | endUse use ending =>
      cases h
      exact .quiet rfl (.refl telemetry) (endUse_ops_isTail _ _ _)
  | finishRequestWriteTimeout useId =>
      cases h
      exact .quiet rfl (quiet_finishRequestWriteTimeout telemetry useId) (by simp)
  | responseFinished useId outcome telemetryFinished =>
      cases h
      exact .quiet rfl (.refl telemetry) (responseFinished_ops_isTail _ _ _)
  | enterIdle useId =>
      simp only [Op.exec, Option.ite_none_left_eq_some] at h
      cases h.2
      exact .quiet rfl (quiet_enterIdle telemetry useId) (by simp)
  | abortConnectionUse useId =>
      simp only [Op.exec, Option.ite_none_left_eq_some, Option.not_isSome_iff_eq_none] at h
      obtain ⟨hfree, hexec⟩ := h
      split at hexec
      · rw [← Option.some.inj hexec]
        exact exec_abortLocked rfl hfree
      · cases hexec
        exact .quiet rfl (.refl telemetry) (by simp)
  | abortCurrentConnectionUse =>
      simp only [Op.exec, Option.ite_none_left_eq_some, Option.not_isSome_iff_eq_none] at h
      obtain ⟨hfree, hexec⟩ := h
      rw [← Option.some.inj hexec]
      exact exec_abortLocked rfl hfree
  | takeIoWaker =>
      cases h
      exact .take
  | wakeAborted waker =>
      cases h
      exact .wake waker
  | pollRequestReady poll =>
      simp only [Op.exec, Option.some.injEq] at h
      rw [← h]
      exact exec_pollRequestReady poll
  | pollInner poll =>
      cases h
      exact .quiet rfl (.refl telemetry) (afterInner_isTail poll)
  | requestTransportFlushed =>
      cases h
      exact .quiet rfl (quiet_requestTransportFlushed telemetry) (by simp)
  | pollPendingWriteTimeout poll =>
      simp only [Op.exec, Option.some.injEq] at h
      rw [← h]
      exact exec_pollPendingWriteTimeout poll
  | wakeAssigned | recordWriteProgress | clearRequestWriteTimeout =>
      cases h
      exact .quiet rfl (quiet_writeTimeout telemetry _ _) (by simp)
  | returnPoll kind result =>
      cases h
      exact .quiet rfl ⟨⟨rfl, rfl, rfl, rfl, rfl, rfl, fun _ hidle => hidle⟩, rfl⟩ (by simp)
  | connectionClosed =>
      simp only [Op.exec] at h
      split at h
      · cases h
        exact .quiet rfl (.refl telemetry) (by simp)
      · cases h
        exact .quiet rfl ⟨⟨rfl, rfl, rfl, rfl, rfl, rfl, fun _ hidle => hidle⟩, rfl⟩
          (by simp [Op.isTail])
  | discardIoWaker =>
      cases h
      exact .discard
  | leaveIdle =>
      simp only [Op.exec, Option.ite_none_left_eq_some] at h
      cases h.2
      exact .quiet rfl (quiet_leaveIdleLocked telemetry) (by simp)

/-! ## The handshake -/

/-- A waker was registered, so one of the task is in `slot`, unless the drop of the
connection took it. -/
def Kept (task : Nat) (telemetry : ConnectionTelemetry) (slot : Option Waker) : Prop :=
  telemetry.registered ≠ [] →
    (∃ waker, slot = some waker ∧ waker.task = task) ∨ telemetry.discarded ≠ []

/-- A waker was registered, so the abort woke the task, unless the drop of the
connection took the waker. -/
def Woken (task : Nat) (telemetry : ConnectionTelemetry) : Prop :=
  telemetry.registered ≠ [] →
    (∃ waker ∈ telemetry.abortWakes, waker.task = task) ∨ telemetry.discarded ≠ []

/-- What the operations of an abort have in their hands. -/
def TailKept (task : Nat) (telemetry : ConnectionTelemetry) : Op → Prop
  | .takeIoWaker => Kept task telemetry telemetry.ioWaker
  | .wakeAborted waker => Kept task telemetry waker
  | _ => False

structure Handshake (task : Nat) (connection : Connection) : Prop where
  tail : ∀ thread, (∃ op ∈ connection.ops thread, op.isTail = true) →
    connection.telemetry.idleLock = some thread
  holder : ∀ thread, connection.telemetry.idleLock = some thread →
    connection.telemetry.aborted = true ∧ ∃ op rest, connection.ops thread = op :: rest ∧
      (∀ other ∈ rest, other.isTail = false) ∧ TailKept task connection.telemetry op
  before : connection.telemetry.aborted = false →
    Kept task connection.telemetry connection.telemetry.ioWaker
  after : connection.telemetry.aborted = true → connection.telemetry.idleLock = none →
    Woken task connection.telemetry
  idle : connection.telemetry.aborted = true → connection.telemetry.idle = false

theorem handshake_new (task : Nat) (bodies : Nat → BodyStatus) :
    Handshake task (.new bodies) := by
  constructor <;> simp [Connection.new, ConnectionTelemetry.new, Kept]

variable {task : Nat} {connection : Connection}

theorem Framed.kept (h : Framed telemetry next) {slot : Option Waker}
    (hkept : Kept task telemetry slot) : Kept task next slot := by
  unfold Kept
  rw [h.registered, h.discarded]
  exact hkept

theorem Framed.woken (h : Framed telemetry next) (hwoken : Woken task telemetry) :
    Woken task next := by
  unfold Woken
  rw [h.registered, h.discarded, h.abortWakes]
  exact hwoken

theorem Framed.tailKept (h : Framed telemetry next) (hkept : TailKept task telemetry op) :
    TailKept task next op := by
  cases op with
  | takeIoWaker =>
      show Kept task next next.ioWaker
      rw [h.ioWaker]
      exact h.kept hkept
  | wakeAborted waker => exact h.kept hkept
  | _ => exact hkept

/-- A thread that is not in an abort does something that keeps the handshake. -/
theorem Handshake.update {other : Connection} {ops : List Op} (h : Handshake task connection)
    (thread : Thread) (hframed : Framed connection.telemetry other.telemetry)
    (hops : other.ops = Function.update connection.ops thread ops)
    (hold : ∀ op ∈ connection.ops thread, op.isTail = false)
    (hnew : ∀ op ∈ ops, op.isTail = false) : Handshake task other := by
  refine ⟨?_, ?_, ?_, ?_, ?_⟩
  · intro party htail
    rw [hframed.idleLock]
    rw [hops] at htail
    by_cases hparty : party = thread
    · obtain ⟨op, hmem, hop⟩ := htail
      rw [hparty, Function.update_self] at hmem
      simp [hnew op hmem] at hop
    · rw [Function.update_of_ne hparty] at htail
      exact h.tail party htail
  · intro party hlock
    rw [hframed.idleLock] at hlock
    obtain ⟨haborted, op, rest, hhead, hrest, hkept⟩ := h.holder party hlock
    have hparty : party ≠ thread := by
      intro hsame
      subst hsame
      have htail : op.isTail = false := hold op (by simp [hhead])
      cases op <;> simp_all [Op.isTail, TailKept]
    refine ⟨hframed.aborted.trans haborted, op, rest, ?_, hrest, hframed.tailKept hkept⟩
    rw [hops, Function.update_of_ne hparty]
    exact hhead
  · intro hlive
    rw [hframed.aborted] at hlive
    rw [hframed.ioWaker]
    exact hframed.kept (h.before hlive)
  · intro haborted hfree
    rw [hframed.aborted] at haborted
    rw [hframed.idleLock] at hfree
    exact hframed.woken (h.after haborted hfree)
  · intro haborted
    rw [hframed.aborted] at haborted
    by_contra hidle
    have hbefore := hframed.idle haborted (by simpa using hidle)
    rw [h.idle haborted] at hbefore
    simp at hbefore

/-- A thread whose next operation is not in an abort has no such operation. -/
theorem Handshake.quiet_thread (h : Handshake task connection) {rest : List Op}
    (hhead : connection.ops thread = op :: rest) (hop : op.isTail = false) :
    ∀ other ∈ connection.ops thread, other.isTail = false := by
  intro other hmem
  by_contra htail
  have hlock := h.tail thread ⟨other, hmem, by simpa using htail⟩
  obtain ⟨-, head, tail, hops, -, hkept⟩ := h.holder thread hlock
  rw [hhead] at hops
  obtain ⟨rfl, -⟩ := List.cons.inj hops
  cases op <;> simp_all [Op.isTail, TailKept]

/-- The holder of the idle mutex is the only thread in an abort. -/
theorem Handshake.other_quiet (h : Handshake task connection)
    (hlock : connection.telemetry.idleLock = some thread) {party : Thread}
    (hparty : party ≠ thread) : ∀ op ∈ connection.ops party, op.isTail = false := by
  intro op hmem
  by_contra htail
  have hother := h.tail party ⟨op, hmem, by simpa using htail⟩
  rw [hlock, Option.some.injEq] at hother
  exact hparty hother.symm

/-- The first abort. -/
theorem handshake_abort {rest : List Op} (h : Handshake task connection)
    (hhead : connection.ops thread = op :: rest) (hop : op.isTail = false)
    (hfree : connection.telemetry.idleLock = none)
    (hfirst : connection.telemetry.aborted = false) :
    Handshake task { connection with
      telemetry :=
        { connection.telemetry.leaveIdleLocked with aborted := true, idleLock := some thread }
      ops := Function.update connection.ops thread (.takeIoWaker :: rest) } := by
  have hsame := quiet_leaveIdleLocked connection.telemetry
  have hquiet := h.quiet_thread hhead hop
  rw [hhead] at hquiet
  refine ⟨?_, ?_, ?_, ?_, ?_⟩
  · intro party htail
    by_cases hparty : party = thread
    · rw [hparty]
    · dsimp only at htail
      rw [Function.update_of_ne hparty] at htail
      have habsurd := h.tail party htail
      rw [hfree] at habsurd
      simp at habsurd
  · intro party hlock
    rw [Option.some.injEq] at hlock
    subst hlock
    refine ⟨rfl, .takeIoWaker, rest, Function.update_self .., ?_, ?_⟩
    · intro op' hmem
      exact hquiet op' (List.mem_cons_of_mem op hmem)
    · have hkept := hsame.toFramed.kept (h.before hfirst)
      rw [← hsame.ioWaker] at hkept
      exact hkept
  · intro hlive
    simp at hlive
  · intro _ hlock
    simp at hlock
  · intro _
    exact leaveIdleLocked_idle connection.telemetry

/-- The holder of the idle mutex is at its next operation. -/
theorem Handshake.at_head (h : Handshake task connection) {rest : List Op}
    (hhead : connection.ops thread = op :: rest) (hop : op.isTail = true) :
    connection.telemetry.idleLock = some thread ∧ connection.telemetry.aborted = true ∧
      (∀ other ∈ rest, other.isTail = false) ∧ TailKept task connection.telemetry op := by
  have hlock := h.tail thread ⟨op, by simp [hhead], hop⟩
  obtain ⟨haborted, op', tail, hops, hrest, hkept⟩ := h.holder thread hlock
  rw [hhead] at hops
  obtain ⟨rfl, rfl⟩ := List.cons.inj hops
  exact ⟨hlock, haborted, hrest, hkept⟩

/-- The abort takes what is in the slot. -/
theorem handshake_take {rest : List Op} (h : Handshake task connection)
    (hhead : connection.ops thread = .takeIoWaker :: rest) :
    Handshake task { connection with
      telemetry := { connection.telemetry with ioWaker := none }
      ops := Function.update connection.ops thread
        (.wakeAborted connection.telemetry.ioWaker :: rest) } := by
  obtain ⟨hlock, haborted, hrest, hkept⟩ := h.at_head hhead rfl
  refine ⟨?_, ?_, ?_, ?_, fun _ => h.idle haborted⟩
  · intro party htail
    by_cases hparty : party = thread
    · rw [hparty]
      exact hlock
    · dsimp only at htail
      rw [Function.update_of_ne hparty] at htail
      exact h.tail party htail
  · intro party hparty
    rw [hlock, Option.some.injEq] at hparty
    subst hparty
    exact ⟨haborted, _, rest, Function.update_self .., hrest, hkept⟩
  · intro hlive
    simp [haborted] at hlive
  · intro _ hfree
    simp [hlock] at hfree

/-- The abort wakes what it took and gives the idle mutex back. -/
theorem handshake_wake {rest : List Op} {waker : Option Waker}
    (h : Handshake task connection)
    (hhead : connection.ops thread = .wakeAborted waker :: rest) :
    Handshake task { connection with
      telemetry := { connection.telemetry with
        abortWakes := connection.telemetry.abortWakes ++ waker.toList
        idleLock := none }
      ops := Function.update connection.ops thread rest } := by
  obtain ⟨hlock, haborted, hrest, hkept⟩ := h.at_head hhead rfl
  refine ⟨?_, ?_, ?_, ?_, fun _ => h.idle haborted⟩
  · intro party hops
    obtain ⟨op, hmem, hop⟩ := hops
    by_cases hparty : party = thread
    · dsimp only at hmem
      rw [hparty, Function.update_self] at hmem
      simp [hrest op hmem] at hop
    · dsimp only at hmem
      rw [Function.update_of_ne hparty] at hmem
      simp [h.other_quiet hlock hparty op hmem] at hop
  · intro party hparty
    simp at hparty
  · intro hlive
    simp [haborted] at hlive
  · intro _ _ hregistered
    rcases hkept hregistered with ⟨taken, hwaker, htask⟩ | hdiscarded
    · exact Or.inl ⟨taken, by simp [hwaker], htask⟩
    · exact Or.inr hdiscarded

/-- A discarded waker excuses the slot it was in. -/
theorem Kept.discard (h : Kept task telemetry telemetry.ioWaker) :
    telemetry.registered ≠ [] → telemetry.discarded ++ telemetry.ioWaker.toList ≠ [] := by
  intro hregistered
  rcases h hregistered with ⟨waker, hwaker, -⟩ | hdiscarded
  · simp [hwaker]
  · simp [hdiscarded]

/-- The drop of the connection takes what is in the slot. -/
theorem handshake_discard {rest : List Op} (h : Handshake task connection)
    (hhead : connection.ops thread = .discardIoWaker :: rest) :
    Handshake task { connection with
      telemetry := { connection.telemetry with
        ioWaker := none
        discarded := connection.telemetry.discarded ++ connection.telemetry.ioWaker.toList }
      ops := Function.update connection.ops thread rest } := by
  have hquiet := h.quiet_thread hhead rfl
  rw [hhead] at hquiet
  refine ⟨?_, ?_, ?_, ?_, h.idle⟩
  · intro party hops
    obtain ⟨op, hmem, hop⟩ := hops
    dsimp only at hmem
    by_cases hparty : party = thread
    · rw [hparty, Function.update_self] at hmem
      simp [hquiet op (List.mem_cons_of_mem _ hmem)] at hop
    · rw [Function.update_of_ne hparty] at hmem
      exact h.tail party ⟨op, hmem, hop⟩
  · intro party hlock
    obtain ⟨haborted, op, tail, hparty, htail, hkept⟩ := h.holder party hlock
    have hne : party ≠ thread := by
      intro hsame
      subst hsame
      rw [hhead] at hparty
      obtain ⟨rfl, -⟩ := List.cons.inj hparty
      exact hkept
    refine ⟨haborted, op, tail, (Function.update_of_ne hne ..).trans hparty, htail, ?_⟩
    cases op with
    | takeIoWaker => exact fun hregistered => Or.inr (Kept.discard hkept hregistered)
    | wakeAborted waker =>
        intro hregistered
        exact (hkept hregistered).imp_right fun hdiscarded => by simp [hdiscarded]
    | _ => exact hkept
  · intro hlive hregistered
    exact Or.inr ((h.before hlive).discard hregistered)
  · intro haborted hfree hregistered
    exact (h.after haborted hfree hregistered).imp_right fun hdiscarded => by simp [hdiscarded]

/-- What a step can do. -/
inductive Moves (task : Nat) (connection : Connection) : Connection → Prop where
  | start (hfree : connection.telemetry.idleLock = none) (hasContext : Bool)
      (requestBody : Option Nat) : Moves task connection (connection.start hasContext requestBody)
  | endUse {use : Use} (ending : UseEnding) (hguard : use ∈ connection.guards)
      (hempty : connection.ops (.use use.useId) = []) :
      Moves task connection { connection with
        ops := Function.update connection.ops (.use use.useId) [.endUse use ending]
        guards := connection.guards.erase use }
  | poll {poll : IoPoll} (htask : poll.waker.task = task) (hempty : connection.ops .io = [])
      (hopen : connection.dropped = false) :
      Moves task connection { connection with
        telemetry := (connection.telemetry.prepareIoPoll poll).1
        ops := Function.update connection.ops .io (connection.telemetry.prepareIoPoll poll).2 }
  | dropConnection (hempty : connection.ops .io = []) (hopen : connection.dropped = false) :
      Moves task connection { connection with
        ops := Function.update connection.ops .drop [.connectionClosed]
        dropped := true }
  | body (body : Nat) (status : BodyStatus) :
      Moves task connection { connection with
        telemetry := { connection.telemetry with
          bodies := Function.update connection.telemetry.bodies body status } }
  | run {thread : Thread} {op : Op} {rest more : List Op} {next : ConnectionTelemetry}
      (hhead : connection.ops thread = op :: rest)
      (heffect : op.exec thread connection.telemetry = some (next, more)) :
      Moves task connection { connection with
        telemetry := next
        ops := Function.update connection.ops thread (more ++ rest) }

/-- The inversion lemma of a step. -/
theorem moves_of_step {event : Event} {other : Connection}
    (h : connection.step task event = some other) : Moves task connection other := by
  cases event with
  | start hasContext requestBody =>
      simp only [Connection.step, Option.ite_none_left_eq_some, Option.not_isSome_iff_eq_none,
        Option.some.injEq] at h
      obtain ⟨hfree, rfl⟩ := h
      exact .start hfree hasContext requestBody
  | endUse use ending =>
      simp only [Connection.step, Option.ite_none_right_eq_some, Option.some.injEq] at h
      obtain ⟨⟨hguard, hempty⟩, rfl⟩ := h
      exact .endUse ending hguard hempty
  | poll poll =>
      simp only [Connection.step, Option.ite_none_right_eq_some, Option.some.injEq] at h
      obtain ⟨⟨htask, hempty, hopen⟩, rfl⟩ := h
      exact .poll htask hempty hopen
  | dropConnection =>
      simp only [Connection.step, Option.ite_none_right_eq_some, Option.some.injEq] at h
      obtain ⟨⟨hempty, hopen⟩, rfl⟩ := h
      exact .dropConnection hempty hopen
  | body body status =>
      cases h
      exact .body body status
  | run thread =>
      simp only [Connection.step, Connection.run] at h
      split at h
      · simp at h
      · rename_i op rest hhead
        rw [Option.map_eq_some_iff] at h
        obtain ⟨⟨next, more⟩, heffect, rfl⟩ := h
        exact .run hhead heffect

/-- The step lemma of a thread's next operation. -/
theorem handshake_run {rest : List Op} (h : Handshake task connection)
    (hhead : connection.ops thread = op :: rest)
    (hexec : Exec thread connection.telemetry op next more) :
    Handshake task { connection with
      telemetry := next
      ops := Function.update connection.ops thread (more ++ rest) } := by
  cases hexec with
  | quiet hop hquiet hmore =>
      have hold := h.quiet_thread hhead hop
      refine h.update thread hquiet.toFramed rfl hold ?_
      intro other hmem
      rcases List.mem_append.mp hmem with hnew | hrest
      · exact hmore other hnew
      · exact hold other (by simp [hhead, hrest])
  | abort hop hfree hfirst => exact handshake_abort h hhead hop hfree hfirst
  | take => exact handshake_take h hhead
  | wake waker => exact handshake_wake h hhead
  | discard => exact handshake_discard h hhead

theorem prepareIoPoll_isTail (telemetry : ConnectionTelemetry) (poll : IoPoll) :
    ∀ op ∈ (telemetry.prepareIoPoll poll).2, op.isTail = false := by
  unfold ConnectionTelemetry.prepareIoPoll
  split
  · simp
  · cases poll.kind <;> simp [Op.isTail]

/-- Nobody is in an abort before the flag is set. -/
theorem Handshake.idleLock_eq_none (h : Handshake task connection)
    (hlive : connection.telemetry.aborted = false) : connection.telemetry.idleLock = none := by
  by_contra hlock
  obtain ⟨thread, hthread⟩ := Option.ne_none_iff_exists'.mp hlock
  have habsurd := (h.holder thread hthread).1
  rw [hlive] at habsurd
  simp at habsurd

/-- The step lemma of the start of a poll. -/
theorem handshake_poll {poll : IoPoll} (h : Handshake task connection)
    (htask : poll.waker.task = task) (hempty : connection.ops .io = []) :
    Handshake task { connection with
      telemetry := (connection.telemetry.prepareIoPoll poll).1
      ops := Function.update connection.ops .io (connection.telemetry.prepareIoPoll poll).2 } := by
  have hnew := prepareIoPoll_isTail connection.telemetry poll
  by_cases haborted : connection.telemetry.aborted = true
  · refine h.update .io ?_ rfl (by simp [hempty]) hnew
    rw [ConnectionTelemetry.prepareIoPoll, if_pos haborted]
    exact ⟨rfl, rfl, rfl, rfl, rfl, rfl, fun _ hidle => hidle⟩
  · rw [Bool.not_eq_true] at haborted
    have hfree := h.idleLock_eq_none haborted
    have hprepared : (connection.telemetry.prepareIoPoll poll).1 =
        { connection.telemetry with
          ioWaker := some poll.waker
          registered := connection.telemetry.registered ++ [poll.waker] } := by
      simp [ConnectionTelemetry.prepareIoPoll, haborted]
    rw [hprepared]
    refine ⟨?_, ?_, ?_, ?_, ?_⟩
    · intro party hops
      obtain ⟨op, hmem, hop⟩ := hops
      dsimp only at hmem
      by_cases hparty : party = .io
      · rw [hparty, Function.update_self] at hmem
        simp [hnew op hmem] at hop
      · rw [Function.update_of_ne hparty] at hmem
        exact h.tail party ⟨op, hmem, hop⟩
    · intro party hlock
      simp [hfree] at hlock
    · intro _ _
      exact Or.inl ⟨poll.waker, rfl, htask⟩
    · intro habsurd
      simp [haborted] at habsurd
    · intro habsurd
      simp [haborted] at habsurd

/-! ## Threads start empty -/

structure Threads (connection : Connection) : Prop where
  /-- A use that has not begun has nothing to do. -/
  fresh : ∀ useId, connection.telemetry.observedUses ≤ useId →
    connection.ops (.use useId) = []
  guards : ∀ use ∈ connection.guards, use.useId < connection.telemetry.observedUses
  drop : connection.dropped = false → connection.ops .drop = []

theorem threads_new (bodies : Nat → BodyStatus) : Threads (.new bodies) :=
  ⟨fun _ _ => rfl, by simp [Connection.new], fun _ => rfl⟩

theorem Exec.observedUses (h : Exec thread telemetry op next more) :
    next.observedUses = telemetry.observedUses := by
  cases h with
  | quiet hop hquiet hmore => exact hquiet.observedUses
  | abort => exact (quiet_leaveIdleLocked telemetry).observedUses
  | take | wake | discard => rfl

theorem prepareIoPoll_observedUses (telemetry : ConnectionTelemetry) (poll : IoPoll) :
    (telemetry.prepareIoPoll poll).1.observedUses = telemetry.observedUses := by
  unfold ConnectionTelemetry.prepareIoPoll
  split <;> rfl

/-- The step lemma of a new use. -/
theorem threads_start (h : Threads connection) (hasContext : Bool) (requestBody : Option Nat) :
    Threads (connection.start hasContext requestBody) := by
  refine ⟨?_, ?_, h.drop⟩
  · intro useId hle
    have hgrown : connection.telemetry.observedUses + 1 ≤ useId := hle
    show Function.update connection.ops _ _ (.use useId) = []
    rw [Function.update_of_ne]
    · exact h.fresh useId (by omega)
    · simp only [ne_eq, Thread.use.injEq]
      omega
  · intro use hmem
    show use.useId < connection.telemetry.observedUses + 1
    rcases List.mem_append.mp hmem with hold | hnew
    · have hlt := h.guards use hold
      omega
    · rw [List.mem_singleton.mp hnew]
      exact Nat.lt_succ_self _

/-- The step lemma of a thread's next operation. -/
theorem threads_run {rest : List Op} (h : Threads connection)
    (hhead : connection.ops thread = op :: rest)
    (hexec : Exec thread connection.telemetry op next more) :
    Threads { connection with
      telemetry := next
      ops := Function.update connection.ops thread (more ++ rest) } := by
  have hidle : ∀ party, connection.ops party = [] →
      Function.update connection.ops thread (more ++ rest) party = [] := by
    intro party hempty
    rw [Function.update_of_ne]
    · exact hempty
    · intro hsame
      subst hsame
      simp [hhead] at hempty
  refine ⟨?_, ?_, fun hdropped => hidle .drop (h.drop hdropped)⟩
  · intro useId hle
    exact hidle _ (h.fresh useId (hexec.observedUses ▸ hle))
  · intro use hmem
    exact hexec.observedUses ▸ h.guards use hmem

/-- The step lemma. -/
theorem threads_step {event : Event} {other : Connection} (h : Threads connection)
    (hstep : connection.step task event = some other) : Threads other := by
  cases moves_of_step hstep with
  | start hfree hasContext requestBody => exact threads_start h hasContext requestBody
  | endUse ending hguard hempty =>
      have hbegan := h.guards _ hguard
      refine ⟨?_, fun other hmem => h.guards other (List.mem_of_mem_erase hmem), h.drop⟩
      intro useId hle
      show Function.update connection.ops _ _ (.use useId) = []
      rw [Function.update_of_ne]
      · exact h.fresh useId hle
      · simp only [ne_eq, Thread.use.injEq]
        intro hsame
        subst hsame
        exact absurd hbegan (by simpa using hle)
  | poll htask hempty hopen =>
      have huses := prepareIoPoll_observedUses connection.telemetry
      refine ⟨fun useId hle => h.fresh useId (huses _ ▸ hle), ?_, h.drop⟩
      intro use hmem
      exact huses _ ▸ h.guards use hmem
  | dropConnection hempty hopen => exact ⟨h.fresh, h.guards, by simp⟩
  | body body status => exact ⟨h.fresh, h.guards, h.drop⟩
  | run hhead heffect => exact threads_run h hhead (exec_cases heffect)

/-! ## Runs -/

/-- The step lemma of the handshake. -/
theorem handshake_step {event : Event} {other : Connection} (hthreads : Threads connection)
    (h : Handshake task connection) (hstep : connection.step task event = some other) :
    Handshake task other := by
  cases moves_of_step hstep with
  | start hfree hasContext requestBody =>
      have hfresh := hthreads.fresh connection.telemetry.observedUses (Nat.le_refl _)
      have hleft := quiet_leaveIdleLocked connection.telemetry
      refine h.update (.use connection.telemetry.observedUses) ?_ rfl (by simp [hfresh])
        (by simp [Op.isTail])
      exact ⟨hleft.idleLock, hleft.aborted, hleft.ioWaker, hleft.registered, hleft.discarded,
        hleft.abortWakes, hleft.idle⟩
  | endUse ending hguard hempty =>
      exact h.update _ (Quiet.refl _).toFramed rfl (by simp [hempty]) (by simp [Op.isTail])
  | poll htask hempty hopen => exact handshake_poll h htask hempty
  | dropConnection hempty hopen =>
      exact h.update .drop (Quiet.refl _).toFramed rfl (by simp [hthreads.drop hopen])
        (by simp [Op.isTail])
  | body body status => exact ⟨h.tail, h.holder, h.before, h.after, h.idle⟩
  | run hhead heffect => exact handshake_run h hhead (exec_cases heffect)

/-- The run lemma. -/
theorem handshake_of_reachable {bodies : Nat → BodyStatus}
    (h : (Connection.system task bodies).Reachable connection) :
    Threads connection ∧ Handshake task connection :=
  h.invariant (fun connection => Threads connection ∧ Handshake task connection)
    ⟨threads_new bodies, handshake_new task bodies⟩
    fun _ hboth hstep => ⟨threads_step hboth.1 hstep, handshake_step hboth.1 hboth.2 hstep⟩

/-! ## The flag -/

/-- No operation clears the flag. -/
theorem Exec.aborted (h : Exec thread telemetry op next more)
    (haborted : telemetry.aborted = true) : next.aborted = true := by
  cases h with
  | quiet hop hquiet hmore => exact hquiet.aborted.trans haborted
  | abort => rfl
  | take | wake | discard => exact haborted

/-- No step clears the flag. -/
theorem step_aborted {event : Event} {other : Connection}
    (hstep : connection.step task event = some other)
    (haborted : connection.telemetry.aborted = true) : other.telemetry.aborted = true := by
  cases moves_of_step hstep with
  | start => exact (quiet_leaveIdleLocked connection.telemetry).aborted.trans haborted
  | poll => simp only [ConnectionTelemetry.prepareIoPoll, haborted, if_true]
  | endUse | dropConnection | body => exact haborted
  | run hhead heffect => exact (exec_cases heffect).aborted haborted

/-- The connection is aborted, or this use has an unconditional abort before it. -/
def Committed (useId : Nat) (connection : Connection) : Prop :=
  connection.telemetry.aborted = true ∨
    .abortCurrentConnectionUse ∈ connection.ops (.use useId)

/-- An unconditional abort leaves the flag set. -/
theorem exec_abortCurrent
    (h : Op.abortCurrentConnectionUse.exec thread telemetry = some (next, more)) :
    next.aborted = true := by
  simp only [Op.exec, Option.ite_none_left_eq_some, Option.some.injEq,
    ConnectionTelemetry.abortCurrentConnectionUseLocked] at h
  obtain ⟨-, hexec⟩ := h
  split at hexec
  · rename_i haborted
    cases hexec
    exact haborted
  · cases hexec
    rfl

/-- The step lemma. -/
theorem committed_step {event : Event} {other : Connection} {useId : Nat}
    (hthreads : Threads connection) (h : Committed useId connection)
    (hstep : connection.step task event = some other) : Committed useId other := by
  rcases h with haborted | hmem
  · exact Or.inl (step_aborted hstep haborted)
  have hkeep : ∀ {party : Thread} (ops : List Op), .use useId ≠ party →
      .abortCurrentConnectionUse ∈ Function.update connection.ops party ops (.use useId) := by
    intro party ops hne
    rw [Function.update_of_ne hne]
    exact hmem
  have hbusy : ∀ {party : Thread}, connection.ops party = [] → .use useId ≠ party := by
    intro party hempty hsame
    subst hsame
    simp [hempty] at hmem
  cases moves_of_step hstep with
  | start hfree hasContext requestBody =>
      exact Or.inr (hkeep _ (hbusy (hthreads.fresh _ (Nat.le_refl _))))
  | endUse ending hguard hempty => exact Or.inr (hkeep _ (hbusy hempty))
  | poll | dropConnection | body => exact Or.inr hmem
  | @run thread op rest more next hhead heffect =>
      by_cases hthread : .use useId = thread
      · subst hthread
        rw [hhead] at hmem
        rcases List.mem_cons.mp hmem with rfl | hrest
        · exact Or.inl (exec_abortCurrent heffect)
        · refine Or.inr ?_
          show _ ∈ Function.update connection.ops _ _ (.use useId)
          rw [Function.update_self]
          exact List.mem_append_right _ hrest
      · exact Or.inr (hkeep _ hthread)

/-- A use that is committed has aborted the connection once it has nothing to do. -/
theorem aborted_of_committed {bodies : Nat → BodyStatus} {useId : Nat} {final : Connection}
    (hreachable : (Connection.system task bodies).Reachable connection)
    (h : Committed useId connection)
    (hlater : (Connection.system task bodies).Later connection final)
    (hreturned : final.ops (.use useId) = []) : final.telemetry.aborted = true := by
  have hfinal : Committed useId final :=
    hlater.stable (Committed useId)
      (fun hreachable hcommitted hstep =>
        committed_step (handshake_of_reachable hreachable).1 hcommitted hstep)
      hreachable h
  rcases hfinal with haborted | hmem
  · exact haborted
  · simp [hreturned] at hmem

/-! ## The result -/

/-- A use whose next operation puts the unconditional abort before it has aborted the
connection once it has nothing to do. -/
theorem aborted_of_run {bodies : Nat → BodyStatus} {useId : Nat} {other final : Connection}
    {rest : List Op} (hreachable : (Connection.system task bodies).Reachable connection)
    (hhead : connection.ops (.use useId) = op :: rest)
    (hexec : op.exec (.use useId) connection.telemetry = some (next, more))
    (habort : .abortCurrentConnectionUse ∈ more)
    (hstep : connection.step task (.run (.use useId)) = some other)
    (hlater : (Connection.system task bodies).Later other final)
    (hreturned : final.ops (.use useId) = []) : final.telemetry.aborted = true := by
  have hnext : (Connection.system task bodies).Reachable other :=
    TransitionSystem.Reachable.step hreachable
      (show (Connection.system task bodies).step connection (.run _) = some other from hstep)
  refine aborted_of_committed hnext (Or.inr ?_) hlater hreturned
  simp only [Connection.step, Connection.run, hhead, hexec, Option.map_some,
    Option.some.injEq] at hstep
  subst hstep
  show _ ∈ Function.update connection.ops _ _ (.use useId)
  rw [Function.update_self]
  exact List.mem_append_left _ habort

/-- Every ending other than `superseded` aborts first when the body is incomplete. -/
theorem endUse_ops_incomplete {ending : UseEnding} (useId : Nat)
    (hending : ∀ telemetryFinished, ending ≠ .superseded telemetryFinished) :
    .abortCurrentConnectionUse ∈ ending.ops useId true := by
  cases ending with
  | superseded telemetryFinished => exact absurd rfl (hending telemetryFinished)
  | finish | abort | drop => simp [UseEnding.ops]

/-- For every interleaving of the uses of one connection, with all polls from `task`:
* a guard that ends by `finish`, `abort` or `drop` while its body is incomplete has
  aborted the connection when it returns;
* so has a new use that found the registered use incomplete on a live connection;
* the flag is never cleared and an aborted connection is never idle;
* a poll of an aborted connection returns an error at once;
* an abort is never blocked once it has set the flag, and when it is done it has woken
  the task, if that has registered a waker, unless the drop of the connection discarded
  the waker. -/
theorem connection_not_reused_after_incomplete_upload (task : Nat) (bodies : Nat → BodyStatus)
    (events : List Event) (connection : Connection)
    (hrun : (Connection.system task bodies).run events = some connection) :
    (∀ use ending rest next final,
      (∀ telemetryFinished, ending ≠ .superseded telemetryFinished) →
      connection.ops (.use use.useId) = .endUse use ending :: rest →
      connection.telemetry.incomplete use.requestBody = true →
      connection.step task (.run (.use use.useId)) = some next →
      (Connection.system task bodies).Later next final → final.ops (.use use.useId) = [] →
      final.telemetry.aborted = true) ∧
    (∀ use rest next final,
      connection.ops (.use use.useId) = .beginRequestWriteTimeout use :: rest →
      connection.telemetry.closed = false → connection.telemetry.aborted = false →
      connection.telemetry.activeIncomplete = true →
      connection.step task (.run (.use use.useId)) = some next →
      (Connection.system task bodies).Later next final → final.ops (.use use.useId) = [] →
      final.telemetry.aborted = true) ∧
    (connection.telemetry.aborted = true →
      (∀ final, (Connection.system task bodies).Later connection final →
        final.telemetry.aborted = true ∧ final.telemetry.idle = false) ∧
      (∀ poll next, connection.step task (.poll poll) = some next →
        next.telemetry.polls = connection.telemetry.polls ++ [(poll.kind, .error)] ∧
          next.ops .io = []) ∧
      (∀ thread, connection.telemetry.idleLock = some thread →
        ∃ next, connection.step task (.run thread) = some next) ∧
      (connection.telemetry.idleLock = none → connection.telemetry.registered ≠ [] →
        (∃ waker ∈ connection.telemetry.abortWakes, waker.task = task) ∨
          connection.telemetry.discarded ≠ [])) := by
  have hreachable := TransitionSystem.reachable_of_run hrun
  have hhandshake := (handshake_of_reachable hreachable).2
  refine ⟨?_, ?_, ?_⟩
  · intro use ending rest next final hending hhead hincomplete hstep hlater hreturned
    refine aborted_of_run hreachable hhead rfl ?_ hstep hlater hreturned
    rw [hincomplete]
    exact endUse_ops_incomplete use.useId hending
  · intro use rest next final hhead hopen hlive hincomplete hstep hlater hreturned
    have hexec : (Op.beginRequestWriteTimeout use).exec (.use use.useId) connection.telemetry =
        some (connection.telemetry, [.abortCurrentConnectionUse]) := by
      simp [Op.exec, ConnectionTelemetry.beginRequestWriteTimeout, hopen, hlive, hincomplete]
    exact aborted_of_run hreachable hhead hexec (by simp) hstep hlater hreturned
  · intro haborted
    refine ⟨?_, ?_, ?_, hhandshake.after haborted⟩
    · intro final hlater
      have hkept : final.telemetry.aborted = true :=
        hlater.stable (fun connection => connection.telemetry.aborted = true)
          (fun _ haborted hstep => step_aborted hstep haborted) hreachable haborted
      exact ⟨hkept, (handshake_of_reachable (hlater.reachable hreachable)).2.idle hkept⟩
    · intro poll next hstep
      simp only [Connection.step, Option.ite_none_right_eq_some, Option.some.injEq] at hstep
      obtain ⟨-, rfl⟩ := hstep
      simp [ConnectionTelemetry.prepareIoPoll, haborted]
    · intro thread hlock
      obtain ⟨-, op, rest, hhead, -, hkept⟩ := hhandshake.holder thread hlock
      simp only [Connection.step, Connection.run, hhead]
      cases op with
      | takeIoWaker | wakeAborted => exact ⟨_, rfl⟩
      | _ => exact hkept.elim

namespace ReuseExample

/-- A use begins, the task registers a waker, and the guard of the use is dropped up to
the flag. -/
def abort : List Event :=
  [.start false (some 0), .run (.use 0), .run (.use 0),
    .poll ⟨.read, ⟨7, 0⟩, .pending, false⟩, .run .io, .run .io,
    .endUse ⟨0, false, some 0⟩ .drop, .run (.use 0)]

/-- The connection is dropped between the flag and the waker slot. -/
def race : List Event :=
  abort ++ [.run (.use 0), .dropConnection, .run .drop, .run .drop, .run .drop, .run (.use 0),
    .run (.use 0), .run (.use 0), .run .drop]

/-- The guard ends on a connection that is not dropped. -/
def undisturbed : List Event :=
  abort ++ [.run (.use 0), .run (.use 0), .run (.use 0), .run (.use 0)]

/-- No body is complete. -/
def bodies : Nat → BodyStatus := fun _ => ⟨false, false⟩

/-- A drop of the connection can take the waker before the abort does, so that the task,
whose waker was registered when the flag was set, is not woken. -/
theorem dropped_connection_discards_waker :
    ∃ before after, (Connection.system 7 bodies).run abort = some before ∧
      before.telemetry.aborted = false ∧ before.telemetry.ioWaker = some ⟨7, 0⟩ ∧
      (Connection.system 7 bodies).run race = some after ∧
      after.telemetry.aborted = true ∧ after.ops (.use 0) = [] ∧ after.ops .drop = [] ∧
      after.telemetry.abortWakes = [] ∧ after.telemetry.wakes = [] :=
  ⟨_, _, rfl, rfl, rfl, rfl, rfl, rfl, rfl, rfl, rfl⟩

/-- The same guard without the drop of the connection wakes the task. -/
theorem connection_not_reused_example :
    ∃ connection, (Connection.system 7 bodies).run undisturbed = some connection ∧
      connection.telemetry.aborted = true ∧ connection.telemetry.discarded = [] ∧
      ((∃ waker ∈ connection.telemetry.abortWakes, waker.task = 7) ∨
        connection.telemetry.discarded ≠ []) :=
  ⟨_, rfl, rfl, rfl,
    ((connection_not_reused_after_incomplete_upload 7 bodies undisturbed _ rfl).2.2 rfl).2.2.2 rfl
      (by decide)⟩

end ReuseExample

end FogHttp.ConnectionUse
