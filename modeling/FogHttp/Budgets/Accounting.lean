import FogHttp.Budgets.Reservation
import FogHttp.Lib.Fallible

/-!
# The accounts of a budget

`Accounted` is the invariant of a budget: the counter is the sum of the shares,
it is within the limit, and every call that runs has the variables that the
source computes before it.

Three lemmas say what one event does to one reservation.  `valid_enter` lemmas
cover the starts of the calls, `atomic_spec` an atomic operation, and
`finish_spec` the end of a call.  An operation moves the counter and the share
by the same number of bytes (`Moves`), so `Accounted.put` carries the invariant
over.  A release never finds the counter too small, since the counter is at
least the share that the release takes its bytes from.
-/

namespace FogHttp.Budgets

open Lib

variable {kind : BudgetKind}

/-! ## The loops -/

theorem checkedAdd_eq_some {left right sum : Nat} :
    checkedAdd left right = some sum ↔ sum = left + right ∧ sum < 2 ^ 64 := by
  unfold checkedAdd
  split
  · rw [Option.some.injEq]
    omega
  · simp only [reduceCtorEq, false_iff]
    omega

theorem checkedSub_eq_some {left right difference : Nat} :
    checkedSub left right = some difference ↔ difference + right = left := by
  unfold checkedSub
  split
  · rw [Option.some.injEq]
    omega
  · simp only [reduceCtorEq, false_iff]
    omega

/-- A reservation that is stored adds the bytes and is within the limit. -/
theorem reserveBytes_update {byteCount current next : Nat}
    (h : (kind.reserveBytes byteCount).update current = .ok next) :
    next = current + byteCount ∧ next < 2 ^ 64 ∧
      ∀ limit, kind.limit = some limit → next ≤ limit := by
  cases kind with
  | buffered maxBufferedResponseBytes =>
      simp only [BudgetKind.reserveBytes, AtomicLoop.mapError, mapError_eq_ok,
        reserveBufferedResponseBytes] at h
      split at h
      · simp at h
      · rename_i sum hsum
        obtain ⟨rfl, hfits⟩ := checkedAdd_eq_some.mp hsum
        split at h
        · simp at h
        · rename_i hwithin
          rw [Except.ok.injEq] at h
          subst h
          refine ⟨rfl, hfits, ?_⟩
          intro limit hlimit
          rw [BudgetKind.limit] at hlimit
          simpa [hlimit] using hwithin
  | streamDecoder maxBytes =>
      simp only [BudgetKind.reserveBytes, AtomicLoop.mapError, mapError_eq_ok,
        tryReserveStreamDecoderBytes] at h
      split at h
      · simp at h
      · rename_i sum hsum
        rw [Option.filter_eq_some_iff] at hsum
        obtain ⟨hadd, hwithin⟩ := hsum
        obtain ⟨rfl, hfits⟩ := checkedAdd_eq_some.mp hadd
        rw [Except.ok.injEq] at h
        subst h
        refine ⟨rfl, hfits, ?_⟩
        intro limit hlimit
        rw [BudgetKind.limit, Option.some.injEq] at hlimit
        subst hlimit
        simpa using hwithin

/-- A release is stored exactly when the counter is large enough. -/
theorem releaseBytes_update {byteCount current next : Nat} :
    (kind.releaseBytes byteCount).update current = .ok next ↔ next + byteCount = current := by
  rw [← checkedSub_eq_some]
  cases kind with
  | buffered maxBufferedResponseBytes =>
      simp only [BudgetKind.releaseBytes, releaseBufferedResponseBytes]
      cases checkedSub current byteCount <;> simp
  | streamDecoder maxBytes =>
      simp only [BudgetKind.releaseBytes, releaseStreamDecoderBytes]
      cases checkedSub current byteCount <;> simp

/-- Only calls for no bytes return before the loop. -/
theorem reserveBytes_atOnce {byteCount : Nat}
    (h : (kind.reserveBytes byteCount).returnsAtOnce = true) : byteCount = 0 := by
  cases kind with
  | buffered maxBufferedResponseBytes => exact of_decide_eq_true h
  | streamDecoder maxBytes => exact absurd h Bool.false_ne_true

theorem releaseBytes_atOnce {byteCount : Nat}
    (h : (kind.releaseBytes byteCount).returnsAtOnce = true) : byteCount = 0 := by
  cases kind with
  | buffered maxBufferedResponseBytes => exact of_decide_eq_true h
  | streamDecoder maxBytes => exact absurd h Bool.false_ne_true

/-- A release goes on from a counter that is large enough. -/
theorem releaseBytes_body {byteCount counter : Nat} (h : byteCount ≤ counter) :
    (kind.releaseBytes byteCount).body counter = .exchange counter (counter - byteCount) := by
  have hnext : (kind.releaseBytes byteCount).update counter = .ok (counter - byteCount) :=
    releaseBytes_update.mpr (by omega)
  rw [AtomicLoop.body, hnext]

/-! ## One reservation -/

/-- The variables of the call that runs. -/
def Reservation.InCall (kind : BudgetKind) (reservation : Reservation) : Prop :=
  match reservation.phase with
  | .idle | .dropped => True
  | .reserving chunkSize nextReservedBytes cas =>
      nextReservedBytes = reservation.reservedBytes + chunkSize ∧
        (kind.reserveBytes chunkSize).Valid cas ∧
        (cas ≠ .done (.ok ()) → reservation.applied = 0) ∧
        reservation.before = reservation.reservedBytes ∧
        (∀ maxBytes, kind = .streamDecoder maxBytes → reservation.reservedBytes = 0)
  | .releasing chunkSize nextReservedBytes cas =>
      nextReservedBytes + chunkSize = reservation.reservedBytes ∧
        (kind.releaseBytes chunkSize).Valid cas ∧ cas ≠ .done (.error ())
  | .dropping cas =>
      (kind.releaseBytes reservation.reservedBytes).Valid cas ∧ cas ≠ .done (.error ())

/-- The invariant of a reservation. -/
structure Reservation.Valid (kind : BudgetKind) (reservation : Reservation) : Prop where
  inCall : reservation.InCall kind
  running : reservation.phase = .idle ∨ reservation.phase = .dropped ∨
    reservation.returned = none
  /-- A call that failed changed nothing. -/
  failed : ∀ error, reservation.returned = some (.error error) →
    reservation.applied = 0 ∧ reservation.size = reservation.before

/-- Counter and share move by the same number of bytes, within the limit. -/
structure Moves (kind : BudgetKind) (counter : Nat) (old : Reservation) (after : Nat)
    (new : Reservation) : Prop where
  balance : after + old.size = counter + new.size
  limit : after ≤ counter ∨ after < 2 ^ 64 ∧ ∀ limit, kind.limit = some limit → after ≤ limit
  valid : new.Valid kind

/-- The share of a reservation in a compare-exchange loop. -/
theorem size_reserving {reservation : Reservation} {chunkSize next : Nat}
    {cas : Cas ReservationError} (hphase : reservation.phase = .reserving chunkSize next cas)
    (hcas : cas ≠ .done (.ok ())) : reservation.size = reservation.reservedBytes := by
  unfold Reservation.size
  rw [hphase]
  split <;> simp_all

theorem size_releasing {reservation : Reservation} {chunkSize next : Nat} {cas : Cas Unit}
    (hphase : reservation.phase = .releasing chunkSize next cas)
    (hcas : cas ≠ .done (.ok ())) : reservation.size = reservation.reservedBytes := by
  unfold Reservation.size
  rw [hphase]
  split <;> simp_all

theorem size_dropping {reservation : Reservation} {cas : Cas Unit}
    (hphase : reservation.phase = .dropping cas)
    (hcas : cas ≠ .done (.ok ())) : reservation.size = reservation.reservedBytes := by
  unfold Reservation.size
  rw [hphase]
  split <;> simp_all

/-- A loop that was just started has returned only when it had nothing to do. -/
theorem start_cases {ε : Type} (loop : AtomicLoop ε) :
    loop.start = .load ∧ loop.returnsAtOnce = false ∨
      loop.start = .done (.ok ()) ∧ loop.returnsAtOnce = true := by
  unfold AtomicLoop.start
  cases loop.returnsAtOnce
  · exact Or.inl ⟨rfl, rfl⟩
  · exact Or.inr ⟨rfl, rfl⟩

section Moves

variable {counter after : Nat} {old new : Reservation}

theorem moves_answer (hidle : old.phase = .idle) (result : Except ReservationError Unit) :
    Moves kind counter old counter (old.answer result) where
  balance := by simp [Reservation.answer, Reservation.size, hidle]
  limit := Or.inl (Nat.le_refl _)
  valid :=
    { inCall := by simp [Reservation.InCall, Reservation.answer, hidle]
      running := Or.inl hidle
      failed := fun _ _ => ⟨rfl, by simp [Reservation.answer, Reservation.size, hidle]⟩ }

/-- A call that starts keeps the share, whether its loop is at its start or already over. -/
theorem moves_enter {phase : Phase} (hsize : (old.enter phase).size = old.size)
    (hcall : (old.enter phase).InCall kind) : Moves kind counter old counter (old.enter phase) where
  balance := by rw [hsize]
  limit := Or.inl (Nat.le_refl _)
  valid :=
    { inCall := hcall
      running := Or.inr (Or.inr rfl)
      failed := fun error h => by simp [Reservation.enter] at h }

theorem moves_reserveChunk (hidle : old.phase = .idle) (chunkSize : Nat)
    (hkind : ∀ maxBytes, kind ≠ .streamDecoder maxBytes) :
    Moves kind counter old counter (old.reserveChunk kind chunkSize) := by
  have hold : old.size = old.reservedBytes := by simp [Reservation.size, hidle]
  unfold Reservation.reserveChunk
  split
  · exact moves_answer hidle _
  · rename_i next hnext
    obtain ⟨hsum, -⟩ := checkedAdd_eq_some.mp hnext
    apply moves_enter
    · rcases start_cases (kind.reserveBytes chunkSize) with ⟨hstart, -⟩ | ⟨hstart, hnone⟩
      · rw [hstart, hold]
        rfl
      · have hzero := reserveBytes_atOnce hnone
        rw [hstart, hold]
        show next = old.reservedBytes
        omega
    · exact ⟨hsum, AtomicLoop.valid_start, fun _ => rfl, hold,
        fun maxBytes h => absurd h (hkind maxBytes)⟩

theorem moves_releaseChunk (hidle : old.phase = .idle) (chunkSize : Nat) :
    Moves kind counter old counter (old.releaseChunk kind chunkSize) := by
  have hold : old.size = old.reservedBytes := by simp [Reservation.size, hidle]
  unfold Reservation.releaseChunk
  split
  · exact moves_answer hidle _
  · split
    · exact moves_answer hidle _
    · rename_i next hnext
      have hsum := checkedSub_eq_some.mp hnext
      rcases start_cases (kind.releaseBytes chunkSize) with ⟨hstart, -⟩ | ⟨hstart, hnone⟩
      · apply moves_enter
        · rw [hstart, hold]
          rfl
        · exact ⟨hsum, AtomicLoop.valid_start, by simp [hstart]⟩
      · have hzero := releaseBytes_atOnce hnone
        contradiction

theorem moves_drop (hidle : old.phase = .idle) :
    Moves kind counter old counter (old.drop kind) := by
  have hold : old.size = old.reservedBytes := by simp [Reservation.size, hidle]
  unfold Reservation.drop
  rcases start_cases (kind.releaseBytes old.reservedBytes) with ⟨hstart, -⟩ | ⟨hstart, hnone⟩
  · apply moves_enter
    · rw [hstart, hold]
      rfl
    · exact ⟨AtomicLoop.valid_start, by simp [hstart]⟩
  · have hzero := releaseBytes_atOnce hnone
    apply moves_enter
    · rw [hstart, hold]
      exact hzero.symm
    · exact ⟨AtomicLoop.valid_start, by simp [hstart]⟩

/-- A loop that looks at the counter again has not stored anything. -/
theorem body_ne_done {ε : Type} (loop : AtomicLoop ε) (current : Nat) :
    loop.body current ≠ .done (.ok ()) := by
  unfold AtomicLoop.body
  split <;> simp

/-- A loop with another operation to do is not over. -/
theorem ne_done_of_step {ε : Type} {loop : AtomicLoop ε} {spurious : Bool}
    {cas : Cas ε} {stepped : Nat × Cas ε} (h : loop.step spurious counter cas = some stepped) :
    cas ≠ .done (.ok ()) := by
  intro hsame
  subst hsame
  simp [AtomicLoop.step] at h

/-- An operation of a reservation: nothing is stored, or the bytes are added. -/
theorem reserve_step {spurious : Bool} {byteCount : Nat} {cas next : Cas ReservationError}
    (hvalid : (kind.reserveBytes byteCount).Valid cas)
    (h : (kind.reserveBytes byteCount).step spurious counter cas = some (after, next)) :
    (kind.reserveBytes byteCount).Valid next ∧
      (after = counter ∧ next ≠ .done (.ok ()) ∨
        after = counter + byteCount ∧ next = .done (.ok ()) ∧ after < 2 ^ 64 ∧
          ∀ limit, kind.limit = some limit → after ≤ limit) := by
  obtain ⟨hloops, ⟨rfl, rfl⟩ | ⟨hupdate, rfl⟩⟩ := AtomicLoop.step_cases hvalid h
  · exact ⟨AtomicLoop.valid_body hloops _, Or.inl ⟨rfl, body_ne_done _ _⟩⟩
  · obtain ⟨hsum, hfits, hlimit⟩ := reserveBytes_update hupdate
    exact ⟨trivial, Or.inr ⟨hsum, rfl, hfits, hlimit⟩⟩

/-- An operation of a release from a counter that is large enough: nothing is stored, or
the bytes are taken off. -/
theorem release_step {spurious : Bool} {byteCount : Nat} {cas next : Cas Unit}
    (hvalid : (kind.releaseBytes byteCount).Valid cas) (hshare : byteCount ≤ counter)
    (h : (kind.releaseBytes byteCount).step spurious counter cas = some (after, next)) :
    (kind.releaseBytes byteCount).Valid next ∧ next ≠ .done (.error ()) ∧
      (after = counter ∧ next ≠ .done (.ok ()) ∨
        after + byteCount = counter ∧ next = .done (.ok ())) := by
  obtain ⟨hloops, ⟨rfl, rfl⟩ | ⟨hupdate, rfl⟩⟩ := AtomicLoop.step_cases hvalid h
  · refine ⟨AtomicLoop.valid_body hloops _, ?_, Or.inl ⟨rfl, body_ne_done _ _⟩⟩
    rw [releaseBytes_body hshare]
    simp
  · exact ⟨trivial, by simp, Or.inr ⟨releaseBytes_update.mp hupdate, rfl⟩⟩

/-- One atomic operation.  A release finds a counter that is at least its share. -/
theorem atomic_spec {spurious : Bool} (hvalid : old.Valid kind) (hshare : old.size ≤ counter)
    (h : old.atomic kind spurious counter = some (after, new)) :
    Moves kind counter old after new := by
  obtain ⟨hcall, hrunning, -⟩ := hvalid
  unfold Reservation.atomic at h
  unfold Reservation.InCall at hcall
  split at h
  · rename_i chunkSize next cas hphase
    rw [hphase] at hcall
    obtain ⟨hnext, hcas, happlied, hbefore, hkind⟩ := hcall
    simp only [Option.map_eq_some_iff, Prod.mk.injEq] at h
    obtain ⟨⟨stored, place⟩, hstep, hstored, rfl⟩ := h
    dsimp only at hstored hstep ⊢
    subst hstored
    have hnone : old.returned = none := by simpa [hphase] using hrunning
    have hopen := ne_done_of_step hstep
    have hold := size_reserving hphase hopen
    obtain ⟨hplace, ⟨rfl, hagain⟩ | ⟨hsum, rfl, hlimit⟩⟩ := reserve_step hcas hstep
    · refine ⟨?_, Or.inl (Nat.le_refl _), ⟨?_, Or.inr (Or.inr hnone), by simp [hnone]⟩⟩
      · rw [hold]
        exact congrArg (_ + ·) (Eq.symm (size_reserving rfl hagain))
      · refine ⟨hnext, hplace, fun _ => ?_, hbefore, hkind⟩
        show old.applied + _ = 0
        rw [happlied hopen, Int.sub_self, Int.add_zero]
    · refine ⟨?_, Or.inr hlimit, ⟨?_, Or.inr (Or.inr hnone), by simp [hnone]⟩⟩
      · rw [hold]
        show stored + _ = counter + next
        omega
      · exact ⟨hnext, trivial, fun hne => absurd rfl hne, hbefore, hkind⟩
  · rename_i chunkSize next cas hphase
    rw [hphase] at hcall
    obtain ⟨hnext, hcas, -⟩ := hcall
    simp only [Option.map_eq_some_iff, Prod.mk.injEq] at h
    obtain ⟨⟨stored, place⟩, hstep, hstored, rfl⟩ := h
    dsimp only at hstored hstep ⊢
    subst hstored
    have hnone : old.returned = none := by simpa [hphase] using hrunning
    have hold := size_releasing hphase (ne_done_of_step hstep)
    obtain ⟨hplace, hnot, ⟨rfl, hagain⟩ | ⟨hsum, rfl⟩⟩ := release_step hcas (by omega) hstep
    · refine ⟨?_, Or.inl (Nat.le_refl _),
        ⟨⟨hnext, hplace, hnot⟩, Or.inr (Or.inr hnone), by simp [hnone]⟩⟩
      rw [hold]
      exact congrArg (_ + ·) (Eq.symm (size_releasing rfl hagain))
    · refine ⟨?_, Or.inl (by omega),
        ⟨⟨hnext, hplace, hnot⟩, Or.inr (Or.inr hnone), by simp [hnone]⟩⟩
      rw [hold]
      show stored + _ = counter + next
      omega
  · rename_i cas hphase
    rw [hphase] at hcall
    obtain ⟨hcas, -⟩ := hcall
    simp only [Option.map_eq_some_iff, Prod.mk.injEq] at h
    obtain ⟨⟨stored, place⟩, hstep, hstored, rfl⟩ := h
    dsimp only at hstored hstep ⊢
    subst hstored
    have hnone : old.returned = none := by simpa [hphase] using hrunning
    have hold := size_dropping hphase (ne_done_of_step hstep)
    obtain ⟨hplace, hnot, ⟨rfl, hagain⟩ | ⟨hsum, rfl⟩⟩ := release_step hcas (by omega) hstep
    · refine ⟨?_, Or.inl (Nat.le_refl _),
        ⟨⟨hplace, hnot⟩, Or.inr (Or.inr hnone), by simp [hnone]⟩⟩
      rw [hold]
      exact congrArg (_ + ·) (Eq.symm (size_dropping rfl hagain))
    · refine ⟨?_, Or.inl (by omega),
        ⟨⟨hplace, hnot⟩, Or.inr (Or.inr hnone), by simp [hnone]⟩⟩
      rw [hold]
      show stored + _ = counter + 0
      omega
  · simp at h
  · simp at h

/-- The end of a call keeps the share. -/
theorem finish_spec (hvalid : old.Valid kind) (h : old.finish kind = some new) :
    Moves kind counter old counter new := by
  obtain ⟨hcall, -, -⟩ := hvalid
  unfold Reservation.finish at h
  unfold Reservation.InCall at hcall
  split at h
  · rename_i chunkSize next hphase
    rw [Option.some.injEq] at h
    subst h
    refine ⟨?_, Or.inl (Nat.le_refl _), ⟨trivial, Or.inl rfl, by simp⟩⟩
    simp [Reservation.size, hphase]
  · rename_i chunkSize next error hphase
    rw [hphase] at hcall
    obtain ⟨-, -, happlied, hbefore, hkind⟩ := hcall
    have hold := size_reserving hphase (by simp)
    rw [Option.some.injEq] at h
    subst h
    cases kind with
    | buffered maxBufferedResponseBytes =>
        refine ⟨?_, Or.inl (Nat.le_refl _), ⟨trivial, Or.inl rfl, ?_⟩⟩
        · rw [hold]
          rfl
        · exact fun _ _ => ⟨happlied (by simp), hbefore.symm⟩
    | streamDecoder maxBytes =>
        have hempty := hkind maxBytes rfl
        refine ⟨?_, Or.inl (Nat.le_refl _), ⟨trivial, Or.inr (Or.inl rfl), ?_⟩⟩
        · rw [hold, hempty]
          rfl
        · exact fun _ _ => ⟨happlied (by simp), (hbefore.trans hempty).symm⟩
  · rename_i chunkSize next result hphase
    rw [hphase] at hcall
    rw [Option.some.injEq] at h
    subst h
    refine ⟨?_, Or.inl (Nat.le_refl _), ⟨trivial, Or.inl rfl, by simp⟩⟩
    cases result with
    | ok value => simp [Reservation.size, hphase]
    | error error => exact absurd rfl hcall.2.2
  · rename_i result hphase
    rw [hphase] at hcall
    rw [Option.some.injEq] at h
    subst h
    refine ⟨?_, Or.inl (Nat.le_refl _), ⟨trivial, Or.inr (Or.inl rfl), by simp⟩⟩
    cases result with
    | ok value => simp [Reservation.size, hphase]
    | error error => exact absurd rfl hcall.2
  · simp at h

end Moves

/-! ## The budget -/

/-- The invariant of a budget. -/
structure Accounted (kind : BudgetKind) (budget : Budget) : Prop where
  sum : budget.counter = (budget.reservations.map Reservation.size).sum
  fits : budget.counter < 2 ^ 64
  limit : ∀ limit, kind.limit = some limit → budget.counter ≤ limit
  valid : ∀ reservation ∈ budget.reservations, reservation.Valid kind

/-- A reservation moved together with the counter. -/
theorem Accounted.put {budget : Budget} {i after rejections : Nat} {old new : Reservation}
    (h : Accounted kind budget) (hi : budget.reservations[i]? = some old)
    (hmoves : Moves kind budget.counter old after new) :
    Accounted kind ⟨after, rejections, budget.reservations.set i new⟩ where
  sum := by
    have hsum := sum_map_set_add Reservation.size new hi
    have hbalance := hmoves.balance
    have hbefore := h.sum
    show after = ((budget.reservations.set i new).map Reservation.size).sum
    omega
  fits := by
    rcases hmoves.limit with hless | ⟨hfits, -⟩
    · exact Nat.lt_of_le_of_lt hless h.fits
    · exact hfits
  limit := by
    intro limit hlimit
    rcases hmoves.limit with hless | ⟨-, hwithin⟩
    · exact Nat.le_trans hless (h.limit limit hlimit)
    · exact hwithin limit hlimit
  valid := forall_mem_set h.valid hmoves.valid

/-- A reservation without a share is new. -/
theorem Accounted.push {budget : Budget} {new : Reservation} (h : Accounted kind budget)
    (hsize : new.size = 0) (hvalid : new.Valid kind) : Accounted kind (budget.push new) where
  sum := by
    rw [Budget.push, List.map_append, List.map_singleton, List.sum_append, List.sum_singleton,
      hsize]
    exact h.sum
  fits := h.fits
  limit := h.limit
  valid := by
    intro reservation hmem
    rcases List.mem_append.mp hmem with hold | hnew
    · exact h.valid reservation hold
    · exact List.mem_singleton.mp hnew ▸ hvalid

/-- The start of a call of reservation `i`. -/
theorem Accounted.call {budget next : Budget} {i : Nat} {enter : Reservation → Reservation}
    (h : Accounted kind budget)
    (henter : ∀ old : Reservation, old.phase = .idle →
      Moves kind budget.counter old budget.counter (enter old))
    (hstep : budget.call i enter = some next) : Accounted kind next := by
  unfold Budget.call at hstep
  split at hstep
  · rename_i old hi
    split at hstep
    · rename_i hidle
      rw [Option.some.injEq] at hstep
      subst hstep
      exact h.put hi (henter old hidle)
    · simp at hstep
  · simp at hstep

/-- The size and the variables of a decoder reservation that is being made. -/
theorem tryNew_spec (bytes : Nat) (h : ∃ maxBytes, kind = .streamDecoder maxBytes) :
    (Reservation.tryNew kind bytes).size = 0 ∧ (Reservation.tryNew kind bytes).Valid kind := by
  obtain ⟨maxBytes, rfl⟩ := h
  refine ⟨rfl, ⟨?_, Or.inr (Or.inr rfl), by simp [Reservation.tryNew]⟩⟩
  exact ⟨(Nat.zero_add bytes).symm, AtomicLoop.valid_start, fun _ => rfl, rfl, fun _ _ => rfl⟩

/-- Every event keeps the accounts. -/
theorem accounted_step {budget next : Budget} {event : BudgetEvent} (h : Accounted kind budget)
    (hstep : budget.step kind event = some next) : Accounted kind next := by
  unfold Budget.step at hstep
  split at hstep
  · rename_i hoffers
    cases event with
    | startResponse =>
        rw [Budget.advance, Option.some.injEq] at hstep
        subst hstep
        exact h.push rfl ⟨trivial, Or.inl rfl, by simp [Reservation.startResponse]⟩
    | tryNew bytes =>
        rw [Budget.advance, Option.some.injEq] at hstep
        subst hstep
        cases kind with
        | buffered maxBufferedResponseBytes => simp [BudgetKind.offers] at hoffers
        | streamDecoder maxBytes =>
            obtain ⟨hsize, hvalid⟩ := tryNew_spec bytes ⟨maxBytes, rfl⟩
            exact h.push hsize hvalid
    | reserveChunk i chunkSize =>
        refine h.call (fun old hidle => moves_reserveChunk hidle chunkSize ?_) hstep
        intro maxBytes hsame
        subst hsame
        simp [BudgetKind.offers] at hoffers
    | releaseChunk i chunkSize =>
        exact h.call (fun old hidle => moves_releaseChunk hidle chunkSize) hstep
    | drop i => exact h.call (fun old hidle => moves_drop hidle) hstep
    | atomic i spurious =>
        simp only [Budget.advance] at hstep
        split at hstep
        · rename_i old hi
          simp only [Option.map_eq_some_iff] at hstep
          obtain ⟨⟨after, new⟩, hatomic, rfl⟩ := hstep
          have hshare : old.size ≤ budget.counter := by
            rw [h.sum]
            exact le_sum_map Reservation.size hi
          have hvalid := h.valid old (List.mem_iff_getElem?.mpr ⟨i, hi⟩)
          exact h.put hi (atomic_spec hvalid hshare hatomic)
        · simp at hstep
    | finish i =>
        simp only [Budget.advance] at hstep
        split at hstep
        · rename_i old hi
          simp only [Option.map_eq_some_iff] at hstep
          obtain ⟨new, hfinish, rfl⟩ := hstep
          have hvalid := h.valid old (List.mem_iff_getElem?.mpr ⟨i, hi⟩)
          exact h.put hi (finish_spec hvalid hfinish)
        · simp at hstep
  · simp at hstep

theorem accounted_of_reachable {budget : Budget} (h : (budgetSystem kind).Reachable budget) :
    Accounted kind budget := by
  apply h.invariant (Accounted kind)
  · exact ⟨rfl, Nat.two_pow_pos 64, fun _ _ => Nat.zero_le _, by simp [budgetSystem]⟩
  · exact fun _ hinv hstep => accounted_step hinv hstep

/-! ## The result -/

/-- The reservation whose code an event runs. -/
def BudgetEvent.owner : BudgetEvent → Option Nat
  | .startResponse | .tryNew _ => none
  | .reserveChunk i _ | .releaseChunk i _ | .drop i | .atomic i _ | .finish i => some i

/-- The release took the branch for a counter that is too small. -/
def Phase.underflowed : Phase → Bool
  | .releasing _ _ (.done (.error ())) => true
  | .dropping (.done (.error ())) => true
  | _ => false

theorem Budget.call_others {budget next : Budget} {i j : Nat}
    {enter : Reservation → Reservation} (h : budget.call i enter = some next) (hne : j ≠ i) :
    next.reservations[j]? = budget.reservations[j]? := by
  unfold Budget.call at h
  split at h
  · split at h
    · rw [Option.some.injEq] at h
      subst h
      exact List.getElem?_set_ne (Ne.symm hne)
    · simp at h
  · simp at h

/-- The code of a reservation leaves the others alone. -/
theorem step_others {budget next : Budget} {event : BudgetEvent} {i : Nat}
    (h : budget.step kind event = some next) (howner : event.owner = some i) :
    ∀ j, j ≠ i → next.reservations[j]? = budget.reservations[j]? := by
  intro j hne
  unfold Budget.step at h
  split at h
  · cases event with
    | startResponse => simp [BudgetEvent.owner] at howner
    | tryNew bytes => simp [BudgetEvent.owner] at howner
    | reserveChunk k chunkSize =>
        rw [BudgetEvent.owner, Option.some.injEq] at howner
        exact Budget.call_others h (howner ▸ hne)
    | releaseChunk k chunkSize =>
        rw [BudgetEvent.owner, Option.some.injEq] at howner
        exact Budget.call_others h (howner ▸ hne)
    | drop k =>
        rw [BudgetEvent.owner, Option.some.injEq] at howner
        exact Budget.call_others h (howner ▸ hne)
    | atomic k spurious =>
        rw [BudgetEvent.owner, Option.some.injEq] at howner
        simp only [Budget.advance] at h
        split at h
        · simp only [Option.map_eq_some_iff] at h
          obtain ⟨stepped, -, rfl⟩ := h
          exact List.getElem?_set_ne (howner ▸ Ne.symm hne)
        · simp at h
    | finish k =>
        rw [BudgetEvent.owner, Option.some.injEq] at howner
        simp only [Budget.advance] at h
        split at h
        · simp only [Option.map_eq_some_iff] at h
          obtain ⟨finished, -, rfl⟩ := h
          exact List.getElem?_set_ne (howner ▸ Ne.symm hne)
        · simp at h
  · simp at h

/-- In every interleaving the counter is the sum of the shares and within the limit.  A
call that failed added nothing to the counter and left its reservation as it was, and the
code of one reservation never changes another.  No release finds the counter too small,
and after all drops the counter is zero. -/
theorem budget_accounting (kind : BudgetKind) {budget : Budget}
    (h : (budgetSystem kind).Reachable budget) :
    budget.counter = (budget.reservations.map Reservation.size).sum ∧
      (∀ limit, kind.limit = some limit → budget.counter ≤ limit) ∧
      (∀ reservation ∈ budget.reservations, ∀ error,
        reservation.returned = some (.error error) →
          reservation.applied = 0 ∧ reservation.size = reservation.before) ∧
      (∀ event next i, budget.step kind event = some next → event.owner = some i →
        ∀ j, j ≠ i → next.reservations[j]? = budget.reservations[j]?) ∧
      (∀ reservation ∈ budget.reservations, reservation.phase.underflowed = false) ∧
      ((∀ reservation ∈ budget.reservations, reservation.phase = .dropped) →
        budget.counter = 0) := by
  have haccounted := accounted_of_reachable h
  refine ⟨haccounted.sum, haccounted.limit, ?_, ?_, ?_, ?_⟩
  · intro reservation hmem error hfailed
    exact (haccounted.valid reservation hmem).failed error hfailed
  · exact fun event next i hstep howner => step_others hstep howner
  · intro reservation hmem
    have hcall := (haccounted.valid reservation hmem).inCall
    unfold Reservation.InCall at hcall
    unfold Phase.underflowed
    split
    · rename_i hphase
      rw [hphase] at hcall
      exact absurd rfl hcall.2.2
    · rename_i hphase
      rw [hphase] at hcall
      exact absurd rfl hcall.2
    · rfl
  · intro hdropped
    rw [haccounted.sum]
    apply List.sum_eq_zero_iff_forall_eq_nat.mpr
    intro size hmem
    obtain ⟨reservation, hreservation, rfl⟩ := List.mem_map.mp hmem
    simp [Reservation.size, hdropped reservation hreservation]

/-! Two responses share a budget of ten bytes.  Both look at the counter before either
stores, so the exchange of the second one fails, and its second look finds the limit.  The
first one gives four bytes back and is dropped. -/

/-- The run. -/
def exampleEvents : List BudgetEvent :=
  [.startResponse, .startResponse, .reserveChunk 0 6, .reserveChunk 1 5, .atomic 0 false,
    .atomic 1 false, .atomic 0 false, .atomic 1 false, .finish 1, .finish 0, .releaseChunk 0 4,
    .atomic 0 false, .atomic 0 true, .atomic 0 false, .finish 0]

theorem budget_accounting_example :
    ∃ budget, (budgetSystem (.buffered (some 10))).run exampleEvents = some budget ∧
      budget.counter = 2 ∧ budget.rejections = 1 ∧
      budget.reservations.map Reservation.size = [2, 0] ∧
      budget.counter = (budget.reservations.map Reservation.size).sum := by
  have hrun : (budgetSystem (.buffered (some 10))).run exampleEvents = some _ := rfl
  refine ⟨_, hrun, by decide, by decide, by decide, ?_⟩
  exact (budget_accounting (.buffered (some 10)) (TransitionSystem.reachable_of_run hrun)).1

end FogHttp.Budgets
