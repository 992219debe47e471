import FogHttp.Budgets.Accounting
import FogHttp.Response.Decompression

/-!
# The accounts of a buffered response

`Holds reservation size` says that a reservation has `size` bytes, that its
operations have left exactly these in the counter of the budget, and that all
its decode attempts so far began with the encoded copy alone and, if they
failed, gave back what they had taken.

There is one lemma per function.  `reserveChunk_spec` and `releaseChunk_spec`
move the size, `readRound_meets` is the loop body of a decode attempt, and from
it `decodeReaderResult_spec` says that an attempt returns, with its output on
top of the encoded copy or with nothing.  The rest of the functions only pass a
reservation on.
-/

namespace FogHttp.Response

open Lib Budgets
open Streaming (Bytes)

/-- The errors that a response can have. -/
def ResponseBodyError.Reachable (error : ResponseBodyError) : Prop :=
  error ≠ .reservationUnderflow ∧ error ≠ .decodeReservationOverflow

/-- An attempt begins with the encoded copy alone, and a failed one ends there. -/
def DecodeAttempt.Exact (attempt : DecodeAttempt) : Prop :=
  attempt.reservedBefore = attempt.encodedSize ∧
    (attempt.succeeded = false → attempt.reservedAfter = attempt.encodedSize)

structure Holds (reservation : BufferedBodyReservation) (size : Nat) : Prop where
  reserved : reservation.reservedBytes = size
  charged : reservation.charged = size
  fits : size < 2 ^ 64
  attempts : ∀ attempt ∈ reservation.attempts, attempt.Exact

variable {reservation : BufferedBodyReservation} {size : Nat}

/-! ## One call of a reservation -/

theorem holds_startResponse : Holds .startResponse 0 :=
  ⟨rfl, rfl, by decide, by simp [BufferedBodyReservation.startResponse]⟩

/-- A release of bytes that are in the counter. -/
theorem settle_release {others charged byteCount : Nat} (h : byteCount ≤ charged) :
    (releaseBufferedResponseBytes byteCount).settle (others + charged) =
      .ok (others + (charged - byteCount)) := by
  rw [AtomicLoop.settle, releaseBufferedResponseBytes]
  split
  · rename_i hzero
    have hnone : byteCount = 0 := of_decide_eq_true hzero
    rw [hnone, Nat.sub_zero]
  · have hsub : checkedSub (others + charged) byteCount = some (others + (charged - byteCount)) :=
      checkedSub_eq_some.mpr (by omega)
    simp only [hsub]

/-- A reservation that is stored adds the bytes to the counter. -/
theorem settle_reserve {maxBufferedResponseBytes : Option Nat} {counter next byteCount : Nat}
    (h : (reserveBufferedResponseBytes byteCount maxBufferedResponseBytes).settle counter =
      .ok next) : next = counter + byteCount := by
  rw [AtomicLoop.settle] at h
  split at h
  · rename_i hzero
    have hnone : byteCount = 0 := of_decide_eq_true hzero
    rw [Except.ok.injEq] at h
    omega
  · simp only [reserveBufferedResponseBytes] at h
    split at h
    · simp at h
    · rename_i sum hsum
      obtain ⟨rfl, -⟩ := checkedAdd_eq_some.mp hsum
      split at h
      · simp at h
      · rw [Except.ok.injEq] at h
        exact h.symm

theorem reserveChunk_spec (h : Holds reservation size) (maxBufferedResponseBytes : Option Nat)
    (others chunkSize : Nat) :
    (∃ next, reservation.reserveChunk maxBufferedResponseBytes others chunkSize = (.ok (), next) ∧
        Holds next (size + chunkSize)) ∨
      ∃ error, reservation.reserveChunk maxBufferedResponseBytes others chunkSize =
        (.error error, reservation) ∧ error.Reachable := by
  rw [BufferedBodyReservation.reserveChunk]
  cases hnext : checkedAdd reservation.reservedBytes chunkSize with
  | none => exact Or.inr ⟨_, rfl, by simp [ResponseBodyError.Reachable]⟩
  | some nextReservedBytes =>
      obtain ⟨rfl, hfits⟩ := checkedAdd_eq_some.mp hnext
      cases hsettle : (reserveBufferedResponseBytes chunkSize maxBufferedResponseBytes).settle
          (others + reservation.charged) with
      | error error =>
          cases error with
          | limitExceeded => exact Or.inr ⟨_, rfl, by simp [ResponseBodyError.Reachable]⟩
          | counterOverflow => exact Or.inr ⟨_, rfl, by simp [ResponseBodyError.Reachable]⟩
      | ok counter =>
          have hcounter := settle_reserve hsettle
          have hreserved := h.reserved
          have hcharged := h.charged
          refine Or.inl ⟨_, rfl, ?_, ?_, ?_, h.attempts⟩
          · show reservation.reservedBytes + chunkSize = size + chunkSize
            omega
          · show counter - others = size + chunkSize
            omega
          · omega

theorem releaseChunk_spec (h : Holds reservation size) {chunkSize : Nat} (hle : chunkSize ≤ size)
    (others : Nat) :
    ∃ next, reservation.releaseChunk others chunkSize = (.ok (), next) ∧
      Holds next (size - chunkSize) := by
  have hreserved := h.reserved
  have hcharged := h.charged
  have hfits := h.fits
  rw [BufferedBodyReservation.releaseChunk]
  split
  · rename_i hzero
    rw [hzero, Nat.sub_zero]
    exact ⟨reservation, rfl, h⟩
  · have hsub : checkedSub reservation.reservedBytes chunkSize = some (size - chunkSize) :=
      checkedSub_eq_some.mpr (by omega)
    rw [hsub]
    refine ⟨_, rfl, rfl, ?_, by omega, h.attempts⟩
    show reservation.releaseBytes others chunkSize = size - chunkSize
    rw [BufferedBodyReservation.releaseBytes, settle_release (by omega)]
    show others + (reservation.charged - chunkSize) - others = size - chunkSize
    omega

/-- The drop of a reservation leaves the counter to the others. -/
theorem settle_drop (h : Holds reservation size) (others : Nat) :
    (releaseBufferedResponseBytes reservation.reservedBytes).settle
      (others + reservation.charged) = .ok others := by
  have hreserved := h.reserved
  have hcharged := h.charged
  rw [settle_release (by omega)]
  show Except.ok (others + (reservation.charged - reservation.reservedBytes)) = .ok others
  rw [Except.ok.injEq]
  omega

/-! ## Collecting -/

theorem reachable_of_enforceResponseBodyLimit {currentSize chunkSize : Nat}
    {maxResponseBodySize : Option Nat} {error : ResponseBodyError}
    (h : enforceResponseBodyLimit currentSize chunkSize maxResponseBodySize = .error error) :
    error.Reachable := by
  have htooLarge : ∃ limit, error = .tooLarge limit := by
    unfold enforceResponseBodyLimit at h
    split at h
    · simp at h
    · rename_i limit
      split at h
      · exact ⟨limit, (Except.error.inj h).symm⟩
      · split at h
        · exact ⟨limit, (Except.error.inj h).symm⟩
        · simp at h
  obtain ⟨limit, rfl⟩ := htooLarge
  exact ⟨by simp, by simp⟩

theorem pushData_spec (limits : BodyLimits) {collected : CollectedBody} (frame : DataFrame)
    (h : Holds collected.reservation collected.content.length) :
    (∃ next, pushData limits collected frame = .ok next ∧
        Holds next.reservation next.content.length) ∨
      ∃ failure, pushData limits collected frame = .error failure ∧ failure.error.Reachable ∧
        ∃ size, Holds failure.reservation size := by
  rw [pushData]
  cases hlimit : enforceResponseBodyLimit collected.content.length frame.data.length
      limits.maxResponseBodySize with
  | error error => exact Or.inr ⟨_, rfl, reachable_of_enforceResponseBodyLimit hlimit, _, h⟩
  | ok _ =>
      rcases reserveChunk_spec h limits.maxBufferedResponseBytes frame.others frame.data.length
        with ⟨next, hreserve, hnext⟩ | ⟨error, hreserve, herror⟩
      · rw [hreserve]
        refine Or.inl ⟨_, rfl, ?_⟩
        rw [List.length_append]
        exact hnext
      · rw [hreserve]
        exact Or.inr ⟨_, rfl, herror, _, h⟩

theorem collect_spec (limits : BodyLimits) (frames : List DataFrame) :
    (∃ collected, collect limits frames = .ok collected ∧
        Holds collected.reservation collected.content.length) ∨
      ∃ failure, collect limits frames = .error failure ∧ failure.error.Reachable ∧
        ∃ size, Holds failure.reservation size := by
  have hfold : ∀ (frames : List DataFrame) (collected : CollectedBody),
      Holds collected.reservation collected.content.length →
      (∃ next, frames.foldlM (pushData limits) collected = .ok next ∧
          Holds next.reservation next.content.length) ∨
        ∃ failure, frames.foldlM (pushData limits) collected = .error failure ∧
          failure.error.Reachable ∧ ∃ size, Holds failure.reservation size := by
    intro frames
    induction frames with
    | nil => exact fun collected h => Or.inl ⟨collected, rfl, h⟩
    | cons frame frames ih =>
        intro collected h
        rw [List.foldlM_cons]
        rcases pushData_spec limits frame h with ⟨next, hpush, hnext⟩ | ⟨failure, hpush, hfailure⟩
        · rw [hpush]
          exact ih next hnext
        · rw [hpush]
          exact Or.inr ⟨failure, rfl, hfailure⟩
  exact hfold frames ⟨[], .startResponse⟩ holds_startResponse

/-! ## One attempt -/

/-- A decode attempt on top of `base` bytes. -/
structure Attempt.Holds (base : Nat) (attempt : Attempt) : Prop where
  reservation : Response.Holds attempt.reservation (base + attempt.attemptReserved)
  decoded : attempt.attemptReserved = attempt.decoded.length

/-- What an attempt leaves: its output on top of the base, or the base alone. -/
def AttemptLeaves (base : Nat) (result : Except DecodeAttemptError Bytes)
    (reservation : BufferedBodyReservation) : Prop :=
  match result with
  | .ok decoded => Holds reservation (base + decoded.length)
  | .error (.read _) => Holds reservation base
  | .error (.runtime error) => Holds reservation base ∧ error.Reachable

theorem abandon_meets {base : Nat} {attempt : Attempt} {again : Attempt → Prop}
    (h : Response.Holds attempt.reservation (base + attempt.attemptReserved)) (others : Nat)
    {error : DecodeAttemptError}
    (herror : ∀ runtime, error = .runtime runtime → runtime.Reachable) :
    (attempt.abandon others error).Meets
      (fun result final => AttemptLeaves base result final.reservation) again := by
  obtain ⟨next, hrelease, hnext⟩ := releaseChunk_spec h (Nat.le_add_left _ base) others
  rw [Nat.add_sub_cancel] at hnext
  rw [Attempt.abandon, hrelease]
  cases error with
  | read error => exact hnext
  | runtime error => exact ⟨hnext, herror error rfl⟩

/-- One round of an attempt: it ends with its accounts settled, or it has
reserved what it read. -/
theorem readRound_meets (limits : BodyLimits) {base : Nat} {attempt : Attempt} (answer : ReadAnswer)
    (h : attempt.Holds base) :
    (readRound limits answer attempt).Meets
      (fun result final => AttemptLeaves base result final.reservation)
      (fun next => next.Holds base ∧
        2 ^ 64 - next.reservation.reservedBytes < 2 ^ 64 - attempt.reservation.reservedBytes) := by
  rw [readRound]
  cases hread : answer.read with
  | error error => exact abandon_meets h.reservation _ (by simp)
  | ok bytes =>
      dsimp only
      split
      · show Holds attempt.reservation (base + attempt.decoded.length)
        rw [← h.decoded]
        exact h.reservation
      · rename_i hbytes
        have hpositive : 0 < bytes.length := by
          rw [List.isEmpty_iff] at hbytes
          exact List.length_pos_iff.mpr hbytes
        cases hlimit : enforceResponseBodyLimit attempt.decoded.length bytes.length
            limits.maxResponseBodySize with
        | error error =>
            apply abandon_meets h.reservation
            intro runtime hruntime
            rw [← DecodeAttemptError.runtime.inj hruntime]
            exact reachable_of_enforceResponseBodyLimit hlimit
        | ok _ =>
            rcases reserveChunk_spec h.reservation limits.maxBufferedResponseBytes
                answer.othersAtReserve bytes.length with ⟨next, hreserve, hnext⟩ |
              ⟨error, hreserve, herror⟩
            · have hfits := hnext.fits
              -- The attempt's share is part of the reservation, which is a `usize`.
              have hadd : checkedAdd attempt.attemptReserved bytes.length =
                  some (attempt.attemptReserved + bytes.length) :=
                checkedAdd_eq_some.mpr ⟨rfl, by omega⟩
              rw [hreserve]
              simp only [hadd]
              refine ⟨⟨?_, ?_⟩, ?_⟩
              · rw [← Nat.add_assoc]
                exact hnext
              · show attempt.attemptReserved + bytes.length = (attempt.decoded ++ bytes).length
                rw [List.length_append, h.decoded]
              · have hbefore := h.reservation.reserved
                have hafter := hnext.reserved
                show 2 ^ 64 - next.reservedBytes < 2 ^ 64 - attempt.reservation.reservedBytes
                omega
            · rw [hreserve]
              apply abandon_meets h.reservation
              intro runtime hruntime
              rw [← DecodeAttemptError.runtime.inj hruntime]
              exact herror

/-- An attempt on the encoded copy returns and leaves its accounts settled. -/
theorem decodeReaderResult_spec (limits : BodyLimits) (reader : Nat → ReadAnswer) {content : Bytes}
    (h : Holds reservation content.length) :
    ∃ result next, decodeReaderResult limits reader content reservation = (some result, next) ∧
      AttemptLeaves content.length result next := by
  have hstart : Attempt.Holds content.length ⟨[], 0, reservation⟩ := ⟨h, rfl⟩
  have hfuel : 2 ^ 64 - reservation.reservedBytes < readFuel := by
    show 2 ^ 64 - reservation.reservedBytes < 2 ^ 64 + 1
    omega
  obtain ⟨result, final, hloop, hleaves⟩ := loop_meets (Attempt.Holds content.length)
    (fun result final => AttemptLeaves content.length result final.reservation)
    (fun attempt => 2 ^ 64 - attempt.reservation.reservedBytes)
    (fun answer attempt hattempt => readRound_meets limits answer hattempt)
    readFuel reader ⟨[], 0, reservation⟩ hstart hfuel
  -- The record of the attempt is exact: it began with `reservation`.
  have hrecord : ∀ {size : Nat}, Holds final.reservation size →
      (result.isOk = false → size = content.length) →
      Holds { final.reservation with
        attempts := final.reservation.attempts ++ [⟨content.length, reservation.reservedBytes,
          final.reservation.reservedBytes, result.isOk⟩] } size := by
    intro size hfinal hfailed
    refine ⟨hfinal.reserved, hfinal.charged, hfinal.fits, ?_⟩
    intro attempt hmem
    rcases List.mem_append.mp hmem with hmem | hmem
    · exact hfinal.attempts attempt hmem
    · rw [List.mem_singleton.mp hmem]
      refine ⟨h.reserved, fun hresult => ?_⟩
      rw [← hfailed hresult]
      exact hfinal.reserved
  rw [decodeReaderResult, hloop]
  refine ⟨result, _, rfl, ?_⟩
  cases result with
  | ok decoded => exact hrecord hleaves (by simp [Except.isOk, Except.toBool])
  | error error =>
      cases error with
      | read error => exact hrecord hleaves fun _ => rfl
      | runtime error => exact ⟨hrecord hleaves.1 fun _ => rfl, hleaves.2⟩

/-! ## One coding -/

/-- What a coding leaves of a reservation. -/
def CodingLeaves (base : Nat) (result : Except ResponseBodyError Bytes)
    (reservation : BufferedBodyReservation) : Prop :=
  match result with
  | .ok decoded => Holds reservation (base + decoded.length)
  | .error error => Holds reservation base ∧ error.Reachable

theorem decodeReader_spec (limits : BodyLimits) (coding : ContentCoding)
    (reader : Nat → ReadAnswer) {content : Bytes} (h : Holds reservation content.length) :
    ∃ result next, decodeReader limits coding reader content reservation = (some result, next) ∧
      CodingLeaves content.length result next := by
  obtain ⟨result, next, hattempt, hleaves⟩ := decodeReaderResult_spec limits reader h
  rw [decodeReader, hattempt]
  refine ⟨_, next, rfl, ?_⟩
  cases result with
  | ok decoded => exact hleaves
  | error error =>
      cases error with
      | read error =>
          exact ⟨hleaves, by simp [decodeAttemptError], by simp [decodeAttemptError]⟩
      | runtime error => exact hleaves

/-- The raw attempt begins where the zlib attempt began. -/
theorem decodeDeflate_spec (limits : BodyLimits) (answers : LayerAnswers) {content : Bytes}
    (h : Holds reservation content.length) :
    ∃ result next, decodeDeflate limits answers content reservation = (some result, next) ∧
      CodingLeaves content.length result next := by
  obtain ⟨result, next, hattempt, hleaves⟩ :=
    decodeReaderResult_spec limits answers.reader h
  rw [decodeDeflate, hattempt]
  cases result with
  | ok decoded => exact ⟨_, next, rfl, hleaves⟩
  | error error =>
      cases error with
      | read error => exact decodeReader_spec limits .deflate answers.rawReader hleaves
      | runtime error => exact ⟨_, next, rfl, hleaves⟩

theorem decodeContentCoding_spec (limits : BodyLimits) (coding : ContentCoding)
    (answers : LayerAnswers) {content : Bytes} (h : Holds reservation content.length) :
    ∃ result next,
      decodeContentCoding limits coding answers content reservation = (some result, next) ∧
      CodingLeaves content.length result next := by
  cases coding with
  | gzip => exact decodeReader_spec limits .gzip answers.reader h
  | deflate => exact decodeDeflate_spec limits answers h
  | brotli => exact decodeReader_spec limits .brotli answers.reader h

/-! ## The body -/

/-- What is accounted for when a response has been received, or its error is
returned.  The last two parts are the drop: it finds the bytes of the reservation
in the counter and leaves those of the others, so nothing of the charge is left. -/
structure Settled (reservation : BufferedBodyReservation) : Prop where
  attempts : ∀ attempt ∈ reservation.attempts, attempt.reservedBefore = attempt.encodedSize ∧
    (attempt.succeeded = false → attempt.reservedAfter = attempt.encodedSize)
  returned : ∀ others, (releaseBufferedResponseBytes reservation.reservedBytes).settle
    (others + reservation.charged) = .ok others
  dropped : ∀ others, reservation.drop others = 0

theorem Holds.settled (h : Holds reservation size) : Settled reservation where
  attempts := h.attempts
  returned := settle_drop h
  dropped := by
    intro others
    rw [BufferedBodyReservation.drop, BufferedBodyReservation.releaseBytes, settle_drop h others]
    exact Nat.sub_self others

/-- The result of a response. -/
def Accounted : Except Failure ResponseBody → Prop
  | .ok body => body.reservation.reservedBytes = body.content.length ∧ Settled body.reservation
  | .error failure =>
      failure.error ≠ .reservationUnderflow ∧ failure.error ≠ .decodeReservationOverflow ∧
        Settled failure.reservation

theorem decodeLayers_spec (limits : BodyLimits) (codings : List ContentCoding)
    (answers : Nat → LayerAnswers) {body : CollectedBody}
    (h : Holds body.reservation body.content.length) :
    ∃ outcome, decodeLayers limits codings answers body = some outcome ∧ Accounted outcome := by
  induction codings generalizing answers body with
  | nil => exact ⟨_, rfl, h.reserved, h.settled⟩
  | cons coding codings ih =>
      obtain ⟨result, next, hcoding, hleaves⟩ :=
        decodeContentCoding_spec limits coding (answers 0) h
      rw [decodeLayers, hcoding]
      cases result with
      | error error =>
          obtain ⟨hnext, herror⟩ := hleaves
          exact ⟨_, rfl, herror.1, herror.2, hnext.settled⟩
      | ok decoded =>
          obtain ⟨released, hrelease, hreleased⟩ :=
            releaseChunk_spec hleaves (Nat.le_add_right _ decoded.length) (answers 0).others
          rw [Nat.add_sub_cancel_left] at hreleased
          simp only [hrelease]
          exact ih (fun n => answers (n + 1)) hreleased

/-- Every received response is accounted for, whatever its frames, its codings
and the readers of its decoders are, and whatever other responses do to the
budget.  A body holds exactly its length.  Every decode attempt begins with the
encoded copy alone, also the raw deflate attempt after a failed one, and a
failed attempt ends there.  No error comes from the accounts themselves, and
the drop of the result gives back every byte. -/
theorem buffered_decode_accounting (limits : BodyLimits) (frames : List DataFrame)
    (plan : ContentCodingPlan) (answers : Nat → LayerAnswers) :
    ∃ outcome, receiveBody limits frames plan answers = some outcome ∧ Accounted outcome := by
  rw [receiveBody]
  rcases collect_spec limits frames with ⟨collected, hcollect, hcollected⟩ |
    ⟨failure, hcollect, herror, size, hfailure⟩
  · rw [hcollect]
    cases plan with
    | leaveEncoded => exact ⟨_, rfl, hcollected.reserved, hcollected.settled⟩
    | decode codings => exact decodeLayers_spec limits (decodeOrder codings) answers hcollected
  · rw [hcollect]
    exact ⟨_, rfl, herror.1, herror.2, hfailure.settled⟩

end FogHttp.Response
