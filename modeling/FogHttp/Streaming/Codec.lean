import FogHttp.Lib.Fallible
import FogHttp.Streaming.Ledger

/-!
# The codecs

`Codec` is one of the three decoders of a layer.  Each of its steps calls one
function of `flate2` or `brotli` once, and makes a status of what the function
reports.

The functions themselves are not in the repository.  `Decompressors` holds them
over opaque decoder states.  A function that writes returns what it has written;
the output buffer of the source starts with these bytes, and the sink of a gzip
decoder holds them.

`Decompressors.Truthful` is what the codecs rely on: the reported counts are
those of the call, a Brotli decoder that asks for more input has consumed what it
was offered, and a finite input has a finite output.  `CodecLibrary.Progressive`
is what the streaming decoder gets from it, for any codec library.
`progressive_codecs` derives the second from the first.
-/

namespace FogHttp.Streaming

open Lib

/-! ## The functions of the decompressors -/

/-- `io::Error`, by the kinds that the codecs tell apart. -/
inductive IoError where
  | wouldBlock
  | other (message : Text)
deriving DecidableEq, Repr

/-- `flate2::Status`. -/
inductive Status where
  | ok
  | bufError
  | streamEnd
deriving DecidableEq, Repr

/-- `brotli::BrotliResult`. -/
inductive BrotliResult where
  | resultSuccess
  | resultFailure
  | needsMoreInput
  | needsMoreOutput
deriving DecidableEq, Repr

/-- What `BrotliDecompressStream` reports. -/
structure BrotliCall where
  result : BrotliResult
  consumed : Nat
  written : Bytes
deriving DecidableEq, Repr

/-- The functions of `flate2` and `brotli`.  The last number of a call is the room
for its output. -/
structure Decompressors (γ δ β : Type) where
  /-- `MultiGzDecoder::new`. -/
  newMultiGzDecoder : γ
  write : γ → Bytes → Nat → Except IoError Nat × γ × Bytes
  flush : γ → Nat → Except IoError Unit × γ × Bytes
  tryFinish : γ → Nat → Except IoError Unit × γ × Bytes
  /-- `Decompress::new`. -/
  newDecompress : δ
  totalIn : δ → Nat
  totalOut : δ → Nat
  decompress : δ → Bytes → Nat → Except Text Status × δ × Bytes
  /-- `BrotliState::new_strict`. -/
  newBrotliState : β
  brotliDecompressStream : β → Bytes → Nat → BrotliCall × β

variable {γ δ β : Type}

/-! ## The steps -/

structure Gzip (γ : Type) where
  decoder : γ
  flushPending : Bool
deriving DecidableEq, Repr

inductive Codec (γ δ β : Type) where
  | gzip (decoder : Gzip γ)
  | deflate (decoder : δ)
  | brotli (decoder : β)
deriving DecidableEq, Repr

def truncated : Text := "truncated content coding"
def noProgress : Text := "decoder made no progress"
def counterOverflow : Text := "codec byte counter overflow"
def invalidBrotli : Text := "invalid Brotli stream"
def gzipNoProgress : Text := "gzip decoder made no progress"

/-- `usize::try_from` on a byte counter. -/
def usizeTryFrom (count : Nat) : Except Text Nat :=
  if count < usizeRange then .ok count else .error counterOverflow

/-- The library operation of `Gzip::step`: the consumed bytes, the status and the next
`flush_pending`, with the decoder and the sink after it. -/
def Gzip.operation (decompressors : Decompressors γ δ β) (gzip : Gzip γ) (input : Bytes)
    (eof : Bool) (limit : Nat) : Except IoError (Nat × CodecStatus × Bool) × γ × Bytes :=
  if gzip.flushPending then
    let (result, decoder, sink) := decompressors.flush gzip.decoder limit
    (result.map fun _ => (0, .needsInput, false), decoder, sink)
  else if input.isEmpty then
    if eof then
      let (result, decoder, sink) := decompressors.tryFinish gzip.decoder limit
      (result.map fun _ => (0, .ended, gzip.flushPending), decoder, sink)
    else (.ok (0, .needsInput, gzip.flushPending), gzip.decoder, [])
  else
    let (result, decoder, sink) := decompressors.write gzip.decoder input limit
    (result.map fun consumed => (consumed, .progress, true), decoder, sink)

/-- The end of `Gzip::step`, behind the test for `WouldBlock`. -/
def Gzip.settle (gzip : Gzip γ) (consumed : Nat) (status : CodecStatus) (sink : Bytes) :
    Except Text (Gzip γ × CodecStep) :=
  if consumed = 0 ∧ sink.length = 0 ∧ status = .progress then .error gzipNoProgress
  else .ok (gzip, ⟨consumed, sink, status⟩)

/-- `Gzip::step`. -/
def Gzip.step (decompressors : Decompressors γ δ β) (gzip : Gzip γ) (input : Bytes) (eof : Bool)
    (limit : Nat) : Except Text (Gzip γ × CodecStep) :=
  match gzip.operation decompressors input eof limit with
  | (.ok (consumed, status, flushPending), decoder, sink) =>
      Gzip.settle ⟨decoder, flushPending⟩ consumed status sink
  -- A blocked write consumes no supplied input.
  | (.error .wouldBlock, decoder, sink) => Gzip.settle ⟨decoder, true⟩ 0 .progress sink
  | (.error (.other message), _, _) => .error message

/-- The status of a call of `Decompress::decompress`. -/
def deflateStatus (result : Status) (consumed produced : Nat) (input : Bytes) (eof : Bool) :
    Except Text CodecStatus :=
  if result = .streamEnd then .ok .ended
  else if produced ≠ 0 ∨ consumed ≠ 0 ∧ consumed < input.length then .ok .progress
  else if consumed = input.length then if eof then .error truncated else .ok .needsInput
  else .error noProgress

/-- The deflate branch of `Codec::step`. -/
def deflateStep (decompressors : Decompressors γ δ β) (decoder : δ) (input : Bytes) (eof : Bool)
    (room : Nat) : Except Text (δ × CodecStep) :=
  match decompressors.decompress decoder input room with
  | (.error message, _, _) => .error message
  | (.ok result, next, written) => do
      let consumed ← usizeTryFrom (decompressors.totalIn next - decompressors.totalIn decoder)
      let produced ← usizeTryFrom (decompressors.totalOut next - decompressors.totalOut decoder)
      let status ← deflateStatus result consumed produced input eof
      .ok (next, ⟨consumed, written.take produced, status⟩)

/-- The status of a call of `BrotliDecompressStream`. -/
def brotliStatus (result : BrotliResult) (consumed produced : Nat) (eof : Bool) :
    Except Text CodecStatus :=
  match result with
  | .resultSuccess => .ok .ended
  | .resultFailure => .error invalidBrotli
  | .needsMoreInput =>
      if eof then .error truncated
      -- Brotli can still have ring-buffer output pending.
      else if produced ≠ 0 then .ok .progress else .ok .needsInput
  | .needsMoreOutput =>
      if consumed = 0 ∧ produced = 0 then .error noProgress else .ok .progress

/-- The Brotli branch of `Codec::step`. -/
def brotliStep (decompressors : Decompressors γ δ β) (decoder : β) (input : Bytes) (eof : Bool)
    (room : Nat) : Except Text (β × CodecStep) := do
  let (call, next) := decompressors.brotliDecompressStream decoder input room
  let status ← brotliStatus call.result call.consumed call.written.length eof
  .ok (next, ⟨call.consumed, call.written, status⟩)

namespace Codec

/-- `Codec::new`. -/
def new (decompressors : Decompressors γ δ β) : Coding → Codec γ δ β
  | .gzip => .gzip ⟨decompressors.newMultiGzDecoder, false⟩
  | .deflate => .deflate decompressors.newDecompress
  | .brotli => .brotli decompressors.newBrotliState

/-- `Codec::step`. -/
def step (decompressors : Decompressors γ δ β) (codec : Codec γ δ β) (input : Bytes) (eof : Bool)
    (room : Nat) : Except Text (Codec γ δ β × CodecStep) :=
  match codec with
  | .gzip decoder =>
      (decoder.step decompressors input eof room).map fun (decoder, step) =>
        (.gzip decoder, step)
  | .deflate decoder =>
      (deflateStep decompressors decoder input eof room).map fun (decoder, step) =>
        (.deflate decoder, step)
  | .brotli decoder =>
      (brotliStep decompressors decoder input eof room).map fun (decoder, step) =>
        (.brotli decoder, step)

/-- A codec that has no library operation of its own pending. -/
def Idle : Codec γ δ β → Prop
  | .gzip decoder => decoder.flushPending = false
  | .deflate _ => True
  | .brotli _ => True

end Codec

/-- The codecs over the decompressors. -/
def codecs (decompressors : Decompressors γ δ β) : CodecLibrary (Codec γ δ β) where
  new := Codec.new decompressors
  step := Codec.step decompressors

/-! ## The contracts -/

/-- What the codecs rely on.  `bound` is a bound for the output of an input. -/
structure Decompressors.Truthful (decompressors : Decompressors γ δ β)
    (bound : Coding → Bytes → Nat) : Prop where
  write : ∀ {decoder next : γ} {input sink : Bytes} {limit consumed : Nat},
    decompressors.write decoder input limit = (.ok consumed, next, sink) →
    consumed ≤ input.length
  totals : ∀ {decoder next : δ} {input written : Bytes} {room : Nat} {result : Status},
    decompressors.decompress decoder input room = (.ok result, next, written) →
    decompressors.totalIn next - decompressors.totalIn decoder ≤ input.length ∧
      decompressors.totalOut next = decompressors.totalOut decoder + written.length
  brotli : ∀ {decoder next : β} {input : Bytes} {room : Nat} {call : BrotliCall},
    decompressors.brotliDecompressStream decoder input room = (call, next) →
    call.consumed ≤ input.length ∧
      (call.result = .needsMoreInput → call.consumed = input.length)
  finite : ∀ {coding : Coding} {codec : Codec γ δ β} {taken given : Bytes},
    CodecRun (codecs decompressors) coding codec taken given →
    given.length ≤ bound coding taken

/-- What an accepted codec call tells the decoder.  `idle` says that nothing was pending in the
codec before the call, and `idle'` the same after it. -/
structure Fair (idle idle' : Prop) (input : Bytes) (eof : Bool) (result : CodecStep) : Prop where
  consumed_le : result.consumed ≤ input.length
  progress : result.status = .progress → result.consumed ≠ 0 ∨ result.output ≠ []
  asks : result.status = .needsInput → idle'
  starved : idle → result.status = .needsInput → eof = false ∧ result.consumed = input.length

/-- The contract of a codec library that makes progress. -/
structure CodecLibrary.Progressive {σ : Type} (library : CodecLibrary σ) (Idle : σ → Prop)
    (bound : Coding → Bytes → Nat) : Prop where
  new : ∀ coding, Idle (library.new coding)
  call : ∀ {codec next : σ} {input : Bytes} {eof : Bool} {capacity : Nat} {result : CodecStep},
    library.step codec input eof capacity = .ok (next, result) →
    Fair (Idle codec) (Idle next) input eof result
  finite : ∀ {coding : Coding} {codec : σ} {taken given : Bytes},
    CodecRun library coding codec taken given → given.length ≤ bound coding taken

/-! ## The codecs make progress -/

variable {decompressors : Decompressors γ δ β} {bound : Coding → Bytes → Nat} {input : Bytes}
  {eof : Bool} {room : Nat} {result : CodecStep}

/-- An accepted end of `Gzip::step` reports progress only with bytes. -/
theorem Gzip.settle_eq {gzip next : Gzip γ} {consumed : Nat} {status : CodecStatus} {sink : Bytes}
    (h : Gzip.settle gzip consumed status sink = .ok (next, result)) :
    next = gzip ∧ result = ⟨consumed, sink, status⟩ ∧
      (status = .progress → consumed ≠ 0 ∨ sink ≠ []) := by
  unfold Gzip.settle at h
  split at h
  · simp at h
  · rename_i hprogress
    simp only [Except.ok.injEq, Prod.mk.injEq] at h
    refine ⟨h.1.symm, h.2.symm, fun hstatus => ?_⟩
    by_contra hnone
    simp only [ne_eq, not_or, not_not] at hnone
    exact hprogress ⟨hnone.1, by simp [hnone.2], hstatus⟩

/-- What an operation of a gzip decoder returns: it asks for input with nothing pending, and when
nothing was pending before, only because there is no input yet. -/
theorem Gzip.operation_spec {gzip : Gzip γ} {limit consumed : Nat} {status : CodecStatus}
    {flushPending : Bool} {decoder : γ} {sink : Bytes} (h : decompressors.Truthful bound)
    (hcall : gzip.operation decompressors input eof limit =
      (.ok (consumed, status, flushPending), decoder, sink)) :
    consumed ≤ input.length ∧ (status = .needsInput → flushPending = false) ∧
      (gzip.flushPending = false → status = .needsInput → eof = false ∧ input = []) := by
  unfold Gzip.operation at hcall
  split at hcall
  · rename_i hpending
    cases hflush : decompressors.flush gzip.decoder limit with
    | mk outcome rest =>
        cases outcome with
        | error error => simp [hflush, Except.map] at hcall
        | ok value =>
            simp only [hflush, Except.map, Prod.mk.injEq, Except.ok.injEq] at hcall
            obtain ⟨⟨rfl, rfl, rfl⟩, -⟩ := hcall
            exact ⟨Nat.zero_le _, fun _ => rfl, fun hidle => absurd hpending (by simp [hidle])⟩
  · rename_i hpending
    split at hcall
    · rename_i hempty
      split at hcall
      · cases hfinish : decompressors.tryFinish gzip.decoder limit with
        | mk outcome rest =>
            cases outcome with
            | error error => simp [hfinish, Except.map] at hcall
            | ok value =>
                simp only [hfinish, Except.map, Prod.mk.injEq, Except.ok.injEq] at hcall
                obtain ⟨⟨rfl, rfl, rfl⟩, -⟩ := hcall
                exact ⟨Nat.zero_le _, by simp, by simp⟩
      · rename_i heof
        simp only [Prod.mk.injEq, Except.ok.injEq] at hcall
        obtain ⟨⟨rfl, rfl, rfl⟩, -⟩ := hcall
        exact ⟨Nat.zero_le _, fun _ => by simpa using hpending,
          fun _ _ => ⟨by simpa using heof, by simpa using hempty⟩⟩
    · cases hwrite : decompressors.write gzip.decoder input limit with
      | mk outcome rest =>
          cases outcome with
          | error error => simp [hwrite, Except.map] at hcall
          | ok value =>
              have hle : value ≤ input.length := h.write hwrite
              simp only [hwrite, Except.map, Prod.mk.injEq, Except.ok.injEq] at hcall
              obtain ⟨⟨rfl, rfl, rfl⟩, -⟩ := hcall
              exact ⟨hle, by simp, by simp⟩

/-- The step lemma of the gzip codec. -/
theorem Gzip.fair_step {gzip next : Gzip γ} (h : decompressors.Truthful bound)
    (hstep : gzip.step decompressors input eof room = .ok (next, result)) :
    Fair (gzip.flushPending = false) (next.flushPending = false) input eof result := by
  unfold Gzip.step at hstep
  split at hstep
  · rename_i consumed status flushPending decoder sink hcall
    obtain ⟨hle, hasks, hstarved⟩ := Gzip.operation_spec h hcall
    obtain ⟨rfl, rfl, hprogress⟩ := Gzip.settle_eq hstep
    refine ⟨hle, hprogress, hasks, fun hidle hstatus => ?_⟩
    obtain ⟨heof, rfl⟩ := hstarved hidle hstatus
    exact ⟨heof, Nat.le_zero.mp hle⟩
  · obtain ⟨rfl, rfl, hprogress⟩ := Gzip.settle_eq hstep
    exact ⟨Nat.zero_le _, hprogress, by simp, by simp⟩
  · simp at hstep

theorem usizeTryFrom_eq {count value : Nat} (h : usizeTryFrom count = .ok value) :
    value = count := by
  unfold usizeTryFrom at h
  split at h
  · exact (Except.ok.inj h).symm
  · simp at h

/-- The step lemma of the deflate codec. -/
theorem fair_deflateStep {decoder next : δ} (h : decompressors.Truthful bound)
    (hstep : deflateStep decompressors decoder input eof room = .ok (next, result)) :
    Fair True True input eof result := by
  unfold deflateStep at hstep
  split at hstep
  · simp at hstep
  · rename_i status after written hcall
    obtain ⟨hin, hout⟩ := h.totals hcall
    obtain ⟨consumed, hconsumed, hstep⟩ := bind_eq_ok.mp hstep
    obtain ⟨produced, hproduced, hstep⟩ := bind_eq_ok.mp hstep
    obtain ⟨codecStatus, hstatus, hstep⟩ := bind_eq_ok.mp hstep
    have hconsumed := usizeTryFrom_eq hconsumed
    have hproduced := usizeTryFrom_eq hproduced
    simp only [Except.ok.injEq, Prod.mk.injEq] at hstep
    obtain ⟨-, rfl⟩ := hstep
    have hlength : produced = written.length := by omega
    unfold deflateStatus at hstatus
    refine ⟨by dsimp only; omega, ?_, fun _ => trivial, ?_⟩
    · intro hprogress
      dsimp only at hprogress ⊢
      subst hprogress
      split at hstatus
      · simp at hstatus
      · split at hstatus
        · rename_i hmoved
          rcases hmoved with hmoved | ⟨hmoved, -⟩
          · refine .inr fun hnil => hmoved ?_
            rw [hlength, List.take_length] at hnil
            rw [hlength, hnil, List.length_nil]
          · exact .inl hmoved
        · split at hstatus
          · split at hstatus <;> simp at hstatus
          · simp at hstatus
    · intro _ hneeds
      dsimp only at hneeds ⊢
      subst hneeds
      split at hstatus
      · simp at hstatus
      · split at hstatus
        · simp at hstatus
        · split at hstatus
          · rename_i hall
            split at hstatus
            · simp at hstatus
            · rename_i heof
              exact ⟨by simpa using heof, hall⟩
          · simp at hstatus

/-- The step lemma of the Brotli codec. -/
theorem fair_brotliStep {decoder next : β} (h : decompressors.Truthful bound)
    (hstep : brotliStep decompressors decoder input eof room = .ok (next, result)) :
    Fair True True input eof result := by
  unfold brotliStep at hstep
  cases hcall : decompressors.brotliDecompressStream decoder input room with
  | mk call after =>
      obtain ⟨hle, hall⟩ := h.brotli hcall
      rw [hcall] at hstep
      obtain ⟨status, hstatus, hstep⟩ := bind_eq_ok.mp hstep
      simp only [Except.ok.injEq, Prod.mk.injEq] at hstep
      obtain ⟨-, rfl⟩ := hstep
      unfold brotliStatus at hstatus
      refine ⟨hle, ?_, fun _ => trivial, ?_⟩
      · intro hprogress
        dsimp only at hprogress ⊢
        subst hprogress
        split at hstatus
        · simp at hstatus
        · simp at hstatus
        · split at hstatus
          · simp at hstatus
          · split at hstatus
            · rename_i hwritten
              exact .inr fun hnil => hwritten (by rw [hnil, List.length_nil])
            · simp at hstatus
        · split at hstatus
          · simp at hstatus
          · rename_i hmoved
            by_contra hnone
            simp only [ne_eq, not_or, not_not] at hnone
            exact hmoved ⟨hnone.1, by simp [hnone.2]⟩
      · intro _ hneeds
        dsimp only at hneeds ⊢
        subst hneeds
        split at hstatus
        · simp at hstatus
        · simp at hstatus
        · rename_i hresult
          split at hstatus
          · simp at hstatus
          · rename_i heof
            exact ⟨by simpa using heof, hall hresult⟩
        · split at hstatus <;> simp at hstatus

/-- The codecs make progress when the decompressors are truthful. -/
theorem progressive_codecs (h : decompressors.Truthful bound) :
    (codecs decompressors).Progressive Codec.Idle bound := by
  refine ⟨?_, ?_, h.finite⟩
  · intro coding
    cases coding with
    | gzip => exact rfl
    | deflate => trivial
    | brotli => trivial
  · intro codec next input eof capacity result hcall
    cases codec with
    | gzip gzip =>
        obtain ⟨⟨after, step⟩, hstep, heq⟩ := map_eq_ok.mp hcall
        obtain ⟨rfl, rfl⟩ := Prod.mk.inj heq
        exact Gzip.fair_step h hstep
    | deflate decoder =>
        obtain ⟨⟨after, step⟩, hstep, heq⟩ := map_eq_ok.mp hcall
        obtain ⟨rfl, rfl⟩ := Prod.mk.inj heq
        exact fair_deflateStep h hstep
    | brotli decoder =>
        obtain ⟨⟨after, step⟩, hstep, heq⟩ := map_eq_ok.mp hcall
        obtain ⟨rfl, rfl⟩ := Prod.mk.inj heq
        exact fair_brotliStep h hstep

end FogHttp.Streaming
