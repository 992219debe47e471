import FogHttp.Streaming.Ledger

/-!
# One step of the decoder

Every step of the decoder keeps the ledger.  `Keeps` says what that means for
the two outcomes of a step: an accepted step moves the bytes on, and a failed
one moves nothing.

The lemmas follow the functions of the source.  `keeps_runLayer` is the codec
call, where the contract of the codecs is used.  `keeps_drain` is the loop over
the layers, by induction on the layers that are left.  `keeps_identity` is the
decoder without layers, and `keeps_step` joins them.
-/

namespace FogHttp.Streaming

open Lib

variable {σ : Type} {library : CodecLibrary σ} {decode : Coding → Bytes → Bytes}
  {codings : List Coding} {body remaining output : Bytes} {decoder : StreamingDecoder σ}

/-- What a step preserves: an accepted step moves the bytes on, and a failed
one moves nothing. -/
def Keeps (library : CodecLibrary σ) (decode : Coding → Bytes → Bytes) (codings : List Coding)
    (body remaining output : Bytes) :
    Except StreamDecodeError Step × StreamingDecoder σ → Prop
  | (.ok step, next) =>
      Piped library decode codings body (remaining.drop step.consumed)
          (output ++ step.output.getD []) next ∧
        next.failure = none ∧
        (step.status = .finished → step.output = none ∧ next.finished = true)
  | (.error error, next) =>
      Piped library decode codings body remaining output { next with failure := some error }

theorem checkedAdd_eq_some {left right total : Nat} (h : checkedAdd left right = some total) :
    total = left + right ∧ total < usizeRange := by
  unfold checkedAdd at h
  split at h
  · rename_i hlt
    rw [Option.some.injEq] at h
    omega
  · simp at h

theorem LayerState.ofStatus_eq_ended {status : CodecStatus}
    (h : LayerState.ofStatus status = .ended) : status = .ended := by
  cases status <;> simp [LayerState.ofStatus] at h ⊢

/-- A codec call leaves its layer unfinished. -/
theorem LayerState.ofStatus_ne_finished (status : CodecStatus) :
    LayerState.ofStatus status ≠ .finished := by
  cases status <;> simp [LayerState.ofStatus]

/-- The contract at the call of `run_layer`, which offers the first bytes of
`available`: the call takes a prefix of `available`, and the run goes on. -/
theorem CodecLibrary.Lawful.call {coding : Coding} {codec next : σ}
    {taken given available : Bytes} {offered capacity : Nat} {eof : Bool} {result : CodecStep}
    (hlawful : library.Lawful decode) (hrun : CodecRun library coding codec taken given)
    (hcall : library.step codec (available.take offered) eof capacity = .ok (next, result)) :
    result.consumed ≤ available.length ∧
      CodecRun library coding next (taken ++ available.take result.consumed)
        (given ++ result.output) ∧
      (LayerState.ofStatus result.status = .ended →
        given ++ result.output = decode coding (taken ++ available.take result.consumed)) := by
  have hconsumed := hlawful.consumed_le hrun hcall
  have hnext := hrun.offered hconsumed hcall
  rw [List.length_take] at hconsumed
  refine ⟨by omega, hnext, fun hstatus => ?_⟩
  have hdecoded := hlawful.ended hrun hcall (LayerState.ofStatus_eq_ended hstatus)
  rwa [List.take_take, Nat.min_eq_left (by omega)] at hdecoded

/-- A layer after an accepted call on `available`. -/
def Layer.called (layer : Layer σ) (index : Nat) (available : Bytes) (codec : σ)
    (produced : Nat) (result : CodecStep) : Layer σ :=
  { layer with
    codec
    produced
    input := if index = 0 then layer.input else layer.input.drop result.consumed
    state := .ofStatus result.status
    taken := layer.taken ++ available.take result.consumed
    given := layer.given ++ result.output }

/-- An accepted call relays.  Layer 0 takes from the body, and a later layer from
its slot. -/
theorem Piped.called {input follow available delivered : Bytes} {index produced : Nat}
    {layer : Layer σ} {codec : σ} {result : CodecStep} {next : StreamingDecoder σ}
    (h : Piped library decode codings body remaining output decoder)
    (hlayer : decoder.layers[index]? = some layer) (hopen : layer.state ≠ .finished)
    (hfree : decoder.occupied (index + 1) = false) (hinput : remaining = input ++ follow)
    (havailable : (if index = 0 then input else layer.input) = available)
    (hle : result.consumed ≤ available.length)
    (hrun : CodecRun library layer.coding codec (layer.taken ++ available.take result.consumed)
      (layer.given ++ result.output))
    (hended : LayerState.ofStatus result.status = .ended → layer.given ++ result.output =
      decode layer.coding (layer.taken ++ available.take result.consumed))
    (hlayers : next.layers = StreamingDecoder.fillSlot (decoder.layers.set index
      (layer.called index available codec produced result)) (index + 1) (passedOn result.output))
    (hfailure : next.failure = decoder.failure) (hfinished : next.finished = false)
    (hencoded : next.encodedBytes < usizeRange)
    (hdelivered : delivered =
      if index + 1 < decoder.layers.length then output else output ++ result.output) :
    Piped library decode codings body
      (remaining.drop (if index = 0 then result.consumed else 0)) delivered next := by
  rw [hdelivered]
  refine h.relay hlayer hopen hfree hlayers rfl rfl rfl ?_ ?_
    (LayerState.ofStatus_ne_finished result.status) hended hrun hfailure hfinished hencoded
  · intro hzero
    rw [if_pos hzero] at havailable ⊢
    subst havailable
    refine ⟨if_pos hzero, ?_⟩
    rw [hinput, List.drop_append_of_le_length hle, ← List.append_assoc, List.take_append_drop]
  · intro hne
    rw [if_neg hne] at havailable ⊢
    refine ⟨?_, by rw [List.drop_zero]⟩
    rw [Layer.called]
    dsimp only
    rw [if_neg hne, ← havailable, List.take_append_drop]

/-- The step lemma of `run_layer`. -/
theorem keeps_runLayer {input follow : Bytes} {index : Nat} {layer : Layer σ}
    (hlawful : library.Lawful decode)
    (h : Piped library decode codings body remaining output decoder)
    (hfailure : decoder.failure = none) (hnotFinished : decoder.finished = false)
    (hlayer : decoder.layers[index]? = some layer) (hopen : layer.state ≠ .finished)
    (hfree : decoder.occupied (index + 1) = false) (hinput : remaining = input ++ follow)
    (upstreamEof : Bool) :
    Keeps library decode codings body remaining output
      (StreamingDecoder.runLayer library decoder index layer input upstreamEof) := by
  have hrun := h.runs hfailure index layer hlayer
  unfold StreamingDecoder.runLayer
  dsimp only
  generalize havailable : (if index = 0 then input else layer.input) = available
  cases hcall : library.step layer.codec (available.take (min available.length inputSize))
      (upstreamEof && min available.length inputSize == available.length)
      (decoder.capacity layer.produced) with
  | error source => exact h.refused _
  | ok called =>
      obtain ⟨codec, result⟩ := called
      dsimp only
      obtain ⟨hle, hnext, hended⟩ := hlawful.call hrun hcall
      cases hcheck : checkedOutput layer.produced result.output.length decoder.maxDecodedBytes
          layer.coding.name index with
      | error error => exact h.failed hlayer rfl error
      | ok produced =>
          dsimp only
          cases hadd : checkedAdd decoder.encodedBytes
              (if index = 0 then result.consumed else 0) with
          | none =>
              by_cases hzero : index = 0
              · simp only [hzero, if_true] at hadd ⊢
                subst hzero
                exact h.failed hlayer rfl _
              · -- A later layer adds nothing to the counter.
                have hencoded := h.encoded
                simp [checkedAdd, hzero, hencoded] at hadd
          | some encodedBytes =>
              dsimp only
              obtain ⟨-, hencoded⟩ := checkedAdd_eq_some hadd
              split
              · rename_i hbehind
                refine ⟨?_, hfailure, by simp⟩
                refine h.called hlayer hopen hfree hinput havailable hle hnext hended rfl rfl
                  hnotFinished hencoded ?_
                rw [if_pos hbehind, Option.getD_none, List.append_nil]
              · rename_i hbehind
                refine ⟨?_, hfailure, by simp⟩
                refine h.called hlayer hopen hfree hinput havailable hle hnext hended
                  (fillSlot_of_le _ (by rw [List.length_set]; omega)).symm rfl hnotFinished
                  hencoded ?_
                rw [if_neg hbehind]
                exact congrArg (output ++ ·) (getD_passedOn result.output)

/-- The end of the loop: the flag says whether every layer is finished. -/
theorem Piped.settle (h : Piped library decode codings body remaining output decoder)
    (hlayers : decoder.layers ≠ []) :
    Piped library decode codings body remaining output
      { decoder with finished := decoder.layers.all fun layer => layer.state == .finished } := by
  refine ⟨h.codings, h.linked, h.first, h.last, fun hnil => absurd hnil hlayers, h.ended,
    h.runs, ?_, h.encoded⟩
  intro hdone i layer hi
  have hall := List.all_eq_true.mp hdone layer (List.mem_iff_getElem?.mpr ⟨i, hi⟩)
  simpa using hall

/-- A layer that has ended is finished at the end of its input. -/
theorem Piped.closeLayer {input follow : Bytes} {realEof : Bool} {index : Nat} {layer : Layer σ}
    (h : Piped library decode codings body remaining output decoder)
    (hlayer : decoder.layers[index]? = some layer) (hended : layer.state = .ended)
    (hinput : remaining = input ++ follow) (heof : realEof = true → follow = [])
    (hfront : (if index = 0 then input else layer.input) = [])
    (hupstream : decoder.upstreamEof index realEof = true) :
    Piped library decode codings body remaining output
      { decoder with layers := decoder.layers.set index { layer with state := .finished } } := by
  refine h.finishLayer hlayer hended ?_ ?_ ?_
  · by_cases hzero : index = 0
    · exact (h.first layer (hzero ▸ hlayer)).1
    · rwa [if_neg hzero] at hfront
  · intro hzero
    subst hzero
    rw [if_pos rfl] at hfront
    rw [hinput, hfront, heof hupstream, List.append_nil]
  · intro upstream up hindex hup
    subst hindex
    simpa [StreamingDecoder.upstreamEof, hup] using hupstream

/-- The step lemma of the loop of `advance`, by induction on the layers that are
left. -/
theorem keeps_drain {input follow : Bytes} {realEof : Bool}
    (hlawful : library.Lawful decode) (hinput : remaining = input ++ follow)
    (heof : realEof = true → follow = []) (count : Nat) :
    ∀ {decoder : StreamingDecoder σ},
      Piped library decode codings body remaining output decoder →
      decoder.failure = none → decoder.finished = false → decoder.layers ≠ [] →
      Keeps library decode codings body remaining output
        (StreamingDecoder.drain library decoder input realEof count) := by
  induction count with
  | zero =>
      intro decoder h hfailure _ hlayers
      refine ⟨?_, hfailure, ?_⟩
      · simp only [List.drop_zero, Option.getD_none, List.append_nil]
        exact h.settle hlayers
      · intro hstatus
        refine ⟨rfl, ?_⟩
        dsimp only at hstatus ⊢
        split at hstatus
        · assumption
        · split at hstatus <;> simp at hstatus
  | succ index ih =>
      intro decoder h hfailure hfinished hlayers
      unfold StreamingDecoder.drain
      split
      · exact ih h hfailure hfinished hlayers
      · rename_i layer hlayer
        have hskip := ih h hfailure hfinished hlayers
        have hrunLayer : layer.state ≠ .finished → decoder.occupied (index + 1) = false →
            Keeps library decode codings body remaining output
              (StreamingDecoder.runLayer library decoder index layer input
                (decoder.upstreamEof index realEof)) := fun hopen hfree =>
          keeps_runLayer hlawful h hfailure hfinished hlayer hopen hfree hinput _
        dsimp only
        generalize hfront : (if index = 0 then input else layer.input) = available
        split
        · exact hskip
        · rename_i hended
          split
          · exact h.refused _
          · rename_i havailable
            split
            · rename_i hupstream
              have hempty : available = [] := by simpa using havailable
              rw [hempty] at hfront
              exact ih (h.closeLayer hlayer hended hinput heof hfront hupstream) hfailure hfinished
                (by simpa using hlayers)
            · exact hskip
        · rename_i hneeds
          split
          · exact hskip
          · split
            · exact hskip
            · rename_i hfree
              exact hrunLayer (by simp [hneeds]) (by simpa using hfree)
        · rename_i hready
          split
          · exact hskip
          · rename_i hfree
            exact hrunLayer (by simp [hready]) (by simpa using hfree)

/-- The step lemma of `identity`. -/
theorem keeps_identity {input follow : Bytes} {realEof : Bool}
    (h : Piped library decode codings body remaining output decoder)
    (hfailure : decoder.failure = none) (hlayers : decoder.layers = [])
    (hinput : remaining = input ++ follow) (heof : realEof = true → follow = []) :
    Keeps library decode codings body remaining output (decoder.identity input realEof) := by
  unfold StreamingDecoder.identity
  dsimp only
  cases hcheck : checkedOutput decoder.identityBytes (min input.length inputSize)
      decoder.maxDecodedBytes "identity" 0 with
  | error error => exact h.refused error
  | ok identityBytes =>
      dsimp only
      cases hadd : checkedAdd decoder.encodedBytes (min input.length inputSize) with
      | none =>
          by_cases hdone : decoder.finished = true
          · exact h.passThrough hlayers hlayers rfl (h.identity hlayers).2 h.encoded
          · exact h.passThrough hlayers hlayers rfl (fun hfin => absurd hfin hdone) h.encoded
      | some encodedBytes =>
          obtain ⟨-, hencoded⟩ := checkedAdd_eq_some hadd
          have hle : min input.length inputSize ≤ input.length := Nat.min_le_left _ _
          refine ⟨?_, hfailure, ?_⟩
          · refine h.passThrough hlayers hlayers ?_ ?_ hencoded
            · have hout : (if min input.length inputSize = 0 then none
                  else some (input.take (min input.length inputSize))).getD [] =
                  input.take (min input.length inputSize) := by
                split
                · rename_i hzero
                  simp [hzero]
                · rfl
              dsimp only
              rw [hout, hinput, List.drop_append_of_le_length hle, List.append_assoc,
                ← List.append_assoc (input.take _), List.take_append_drop]
            · intro hdone
              simp only [Bool.and_eq_true, beq_iff_eq] at hdone
              have hnil : input = [] := by
                have hzero := hdone.1
                unfold inputSize at hzero
                exact List.eq_nil_of_length_eq_zero (by omega)
              rw [hinput, hnil, heof hdone.2]
              rfl
          · intro hstatus
            dsimp only at hstatus ⊢
            split at hstatus
            · rename_i hdone
              refine ⟨?_, hdone⟩
              simp only [Bool.and_eq_true, beq_iff_eq] at hdone
              rw [if_pos hdone.1]
            · split at hstatus <;> simp at hstatus

/-- The step lemma of `step`. -/
theorem keeps_step {input follow : Bytes} {realEof : Bool} (hlawful : library.Lawful decode)
    (h : Piped library decode codings body remaining output decoder)
    (hinput : remaining = input ++ follow) (heof : realEof = true → follow = []) :
    match decoder.step library input realEof with
    | (.ok step, next) =>
        Piped library decode codings body (remaining.drop step.consumed)
            (output ++ step.output.getD []) next ∧
          (step.status = .finished → step.output = none ∧ next.finished = true)
    | (.error _, next) => Piped library decode codings body remaining output next := by
  unfold StreamingDecoder.step
  cases hfailure : decoder.failure with
  | some error => exact h
  | none =>
      have hadvance : Keeps library decode codings body remaining output
          (decoder.advance library input realEof) := by
        unfold StreamingDecoder.advance
        split
        · rename_i hfinished
          split
          · exact h.refused _
          · refine ⟨?_, hfailure, fun _ => ⟨rfl, hfinished⟩⟩
            simpa using h
        · rename_i hfinished
          split
          · rename_i hlayers
            exact keeps_identity h hfailure (by simpa using hlayers) hinput heof
          · rename_i hlayers
            exact keeps_drain hlawful hinput heof _ h hfailure (by simpa using hfinished)
              (by simpa using hlayers)
      dsimp only
      cases hresult : decoder.advance library input realEof with
      | mk outcome next =>
          rw [hresult] at hadvance
          cases outcome with
          | error error => exact hadvance
          | ok step => exact ⟨hadvance.1, hadvance.2.2⟩

end FogHttp.Streaming
