import FogHttp.Lib.Positions
import FogHttp.Streaming.Decoder

/-!
# The ledger of the decoder

`CodecRun` is a sequence of successful codec calls from a new codec, with the
bytes that it consumed and produced.  `CodecLibrary.Lawful` is the contract of
the codecs: a call consumes a prefix of its input, stays within its capacity,
and when it reports the end of the stream, the run has produced the decoding of
what it consumed.

`Piped` is the invariant of a decoder.  Between two neighbouring layers nothing
is lost: what the first gave is what the second took, followed by its slot.  The
lemmas say which changes of a decoder keep it.

* `Piped.relay`: one layer takes bytes from what is in front of it and gives
  bytes to the empty slot behind it, or to the caller.
* `Piped.failed` and `Piped.refused`: a failed step moves no byte.
* `Piped.finishLayer`: a layer that has ended is finished when nothing follows.
* `Piped.passThrough`: a decoder without layers copies the body.
-/

namespace FogHttp.Streaming

open Lib

variable {σ : Type} {library : CodecLibrary σ} {decode : Coding → Bytes → Bytes}
  {codings : List Coding} {body remaining output : Bytes} {decoder : StreamingDecoder σ}

/-! ## The contract of the codecs -/

/-- A run of successful calls of one codec. -/
inductive CodecRun (library : CodecLibrary σ) (coding : Coding) : σ → Bytes → Bytes → Prop where
  | new : CodecRun library coding (library.new coding) [] []
  | step {codec next : σ} {taken given input : Bytes} {eof : Bool} {capacity : Nat}
      {result : CodecStep} (run : CodecRun library coding codec taken given)
      (call : library.step codec input eof capacity = .ok (next, result)) :
      CodecRun library coding next (taken ++ input.take result.consumed)
        (given ++ result.output)

/-- A call that gets the first bytes of `available` takes a prefix of `available`. -/
theorem CodecRun.offered {coding : Coding} {codec next : σ} {taken given available : Bytes}
    {offered capacity : Nat} {eof : Bool} {result : CodecStep}
    (run : CodecRun library coding codec taken given)
    (hconsumed : result.consumed ≤ (available.take offered).length)
    (call : library.step codec (available.take offered) eof capacity = .ok (next, result)) :
    CodecRun library coding next (taken ++ available.take result.consumed)
      (given ++ result.output) := by
  rw [List.length_take] at hconsumed
  have hnext := run.step call
  rwa [List.take_take, Nat.min_eq_left (by omega)] at hnext

/-- What the decoder relies on.  `decode` is the decoding of a complete
stream. -/
structure CodecLibrary.Lawful (library : CodecLibrary σ) (decode : Coding → Bytes → Bytes) :
    Prop where
  consumed_le : ∀ {coding codec next taken given input eof capacity result},
    CodecRun library coding codec taken given →
    library.step codec input eof capacity = .ok (next, result) →
    result.consumed ≤ input.length
  output_le : ∀ {coding codec next taken given input eof capacity result},
    CodecRun library coding codec taken given →
    library.step codec input eof capacity = .ok (next, result) →
    result.output.length ≤ capacity
  ended : ∀ {coding codec next taken given input eof capacity result},
    CodecRun library coding codec taken given →
    library.step codec input eof capacity = .ok (next, result) →
    result.status = .ended →
    given ++ result.output = decode coding (taken ++ input.take result.consumed)

/-- The composition of the decodings of a plan. -/
def composeDecodings (decode : Coding → Bytes → Bytes) (codings : List Coding) (body : Bytes) :
    Bytes :=
  codings.foldl (fun bytes coding => decode coding bytes) body

/-! ## The invariant -/

/-- Two neighbouring layers: nothing is lost between them, and the second is
finished only after the first. -/
structure Linked (up down : Layer σ) : Prop where
  ledger : up.given = down.taken ++ down.input
  order : down.state = .finished → up.state = .finished ∧ down.input = []

/-- The invariant of a decoder for `body`, of which `remaining` has not been
consumed, and which has delivered `output`. -/
structure Piped (library : CodecLibrary σ) (decode : Coding → Bytes → Bytes)
    (codings : List Coding) (body remaining output : Bytes) (decoder : StreamingDecoder σ) :
    Prop where
  codings : ∀ i : Nat, decoder.layers[i]?.map Layer.coding = codings[i]?
  linked : ∀ (i : Nat) (up down : Layer σ), decoder.layers[i]? = some up →
    decoder.layers[i + 1]? = some down → Linked up down
  first : ∀ layer : Layer σ, decoder.layers[0]? = some layer →
    layer.input = [] ∧ layer.taken ++ remaining = body ∧
      (layer.state = .finished → remaining = [])
  last : ∀ (i : Nat) (layer : Layer σ), decoder.layers[i]? = some layer →
    i + 1 = decoder.layers.length → layer.given = output
  identity : decoder.layers = [] →
    output ++ remaining = body ∧ (decoder.finished = true → remaining = [])
  ended : ∀ (i : Nat) (layer : Layer σ), decoder.layers[i]? = some layer →
    layer.state = .ended ∨ layer.state = .finished →
    layer.given = decode layer.coding layer.taken
  runs : decoder.failure = none → ∀ (i : Nat) (layer : Layer σ),
    decoder.layers[i]? = some layer →
    CodecRun library layer.coding layer.codec layer.taken layer.given
  finished : decoder.finished = true → ∀ (i : Nat) (layer : Layer σ),
    decoder.layers[i]? = some layer → layer.state = .finished
  encoded : decoder.encodedBytes < usizeRange

/-- A new decoder has taken and given nothing. -/
theorem piped_new (library : CodecLibrary σ) (decode : Coding → Bytes → Bytes)
    (plan : StreamingDecodePlan) (maxDecodedBytes : Option Nat) (body : Bytes) :
    Piped library decode plan.codings body body [] (.new library plan maxDecodedBytes) := by
  have hlayer : ∀ (i : Nat) (layer : Layer σ),
      (StreamingDecoder.new library plan maxDecodedBytes).layers[i]? = some layer →
      ∃ coding, layer = ⟨coding, library.new coding, [], 0, .needsInput, [], []⟩ := by
    intro i layer hi
    rw [StreamingDecoder.new, List.getElem?_map, Option.map_eq_some_iff] at hi
    obtain ⟨coding, -, rfl⟩ := hi
    exact ⟨coding, rfl⟩
  refine ⟨?_, ?_, ?_, ?_, ?_, ?_, ?_, ?_, ?_⟩
  · intro i
    simp [StreamingDecoder.new, Function.comp_def]
  · intro i up down hup hdown
    obtain ⟨_, rfl⟩ := hlayer i up hup
    obtain ⟨_, rfl⟩ := hlayer _ down hdown
    exact ⟨rfl, by simp⟩
  · intro layer h
    obtain ⟨_, rfl⟩ := hlayer 0 layer h
    exact ⟨rfl, rfl, by simp⟩
  · intro i layer h _
    obtain ⟨_, rfl⟩ := hlayer i layer h
    rfl
  · intro _
    exact ⟨rfl, by simp [StreamingDecoder.new]⟩
  · intro i layer h hended
    obtain ⟨_, rfl⟩ := hlayer i layer h
    simp at hended
  · intro _ i layer h
    obtain ⟨coding, rfl⟩ := hlayer i layer h
    exact CodecRun.new
  · simp [StreamingDecoder.new]
  · show 0 < usizeRange
    decide

/-! ## One codec call -/

/-- The output of a codec call as `run_layer` passes it on. -/
def passedOn (bytes : Bytes) : Option Bytes := if bytes.isEmpty then none else some bytes

theorem getD_passedOn (bytes : Bytes) : (passedOn bytes).getD [] = bytes := by
  cases bytes <;> rfl

/-- The layers after layer `index` was replaced and its output went into the
empty slot behind it. -/
theorem getElem?_relay {index : Nat} {layer : Layer σ}
    (hlayer : decoder.layers[index]? = some layer)
    (hfree : decoder.occupied (index + 1) = false) (new : Layer σ) (bytes : Bytes) (j : Nat) :
    (StreamingDecoder.fillSlot (decoder.layers.set index new) (index + 1) (passedOn bytes))[j]? =
      decoder.layers[j]?.map fun old =>
        if j = index then new
        else if j = index + 1 then { old with input := bytes } else old := by
  obtain ⟨hlt, -⟩ := List.getElem?_eq_some_iff.mp hlayer
  have hset : (decoder.layers.set index new)[j]? =
      decoder.layers[j]?.map fun old => if j = index then new else old := by
    by_cases hj : j = index
    · subst hj
      simp [hlt]
    · simp [List.getElem?_set_ne (Ne.symm hj), hj]
  have hdown : (decoder.layers.set index new)[index + 1]? = decoder.layers[index + 1]? :=
    List.getElem?_set_ne (by omega)
  unfold StreamingDecoder.fillSlot
  rw [hdown]
  split
  · rename_i passed down hpassed hnext
    have hbytes : passed = bytes := by
      unfold passedOn at hpassed
      split at hpassed
      · simp at hpassed
      · exact (Option.some.inj hpassed).symm
    subst hbytes
    by_cases hj : j = index + 1
    · subst hj
      have hlt' : index + 1 < (decoder.layers.set index new).length := by
        rw [List.length_set]
        exact (List.getElem?_eq_some_iff.mp hnext).1
      rw [List.getElem?_set_self hlt', hnext]
      simp
    · rw [List.getElem?_set_ne (Ne.symm hj), hset]
      simp [hj]
  · rename_i hnone
    rw [hset]
    by_cases hj : j = index + 1
    · subst hj
      cases hnext : decoder.layers[index + 1]? with
      | none => rfl
      | some down =>
          -- Nothing was passed on, and the slot was empty before.
          have hslot : down.input = [] := by
            simpa [StreamingDecoder.occupied, hnext] using hfree
          have hbytes : bytes = [] := by
            unfold passedOn at hnone
            split at hnone
            · rename_i hempty
              simpa using hempty
            · exact absurd hnext (by simpa using hnone bytes down)
          simp [hbytes, ← hslot]
    · simp [hj]

theorem length_fillSlot (layers : List (Layer σ)) (index : Nat) (output : Option Bytes) :
    (StreamingDecoder.fillSlot layers index output).length = layers.length := by
  unfold StreamingDecoder.fillSlot
  split <;> simp

/-- There is no slot behind the last layer. -/
theorem fillSlot_of_le {layers : List (Layer σ)} {index : Nat} (output : Option Bytes)
    (h : layers.length ≤ index) : StreamingDecoder.fillSlot layers index output = layers := by
  unfold StreamingDecoder.fillSlot
  rw [List.getElem?_eq_none h]
  cases output <;> rfl

/-- Every layer after a relay is the new one, the one behind it with a filled
slot, or as it was. -/
theorem relay_cases {index j : Nat} {layer new after : Layer σ} {bytes : Bytes}
    (hlayer : decoder.layers[index]? = some layer)
    (hfree : decoder.occupied (index + 1) = false)
    (hj : (StreamingDecoder.fillSlot (decoder.layers.set index new) (index + 1)
      (passedOn bytes))[j]? = some after) :
    ∃ before, decoder.layers[j]? = some before ∧
      (j = index ∧ after = new ∧ before = layer ∨
        j = index + 1 ∧ after = { before with input := bytes } ∧ before.input = [] ∨
        j ≠ index ∧ j ≠ index + 1 ∧ after = before) := by
  rw [getElem?_relay hlayer hfree, Option.map_eq_some_iff] at hj
  obtain ⟨before, hbefore, rfl⟩ := hj
  refine ⟨before, hbefore, ?_⟩
  by_cases hself : j = index
  · subst hself
    rw [hlayer, Option.some.injEq] at hbefore
    exact Or.inl ⟨rfl, by simp, hbefore.symm⟩
  · by_cases hnext : j = index + 1
    · subst hnext
      refine Or.inr (Or.inl ⟨rfl, by simp, ?_⟩)
      simpa [StreamingDecoder.occupied, hbefore] using hfree
    · exact Or.inr (Or.inr ⟨hself, hnext, by simp [hself, hnext]⟩)

/-- A relay keeps the codings of the layers. -/
theorem map_coding_relay {index : Nat} {layer new : Layer σ} {bytes : Bytes}
    (hlayer : decoder.layers[index]? = some layer)
    (hfree : decoder.occupied (index + 1) = false) (hcoding : new.coding = layer.coding)
    (j : Nat) :
    (StreamingDecoder.fillSlot (decoder.layers.set index new) (index + 1)
      (passedOn bytes))[j]?.map Layer.coding = decoder.layers[j]?.map Layer.coding := by
  rw [getElem?_relay hlayer hfree, Option.map_map]
  by_cases hself : j = index
  · subst hself
    simp [hlayer, hcoding]
  · congr 1
    funext before
    simp only [Function.comp_apply, hself, if_false]
    split <;> rfl

/-- The upper layer gives `bytes` to the empty slot of the lower one. -/
theorem Linked.fill {up new down : Layer σ} {bytes : Bytes} (h : Linked up down)
    (hopen : up.state ≠ .finished) (hempty : down.input = [])
    (hgiven : new.given = up.given ++ bytes) :
    Linked new { down with input := bytes } := by
  have hledger := h.ledger
  rw [hempty, List.append_nil] at hledger
  refine ⟨by rw [hgiven, hledger], fun hdone => ?_⟩
  exact absurd (h.order hdone).1 hopen

/-- The lower layer takes `chunk` from its slot. -/
theorem Linked.consume {up down new : Layer σ} {chunk : Bytes} (h : Linked up down)
    (hinput : down.input = chunk ++ new.input) (htaken : new.taken = down.taken ++ chunk)
    (hstate : new.state ≠ .finished) : Linked up new := by
  have hledger := h.ledger
  rw [hinput] at hledger
  refine ⟨by rw [hledger, htaken, List.append_assoc], fun hdone => ?_⟩
  exact absurd hdone hstate

/-- The step lemma.  Layer `index` takes `chunk` from what is in front of it and
gives `bytes` to the empty slot behind it, or to the caller. -/
theorem Piped.relay {remaining' chunk bytes : Bytes}
    {next : StreamingDecoder σ} {index : Nat} {layer new : Layer σ}
    (h : Piped library decode codings body remaining output decoder)
    (hlayer : decoder.layers[index]? = some layer) (hopen : layer.state ≠ .finished)
    (hfree : decoder.occupied (index + 1) = false)
    (hlayers : next.layers =
      StreamingDecoder.fillSlot (decoder.layers.set index new) (index + 1) (passedOn bytes))
    (hcoding : new.coding = layer.coding) (htaken : new.taken = layer.taken ++ chunk)
    (hgiven : new.given = layer.given ++ bytes)
    (hfirst : index = 0 → new.input = layer.input ∧ remaining = chunk ++ remaining')
    (hlater : index ≠ 0 → layer.input = chunk ++ new.input ∧ remaining = remaining')
    (hstate : new.state ≠ .finished)
    (hended : new.state = .ended → new.given = decode new.coding new.taken)
    (hrun : CodecRun library new.coding new.codec new.taken new.given)
    (hfailure : next.failure = decoder.failure) (hfinished : next.finished = false)
    (hencoded : next.encodedBytes < usizeRange) :
    Piped library decode codings body remaining'
      (if index + 1 < decoder.layers.length then output else output ++ bytes) next := by
  have hlt := (List.getElem?_eq_some_iff.mp hlayer).1
  have hlength : next.layers.length = decoder.layers.length := by
    rw [hlayers, length_fillSlot, List.length_set]
  have hget : ∀ (j : Nat) (after : Layer σ), next.layers[j]? = some after →
      ∃ before, decoder.layers[j]? = some before ∧
        (j = index ∧ after = new ∧ before = layer ∨
          j = index + 1 ∧ after = { before with input := bytes } ∧ before.input = [] ∨
          j ≠ index ∧ j ≠ index + 1 ∧ after = before) := by
    intro j after hj
    exact relay_cases hlayer hfree (hlayers ▸ hj)
  refine ⟨?_, ?_, ?_, ?_, ?_, ?_, ?_, ?_, hencoded⟩
  · intro j
    rw [hlayers, map_coding_relay hlayer hfree hcoding]
    exact h.codings j
  · intro i up down hup hdown
    obtain ⟨oldUp, holdUp, hupCase⟩ := hget i up hup
    obtain ⟨oldDown, holdDown, hdownCase⟩ := hget (i + 1) down hdown
    have hold := h.linked i oldUp oldDown holdUp holdDown
    rcases hupCase with ⟨rfl, rfl, rfl⟩ | ⟨rfl, rfl, -⟩ | ⟨hi, hi', rfl⟩
    · rcases hdownCase with ⟨habsurd, -⟩ | ⟨-, rfl, hempty⟩ | ⟨-, habsurd, -⟩
      · omega
      · exact hold.fill hopen hempty hgiven
      · exact absurd rfl habsurd
    · rcases hdownCase with ⟨habsurd, -⟩ | ⟨habsurd, -⟩ | ⟨-, -, rfl⟩
      · omega
      · omega
      · exact ⟨hold.ledger, hold.order⟩
    · rcases hdownCase with ⟨hself, rfl, rfl⟩ | ⟨habsurd, -⟩ | ⟨-, -, rfl⟩
      · exact hold.consume (hlater (by omega)).1 htaken hstate
      · omega
      · exact hold
  · intro after hafter
    obtain ⟨before, hbefore, hcase⟩ := hget 0 after hafter
    obtain ⟨hempty, hbody, hclosed⟩ := h.first before hbefore
    rcases hcase with ⟨hself, rfl, rfl⟩ | ⟨habsurd, -⟩ | ⟨hother, -, rfl⟩
    · obtain ⟨hinput, hremaining⟩ := hfirst hself.symm
      refine ⟨by rw [hinput, hempty], ?_, fun hdone => absurd hdone hstate⟩
      rw [htaken, List.append_assoc, ← hremaining, hbody]
    · omega
    · obtain ⟨-, hremaining⟩ := hlater (Ne.symm hother)
      rw [← hremaining]
      exact ⟨hempty, hbody, hclosed⟩
  · intro i after hafter hi
    obtain ⟨before, hbefore, hcase⟩ := hget i after hafter
    rw [hlength] at hi
    have hold := h.last i before hbefore hi
    rcases hcase with ⟨rfl, rfl, rfl⟩ | ⟨rfl, rfl, -⟩ | ⟨hother, -, rfl⟩
    · rw [if_neg (by omega), hgiven, hold]
    · rw [if_pos (by omega)]
      exact hold
    · rw [if_pos (by omega), hold]
  · intro hnil
    rw [hnil, List.length_nil] at hlength
    omega
  · intro i after hafter hdone
    obtain ⟨before, hbefore, hcase⟩ := hget i after hafter
    rcases hcase with ⟨-, rfl, -⟩ | ⟨-, rfl, -⟩ | ⟨-, -, rfl⟩
    · exact hended (hdone.resolve_right hstate)
    · exact h.ended i before hbefore hdone
    · exact h.ended i after hbefore hdone
  · intro hnone i after hafter
    rw [hfailure] at hnone
    obtain ⟨before, hbefore, hcase⟩ := hget i after hafter
    rcases hcase with ⟨-, rfl, -⟩ | ⟨-, rfl, -⟩ | ⟨-, -, rfl⟩
    · exact hrun
    · exact h.runs hnone i before hbefore
    · exact h.runs hnone i after hbefore
  · intro hdone
    simp [hfinished] at hdone

/-- A failed step changes a codec at most, and no later step uses it. -/
theorem Piped.failed {index : Nat} {layer new : Layer σ}
    (h : Piped library decode codings body remaining output decoder)
    (hlayer : decoder.layers[index]? = some layer)
    (hsame : new = { layer with codec := new.codec, produced := new.produced })
    (error : StreamDecodeError) :
    Piped library decode codings body remaining output
      { decoder with layers := decoder.layers.set index new, failure := some error } := by
  have hget : ∀ (j : Nat) (after : Layer σ), (decoder.layers.set index new)[j]? = some after →
      ∃ before, decoder.layers[j]? = some before ∧
        after = { before with codec := after.codec, produced := after.produced } := by
    intro j after hj
    rcases getElem?_set_cases hj with ⟨rfl, rfl⟩ | ⟨-, hj⟩
    · exact ⟨layer, hlayer, hsame⟩
    · exact ⟨after, hj, rfl⟩
  refine ⟨?_, ?_, ?_, ?_, ?_, ?_, by simp, ?_, h.encoded⟩
  · intro j
    rw [← h.codings j]
    exact map_getElem?_set _ hlayer (by rw [hsame]) j
  · intro i up down hup hdown
    obtain ⟨oldUp, holdUp, hupSame⟩ := hget i up hup
    obtain ⟨oldDown, holdDown, hdownSame⟩ := hget (i + 1) down hdown
    have hold := h.linked i oldUp oldDown holdUp holdDown
    rw [hupSame, hdownSame]
    exact ⟨hold.ledger, hold.order⟩
  · intro after hafter
    obtain ⟨before, hbefore, hsame⟩ := hget 0 after hafter
    rw [hsame]
    exact h.first before hbefore
  · intro i after hafter hi
    obtain ⟨before, hbefore, hsame⟩ := hget i after hafter
    rw [hsame]
    exact h.last i before hbefore (by simpa using hi)
  · intro hnil
    exact h.identity (by simpa using hnil)
  · intro i after hafter hdone
    obtain ⟨before, hbefore, hsame⟩ := hget i after hafter
    rw [hsame] at hdone ⊢
    exact h.ended i before hbefore hdone
  · intro hdone i after hafter
    obtain ⟨before, hbefore, hsame⟩ := hget i after hafter
    rw [hsame]
    exact h.finished hdone i before hbefore

/-- A step that failed without a codec call. -/
theorem Piped.refused (h : Piped library decode codings body remaining output decoder)
    (error : StreamDecodeError) :
    Piped library decode codings body remaining output
      { decoder with failure := some error } :=
  ⟨h.codings, h.linked, h.first, h.last, h.identity, h.ended, by simp, h.finished, h.encoded⟩

/-- A layer that has ended is finished when nothing can follow it. -/
theorem Piped.finishLayer {index : Nat} {layer : Layer σ}
    (h : Piped library decode codings body remaining output decoder)
    (hlayer : decoder.layers[index]? = some layer) (hended : layer.state = .ended)
    (hempty : layer.input = []) (hbody : index = 0 → remaining = [])
    (hup : ∀ upstream up, index = upstream + 1 → decoder.layers[upstream]? = some up →
      up.state = .finished) :
    Piped library decode codings body remaining output
      { decoder with layers := decoder.layers.set index { layer with state := .finished } } := by
  refine ⟨?_, ?_, ?_, ?_, ?_, ?_, ?_, ?_, h.encoded⟩
  · intro j
    rw [← h.codings j]
    exact map_getElem?_set Layer.coding hlayer (by rfl) j
  · intro i up down hup' hdown
    rcases getElem?_set_cases hup' with ⟨rfl, rfl⟩ | ⟨hi, hup'⟩
    · rcases getElem?_set_cases hdown with ⟨habsurd, -⟩ | ⟨-, hdown⟩
      · omega
      · have hold := h.linked i layer down hlayer hdown
        exact ⟨hold.ledger, fun hdone => ⟨rfl, (hold.order hdone).2⟩⟩
    · rcases getElem?_set_cases hdown with ⟨hself, rfl⟩ | ⟨-, hdown⟩
      · have hold := h.linked i up layer hup' (hself ▸ hlayer)
        exact ⟨hold.ledger, fun _ => ⟨hup i up hself.symm hup', hempty⟩⟩
      · exact h.linked i up down hup' hdown
  · intro after hafter
    rcases getElem?_set_cases hafter with ⟨hself, rfl⟩ | ⟨-, hafter⟩
    · obtain ⟨hslot, hledger, -⟩ := h.first layer (hself ▸ hlayer)
      exact ⟨hslot, hledger, fun _ => hbody hself.symm⟩
    · exact h.first after hafter
  · intro i after hafter hi
    rw [List.length_set] at hi
    rcases getElem?_set_cases hafter with ⟨rfl, rfl⟩ | ⟨-, hafter⟩
    · exact h.last i layer hlayer hi
    · exact h.last i after hafter hi
  · intro hnil
    exact h.identity (by simpa using hnil)
  · intro i after hafter hdone
    rcases getElem?_set_cases hafter with ⟨rfl, rfl⟩ | ⟨-, hafter⟩
    · exact h.ended i layer hlayer (Or.inl hended)
    · exact h.ended i after hafter hdone
  · intro hnone i after hafter
    rcases getElem?_set_cases hafter with ⟨rfl, rfl⟩ | ⟨-, hafter⟩
    · exact h.runs hnone i layer hlayer
    · exact h.runs hnone i after hafter
  · intro hdone i after hafter
    rcases getElem?_set_cases hafter with ⟨-, rfl⟩ | ⟨-, hafter⟩
    · rfl
    · exact h.finished hdone i after hafter

/-- A decoder without layers may change its counters and its flag. -/
theorem Piped.passThrough {remaining' output' : Bytes} {next : StreamingDecoder σ}
    (h : Piped library decode codings body remaining output decoder)
    (hlayers : decoder.layers = []) (hsame : next.layers = [])
    (hbytes : output' ++ remaining' = output ++ remaining)
    (hfinished : next.finished = true → remaining' = [])
    (hencoded : next.encodedBytes < usizeRange) :
    Piped library decode codings body remaining' output' next := by
  have hcodings := h.codings
  rw [hlayers] at hcodings
  refine ⟨by simpa [hsame] using hcodings, by simp [hsame], by simp [hsame], by simp [hsame],
    ?_, by simp [hsame], by simp [hsame], by simp [hsame], hencoded⟩
  intro _
  exact ⟨by rw [hbytes, (h.identity hlayers).1], hfinished⟩

end FogHttp.Streaming
