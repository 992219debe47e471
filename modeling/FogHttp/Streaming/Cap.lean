import FogHttp.Lib.Positions
import FogHttp.Lib.Transition
import FogHttp.Streaming.Steps

/-!
# The cap on the decoded size

The decoder gives every codec call one byte more than the limit leaves, and
refuses an output that uses it.  So no layer goes above the limit, whatever the
codecs put out.  Nothing here asks for a lawful codec.

* `Counters` holds always, after a failure too: no counter is above the limit or
  above the range of its type.
* `Exact` holds until the first failure: every counter is the length of what it
  counts.
* `step_congr` says which codec calls a step can make.  A library that answers
  the small calls in the same way gives the same step.

`Caller` offers any input at any call, also input that does not follow from what
was consumed before.
-/

namespace FogHttp.Streaming

open Lib

variable {σ : Type} {library : CodecLibrary σ} {decoder : StreamingDecoder σ} {limit : Nat}
  {delivered : Bytes} {consumed : Nat}

/-! ## The caller -/

/-- A caller of a decoder, with the bytes it received and the number of bytes that were
consumed. -/
structure Caller (σ : Type) where
  decoder : StreamingDecoder σ
  delivered : Bytes
  consumed : Nat

namespace Caller

def new (library : CodecLibrary σ) (plan : StreamingDecodePlan) (limit : Nat) : Caller σ :=
  ⟨.new library plan (some limit), [], 0⟩

/-- One call of `step`. -/
def call (library : CodecLibrary σ) (caller : Caller σ) (input : Bytes) (realEof : Bool) :
    Except StreamDecodeError Step × Caller σ :=
  match caller.decoder.step library input realEof with
  | (.ok step, decoder) =>
      (.ok step, ⟨decoder, caller.delivered ++ step.output.getD [],
        caller.consumed + step.consumed⟩)
  | (.error error, decoder) => (.error error, { caller with decoder })

/-- The caller after a sequence of calls. -/
def after (library : CodecLibrary σ) (caller : Caller σ) (calls : List (Bytes × Bool)) :
    Caller σ :=
  calls.foldl (fun caller offer => (caller.call library offer.1 offer.2).2) caller

end Caller

/-! ## The invariant -/

/-- A counter that has not passed the limit. -/
def Bounded (limit counter : Nat) : Prop := counter ≤ limit ∧ counter < usizeRange

structure Counters (limit : Nat) (decoder : StreamingDecoder σ) : Prop where
  capped : decoder.maxDecodedBytes = some limit
  produced : ∀ layer ∈ decoder.layers, Bounded limit layer.produced
  identity : Bounded limit decoder.identityBytes
  encoded : decoder.encodedBytes < usizeRange

/-- Every counter is the length of what it counts. -/
structure Exact (decoder : StreamingDecoder σ) (delivered : Bytes) (consumed : Nat) : Prop where
  produced : ∀ layer ∈ decoder.layers, layer.produced = layer.given.length
  last : ∀ (i : Nat) (layer : Layer σ), decoder.layers[i]? = some layer →
    i + 1 = decoder.layers.length → layer.given = delivered
  identity : decoder.layers = [] → decoder.identityBytes = delivered.length
  encoded : decoder.encodedBytes = consumed

/-- What a step keeps: an accepted step counts exactly, and a failed one fills no slot. -/
def Caps (limit : Nat) (delivered : Bytes) (consumed : Nat) (slots : List Bytes) :
    Except StreamDecodeError Step × StreamingDecoder σ → Prop
  | (.ok step, next) =>
      Counters limit next ∧
        Exact next (delivered ++ step.output.getD []) (consumed + step.consumed) ∧
        next.failure = none
  | (.error _, next) => Counters limit next ∧ next.layers.map Layer.input = slots

theorem counters_new (library : CodecLibrary σ) (plan : StreamingDecodePlan) (limit : Nat) :
    Counters limit (.new library plan (some limit)) := by
  have hzero : Bounded limit 0 := ⟨Nat.zero_le limit, by decide⟩
  refine ⟨rfl, fun layer hmem => ?_, hzero, hzero.2⟩
  obtain ⟨coding, -, rfl⟩ := List.mem_map.mp hmem
  exact hzero

theorem exact_new (library : CodecLibrary σ) (plan : StreamingDecodePlan) (limit : Nat) :
    Exact (.new library plan (some limit)) [] 0 := by
  refine ⟨fun layer hmem => ?_, fun i layer hi _ => ?_, fun _ => rfl, rfl⟩
  · obtain ⟨coding, -, rfl⟩ := List.mem_map.mp hmem
    rfl
  · rw [StreamingDecoder.new, List.getElem?_map, Option.map_eq_some_iff] at hi
    obtain ⟨coding, -, rfl⟩ := hi
    rfl

/-! ## One codec call -/

/-- An accepted count is exact and within the limit. -/
theorem checkedOutput_eq_ok {current produced total layer : Nat} {coding : Text}
    (h : checkedOutput current produced (some limit) coding layer = .ok total) :
    total = current + produced ∧ Bounded limit total := by
  unfold checkedOutput at h
  cases hadd : checkedAdd current produced with
  | none => simp [hadd] at h
  | some sum =>
      obtain ⟨hsum, hlt⟩ := checkedAdd_eq_some hadd
      rw [hadd] at h
      dsimp only at h
      split at h
      · simp at h
      · rename_i hle
        rw [Except.ok.injEq] at h
        subst h
        exact ⟨hsum, by omega, hlt⟩

/-- Filling a slot changes a layer at most in its slot. -/
theorem getElem?_fillSlot {layers : List (Layer σ)} {index j : Nat} {output : Option Bytes}
    {after : Layer σ} (h : (StreamingDecoder.fillSlot layers index output)[j]? = some after) :
    ∃ before, layers[j]? = some before ∧ after = { before with input := after.input } := by
  unfold StreamingDecoder.fillSlot at h
  split at h
  · rename_i bytes layer hlayer
    rcases getElem?_set_cases h with ⟨rfl, rfl⟩ | ⟨-, hold⟩
    · exact ⟨layer, hlayer, rfl⟩
    · exact ⟨after, hold, rfl⟩
  · exact ⟨after, h, rfl⟩

/-- Every layer after an accepted call is the new one or an old one, up to its slot. -/
theorem relayed_cases {index j : Nat} {new after : Layer σ} {output : Option Bytes}
    (h : (StreamingDecoder.fillSlot (decoder.layers.set index new) (index + 1) output)[j]? =
      some after) :
    ∃ before, after = { before with input := after.input } ∧
      (j = index ∧ before = new ∨ j ≠ index ∧ decoder.layers[j]? = some before) := by
  obtain ⟨before, hbefore, hafter⟩ := getElem?_fillSlot h
  exact ⟨before, hafter, getElem?_set_cases hbefore⟩

/-- An accepted call of layer `index`, which gave `bytes`, counts exactly. -/
theorem caps_called (h : Counters limit decoder) (hexact : Exact decoder delivered consumed)
    {index consumed' : Nat} {layer new : Layer σ} {bytes delivered' : Bytes}
    {next : StreamingDecoder σ} (hlayer : decoder.layers[index]? = some layer)
    (hlayers : next.layers =
      StreamingDecoder.fillSlot (decoder.layers.set index new) (index + 1) (passedOn bytes))
    (hgiven : new.given = layer.given ++ bytes)
    (hsum : new.produced = layer.produced + bytes.length)
    (hproduced : Bounded limit new.produced)
    (hdelivered : delivered' =
      if index + 1 < decoder.layers.length then delivered else delivered ++ bytes)
    (hcapped : next.maxDecodedBytes = decoder.maxDecodedBytes)
    (hidentity : next.identityBytes = decoder.identityBytes)
    (hencoded : next.encodedBytes = consumed') (hrange : next.encodedBytes < usizeRange)
    (hfailure : next.failure = none) :
    Counters limit next ∧ Exact next delivered' consumed' ∧ next.failure = none := by
  have hlt := (List.getElem?_eq_some_iff.mp hlayer).1
  have hlength : next.layers.length = decoder.layers.length := by
    rw [hlayers, length_fillSlot, List.length_set]
  refine ⟨⟨hcapped.trans h.capped, fun after hmem => ?_, hidentity ▸ h.identity, hrange⟩,
    ⟨fun after hmem => ?_, fun i after hi hlast => ?_, fun hnil => ?_, hencoded⟩, hfailure⟩
  · rw [hlayers] at hmem
    obtain ⟨j, hj⟩ := List.mem_iff_getElem?.mp hmem
    obtain ⟨before, hafter, ⟨-, rfl⟩ | ⟨-, hold⟩⟩ := relayed_cases hj <;> rw [hafter]
    · exact hproduced
    · exact h.produced before (List.mem_of_getElem? hold)
  · rw [hlayers] at hmem
    obtain ⟨j, hj⟩ := List.mem_iff_getElem?.mp hmem
    obtain ⟨before, hafter, ⟨-, rfl⟩ | ⟨-, hold⟩⟩ := relayed_cases hj <;> rw [hafter]
    · have hcount := hexact.produced layer (List.mem_of_getElem? hlayer)
      simp only [hsum, hgiven, List.length_append, hcount]
    · exact hexact.produced before (List.mem_of_getElem? hold)
  · rw [hlayers] at hi
    rw [hlength] at hlast
    obtain ⟨before, hafter, ⟨rfl, rfl⟩ | ⟨hne, hold⟩⟩ := relayed_cases hi <;>
      rw [hafter, hdelivered]
    · rw [if_neg (by omega)]
      simp only [hgiven, hexact.last i layer hlayer hlast]
    · rw [if_pos (by omega)]
      exact hexact.last i before hold hlast
  · rw [hnil, List.length_nil] at hlength
    omega

/-- A failed call changes its layer at most in the codec, the counter and a slot that keeps
its bytes. -/
theorem caps_failed (h : Counters limit decoder) {index : Nat} {layer new : Layer σ}
    (hlayer : decoder.layers[index]? = some layer) (hnew : Bounded limit new.produced)
    (hinput : new.input = layer.input) (error : StreamDecodeError) :
    Caps limit delivered consumed (decoder.layers.map Layer.input)
      (.error error, { decoder with layers := decoder.layers.set index new }) := by
  refine ⟨⟨h.capped, fun other hmem => ?_, h.identity, h.encoded⟩, ?_⟩
  · rcases List.mem_or_eq_of_mem_set hmem with hold | rfl
    · exact h.produced other hold
    · exact hnew
  · refine List.ext_getElem? fun j => ?_
    rw [List.getElem?_map, List.getElem?_map, map_getElem?_set Layer.input hlayer hinput]

/-- The step lemma of `run_layer`. -/
theorem caps_runLayer {input : Bytes} {index : Nat} {layer : Layer σ}
    (h : Counters limit decoder) (hexact : Exact decoder delivered consumed)
    (hfailure : decoder.failure = none) (hlayer : decoder.layers[index]? = some layer)
    (upstreamEof : Bool) :
    Caps limit delivered consumed (decoder.layers.map Layer.input)
      (StreamingDecoder.runLayer library decoder index layer input upstreamEof) := by
  have hbounded := h.produced layer (List.mem_of_getElem? hlayer)
  unfold StreamingDecoder.runLayer
  dsimp only
  generalize (if index = 0 then input else layer.input) = available
  cases hcall : library.step layer.codec (available.take (min available.length inputSize))
      (upstreamEof && min available.length inputSize == available.length)
      (decoder.capacity layer.produced) with
  | error source => exact ⟨h, rfl⟩
  | ok called =>
      obtain ⟨codec, result⟩ := called
      dsimp only
      cases hcheck : checkedOutput layer.produced result.output.length decoder.maxDecodedBytes
          layer.coding.name index with
      | error error =>
          refine caps_failed h hlayer ?_ ?_ error
          · exact hbounded
          · rfl
      | ok produced =>
          dsimp only
          rw [h.capped] at hcheck
          obtain ⟨hsum, hproduced⟩ := checkedOutput_eq_ok hcheck
          cases hadd : checkedAdd decoder.encodedBytes
              (if index = 0 then result.consumed else 0) with
          | none =>
              by_cases hzero : index = 0
              · simp only [hzero, if_true]
                subst hzero
                refine caps_failed h hlayer ?_ ?_ _
                · exact hproduced
                · rfl
              · -- A later layer adds nothing to the counter.
                have hencoded := h.encoded
                simp [checkedAdd, hzero, hencoded] at hadd
          | some encodedBytes =>
              dsimp only
              obtain ⟨hencoded, hrange⟩ := checkedAdd_eq_some hadd
              rw [hexact.encoded] at hencoded
              split
              · rename_i hbehind
                refine caps_called h hexact hlayer rfl rfl hsum hproduced ?_ rfl rfl hencoded
                  hrange hfailure
                rw [if_pos hbehind, Option.getD_none, List.append_nil]
              · rename_i hbehind
                refine caps_called h hexact hlayer
                  (fillSlot_of_le _ (by rw [List.length_set]; omega)).symm rfl hsum hproduced ?_
                  rfl rfl hencoded hrange hfailure
                rw [if_neg hbehind]
                exact congrArg (delivered ++ ·) (getD_passedOn result.output)

/-! ## One step -/

/-- Changing the state of a layer moves no byte. -/
theorem caps_setState (h : Counters limit decoder) (hexact : Exact decoder delivered consumed)
    {index : Nat} {layer : Layer σ} (hlayer : decoder.layers[index]? = some layer)
    (state : LayerState) :
    Counters limit { decoder with layers := decoder.layers.set index { layer with state } } ∧
      Exact { decoder with layers := decoder.layers.set index { layer with state } }
        delivered consumed ∧
      (decoder.layers.set index { layer with state }).map Layer.input =
        decoder.layers.map Layer.input := by
  have hmem := List.mem_of_getElem? hlayer
  refine ⟨⟨h.capped, forall_mem_set h.produced (h.produced layer hmem), h.identity, h.encoded⟩,
    ⟨forall_mem_set hexact.produced (hexact.produced layer hmem), fun i other hi hlast => ?_,
      fun hnil => ?_, hexact.encoded⟩, ?_⟩
  · rw [List.length_set] at hlast
    rcases getElem?_set_cases hi with ⟨rfl, rfl⟩ | ⟨-, hold⟩
    · exact hexact.last i layer hlayer hlast
    · exact hexact.last i other hold hlast
  · exact hexact.identity (by simpa using hnil)
  · refine List.ext_getElem? fun j => ?_
    rw [List.getElem?_map, List.getElem?_map]
    refine map_getElem?_set Layer.input hlayer ?_ j
    rfl

/-- The step lemma of the loop of `advance`, by induction on the layers that are left. -/
theorem caps_drain {input : Bytes} {realEof : Bool} {slots : List Bytes} (count : Nat) :
    ∀ {decoder : StreamingDecoder σ}, Counters limit decoder →
      Exact decoder delivered consumed → decoder.failure = none →
      decoder.layers.map Layer.input = slots →
      Caps limit delivered consumed slots
        (StreamingDecoder.drain library decoder input realEof count) := by
  induction count with
  | zero =>
      intro decoder h hexact hfailure _
      refine ⟨⟨h.capped, h.produced, h.identity, h.encoded⟩, ?_, hfailure⟩
      rw [Option.getD_none, List.append_nil]
      exact ⟨hexact.produced, hexact.last, hexact.identity, hexact.encoded⟩
  | succ index ih =>
      intro decoder h hexact hfailure hslots
      have hskip := ih h hexact hfailure hslots
      unfold StreamingDecoder.drain
      split
      · exact hskip
      · rename_i layer hlayer
        have hrun : Caps limit delivered consumed slots (StreamingDecoder.runLayer library decoder
            index layer input (decoder.upstreamEof index realEof)) :=
          hslots ▸ caps_runLayer h hexact hfailure hlayer _
        dsimp only
        generalize (if index = 0 then input else layer.input) = available
        split
        · exact hskip
        · split
          · exact ⟨h, hslots⟩
          · split
            · obtain ⟨hcounters, hexact', hsame⟩ := caps_setState h hexact hlayer .finished
              exact ih hcounters hexact' hfailure (hsame.trans hslots)
            · exact hskip
        · split
          · exact hskip
          · split
            · exact hskip
            · exact hrun
        · split
          · exact hskip
          · exact hrun

/-- The step lemma of `identity`. -/
theorem caps_identity {input : Bytes} {realEof : Bool} (h : Counters limit decoder)
    (hexact : Exact decoder delivered consumed) (hfailure : decoder.failure = none)
    (hlayers : decoder.layers = []) :
    Caps limit delivered consumed (decoder.layers.map Layer.input)
      (decoder.identity input realEof) := by
  unfold StreamingDecoder.identity
  dsimp only
  cases hcheck : checkedOutput decoder.identityBytes (min input.length inputSize)
      decoder.maxDecodedBytes "identity" 0 with
  | error error => exact ⟨h, rfl⟩
  | ok identityBytes =>
      dsimp only
      rw [h.capped] at hcheck
      obtain ⟨hsum, hidentity⟩ := checkedOutput_eq_ok hcheck
      cases hadd : checkedAdd decoder.encodedBytes (min input.length inputSize) with
      | none => exact ⟨⟨h.capped, h.produced, hidentity, h.encoded⟩, rfl⟩
      | some encodedBytes =>
          obtain ⟨hencoded, hrange⟩ := checkedAdd_eq_some hadd
          rw [hexact.encoded] at hencoded
          have hnone : ∀ (i : Nat) (layer : Layer σ), decoder.layers[i]? ≠ some layer := by
            intro i layer
            rw [hlayers]
            simp
          refine ⟨⟨h.capped, h.produced, hidentity, hrange⟩,
            ⟨hexact.produced, fun i layer hi => absurd hi (hnone i layer), fun _ => ?_, hencoded⟩,
            hfailure⟩
          have hout : (if min input.length inputSize = 0 then none
              else some (input.take (min input.length inputSize))).getD [] =
              input.take (min input.length inputSize) := by
            split
            · rename_i hzero
              rw [hzero]
              rfl
            · rfl
          dsimp only
          rw [hout, List.length_append, List.length_take, hsum, hexact.identity hlayers]
          omega

/-- The step lemma of `step`, before the first failure. -/
theorem caps_advance {input : Bytes} {realEof : Bool} (h : Counters limit decoder)
    (hexact : Exact decoder delivered consumed) (hfailure : decoder.failure = none) :
    Caps limit delivered consumed (decoder.layers.map Layer.input)
      (decoder.advance library input realEof) := by
  unfold StreamingDecoder.advance
  split
  · split
    · exact ⟨h, rfl⟩
    · refine ⟨h, ?_, hfailure⟩
      rw [Option.getD_none, List.append_nil]
      exact hexact
  · split
    · rename_i hlayers
      exact caps_identity h hexact hfailure (by simpa using hlayers)
    · exact caps_drain _ h hexact hfailure rfl

/-! ## The capacity of a codec call -/

/-- The capacity is at most one byte above what the limit leaves. -/
theorem capacity_le (h : decoder.maxDecodedBytes = some limit) (produced : Nat) :
    decoder.capacity produced ≤ limit - produced + 1 ∧
      decoder.capacity produced ≤ outputSize := by
  unfold StreamingDecoder.capacity
  rw [h]
  dsimp only
  omega

/-- Two libraries that answer a layer in the same way at its capacity. -/
def AgreesOn (library other : CodecLibrary σ) (decoder : StreamingDecoder σ) : Prop :=
  ∀ layer ∈ decoder.layers, ∀ input eof,
    other.step layer.codec input eof (decoder.capacity layer.produced) =
      library.step layer.codec input eof (decoder.capacity layer.produced)

theorem drain_congr {other : CodecLibrary σ} {input : Bytes} {realEof : Bool} (count : Nat) :
    ∀ {decoder : StreamingDecoder σ}, AgreesOn library other decoder →
      StreamingDecoder.drain other decoder input realEof count =
        StreamingDecoder.drain library decoder input realEof count := by
  induction count with
  | zero =>
      intro decoder _
      rfl
  | succ index ih =>
      intro decoder hagrees
      unfold StreamingDecoder.drain
      rw [ih hagrees]
      split
      · rfl
      · rename_i layer hlayer
        have hmem := List.mem_of_getElem? hlayer
        have hrun : ∀ upstreamEof,
            StreamingDecoder.runLayer other decoder index layer input upstreamEof =
              StreamingDecoder.runLayer library decoder index layer input upstreamEof := by
          intro upstreamEof
          unfold StreamingDecoder.runLayer
          simp only [hagrees layer hmem]
        have hfinish : AgreesOn library other
            { decoder with layers := decoder.layers.set index { layer with state := .finished } } :=
          forall_mem_set hagrees (hagrees layer hmem)
        dsimp only
        rw [hrun, ih hfinish]

theorem step_congr {other : CodecLibrary σ} (hagrees : AgreesOn library other decoder)
    (input : Bytes) (realEof : Bool) :
    decoder.step other input realEof = decoder.step library input realEof := by
  unfold StreamingDecoder.step StreamingDecoder.advance
  rw [drain_congr _ hagrees]

/-! ## Every call -/

/-- The invariant of a caller. -/
structure Capped (limit : Nat) (caller : Caller σ) : Prop where
  counters : Counters limit caller.decoder
  delivered : caller.delivered.length ≤ limit
  exact_ : caller.decoder.failure = none →
    Exact caller.decoder caller.delivered caller.consumed

/-- What was delivered is within the counter of the last layer, or of the identity. -/
theorem delivered_le (h : Counters limit decoder) (hexact : Exact decoder delivered consumed) :
    delivered.length ≤ limit := by
  cases hlast : decoder.layers.getLast? with
  | none =>
      rw [← hexact.identity (List.getLast?_eq_none_iff.mp hlast)]
      exact h.identity.1
  | some layer =>
      rw [List.getLast?_eq_getElem?] at hlast
      have hmem := List.mem_of_getElem? hlast
      have hlt := (List.getElem?_eq_some_iff.mp hlast).1
      rw [← hexact.last _ layer hlast (by omega), ← hexact.produced layer hmem]
      exact (h.produced layer hmem).1

theorem capped_new (library : CodecLibrary σ) (plan : StreamingDecodePlan) (limit : Nat) :
    Capped limit (Caller.new library plan limit) :=
  ⟨counters_new library plan limit, Nat.zero_le _, fun _ => exact_new library plan limit⟩

/-- The two outcomes of a call. -/
theorem call_cases (library : CodecLibrary σ) {caller : Caller σ} (h : Capped limit caller)
    (input : Bytes) (realEof : Bool) :
    (∃ step next, caller.call library input realEof = (.ok step, next) ∧ Capped limit next ∧
      next.decoder.failure = none ∧ next.delivered = caller.delivered ++ step.output.getD []) ∨
    (∃ error next, caller.call library input realEof = (.error error, next) ∧
      Capped limit next ∧ next.decoder.failure = some error ∧
      next.delivered = caller.delivered ∧
      next.decoder.layers.map Layer.input = caller.decoder.layers.map Layer.input) := by
  unfold Caller.call StreamingDecoder.step
  cases hfailure : caller.decoder.failure with
  | some error =>
      exact Or.inr ⟨error, caller, rfl, h, hfailure, rfl, rfl⟩
  | none =>
      have hcaps : Caps limit caller.delivered caller.consumed
          (caller.decoder.layers.map Layer.input) (caller.decoder.advance library input realEof) :=
        caps_advance h.counters (h.exact_ hfailure) hfailure
      dsimp only
      cases hresult : caller.decoder.advance library input realEof with
      | mk outcome decoder =>
          rw [hresult] at hcaps
          cases outcome with
          | ok step =>
              obtain ⟨hcounters, hexact, hnone⟩ := hcaps
              exact Or.inl ⟨step, _, rfl,
                ⟨hcounters, delivered_le hcounters hexact, fun _ => hexact⟩,
                hnone, rfl⟩
          | error error =>
              obtain ⟨hcounters, hslots⟩ := hcaps
              exact Or.inr ⟨error, _, rfl,
                ⟨⟨hcounters.capped, hcounters.produced, hcounters.identity, hcounters.encoded⟩,
                  h.delivered, by simp⟩, rfl, rfl, hslots⟩

theorem capped_call {caller : Caller σ} (h : Capped limit caller) (input : Bytes)
    (realEof : Bool) : Capped limit (caller.call library input realEof).2 := by
  rcases call_cases library h input realEof with ⟨step, next, hcall, hcapped, -⟩ |
    ⟨error, next, hcall, hcapped, -⟩
  · rw [hcall]
    exact hcapped
  · rw [hcall]
    exact hcapped

/-- The run lemma. -/
theorem capped_after {caller : Caller σ} (h : Capped limit caller)
    (calls : List (Bytes × Bool)) : Capped limit (caller.after library calls) := by
  induction calls generalizing caller with
  | nil => exact h
  | cons offer calls ih => exact ih (capped_call h offer.1 offer.2)

/-- A failed decoder answers every call with its error, and stays as it is. -/
theorem call_of_failed {caller : Caller σ} {error : StreamDecodeError}
    (h : caller.decoder.failure = some error) (input : Bytes) (realEof : Bool) :
    caller.call library input realEof = (.error error, caller) := by
  unfold Caller.call StreamingDecoder.step
  rw [h]

theorem after_of_failed {caller : Caller σ} {error : StreamDecodeError}
    (h : caller.decoder.failure = some error) (calls : List (Bytes × Bool)) :
    caller.after library calls = caller := by
  induction calls with
  | nil => rfl
  | cons offer calls ih =>
      rw [Caller.after, List.foldl_cons, call_of_failed h]
      exact ih

/-- For every stack of codecs, every limit and every sequence of calls: an accepted call
leaves all counters exact and within the limit, a failed one delivers nothing, fills no slot
and is repeated by all later calls, and no codec is called with a larger capacity. -/
theorem decoded_size_capped (library : CodecLibrary σ) (plan : StreamingDecodePlan)
    (limit : Nat) (calls : List (Bytes × Bool)) (input : Bytes) (realEof : Bool) :
    let caller := (Caller.new library plan limit).after library calls
    (∀ step next, caller.call library input realEof = (.ok step, next) →
      next.delivered = caller.delivered ++ step.output.getD [] ∧
      next.delivered.length ≤ limit ∧
      (∀ layer ∈ next.decoder.layers,
        layer.produced = layer.given.length ∧ Bounded limit layer.produced) ∧
      (next.decoder.layers = [] → next.decoder.identityBytes = next.delivered.length) ∧
      Bounded limit next.decoder.identityBytes ∧
      next.decoder.encodedBytes = next.consumed ∧ next.decoder.encodedBytes < usizeRange) ∧
    (∀ error next, caller.call library input realEof = (.error error, next) →
      next.delivered = caller.delivered ∧
      next.decoder.layers.map Layer.input = caller.decoder.layers.map Layer.input ∧
      ∀ later input realEof,
        (next.after library later).delivered = next.delivered ∧
        (next.after library later).call library input realEof =
          (.error error, next.after library later)) ∧
    (∀ other : CodecLibrary σ,
      (∀ layer ∈ caller.decoder.layers, ∀ chunk eof capacity,
        capacity ≤ limit - layer.produced + 1 → capacity ≤ outputSize →
        other.step layer.codec chunk eof capacity = library.step layer.codec chunk eof capacity) →
      caller.call other input realEof = caller.call library input realEof) := by
  intro caller
  have h : Capped limit caller := capped_after (capped_new library plan limit) calls
  refine ⟨fun step next hcall => ?_, fun error next hcall => ?_, fun other hagrees => ?_⟩
  · rcases call_cases library h input realEof with
      ⟨step', next', hcall', hcapped, hfailure, hdelivered⟩ | ⟨error, next', hcall', -⟩
    · rw [hcall, Prod.mk.injEq, Except.ok.injEq] at hcall'
      obtain ⟨rfl, rfl⟩ := hcall'
      have hexact := hcapped.exact_ hfailure
      exact ⟨hdelivered, hcapped.delivered, fun layer hmem =>
        ⟨hexact.produced layer hmem, hcapped.counters.produced layer hmem⟩, hexact.identity,
        hcapped.counters.identity, hexact.encoded, hcapped.counters.encoded⟩
    · rw [hcall] at hcall'
      simp at hcall'
  · rcases call_cases library h input realEof with
      ⟨step', next', hcall', -⟩ | ⟨error', next', hcall', -, hfailure, hdelivered, hslots⟩
    · rw [hcall] at hcall'
      simp at hcall'
    · rw [hcall, Prod.mk.injEq, Except.error.injEq] at hcall'
      obtain ⟨rfl, rfl⟩ := hcall'
      refine ⟨hdelivered, hslots, fun later input realEof => ?_⟩
      rw [after_of_failed hfailure]
      exact ⟨rfl, call_of_failed hfailure input realEof⟩
  · have hcapped := h.counters.capped
    have hsame : AgreesOn library other caller.decoder := by
      intro layer hmem chunk eof
      obtain ⟨hlimit, hsize⟩ := capacity_le hcapped layer.produced
      exact hagrees layer hmem chunk eof _ hlimit hsize
    unfold Caller.call
    rw [step_congr hsame]

end FogHttp.Streaming
