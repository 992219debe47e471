import FogHttp.Lib.Ranking
import FogHttp.Lib.Transition
import FogHttp.Streaming.Codec
import FogHttp.Streaming.Composition

/-!
# The decoder makes progress

Every step that reports progress lowers a measure, and a step asks for input only
when it has used all of it.

The measure is a list of places, compared at the first difference.  The first
place is the unread input.  Behind it stands one place for each layer: the slot in
front of the layer, the output that its codec may still deliver, and the rank of
its state.  A codec call lowers the place of its layer, or the unread input, and
may raise only the next place, whose slot it fills.

`Orderly` is the invariant.  `Passed` is what the loop of `advance` knows about
the layers behind it: there is nothing in front of them, and none of them could
have moved.  `advances_drain` is the induction over that loop, and
`advances_step` the step lemma.
-/

namespace FogHttp.Streaming

open Lib

variable {σ : Type} {library : CodecLibrary σ} {Idle : σ → Prop}
  {bound : Coding → Bytes → Nat} {decoder start : StreamingDecoder σ} {drained : Prop}
  {input remaining : Bytes} {realEof : Bool}

/-! ## The measure -/

/-- How far a layer is from its end. -/
def LayerState.rank : LayerState → Nat
  | .ready => 3
  | .needsInput => 2
  | .ended => 1
  | .finished => 0

abbrev Place := Nat × Nat × Nat

/-- The lexicographic order. -/
def Place.Less : Place → Place → Prop :=
  Prod.Lex (· < ·) (Prod.Lex (· < ·) (· < ·))

theorem Place.less_iff {a b c a' b' c' : Nat} : Place.Less (a, b, c) (a', b', c') ↔
    a < a' ∨ a = a' ∧ (b < b' ∨ b = b' ∧ c < c') := by
  simp only [Place.Less, Prod.lex_def]

theorem Place.Less.trans {a b c : Place} (h : Place.Less a b) (h' : Place.Less b c) :
    Place.Less a c := by
  obtain ⟨a₁, a₂, a₃⟩ := a
  obtain ⟨b₁, b₂, b₃⟩ := b
  obtain ⟨c₁, c₂, c₃⟩ := c
  rw [Place.less_iff] at h h' ⊢
  omega

theorem Place.wellFounded_less : WellFounded Place.Less :=
  WellFounded.prod_lex wellFounded_lt (WellFounded.prod_lex wellFounded_lt wellFounded_lt)

/-- The place of a layer. -/
def Layer.place (bound : Coding → Bytes → Nat) (layer : Layer σ) : Place :=
  (layer.input.length, bound layer.coding layer.taken - layer.given.length, layer.state.rank)

/-- The measure of a decoder in front of some unread bytes. -/
def StreamingDecoder.measure (bound : Coding → Bytes → Nat) (decoder : StreamingDecoder σ)
    (unread : Bytes) : List Place :=
  (unread.length, 0, 0) :: decoder.layers.map (Layer.place bound)

/-- The first decoder has a lower measure than the second one, each with its unread bytes. -/
def Falls (bound : Coding → Bytes → Nat) : StreamingDecoder σ × Bytes →
    StreamingDecoder σ × Bytes → Prop :=
  InvImage (FirstLess Place.Less) fun (decoder, unread) => decoder.measure bound unread

theorem wellFounded_falls (bound : Coding → Bytes → Nat) : WellFounded (Falls (σ := σ) bound) :=
  InvImage.wf _ (wellFounded_firstLess Place.wellFounded_less)

theorem Falls.trans {a b c : StreamingDecoder σ × Bytes} (h : Falls bound a b)
    (h' : Falls bound b c) : Falls bound a c :=
  FirstLess.trans Place.Less.trans h h'

/-- The decoder has read some of its input. -/
theorem falls_unread {next : StreamingDecoder σ} {unread : Bytes}
    (hlength : next.layers.length = decoder.layers.length)
    (h : unread.length < remaining.length) : Falls bound (next, unread) (decoder, remaining) := by
  apply FirstLess.head
  · exact Place.less_iff.mpr (.inl h)
  · simp [hlength]

/-- The place of one layer falls, and those in front of it stay. -/
theorem falls_layer {next : StreamingDecoder σ} (index : Nat) {layer : Layer σ} (new : Layer σ)
    (hlength : next.layers.length = decoder.layers.length)
    (hsame : ∀ j : Nat, j < index → next.layers[j]? = decoder.layers[j]?)
    (hlayer : decoder.layers[index]? = some layer) (hnew : next.layers[index]? = some new)
    (h : Place.Less (new.place bound) (layer.place bound)) :
    Falls bound (next, remaining) (decoder, remaining) := by
  apply FirstLess.cons
  refine ⟨by simp [hlength], index, _, _, ?_, ?_, ?_, h⟩
  · intro j hj
    rw [List.getElem?_map, List.getElem?_map, hsame j hj]
  · rw [List.getElem?_map, hnew, Option.map_some]
  · rw [List.getElem?_map, hlayer, Option.map_some]

/-! ## The invariant -/

/-- The order between the layers.  `drained` says that the body has been read to its end. -/
structure Orderly (library : CodecLibrary σ) (Idle : σ → Prop) (drained : Prop)
    (layers : List (Layer σ)) : Prop where
  linked : ∀ (i : Nat) (up down : Layer σ), layers[i]? = some up → layers[i + 1]? = some down →
    down.state = .finished → up.state = .finished ∧ down.input = []
  first : ∀ layer : Layer σ, layers[0]? = some layer →
    layer.input = [] ∧ (layer.state = .finished → drained)
  idle : ∀ (i : Nat) (layer : Layer σ), layers[i]? = some layer → layer.state = .needsInput →
    Idle layer.codec
  runs : ∀ (i : Nat) (layer : Layer σ), layers[i]? = some layer →
    CodecRun library layer.coding layer.codec layer.taken layer.given

/-- What stands in front of layer `index`. -/
def Layer.front (layer : Layer σ) (index : Nat) (input : Bytes) : Bytes :=
  if index = 0 then input else layer.input

theorem Orderly.mono {drained' : Prop} {layers : List (Layer σ)}
    (h : Orderly library Idle drained layers) (himp : drained → drained') :
    Orderly library Idle drained' layers :=
  ⟨h.linked, fun layer hlayer => ⟨(h.first layer hlayer).1,
    fun hdone => himp ((h.first layer hlayer).2 hdone)⟩, h.idle, h.runs⟩

/-- The layers of a new decoder. -/
theorem orderly_new (hprogressive : library.Progressive Idle bound) (plan : StreamingDecodePlan)
    (maxDecodedBytes : Option Nat) :
    Orderly library Idle drained (StreamingDecoder.new library plan maxDecodedBytes).layers := by
  have hlayer : ∀ (i : Nat) (layer : Layer σ),
      (StreamingDecoder.new library plan maxDecodedBytes).layers[i]? = some layer →
      ∃ coding, layer = ⟨coding, library.new coding, [], 0, .needsInput, [], []⟩ := by
    intro i layer hi
    rw [StreamingDecoder.new, List.getElem?_map, Option.map_eq_some_iff] at hi
    obtain ⟨coding, -, rfl⟩ := hi
    exact ⟨coding, rfl⟩
  refine ⟨?_, ?_, ?_, ?_⟩
  · intro i up down _ hdown hdone
    obtain ⟨_, rfl⟩ := hlayer _ down hdown
    cases hdone
  · intro layer hfirst
    obtain ⟨_, rfl⟩ := hlayer 0 layer hfirst
    exact ⟨rfl, by simp⟩
  · intro i layer hi _
    obtain ⟨coding, rfl⟩ := hlayer i layer hi
    exact hprogressive.new coding
  · intro i layer hi
    obtain ⟨coding, rfl⟩ := hlayer i layer hi
    exact CodecRun.new

/-- Nothing stands in front of a finished layer. -/
theorem Orderly.front_eq_nil {index : Nat} {layer : Layer σ}
    (h : Orderly library Idle drained decoder.layers) (hdrained : drained → input = [])
    (hlayer : decoder.layers[index]? = some layer) (hdone : layer.state = .finished) :
    layer.front index input = [] := by
  unfold Layer.front
  cases index with
  | zero => exact hdrained ((h.first layer hlayer).2 hdone)
  | succ index =>
      have hlt := (List.getElem?_eq_some_iff.mp hlayer).1
      have hup : decoder.layers[index]? = some decoder.layers[index] :=
        List.getElem?_eq_getElem (by omega)
      exact (h.linked index _ layer hup hlayer hdone).2

/-- A layer takes from what is in front of it and gives `bytes` to the empty slot behind it. -/
theorem Orderly.relay {index : Nat} {layer new : Layer σ} {bytes : Bytes}
    (h : Orderly library Idle drained decoder.layers)
    (hlayer : decoder.layers[index]? = some layer) (hopen : layer.state ≠ .finished)
    (hfree : decoder.occupied (index + 1) = false)
    (hinput : index = 0 → new.input = layer.input) (hstate : new.state ≠ .finished)
    (hidle : new.state = .needsInput → Idle new.codec)
    (hrun : CodecRun library new.coding new.codec new.taken new.given) :
    Orderly library Idle drained
      (StreamingDecoder.fillSlot (decoder.layers.set index new) (index + 1) (passedOn bytes)) := by
  have hget : ∀ (j : Nat) (after : Layer σ),
      (StreamingDecoder.fillSlot (decoder.layers.set index new) (index + 1)
        (passedOn bytes))[j]? = some after →
      ∃ before, decoder.layers[j]? = some before ∧
        (j = index ∧ after = new ∧ before = layer ∨
          j = index + 1 ∧ after = { before with input := bytes } ∧ before.input = [] ∨
          j ≠ index ∧ j ≠ index + 1 ∧ after = before) :=
    fun j after hafter => relay_cases hlayer hfree hafter
  refine ⟨?_, ?_, ?_, ?_⟩
  · intro i up down hup hdown hdone
    obtain ⟨oldUp, holdUp, hupCase⟩ := hget i up hup
    obtain ⟨oldDown, holdDown, hdownCase⟩ := hget (i + 1) down hdown
    rcases hdownCase with ⟨-, rfl, -⟩ | ⟨hi, rfl, -⟩ | ⟨-, hother, rfl⟩
    · exact absurd hdone hstate
    · -- The layer that gives is not finished, and so the next one is not.
      obtain rfl : i = index := by omega
      rw [hlayer, Option.some.injEq] at holdUp
      subst holdUp
      exact absurd (h.linked i layer oldDown hlayer holdDown hdone).1 hopen
    · have hold := h.linked i oldUp down holdUp holdDown hdone
      rcases hupCase with ⟨hi, -, -⟩ | ⟨-, rfl, -⟩ | ⟨-, -, rfl⟩
      · omega
      · exact hold
      · exact hold
  · intro after hafter
    obtain ⟨before, hbefore, hcase⟩ := hget 0 after hafter
    obtain ⟨hempty, hdrained⟩ := h.first before hbefore
    rcases hcase with ⟨hi, rfl, rfl⟩ | ⟨hi, -, -⟩ | ⟨-, -, rfl⟩
    · exact ⟨by rw [hinput hi.symm, hempty], fun hdone => absurd hdone hstate⟩
    · omega
    · exact ⟨hempty, hdrained⟩
  · intro j after hafter hneeds
    obtain ⟨before, hbefore, hcase⟩ := hget j after hafter
    rcases hcase with ⟨-, rfl, -⟩ | ⟨-, rfl, -⟩ | ⟨-, -, rfl⟩
    · exact hidle hneeds
    · exact h.idle j before hbefore hneeds
    · exact h.idle j after hbefore hneeds
  · intro j after hafter
    obtain ⟨before, hbefore, hcase⟩ := hget j after hafter
    rcases hcase with ⟨-, rfl, -⟩ | ⟨-, rfl, -⟩ | ⟨-, -, rfl⟩
    · exact hrun
    · exact h.runs j before hbefore
    · exact h.runs j after hbefore

/-- A layer that has ended is finished when nothing can follow it. -/
theorem Orderly.finishLayer {index : Nat} {layer : Layer σ}
    (h : Orderly library Idle drained decoder.layers)
    (hlayer : decoder.layers[index]? = some layer) (hfront : layer.front index input = [])
    (hdrained : realEof = true → input = [] → drained)
    (hupstream : decoder.upstreamEof index realEof = true) :
    Orderly library Idle drained (decoder.layers.set index { layer with state := .finished }) := by
  refine ⟨?_, ?_, ?_, ?_⟩
  · intro i up down hup hdown hdone
    rcases getElem?_set_cases hdown with ⟨hi, rfl⟩ | ⟨-, hold⟩
    · rcases getElem?_set_cases hup with ⟨habsurd, -⟩ | ⟨-, holdUp⟩
      · omega
      · subst hi
        rw [Layer.front, if_neg (by omega)] at hfront
        refine ⟨?_, hfront⟩
        simpa [StreamingDecoder.upstreamEof, holdUp] using hupstream
    · rcases getElem?_set_cases hup with ⟨hi, rfl⟩ | ⟨-, holdUp⟩
      · subst hi
        exact ⟨rfl, (h.linked i layer down hlayer hold hdone).2⟩
      · exact h.linked i up down holdUp hold hdone
  · intro after hafter
    rcases getElem?_set_cases hafter with ⟨hi, rfl⟩ | ⟨-, hafter⟩
    · subst hi
      exact ⟨(h.first layer hlayer).1, fun _ => hdrained hupstream hfront⟩
    · exact h.first after hafter
  · intro i after hafter hneeds
    rcases getElem?_set_cases hafter with ⟨-, rfl⟩ | ⟨-, hafter⟩
    · cases hneeds
    · exact h.idle i after hafter hneeds
  · intro i after hafter
    rcases getElem?_set_cases hafter with ⟨rfl, rfl⟩ | ⟨-, hafter⟩
    · exact h.runs i layer hlayer
    · exact h.runs i after hafter

/-! ## One codec call -/

/-- What a step does to the measure, when it asks for input, and when it delivers. -/
def Advances (library : CodecLibrary σ) (Idle : σ → Prop) (bound : Coding → Bytes → Nat)
    (drained : Prop) (remaining input : Bytes) (realEof : Bool) (start : StreamingDecoder σ) :
    Except StreamDecodeError Step × StreamingDecoder σ → Prop
  | (.ok step, next) =>
      Orderly library Idle drained next.layers ∧
        (step.status = .progress →
          Falls bound (next, remaining.drop step.consumed) (start, remaining)) ∧
        (step.status = .needsInput → realEof = false ∧ step.consumed = 0 ∧
          input = [] ∧ ∀ layer ∈ next.layers, layer.input = []) ∧
        (step.output.isSome = true → step.status = .progress)
  | (.error _, _) => True

/-- The place of a layer falls with a call that leaves the unread input alone. -/
theorem Layer.place_called_less {layer : Layer σ} {index produced : Nat} {available : Bytes}
    {codec : σ} {result : CodecStep} {eof : Bool}
    (hfront : index ≠ 0 → layer.input = available) (hzero : index = 0 → result.consumed = 0)
    (hfair : Fair (Idle layer.codec) (Idle codec) (available.take (min available.length inputSize))
      eof result)
    (hidle : layer.state = .needsInput → Idle layer.codec)
    (hrunning : layer.state = .needsInput ∨ layer.state = .ready)
    (hoffered : layer.state = .needsInput → eof = false → available ≠ [])
    (hbound : (layer.given ++ result.output).length ≤
      bound layer.coding (layer.taken ++ available.take result.consumed)) :
    Place.Less ((layer.called index available codec produced result).place bound)
      (layer.place bound) := by
  have hle := hfair.consumed_le
  rw [List.length_take] at hle
  unfold Layer.place Layer.called
  rw [Place.less_iff]
  dsimp only
  by_cases hconsumed : result.consumed = 0
  · refine .inr ⟨by simp [hconsumed], ?_⟩
    rw [hconsumed, List.take_zero, List.append_nil] at hbound ⊢
    rw [List.length_append] at hbound ⊢
    by_cases houtput : result.output = []
    · refine .inr ⟨by rw [houtput, List.length_nil]; omega, ?_⟩
      -- No byte has moved, and so the state has.
      cases hstatus : result.status with
      | progress => exact absurd (hfair.progress hstatus) (by simp [hconsumed, houtput])
      | ended => rcases hrunning with hstate | hstate <;> simp [hstate, LayerState.ofStatus,
          LayerState.rank]
      | needsInput =>
          rcases hrunning with hstate | hstate
          · obtain ⟨heof, hall⟩ := hfair.starved (hidle hstate) hstatus
            rw [hconsumed, List.length_take] at hall
            refine absurd ?_ (hoffered hstate heof)
            unfold inputSize at hall
            exact List.eq_nil_of_length_eq_zero (by omega)
          · simp [hstate, LayerState.ofStatus, LayerState.rank]
    · have hpos := List.length_pos_iff.mpr houtput
      left
      omega
  · have hne : index ≠ 0 := fun h => hconsumed (hzero h)
    left
    rw [if_neg hne, List.length_drop, hfront hne]
    omega

/-- A codec call that is passed on lowers the measure. -/
theorem falls_runLayer {next : StreamingDecoder σ} {index produced : Nat} {layer : Layer σ}
    {upstreamEof : Bool} {available : Bytes} {codec : σ} {result : CodecStep}
    (hprogressive : library.Progressive Idle bound)
    (h : Orderly library Idle drained decoder.layers) (hinput : input.length ≤ remaining.length)
    (hlayer : decoder.layers[index]? = some layer)
    (hrunning : layer.state = .needsInput ∨ layer.state = .ready)
    (hfed : layer.state = .needsInput → upstreamEof = false → layer.front index input ≠ [])
    (hfree : decoder.occupied (index + 1) = false)
    (havailable : (if index = 0 then input else layer.input) = available)
    (hcall : library.step layer.codec (available.take (min available.length inputSize))
      (upstreamEof && min available.length inputSize == available.length)
      (decoder.capacity layer.produced) = .ok (codec, result))
    (hnext : next.layers = StreamingDecoder.fillSlot
      (decoder.layers.set index (layer.called index available codec produced result))
      (index + 1) (passedOn result.output)) :
    Falls bound (next, remaining.drop (if index = 0 then result.consumed else 0))
      (decoder, remaining) := by
  have hfair := hprogressive.call hcall
  have hrun := (h.runs index layer hlayer).offered hfair.consumed_le hcall
  have hle := hfair.consumed_le
  rw [List.length_take] at hle
  have hlength : next.layers.length = decoder.layers.length := by
    rw [hnext, length_fillSlot, List.length_set]
  by_cases hread : index = 0 ∧ result.consumed ≠ 0
  · obtain ⟨hzero, hconsumed⟩ := hread
    rw [if_pos hzero] at havailable ⊢
    subst havailable
    apply falls_unread hlength
    rw [List.length_drop]
    omega
  · have hunread : index = 0 → result.consumed = 0 := by
      intro hzero
      by_contra hconsumed
      exact hread ⟨hzero, hconsumed⟩
    have hdrop : remaining.drop (if index = 0 then result.consumed else 0) = remaining := by
      split
      · rename_i hzero
        rw [hunread hzero, List.drop_zero]
      · exact List.drop_zero
    rw [hdrop]
    apply falls_layer index (layer.called index available codec produced result) hlength
    · intro j hj
      rw [hnext, getElem?_relay hlayer hfree]
      have hbefore : j ≠ index ∧ j ≠ index + 1 := by omega
      simp [hbefore]
    · exact hlayer
    · rw [hnext, getElem?_relay hlayer hfree, hlayer]
      simp
    · refine Layer.place_called_less ?_ hunread hfair (h.idle index layer hlayer) hrunning ?_ ?_
      · intro hne
        rw [← havailable, if_neg hne]
      · intro hneeds heof hnil
        rw [hnil] at heof havailable
        exact hfed hneeds (by simpa using heof) havailable
      · exact hprogressive.finite hrun

/-- The step lemma of `run_layer`. -/
theorem advances_runLayer {index : Nat} {layer : Layer σ} {upstreamEof : Bool}
    (hprogressive : library.Progressive Idle bound)
    (h : Orderly library Idle drained decoder.layers) (hinput : input.length ≤ remaining.length)
    (hlayer : decoder.layers[index]? = some layer)
    (hrunning : layer.state = .needsInput ∨ layer.state = .ready)
    (hfed : layer.state = .needsInput → upstreamEof = false → layer.front index input ≠ [])
    (hfree : decoder.occupied (index + 1) = false) :
    Advances library Idle bound drained remaining input realEof decoder
      (StreamingDecoder.runLayer library decoder index layer input upstreamEof) := by
  have hopen : layer.state ≠ .finished := by
    rcases hrunning with hstate | hstate <;> simp [hstate]
  unfold StreamingDecoder.runLayer
  dsimp only
  generalize havailable : (if index = 0 then input else layer.input) = available
  cases hcall : library.step layer.codec (available.take (min available.length inputSize))
      (upstreamEof && min available.length inputSize == available.length)
      (decoder.capacity layer.produced) with
  | error source => trivial
  | ok called =>
      obtain ⟨codec, result⟩ := called
      dsimp only
      have hfair := hprogressive.call hcall
      have hrun := (h.runs index layer hlayer).offered hfair.consumed_le hcall
      cases checkedOutput layer.produced result.output.length decoder.maxDecodedBytes
          layer.coding.name index with
      | error error => trivial
      | ok produced =>
          dsimp only
          cases checkedAdd decoder.encodedBytes (if index = 0 then result.consumed else 0) with
          | none => trivial
          | some encodedBytes =>
              dsimp only
              have horderly : Orderly library Idle drained (StreamingDecoder.fillSlot
                  (decoder.layers.set index (layer.called index available codec produced result))
                  (index + 1) (passedOn result.output)) := by
                apply h.relay hlayer hopen hfree
                · intro hzero
                  exact if_pos hzero
                · exact LayerState.ofStatus_ne_finished result.status
                · intro hneeds
                  apply hfair.asks
                  cases hstatus : result.status <;>
                    simp [Layer.called, hstatus, LayerState.ofStatus] at hneeds ⊢
                · exact hrun
              have hfalls : ∀ next : StreamingDecoder σ,
                  next.layers = StreamingDecoder.fillSlot
                    (decoder.layers.set index (layer.called index available codec produced result))
                    (index + 1) (passedOn result.output) →
                  Falls bound
                    (next, remaining.drop (if index = 0 then result.consumed else 0))
                    (decoder, remaining) := fun _ => falls_runLayer hprogressive h hinput hlayer
                hrunning hfed hfree havailable hcall
              split
              · exact ⟨horderly, fun _ => hfalls _ rfl, by simp, by simp⟩
              · rename_i hlast
                have hsame : StreamingDecoder.fillSlot (decoder.layers.set index
                    (layer.called index available codec produced result)) (index + 1)
                    (passedOn result.output) = decoder.layers.set index
                      (layer.called index available codec produced result) := by
                  apply fillSlot_of_le
                  rw [List.length_set]
                  omega
                rw [hsame] at horderly
                exact ⟨horderly, fun _ => hfalls _ hsame.symm, by simp, fun _ => rfl⟩

/-! ## The loop over the layers -/

/-- What the loop of `advance` knows about the layers from `count` on.  Nothing stands in front of
them.  Either no layer has changed and all of them wait, or the measure has fallen. -/
structure Passed (bound : Coding → Bytes → Nat) (remaining input : Bytes) (realEof : Bool)
    (start decoder : StreamingDecoder σ) (count : Nat) : Prop where
  empty : ∀ (i : Nat) (layer : Layer σ), count ≤ i → decoder.layers[i]? = some layer →
    layer.front i input = []
  waits : (decoder.layers = start.layers ∧
      ∀ (i : Nat) (layer : Layer σ), count ≤ i → decoder.layers[i]? = some layer →
        layer.state = .finished ∨ decoder.upstreamEof i realEof = false) ∨
    Falls bound (decoder, remaining) (start, remaining)

/-- The loop passes a layer that cannot move. -/
theorem Passed.skip {index : Nat}
    (h : Passed bound remaining input realEof start decoder (index + 1))
    (hwait : ∀ layer : Layer σ, decoder.layers[index]? = some layer →
      layer.front index input = [] ∧
        (layer.state = .finished ∨ decoder.upstreamEof index realEof = false)) :
    Passed bound remaining input realEof start decoder index := by
  constructor
  · intro i layer hi hlayer
    rcases Nat.eq_or_lt_of_le hi with rfl | hlt
    · exact (hwait layer hlayer).1
    · exact h.empty i layer hlt hlayer
  · refine h.waits.imp_left fun ⟨hsame, hall⟩ => ⟨hsame, fun i layer hi hlayer => ?_⟩
    rcases Nat.eq_or_lt_of_le hi with rfl | hlt
    · exact (hwait layer hlayer).2
    · exact hall i layer hlt hlayer

/-- The slot behind a layer is free when the loop comes to the layer. -/
theorem Passed.free {index : Nat}
    (h : Passed bound remaining input realEof start decoder (index + 1)) :
    decoder.occupied (index + 1) = false := by
  unfold StreamingDecoder.occupied
  cases hnext : decoder.layers[index + 1]? with
  | none => rfl
  | some next =>
      have hempty := h.empty (index + 1) next (Nat.le_refl _) hnext
      rw [Layer.front, if_neg (by omega)] at hempty
      simp [hempty]

/-- Progress from a decoder behind the start is progress from the start. -/
theorem Passed.advances {count : Nat}
    {outcome : Except StreamDecodeError Step × StreamingDecoder σ}
    (h : Passed bound remaining input realEof start decoder count)
    (hadvances : Advances library Idle bound drained remaining input realEof decoder outcome) :
    Advances library Idle bound drained remaining input realEof start outcome := by
  obtain ⟨result, next⟩ := outcome
  cases result with
  | error error => trivial
  | ok step =>
      obtain ⟨horderly, hprogress, hrest⟩ := hadvances
      refine ⟨horderly, fun hstatus => ?_, hrest⟩
      rcases h.waits with ⟨hsame, -⟩ | hfalls
      · have hstep := hprogress hstatus
        unfold Falls InvImage StreamingDecoder.measure at hstep ⊢
        dsimp only at hstep ⊢
        rwa [hsame] at hstep
      · exact (hprogress hstatus).trans hfalls

/-- The loop finishes a layer that has ended. -/
theorem Passed.close {index : Nat} {layer : Layer σ}
    (h : Passed bound remaining input realEof start decoder (index + 1))
    (hlayer : decoder.layers[index]? = some layer) (hended : layer.state = .ended)
    (hfront : layer.front index input = []) :
    Passed bound remaining input realEof start
      { decoder with layers := decoder.layers.set index { layer with state := .finished } }
      index := by
  obtain ⟨hlt, -⟩ := List.getElem?_eq_some_iff.mp hlayer
  constructor
  · intro i after hi hafter
    rcases getElem?_set_cases hafter with ⟨rfl, rfl⟩ | ⟨hne, hafter⟩
    · exact hfront
    · exact h.empty i after (by omega) hafter
  · right
    have hcloses : Falls bound
        ({ decoder with layers := decoder.layers.set index { layer with state := .finished } },
          remaining) (decoder, remaining) := by
      apply falls_layer index { layer with state := .finished } (List.length_set ..)
      · intro j hj
        exact List.getElem?_set_ne (by omega)
      · exact hlayer
      · exact List.getElem?_set_self hlt
      · rw [Layer.place, Layer.place, Place.less_iff]
        simp [hended, LayerState.rank]
    rcases h.waits with ⟨hsame, -⟩ | hfalls
    · unfold Falls InvImage StreamingDecoder.measure at hcloses ⊢
      dsimp only at hcloses ⊢
      rwa [hsame] at hcloses ⊢
    · exact hcloses.trans hfalls

/-- When all layers wait at the end of the body, all of them are finished. -/
theorem all_finished (hwaits : ∀ (i : Nat) (layer : Layer σ), 0 ≤ i →
      decoder.layers[i]? = some layer →
      layer.state = .finished ∨ decoder.upstreamEof i true = false) (i : Nat) :
    ∀ layer : Layer σ, decoder.layers[i]? = some layer → layer.state = .finished := by
  induction i with
  | zero =>
      intro layer hlayer
      exact (hwaits 0 layer (Nat.le_refl _) hlayer).resolve_right (by
        simp [StreamingDecoder.upstreamEof])
  | succ i ih =>
      intro layer hlayer
      have hlt := (List.getElem?_eq_some_iff.mp hlayer).1
      have hup : decoder.layers[i]? = some decoder.layers[i] :=
        List.getElem?_eq_getElem (by omega)
      have hdone := ih _ hup
      exact (hwaits (i + 1) layer (Nat.zero_le _) hlayer).resolve_right (by
        simp [StreamingDecoder.upstreamEof, hup, hdone])

/-- The end of the loop. -/
theorem Passed.settle (h : Passed bound remaining input realEof start decoder 0)
    (horderly : Orderly library Idle drained decoder.layers) (hlayers : decoder.layers ≠ []) :
    Advances library Idle bound drained remaining input realEof start
      (StreamingDecoder.drain library decoder input realEof 0) := by
  unfold StreamingDecoder.drain
  dsimp only
  refine ⟨horderly, ?_, ?_, by simp⟩
  · intro hstatus
    dsimp only at hstatus ⊢
    split at hstatus
    · cases hstatus
    · rename_i hopen
      split at hstatus
      · rename_i hreal
        subst hreal
        rcases h.waits with ⟨-, hwaits⟩ | hfalls
        · refine absurd ?_ hopen
          rw [List.all_eq_true]
          intro layer hmem
          obtain ⟨i, hi⟩ := List.mem_iff_getElem?.mp hmem
          simp [all_finished hwaits i layer hi]
        · rw [List.drop_zero]
          exact hfalls
      · cases hstatus
  · intro hstatus
    dsimp only at hstatus ⊢
    split at hstatus
    · cases hstatus
    · split at hstatus
      · cases hstatus
      · rename_i hreal
        have hpos : 0 < decoder.layers.length := List.length_pos_iff.mpr hlayers
        have hzero : decoder.layers[0]? = some decoder.layers[0] :=
          List.getElem?_eq_getElem hpos
        refine ⟨by simpa using hreal, rfl, h.empty 0 _ (Nat.le_refl _) hzero, ?_⟩
        intro layer hmem
        obtain ⟨i, hi⟩ := List.mem_iff_getElem?.mp hmem
        cases i with
        | zero => exact (horderly.first layer hi).1
        | succ i => exact h.empty (i + 1) layer (Nat.zero_le _) hi

/-- The loop of `advance`, by induction on the layers that are left. -/
theorem advances_drain (hprogressive : library.Progressive Idle bound)
    (hinput : input.length ≤ remaining.length) (hdrained : realEof = true → input = [] → drained)
    (hread : drained → input = []) (count : Nat) :
    ∀ {decoder : StreamingDecoder σ}, Orderly library Idle drained decoder.layers →
      decoder.layers ≠ [] → Passed bound remaining input realEof start decoder count →
      Advances library Idle bound drained remaining input realEof start
        (StreamingDecoder.drain library decoder input realEof count) := by
  induction count with
  | zero =>
      intro decoder h hlayers hpassed
      exact hpassed.settle h hlayers
  | succ index ih =>
      intro decoder h hlayers hpassed
      unfold StreamingDecoder.drain
      split
      · rename_i hnone
        exact ih h hlayers (hpassed.skip fun layer hlayer => by simp [hnone] at hlayer)
      · rename_i layer hlayer
        have hskip : layer.front index input = [] →
            layer.state = .finished ∨ decoder.upstreamEof index realEof = false →
            Advances library Idle bound drained remaining input realEof start
              (StreamingDecoder.drain library decoder input realEof index) := by
          intro hfront hwait
          apply ih h hlayers
          apply hpassed.skip
          intro same hsame
          rw [hlayer, Option.some.injEq] at hsame
          exact hsame ▸ ⟨hfront, hwait⟩
        have hcall : layer.state = .needsInput ∨ layer.state = .ready →
            (layer.state = .needsInput → decoder.upstreamEof index realEof = false →
              layer.front index input ≠ []) →
            Advances library Idle bound drained remaining input realEof start
              (StreamingDecoder.runLayer library decoder index layer input
                (decoder.upstreamEof index realEof)) := by
          intro hrunning hfed
          apply hpassed.advances
          exact advances_runLayer hprogressive h hinput hlayer hrunning hfed hpassed.free
        dsimp only
        generalize havailable : (if index = 0 then input else layer.input) = available
        have hfront : layer.front index input = available := havailable
        split
        · rename_i hdone
          exact hskip (h.front_eq_nil hread hlayer hdone) (.inl hdone)
        · rename_i hended
          split
          · trivial
          · rename_i hempty
            have hnil : layer.front index input = [] := by
              rw [hfront]
              simpa using hempty
            split
            · rename_i hupstream
              exact ih (h.finishLayer hlayer hnil hdrained hupstream) (by simpa using hlayers)
                (hpassed.close hlayer hended hnil)
            · rename_i hupstream
              exact hskip hnil (.inr (by simpa using hupstream))
        · rename_i hneeds
          split
          · rename_i hwait
            simp only [Bool.and_eq_true, List.isEmpty_iff, Bool.not_eq_true'] at hwait
            exact hskip (hfront.trans hwait.1) (.inr hwait.2)
          · rename_i hfed
            rw [if_neg (by simp [hpassed.free])]
            apply hcall (.inl hneeds)
            intro _ hupstream hnil
            rw [hfront] at hnil
            exact hfed (by simp [hnil, hupstream])
        · rename_i hready
          rw [if_neg (by simp [hpassed.free])]
          apply hcall (.inr hready)
          intro hneeds
          simp [hready] at hneeds

/-! ## One step -/

/-- The step lemma of `identity`. -/
theorem advances_identity (h : Orderly library Idle drained decoder.layers)
    (hlayers : decoder.layers = []) (hinput : input.length ≤ remaining.length) :
    Advances library Idle bound drained remaining input realEof decoder
      (decoder.identity input realEof) := by
  unfold StreamingDecoder.identity
  dsimp only
  cases checkedOutput decoder.identityBytes (min input.length inputSize)
      decoder.maxDecodedBytes "identity" 0 with
  | error error => trivial
  | ok identityBytes =>
      dsimp only
      cases checkedAdd decoder.encodedBytes (min input.length inputSize) with
      | none => trivial
      | some encodedBytes =>
          refine ⟨h, ?_, ?_, ?_⟩
          · intro hstatus
            dsimp only at hstatus ⊢
            split at hstatus
            · cases hstatus
            · split at hstatus
              · cases hstatus
              · rename_i hconsumed
                apply falls_unread rfl
                rw [List.length_drop]
                omega
          · intro hstatus
            dsimp only at hstatus ⊢
            split at hstatus
            · cases hstatus
            · rename_i hopen
              split at hstatus
              · rename_i hconsumed
                refine ⟨by simpa [hconsumed] using hopen, hconsumed, ?_, ?_⟩
                · unfold inputSize at hconsumed
                  exact List.eq_nil_of_length_eq_zero (by omega)
                · simp [hlayers]
              · cases hstatus
          · intro houtput
            dsimp only at houtput ⊢
            split at houtput
            · cases houtput
            · rename_i hconsumed
              simp [hconsumed]

/-- The step lemma of `step`.  `drained` is true once the body has been read to its end. -/
theorem advances_step (hprogressive : library.Progressive Idle bound)
    (h : Orderly library Idle drained decoder.layers) (hinput : input.length ≤ remaining.length)
    (hdrained : realEof = true → input = [] → drained) (hread : drained → input = []) :
    Advances library Idle bound drained remaining input realEof decoder
      (decoder.step library input realEof) := by
  unfold StreamingDecoder.step
  cases decoder.failure with
  | some error => trivial
  | none =>
      have hadvance : Advances library Idle bound drained remaining input realEof decoder
          (decoder.advance library input realEof) := by
        unfold StreamingDecoder.advance
        split
        · split
          · trivial
          · exact ⟨h, by simp, by simp, by simp⟩
        · split
          · rename_i hlayers
            exact advances_identity h (by simpa using hlayers) hinput
          · rename_i hlayers
            apply advances_drain hprogressive hinput hdrained hread _ h (by simpa using hlayers)
            constructor
            · intro i layer hi hlayer
              obtain ⟨hlt, -⟩ := List.getElem?_eq_some_iff.mp hlayer
              omega
            · refine .inl ⟨rfl, fun i layer hi hlayer => ?_⟩
              obtain ⟨hlt, -⟩ := List.getElem?_eq_some_iff.mp hlayer
              omega
      dsimp only
      cases hresult : decoder.advance library input realEof with
      | mk outcome next =>
          rw [hresult] at hadvance
          cases outcome with
          | error error => trivial
          | ok step => exact hadvance

/-- An outcome that is not a request for input. -/
def Served : Except StreamDecodeError Step × StreamingDecoder σ → Prop
  | (.ok step, _) => step.status ≠ .needsInput
  | (.error _, _) => True

theorem served_runLayer (index : Nat) (layer : Layer σ) (upstreamEof : Bool) :
    Served (StreamingDecoder.runLayer library decoder index layer input upstreamEof) := by
  unfold StreamingDecoder.runLayer
  dsimp only
  split
  · trivial
  · split
    · trivial
    · split
      · trivial
      · split <;> simp [Served]

/-- The loop of `advance` does not ask for input at the end of the body. -/
theorem served_drain (count : Nat) : ∀ decoder : StreamingDecoder σ,
    Served (StreamingDecoder.drain library decoder input true count) := by
  induction count with
  | zero =>
      intro decoder
      unfold StreamingDecoder.drain Served
      dsimp only
      split <;> simp
  | succ index ih =>
      intro decoder
      unfold StreamingDecoder.drain
      split
      · exact ih decoder
      · rename_i layer hlayer
        dsimp only
        generalize (if index = 0 then input else layer.input) = available
        split
        · exact ih decoder
        · split
          · trivial
          · split
            · exact ih _
            · exact ih decoder
        · split
          · exact ih decoder
          · split
            · exact ih decoder
            · exact served_runLayer ..
        · split
          · exact ih decoder
          · exact served_runLayer ..

theorem served_identity : Served (decoder.identity input true) := by
  unfold StreamingDecoder.identity
  dsimp only
  split
  · trivial
  · split
    · trivial
    · unfold Served
      dsimp only
      split
      · simp
      · rename_i hopen
        split
        · rename_i hconsumed
          simp [hconsumed] at hopen
        · simp

/-- A step at the end of the body does not ask for input, whatever the decoder is. -/
theorem served_step : Served (decoder.step library input true) := by
  have hadvance : Served (decoder.advance library input true) := by
    unfold StreamingDecoder.advance
    split
    · split
      · trivial
      · simp [Served]
    · split
      · exact served_identity
      · exact served_drain _ decoder
  unfold StreamingDecoder.step
  split
  · trivial
  · cases hresult : decoder.advance library input true with
    | mk outcome next =>
        rw [hresult] at hadvance
        cases outcome with
        | error error => trivial
        | ok step => exact hadvance

/-! ## Sessions -/

namespace Session

/-- A call of a session, for a decoder that has not failed. -/
theorem advances_call {session next : Session σ} {call : Call} {step : Step}
    (hprogressive : library.Progressive Idle bound)
    (h : Orderly library Idle (session.remaining = []) session.decoder.layers)
    (hcall : session.call library call = some (.ok step, next)) :
    Orderly library Idle (next.remaining = []) next.decoder.layers ∧
      (step.status = .progress →
        Falls bound (next.decoder, next.remaining) (session.decoder, session.remaining)) ∧
      (step.status = .needsInput → call.realEof = false ∧
        session.remaining.take call.offered = [] ∧
        ∀ layer ∈ next.decoder.layers, layer.input = []) := by
  unfold Session.call at hcall
  split at hcall
  · rename_i hprotocol
    obtain ⟨hoffered, heof⟩ := hprotocol
    have hadvances : Advances library Idle bound (session.remaining = []) session.remaining
        (session.remaining.take call.offered) call.realEof session.decoder
        (session.decoder.step library (session.remaining.take call.offered) call.realEof) := by
      apply advances_step hprogressive h
      · rw [List.length_take]
        omega
      · intro hreal hnil
        rwa [heof hreal, List.take_length] at hnil
      · intro hnil
        rw [hnil, List.take_nil]
    split at hcall
    · rename_i step' decoder hstep
      rw [hstep] at hadvances
      simp only [Option.some.injEq, Prod.mk.injEq, Except.ok.injEq] at hcall
      obtain ⟨rfl, rfl⟩ := hcall
      obtain ⟨horderly, hprogress, hneeds, -⟩ := hadvances
      refine ⟨horderly.mono fun hnil => ?_, hprogress, fun hstatus => ?_⟩
      · rw [hnil, List.drop_nil]
      · obtain ⟨hreal, -, hnil, hslots⟩ := hneeds hstatus
        exact ⟨hreal, hnil, hslots⟩
    · simp at hcall
  · simp at hcall

/-- A call that succeeds found a decoder that had not failed. -/
theorem call_ok {session next : Session σ} {call : Call} {step : Step}
    (hcall : session.call library call = some (.ok step, next)) :
    session.decoder.failure = none := by
  unfold Session.call StreamingDecoder.step at hcall
  cases hfailure : session.decoder.failure with
  | none => rfl
  | some error => simp [hfailure] at hcall

/-- A call that fails leaves a decoder that has failed. -/
theorem call_error {session next : Session σ} {call : Call} {error : StreamDecodeError}
    (hcall : session.call library call = some (.error error, next)) :
    next.decoder.failure.isSome = true := by
  unfold Session.call at hcall
  split at hcall
  · split at hcall
    · simp at hcall
    · rename_i error' decoder hstep
      simp only [Option.some.injEq, Prod.mk.injEq] at hcall
      obtain ⟨-, rfl⟩ := hcall
      unfold StreamingDecoder.step at hstep
      split at hstep
      · rename_i failed hfailure
        obtain ⟨-, rfl⟩ := Prod.mk.inj hstep
        simp [hfailure]
      · split at hstep
        · obtain ⟨-, rfl⟩ := Prod.mk.inj hstep
          rfl
        · simp at hstep
  · simp at hcall

/-- Every reachable session is orderly, unless its decoder has failed. -/
theorem orderly_of_reachable {plan : StreamingDecodePlan} {maxDecodedBytes : Option Nat}
    {body : Bytes} {session : Session σ} (hprogressive : library.Progressive Idle bound)
    (h : (Session.system library plan maxDecodedBytes body).Reachable session) :
    session.decoder.failure = none →
      Orderly library Idle (session.remaining = []) session.decoder.layers := by
  refine h.invariant (fun session => session.decoder.failure = none →
    Orderly library Idle (session.remaining = []) session.decoder.layers)
    (fun _ => orderly_new hprogressive plan maxDecodedBytes) ?_
  intro session next call _ horderly hstep hfailure
  simp only [Session.system, Option.map_eq_some_iff] at hstep
  obtain ⟨⟨outcome, after⟩, hcall, rfl⟩ := hstep
  cases outcome with
  | ok step => exact (advances_call hprogressive (horderly (call_ok hcall)) hcall).1
  | error error =>
      have hfailed := call_error hcall
      dsimp only at hfailure
      rw [hfailure] at hfailed
      cases hfailed

end Session

end FogHttp.Streaming
