import FogHttp.Lib.Transition
import FogHttp.Streaming.Steps

/-!
# The decoder composes its layers

A body goes through the layers in order, and what comes out at the end is the
composition of the layers' decodings, however the body was split into inputs and
however the steps were spread over the layers.

`Session` is the caller.  It holds the part of the body that has not been
consumed, offers any prefix of it, and says `realEof` only when nothing follows.
`piped_of_reachable` is the induction over the calls.  In a finished pipeline
`Piped.given_eq` follows the body from layer to layer, and
`pipeline_composition` is the result.
-/

namespace FogHttp.Streaming

open Lib

variable {σ : Type}

/-! ## The caller -/

/-- The caller of a decoder: the part of the body that has not been consumed,
and the bytes that it received. -/
structure Session (σ : Type) where
  decoder : StreamingDecoder σ
  remaining : Bytes
  output : Bytes
deriving DecidableEq

/-- One call of `step`: how many bytes of the remaining body are offered, and
whether they are all that follows. -/
structure Call where
  offered : Nat
  realEof : Bool
deriving DecidableEq, Repr

namespace Session

/-- The answer to a call, and the session after it.  What was not consumed is
offered again. -/
def call (library : CodecLibrary σ) (session : Session σ) (call : Call) :
    Option (Except StreamDecodeError Step × Session σ) :=
  if call.offered ≤ session.remaining.length ∧
      (call.realEof = true → call.offered = session.remaining.length) then
    match session.decoder.step library (session.remaining.take call.offered) call.realEof with
    | (.ok step, decoder) =>
        some (.ok step, ⟨decoder, session.remaining.drop step.consumed,
          session.output ++ step.output.getD []⟩)
    | (.error error, decoder) => some (.error error, { session with decoder })
  else none

/-- All sequences of calls for one body. -/
def system (library : CodecLibrary σ) (plan : StreamingDecodePlan)
    (maxDecodedBytes : Option Nat) (body : Bytes) : TransitionSystem (Session σ) Call :=
  ⟨⟨.new library plan maxDecodedBytes, body, []⟩,
    fun session call => (session.call library call).map Prod.snd⟩

/-- A call keeps the pipeline, and a finished one delivers nothing. -/
theorem piped_call {library : CodecLibrary σ} {decode : Coding → Bytes → Bytes}
    {codings : List Coding} {body : Bytes} {session next : Session σ} {call : Call}
    {outcome : Except StreamDecodeError Step} (hlawful : library.Lawful decode)
    (h : Piped library decode codings body session.remaining session.output session.decoder)
    (hcall : session.call library call = some (outcome, next)) :
    Piped library decode codings body next.remaining next.output next.decoder ∧
      ∀ step, outcome = .ok step → step.status = .finished →
        step.output = none ∧ next.decoder.finished = true := by
  unfold Session.call at hcall
  split at hcall
  · rename_i hprotocol
    obtain ⟨hoffered, heof⟩ := hprotocol
    have hfollow : call.realEof = true → session.remaining.drop call.offered = [] := by
      intro hreal
      rw [heof hreal, List.drop_length]
    have hkeeps := keeps_step hlawful h
      (List.take_append_drop call.offered session.remaining).symm hfollow
    split at hcall
    · rename_i step decoder hstep
      rw [hstep] at hkeeps
      simp only [Option.some.injEq, Prod.mk.injEq] at hcall
      obtain ⟨rfl, rfl⟩ := hcall
      refine ⟨hkeeps.1, ?_⟩
      intro step' hsame
      rw [Except.ok.injEq] at hsame
      subst hsame
      exact hkeeps.2
    · rename_i error decoder hstep
      rw [hstep] at hkeeps
      simp only [Option.some.injEq, Prod.mk.injEq] at hcall
      obtain ⟨rfl, rfl⟩ := hcall
      exact ⟨hkeeps, by simp⟩
  · simp at hcall

/-- Every reachable session keeps the pipeline. -/
theorem piped_of_reachable {library : CodecLibrary σ} {decode : Coding → Bytes → Bytes}
    {plan : StreamingDecodePlan} {maxDecodedBytes : Option Nat} {body : Bytes}
    {session : Session σ} (hlawful : library.Lawful decode)
    (h : (Session.system library plan maxDecodedBytes body).Reachable session) :
    Piped library decode plan.codings body session.remaining session.output
      session.decoder := by
  refine h.invariant (fun session => Piped library decode plan.codings body
    session.remaining session.output session.decoder)
    (piped_new library decode plan maxDecodedBytes body) ?_
  intro session next call _ hpiped hstep
  simp only [Session.system, Option.map_eq_some_iff] at hstep
  obtain ⟨⟨outcome, after⟩, hcall, rfl⟩ := hstep
  exact (piped_call hlawful hpiped hcall).1

end Session

/-! ## The result -/

/-- In a finished pipeline layer `i` has given the composition of the first
decodings. -/
theorem Piped.given_eq {library : CodecLibrary σ} {decode : Coding → Bytes → Bytes}
    {codings : List Coding} {body remaining output : Bytes} {decoder : StreamingDecoder σ}
    (h : Piped library decode codings body remaining output decoder)
    (hfinished : decoder.finished = true) (i : Nat) :
    ∀ layer, decoder.layers[i]? = some layer →
      layer.given = composeDecodings decode (codings.take (i + 1)) body := by
  induction i with
  | zero =>
      intro layer hlayer
      have hstate := h.finished hfinished 0 layer hlayer
      obtain ⟨-, hbody, hremaining⟩ := h.first layer hlayer
      rw [hremaining hstate, List.append_nil] at hbody
      have hcoding := h.codings 0
      rw [hlayer, Option.map_some] at hcoding
      rw [h.ended 0 layer hlayer (Or.inr hstate), hbody, List.take_add_one, ← hcoding]
      rfl
  | succ i ih =>
      intro layer hlayer
      have hlt := (List.getElem?_eq_some_iff.mp hlayer).1
      have hup : decoder.layers[i]? = some decoder.layers[i] :=
        List.getElem?_eq_getElem (by omega)
      have hstate := h.finished hfinished (i + 1) layer hlayer
      have hlinked := h.linked i _ layer hup hlayer
      have htaken : layer.taken = composeDecodings decode (codings.take (i + 1)) body := by
        rw [← ih _ hup, hlinked.ledger, (hlinked.order hstate).2, List.append_nil]
      have hcoding := h.codings (i + 1)
      rw [hlayer, Option.map_some] at hcoding
      rw [h.ended (i + 1) layer hlayer (Or.inr hstate), htaken, List.take_add_one (i := i + 1),
        ← hcoding, composeDecodings, composeDecodings, Option.toList_some, List.foldl_append]
      rfl

/-- A finished pipeline has delivered the composition of all decodings. -/
theorem Piped.output_eq {library : CodecLibrary σ} {decode : Coding → Bytes → Bytes}
    {codings : List Coding} {body remaining output : Bytes} {decoder : StreamingDecoder σ}
    (h : Piped library decode codings body remaining output decoder)
    (hfinished : decoder.finished = true) :
    output = composeDecodings decode codings body ∧ remaining = [] := by
  have hlength : codings.length = decoder.layers.length := by
    have hcodings : decoder.layers.map Layer.coding = codings := by
      apply List.ext_getElem?
      intro i
      rw [List.getElem?_map, h.codings i]
    rw [← hcodings, List.length_map]
  cases hlayers : decoder.layers with
  | nil =>
      rw [hlayers, List.length_nil] at hlength
      obtain ⟨hbody, hremaining⟩ := h.identity hlayers
      have hnil := hremaining hfinished
      rw [hnil, List.append_nil] at hbody
      rw [List.eq_nil_of_length_eq_zero hlength]
      exact ⟨hbody, hnil⟩
  | cons first rest =>
      have hpos : 0 < decoder.layers.length := by simp [hlayers]
      have hget : ∀ i (hi : i < decoder.layers.length),
          decoder.layers[i]? = some decoder.layers[i] := fun i hi => List.getElem?_eq_getElem hi
      have hlast := hget (decoder.layers.length - 1) (by omega)
      have hgiven := h.given_eq hfinished _ _ hlast
      rw [h.last _ _ hlast (by omega), Nat.sub_add_cancel hpos, ← hlength,
        List.take_length] at hgiven
      have hzero := hget 0 hpos
      exact ⟨hgiven, (h.first _ hzero).2.2 (h.finished hfinished 0 _ hzero)⟩

/-- In a finished pipeline every slot is empty. -/
theorem Piped.slot_eq_nil {library : CodecLibrary σ} {decode : Coding → Bytes → Bytes}
    {codings : List Coding} {body remaining output : Bytes} {decoder : StreamingDecoder σ}
    (h : Piped library decode codings body remaining output decoder)
    (hfinished : decoder.finished = true) (i : Nat) (layer : Layer σ)
    (hlayer : decoder.layers[i]? = some layer) : layer.input = [] := by
  cases i with
  | zero => exact (h.first layer hlayer).1
  | succ i =>
      have hlt := (List.getElem?_eq_some_iff.mp hlayer).1
      have hup : decoder.layers[i]? = some decoder.layers[i] :=
        List.getElem?_eq_getElem (by omega)
      exact ((h.linked i _ layer hup hlayer).order
        (h.finished hfinished (i + 1) layer hlayer)).2

/-- For every plan, every body and every sequence of calls that offers what was
not consumed: between two layers nothing is lost, the first layer takes the body
in order and the last one gives what the caller received.  When a call reports
the end, the caller has received the composition of the decodings of the whole
body, every layer has ended, every slot is empty, the body is consumed, and the
call itself delivered nothing. -/
theorem pipeline_composition (library : CodecLibrary σ) (decode : Coding → Bytes → Bytes)
    (hlawful : library.Lawful decode) (plan : StreamingDecodePlan)
    (maxDecodedBytes : Option Nat) (body : Bytes) (calls : List Call) (session : Session σ)
    (hrun : (Session.system library plan maxDecodedBytes body).run calls = some session) :
    (∀ (i : Nat) (up down : Layer σ), session.decoder.layers[i]? = some up →
        session.decoder.layers[i + 1]? = some down → up.given = down.taken ++ down.input) ∧
      (∀ layer : Layer σ, session.decoder.layers[0]? = some layer →
        layer.taken ++ session.remaining = body) ∧
      (∀ (i : Nat) (layer : Layer σ), session.decoder.layers[i]? = some layer →
        i + 1 = session.decoder.layers.length → layer.given = session.output) ∧
      ∀ (call : Call) (step : Step) (next : Session σ),
        session.call library call = some (.ok step, next) → step.status = .finished →
        next.output = composeDecodings decode plan.codings body ∧
          (∀ layer ∈ next.decoder.layers, layer.state = .finished ∧ layer.input = [] ∧
            layer.given = decode layer.coding layer.taken) ∧
          next.remaining = [] ∧ step.output = none := by
  have h := Session.piped_of_reachable hlawful (TransitionSystem.reachable_of_run hrun)
  refine ⟨fun i up down hup hdown => (h.linked i up down hup hdown).ledger,
    fun layer hlayer => (h.first layer hlayer).2.1, h.last, ?_⟩
  intro call step next hcall hstatus
  obtain ⟨hnext, hdone⟩ := Session.piped_call hlawful h hcall
  obtain ⟨hnothing, hfinished⟩ := hdone step rfl hstatus
  obtain ⟨houtput, hremaining⟩ := hnext.output_eq hfinished
  refine ⟨houtput, ?_, hremaining, hnothing⟩
  intro layer hmem
  obtain ⟨i, hi⟩ := List.mem_iff_getElem?.mp hmem
  have hstate := hnext.finished hfinished i layer hi
  exact ⟨hstate, hnext.slot_eq_nil hfinished i layer hi, hnext.ended i layer hi (Or.inr hstate)⟩

namespace CompositionExample

/-! The empty body, coded twice with Brotli.  The outer stream is one
uncompressed block that holds the inner stream `06`. -/

def outer : Bytes := [0x0b, 0x00, 0x80, 0x06, 0x03]
def inner : Bytes := [0x06]

/-- What the two streams of the example decode to. -/
def decode (_ : Coding) (bytes : Bytes) : Bytes := if bytes = outer then inner else []

def invalid : Text := "invalid Brotli stream"
def truncated : Text := "truncated content coding"

/-- A codec for the two streams.  Its state is the input so far, or `none` after
the end. -/
def library : CodecLibrary (Option Bytes) where
  new _ := some []
  step codec input eof capacity :=
    match codec with
    | none => .error invalid
    | some before =>
        let stream := before ++ input
        if stream = outer ∧ 1 ≤ capacity then .ok (none, ⟨input.length, inner, .ended⟩)
        else if stream = inner then .ok (none, ⟨input.length, [], .ended⟩)
        else if eof then .error truncated
        else .ok (some stream, ⟨input.length, [], .needsInput⟩)

/-- An open codec has given nothing and remembers what it took. -/
theorem codecRun_open {coding : Coding} {codec : Option Bytes} {taken given : Bytes}
    (h : CodecRun library coding codec taken given) :
    ∀ before, codec = some before → before = taken ∧ given = [] := by
  induction h with
  | new =>
      intro before hopen
      exact ⟨(Option.some.inj hopen).symm, rfl⟩
  | @step codec next taken given input eof capacity result run call ih =>
      intro before hopen
      subst hopen
      cases codec with
      | none => simp [library] at call
      | some earlier =>
          obtain ⟨rfl, rfl⟩ := ih earlier rfl
          simp only [library] at call
          split at call
          · simp at call
          · split at call
            · simp at call
            · split at call
              · simp at call
              · simp only [Except.ok.injEq, Prod.mk.injEq, Option.some.injEq] at call
                obtain ⟨rfl, rfl⟩ := call
                simp

theorem library_lawful : library.Lawful decode := by
  have hcall : ∀ {codec next : Option Bytes} {input : Bytes} {eof : Bool} {capacity : Nat}
      {result : CodecStep}, library.step codec input eof capacity = .ok (next, result) →
      ∃ before, codec = some before ∧ result.consumed = input.length ∧
        result.output.length ≤ capacity ∧
        (result.status = .ended → result.output = decode .brotli (before ++ input)) := by
    intro codec next input eof capacity result call
    cases codec with
    | none => simp [library] at call
    | some before =>
        refine ⟨before, rfl, ?_⟩
        simp only [library] at call
        split at call
        · rename_i hstream
          simp only [Except.ok.injEq, Prod.mk.injEq] at call
          obtain ⟨-, rfl⟩ := call
          exact ⟨rfl, hstream.2, fun _ => by simp [decode, hstream.1]⟩
        · split at call
          · rename_i hstream
            simp only [Except.ok.injEq, Prod.mk.injEq] at call
            obtain ⟨-, rfl⟩ := call
            refine ⟨rfl, Nat.zero_le _, fun _ => ?_⟩
            rw [hstream]
            rfl
          · split at call
            · simp at call
            · simp only [Except.ok.injEq, Prod.mk.injEq] at call
              obtain ⟨-, rfl⟩ := call
              exact ⟨rfl, Nat.zero_le _, by simp⟩
  refine ⟨?_, ?_, ?_⟩
  · intro coding codec next taken given input eof capacity result _ call
    obtain ⟨_, -, hconsumed, -⟩ := hcall call
    omega
  · intro coding codec next taken given input eof capacity result _ call
    obtain ⟨_, -, -, hcapacity, -⟩ := hcall call
    exact hcapacity
  · intro coding codec next taken given input eof capacity result run call hended
    obtain ⟨before, rfl, hconsumed, -, houtput⟩ := hcall call
    obtain ⟨rfl, rfl⟩ := codecRun_open run before rfl
    rw [hconsumed, List.take_length, List.nil_append, houtput hended]
    rfl

def plan : StreamingDecodePlan := ⟨[.brotli, .brotli], by decide⟩

def calls : List Call := [⟨5, false⟩, ⟨0, true⟩, ⟨0, true⟩]

/-- The session before the last call. -/
def session : Session (Option Bytes) where
  decoder :=
    { layers :=
        [⟨.brotli, none, [], 1, .finished, outer, inner⟩, ⟨.brotli, none, [], 0, .ended, inner, []⟩]
      maxDecodedBytes := some 1
      encodedBytes := 5
      identityBytes := 0
      finished := false
      failure := none }
  remaining := []
  output := []

/-- The session after the last call. -/
def lastSession : Session (Option Bytes) where
  decoder :=
    { session.decoder with
      layers :=
        [⟨.brotli, none, [], 1, .finished, outer, inner⟩,
          ⟨.brotli, none, [], 0, .finished, inner, []⟩]
      finished := true }
  remaining := []
  output := []

theorem pipeline_composition_example :
    (Session.system library plan (some 1) outer).run calls = some session ∧
      lastSession.output = composeDecodings decode plan.codings outer ∧
      lastSession.remaining = [] := by
  have hrun : (Session.system library plan (some 1) outer).run calls = some session := by rfl
  have h := pipeline_composition library decode library_lawful plan (some 1) outer calls session
    hrun
  have hlast := h.2.2.2 ⟨0, true⟩ ⟨0, none, .finished⟩ lastSession (by rfl) rfl
  exact ⟨hrun, hlast.1, hlast.2.2.1⟩

end CompositionExample

end FogHttp.Streaming
