import FogHttp.Streaming.Progress
import FogHttp.Streams.Coalescing

/-!
# Reading a decoded stream to its end

The loop of `read_decoded_chunk` steps the decoder, and takes a frame off the
body when the decoder asks for input.  A `Position` of the loop is the body that
is left, with the decoder and its input.

Every round goes ahead.  It takes something off the body, or the body stays and
the measure of the decoder falls.  `moves_decodedStep` is the step lemma, and it
holds whatever the rest of the stream does.  A body with an end is therefore read
to its end, or to an error.

`Looping` are the positions of the loop over all reads of one body.  A refill in
such a position finds an empty input.
-/

namespace FogHttp.Streams

open Lib Streaming

variable {σ ω : Type} {Idle : σ → Prop} {bound : Coding → Bytes → Nat}
  (transport : Transport σ ω) {stream next : BodyStream σ} {body : Option Body}
  {decoded : DecodedStream σ}

/-! ## Positions -/

/-- The body that is left, with the decoder and its input. -/
abbrev Position (σ : Type) := Option Body × DecodedStream σ

/-- The polls that a body has left. -/
def pollsLeft : Option Body → Nat
  | none => 0
  | some body => body.length + 1

/-- The first position comes behind the second one. -/
def Ahead (bound : Coding → Bytes → Nat) : Position σ → Position σ → Prop :=
  InvImage (Prod.Lex (· < ·) (Falls bound)) fun (body, decoded) =>
    (pollsLeft body, decoded.decoder, decoded.input)

theorem wellFounded_ahead (bound : Coding → Bytes → Nat) :
    WellFounded (Ahead (σ := σ) bound) :=
  InvImage.wf _ (WellFounded.prod_lex wellFounded_lt (wellFounded_falls bound))

theorem Ahead.trans {a b c : Position σ} (h : Ahead bound a b) (h' : Ahead bound b c) :
    Ahead bound a c := by
  unfold Ahead InvImage at *
  rw [Prod.lex_def] at *
  rcases h with hless | ⟨hsame, hfalls⟩
  · rcases h' with hless' | ⟨hsame', -⟩
    · exact .inl (Nat.lt_trans hless hless')
    · exact .inl (hsame' ▸ hless)
  · rcases h' with hless' | ⟨hsame', hfalls'⟩
    · exact .inl (hsame ▸ hless')
    · exact .inr ⟨hsame.trans hsame', hfalls.trans hfalls'⟩

/-- A position with less of the body left. -/
theorem ahead_of_polls {rest : Option Body} {decoded' : DecodedStream σ}
    (h : pollsLeft rest < pollsLeft body) : Ahead bound (rest, decoded') (body, decoded) :=
  Prod.Lex.left _ _ h

/-- The invariant of a position. -/
def InOrder (library : CodecLibrary σ) (Idle : σ → Prop) (position : Position σ) : Prop :=
  Orderly library Idle (position.1 = none ∧ position.2.input = []) position.2.decoder.layers

/-- The body that is left, if any, has an end. -/
def Ends (body : Option Body) : Prop :=
  ∀ events, body = some events → ∃ event ∈ events, event.isTerminal = true

/-- A body with an end has a next frame, and it keeps its end behind data and trailers. -/
theorem nextStreamBodyFrame_ends {events : Body} (h : Ends (some events)) :
    ∃ frame rest, nextStreamBodyFrame events = some (frame, rest) ∧
      ∀ data, frame = some (.ok data) → Ends (some rest.1) := by
  induction events with
  | nil =>
      obtain ⟨event, hmem, -⟩ := h [] rfl
      simp at hmem
  | cons event events ih =>
      have hrest : event.isTerminal = false → Ends (some events) := by
        intro hopen rest hsome
        obtain rfl := Option.some.inj hsome
        obtain ⟨last, hmem, hlast⟩ := h _ rfl
        rcases List.mem_cons.mp hmem with rfl | hmem
        · simp [hopen] at hlast
        · exact ⟨last, hmem, hlast⟩
      cases event with
      | data bytes => exact ⟨_, _, rfl, fun _ _ => hrest rfl⟩
      | trailers => exact ⟨_, _, rfl, fun _ _ => hrest rfl⟩
      | pending =>
          obtain ⟨frame, rest, hframe, hends⟩ := ih (hrest rfl)
          refine ⟨frame, ⟨rest.1, Nat.lt_succ_of_lt rest.2⟩, ?_, hends⟩
          rw [nextStreamBodyFrame, hframe]
          rfl
      | eof => exact ⟨_, _, rfl, by simp⟩
      | error message => exact ⟨_, _, rfl, by simp⟩

/-! ## One round -/

/-- What a round does from a position. -/
def Moves (library : CodecLibrary σ) (Idle : σ → Prop) (bound : Coding → Bytes → Nat)
    (position : Position σ) : DecodedStep σ ω → Prop
  | .again _ body decoded =>
      InOrder library Idle (body, decoded) ∧ Ahead bound (body, decoded) position ∧
        (Ends position.1 → Ends body)
  | .done (.ok (some _)) next =>
      next.fields.terminal = none ∧ ∃ decoded, next.fields.decoded = some decoded ∧
        InOrder library Idle (next.fields.body, decoded) ∧
        Ahead bound (next.fields.body, decoded) position ∧
        (Ends position.1 → Ends next.fields.body)
  | .done _ _ => True
  | .stuck => ¬ Ends position.1

/-- The step lemma of `refill_decoded_input`, from the position `before` the round. -/
theorem moves_refillDecodedInput {events : Body} (before : DecodedStream σ)
    (horderly : Orderly transport.library Idle False decoded.decoder.layers) :
    Moves transport.library Idle bound (some events, before)
      (refillDecodedInput transport stream events decoded) := by
  have hkept : ∀ {drained : Prop},
      Orderly transport.library Idle drained decoded.decoder.layers :=
    horderly.mono False.elim
  have hpolls : ∀ rest : Rest events, pollsLeft (some rest.1) < pollsLeft (some events) :=
    fun rest => Nat.succ_lt_succ rest.2
  unfold refillDecodedInput
  split
  · rename_i hnone
    intro hends
    obtain ⟨frame, rest, hframe, -⟩ := nextStreamBodyFrame_ends hends
    rw [hframe] at hnone
    cases hnone
  · rename_i frame rest hframe
    have hrest : ∀ data, frame = some (.ok data) → Ends (some events) → Ends (some rest.1) := by
      intro data hdata hends
      obtain ⟨frame', rest', hframe', hends'⟩ := nextStreamBodyFrame_ends hends
      rw [hframe, Option.some.injEq, Prod.mk.injEq] at hframe'
      obtain ⟨rfl, rfl⟩ := hframe'
      exact hends' data hdata
    split
    · trivial
    · split
      · refine ⟨hkept, ahead_of_polls (Nat.succ_pos _), fun _ _ habsurd => ?_⟩
        cases habsurd
      · trivial
      · exact ⟨hkept, ahead_of_polls (hpolls rest), hrest _ rfl⟩
      · exact ⟨hkept, ahead_of_polls (hpolls rest), hrest _ rfl⟩

/-- The decoder step of a round. -/
theorem advances_position (hprogressive : transport.library.Progressive Idle bound)
    (h : InOrder transport.library Idle (body, decoded)) :
    Advances transport.library Idle bound (body = none ∧ decoded.input = []) decoded.input
      decoded.input body.isNone decoded.decoder
      (decoded.decoder.step transport.library decoded.input body.isNone) := by
  apply advances_step hprogressive h (Nat.le_refl _)
  · intro hreal hnil
    exact ⟨Option.isNone_iff_eq_none.mp hreal, hnil⟩
  · exact And.right

/-- The step lemma of a round. -/
theorem moves_decodedStep (stream : BodyStream σ)
    (hprogressive : transport.library.Progressive Idle bound)
    (h : InOrder transport.library Idle (body, decoded)) :
    Moves transport.library Idle bound (body, decoded)
      (decodedStep transport stream body decoded) := by
  have hadvances := advances_position transport hprogressive h
  unfold decodedStep
  split
  · trivial
  · rename_i step decoder hstep
    rw [hstep] at hadvances
    obtain ⟨horderly, hprogress, hneeds, hdelivers⟩ := hadvances
    dsimp only
    have hkept : InOrder transport.library Idle
        (body, ⟨decoder, decoded.input.drop step.consumed⟩) :=
      horderly.mono fun ⟨hbody, hnil⟩ => ⟨hbody, by rw [hnil, List.drop_nil]⟩
    have hahead : step.status = .progress →
        Ahead bound (body, ⟨decoder, decoded.input.drop step.consumed⟩) (body, decoded) :=
      fun hstatus => Prod.Lex.right _ (hprogress hstatus)
    split
    · rename_i output houtput
      split
      · trivial
      · rename_i hopen
        refine ⟨by simpa using hopen, _, rfl, hkept, hahead (hdelivers ?_), fun hends => hends⟩
        rw [houtput, Option.isSome_some]
    · split
      · split
        · trivial
        · trivial
      · rename_i hstatus
        exact ⟨hkept, hahead hstatus, fun hends => hends⟩
      · rename_i hstatus
        obtain ⟨hreal, hconsumed, hnil, -⟩ := hneeds hstatus
        cases body with
        | none => cases hreal
        | some events =>
            apply moves_refillDecodedInput transport decoded
            exact horderly.mono fun habsurd => by cases habsurd.1

/-- A step from a position further ahead. -/
theorem Moves.ahead {library : CodecLibrary σ} {position position' : Position σ}
    {step : DecodedStep σ ω} (h : Moves library Idle bound position' step)
    (hahead : Ahead bound position' position) (hends : Ends position'.1) :
    Moves library Idle bound position step := by
  cases step with
  | again stream body decoded =>
      obtain ⟨hkept, hless, hkeeps⟩ := h
      exact ⟨hkept, hless.trans hahead, fun _ => hkeeps hends⟩
  | done result next =>
      cases result with
      | error error => trivial
      | ok chunk =>
          cases chunk with
          | none => trivial
          | some chunk =>
              obtain ⟨hopen, decoded, hdecoded, hkept, hless, hkeeps⟩ := h
              exact ⟨hopen, decoded, hdecoded, hkept, hless.trans hahead, fun _ => hkeeps hends⟩
  | stuck => exact absurd hends h

/-- One round of the loop of `read_decoded_chunk`, with its two tests. -/
def decodedRound (stream : BodyStream σ) (body : Option Body) (decoded : DecodedStream σ) :
    DecodedStep σ ω :=
  if stream.fields.terminal.isSome then readAborted stream
  else if body.any transport.isEndStream then
    decodedStep transport stream.finishTransportFromRead none decoded
  else decodedStep transport stream body decoded

theorem readDecodedChunk_succ (rounds : Nat) (stream : BodyStream σ) (body : Option Body)
    (decoded : DecodedStream σ) : readDecodedChunk transport (rounds + 1) stream body decoded =
      match decodedRound transport stream body decoded with
      | .again stream body decoded => readDecodedChunk transport rounds stream body decoded
      | .done result stream => some (result, stream)
      | .stuck => none := by
  rw [readDecodedChunk, decodedRound]
  cases hclean : body.any transport.isEndStream with
  | false => rfl
  | true => rfl

theorem moves_decodedRound (stream : BodyStream σ)
    (hprogressive : transport.library.Progressive Idle bound)
    (h : InOrder transport.library Idle (body, decoded)) :
    Moves transport.library Idle bound (body, decoded)
      (decodedRound transport stream body decoded) := by
  unfold decodedRound
  split
  · trivial
  · split
    · rename_i hclean
      cases body with
      | none => cases hclean
      | some events =>
          have hkept : InOrder transport.library Idle (none, decoded) :=
            h.mono fun habsurd => by cases habsurd.1
          apply (moves_decodedStep transport _ hprogressive hkept).ahead
          · exact ahead_of_polls (Nat.succ_pos _)
          · intro events habsurd
            cases habsurd
    · exact moves_decodedStep transport stream hprogressive h

/-! ## One read -/

/-- What a read leaves behind: a result that is not a chunk, or a position further ahead. -/
def Left (library : CodecLibrary σ) (Idle : σ → Prop) (bound : Coding → Bytes → Nat)
    (position : Position σ) (result : ReadResult ω) (next : BodyStream σ) : Prop :=
  ∀ chunk, result = .ok (some chunk) →
    next.fields.terminal = none ∧ ∃ decoded, next.fields.decoded = some decoded ∧
      InOrder library Idle (next.fields.body, decoded) ∧
      Ahead bound (next.fields.body, decoded) position ∧
      Ends next.fields.body

theorem Left.ahead {library : CodecLibrary σ} {position position' : Position σ}
    {result : ReadResult ω} (h : Left library Idle bound position' result next)
    (hahead : Ahead bound position' position) : Left library Idle bound position result next := by
  intro chunk hchunk
  obtain ⟨hterminal, decoded, hdecoded, hkept, hless, hends⟩ := h chunk hchunk
  exact ⟨hterminal, decoded, hdecoded, hkept, hless.trans hahead, hends⟩

/-- The loop of `read_decoded_chunk` ends with enough rounds, by induction on the position. -/
theorem readDecodedChunk_ends (hprogressive : transport.library.Progressive Idle bound)
    (position : Position σ) : ∀ stream : BodyStream σ,
    InOrder transport.library Idle position → Ends position.1 →
    ∃ (limit : Nat) (result : ReadResult ω) (next : BodyStream σ),
      (∀ rounds, limit ≤ rounds →
        readDecodedChunk transport rounds stream position.1 position.2 = some (result, next)) ∧
      Left transport.library Idle bound position result next := by
  induction position using (wellFounded_ahead bound).induction with
  | _ position ih =>
      intro stream hkept hends
      obtain ⟨body, decoded⟩ := position
      have hmoves := moves_decodedRound transport stream hprogressive hkept
      have hround := fun rounds => readDecodedChunk_succ transport rounds stream body decoded
      generalize decodedRound transport stream body decoded = step at hmoves hround
      cases step with
      | again stream' body' decoded' =>
          obtain ⟨hkept', hahead, hends'⟩ := hmoves
          obtain ⟨limit, result, next, hread, hleft⟩ :=
            ih (body', decoded') hahead stream' hkept' (hends' hends)
          refine ⟨limit + 1, result, next, fun rounds hrounds => ?_, hleft.ahead hahead⟩
          obtain ⟨more, rfl⟩ := Nat.exists_eq_add_of_le hrounds
          rw [Nat.add_right_comm, hround]
          exact hread (limit + more) (Nat.le_add_right _ _)
      | done result next =>
          refine ⟨1, result, next, fun rounds hrounds => ?_, ?_⟩
          · obtain ⟨more, rfl⟩ := Nat.exists_eq_add_of_le' hrounds
            exact hround more
          · intro chunk hchunk
            subst hchunk
            obtain ⟨hopen, decoded', hdecoded, hkept', hahead, hends'⟩ := hmoves
            exact ⟨hopen, decoded', hdecoded, hkept', hahead, hends' hends⟩
      | stuck => exact absurd hends hmoves

/-! ## All reads -/

/-- A read that returns no chunk is the last one. -/
theorem readToEnd_last {rounds : Nat} {flag : ReadyFrameCoalescing}
    {flags : List ReadyFrameCoalescing} {stream next : BodyStream σ} {result : ReadResult ω}
    (hread : nextChunk transport rounds stream flag = some (result, next))
    (hlast : ∀ chunk, result ≠ .ok (some chunk)) :
    (readToEnd transport rounds (flag :: flags) stream).1.result.isSome = true := by
  rw [readToEnd, hread]
  cases result with
  | error error => rfl
  | ok chunk =>
      cases chunk with
      | none => rfl
      | some chunk => exact absurd rfl (hlast chunk)

/-- A stream that is read to its end, by induction on the position. -/
theorem readToEnd_ends (hprogressive : transport.library.Progressive Idle bound)
    (position : Position σ) : ∀ stream : BodyStream σ, Decoding stream →
    stream.fields.body = position.1 → stream.fields.decoded = some position.2 →
    InOrder transport.library Idle position → Ends position.1 →
    ∃ limit, ∀ rounds flags, limit ≤ rounds → limit ≤ flags.length →
      (readToEnd transport rounds flags stream).1.result.isSome = true := by
  induction position using (wellFounded_ahead bound).induction with
  | _ position ih =>
      intro stream hdecoding hbody hdecoded hkept hends
      by_cases hclosed : stream.fields.terminal.isSome = true ∨ stream.fields.readInProgress = true
      · refine ⟨1, fun rounds flags _ hflags => ?_⟩
        obtain ⟨result, hchunk, hread⟩ := nextChunk_closed transport rounds hclosed
        obtain ⟨flag, flags, rfl⟩ := List.exists_cons_of_length_pos hflags
        exact readToEnd_last transport (hread flag) hchunk
      · simp only [not_or, Bool.not_eq_true, Option.isSome_eq_false_iff,
          Option.isNone_iff_eq_none] at hclosed
        obtain ⟨hterminal, hinProgress⟩ := hclosed
        obtain ⟨-, hdeferred⟩ := hdecoding.resolve_left (by simp [hterminal])
        obtain ⟨limit, result, next, hread, hleft⟩ :=
          readDecodedChunk_ends transport hprogressive position (reading stream) hkept hends
        have hnext : ∀ rounds flag, limit ≤ rounds →
            nextChunk transport rounds stream flag = some (result, delivered next) := by
          intro rounds flag hrounds
          rw [nextChunk_decoded transport flag rounds hterminal hinProgress hdeferred hdecoded,
            hbody, hread rounds hrounds]
          rfl
        have hlast : (∀ chunk, result ≠ .ok (some chunk)) →
            ∃ limit, ∀ rounds flags, limit ≤ rounds → limit ≤ flags.length →
              (readToEnd transport rounds flags stream).1.result.isSome = true := by
          intro hresult
          refine ⟨limit + 1, fun rounds flags hrounds hflags => ?_⟩
          obtain ⟨flag, flags, rfl⟩ := List.exists_cons_of_length_pos (by omega : 0 < flags.length)
          exact readToEnd_last transport (hnext rounds flag (by omega)) hresult
        cases result with
        | error error => exact hlast (by simp)
        | ok chunk =>
            cases chunk with
            | none => exact hlast (by simp)
            | some chunk =>
                obtain ⟨hopen, decoded', hdecoded', hkept', hahead, hends'⟩ := hleft chunk rfl
                have hfields : (delivered next).fields.body = next.fields.body ∧
                    (delivered next).fields.decoded = next.fields.decoded := by
                  unfold delivered StreamStateFields.finishReadDelivery
                  split <;> exact ⟨rfl, rfl⟩
                obtain ⟨read, hsame, hkeeps⟩ := nextChunk_decoding transport limit hdecoding
                have hdecoding' : Decoding (delivered next) :=
                  hkeeps _ _ ((hsame .disabled).symm.trans (hnext limit .disabled (Nat.le_refl _)))
                obtain ⟨limit', hrest⟩ := ih (next.fields.body, decoded') hahead (delivered next)
                  hdecoding' hfields.1 (hfields.2.trans hdecoded') hkept' hends'
                refine ⟨max limit (limit' + 1), fun rounds flags hrounds hflags => ?_⟩
                obtain ⟨flag, flags, rfl⟩ :=
                  List.exists_cons_of_length_pos (by omega : 0 < flags.length)
                rw [readToEnd, hnext rounds flag (by omega)]
                rw [List.length_cons] at hflags
                exact hrest rounds flags (by omega) (by omega)

/-! ## The result -/

/-- The positions in front of a decoder step, over all reads of a body.  The other fields of the
stream are arbitrary. -/
inductive Looping (plan : StreamingDecodePlan) (maxDecodedBytes : Option Nat) (events : Body) :
    Option Body → DecodedStream σ → Prop where
  | start : Looping plan maxDecodedBytes events (some events)
      ⟨.new transport.library plan maxDecodedBytes, []⟩
  | clean {rest : Body} {decoded : DecodedStream σ}
      (looping : Looping plan maxDecodedBytes events (some rest) decoded)
      (endStream : transport.isEndStream rest = true) :
      Looping plan maxDecodedBytes events none decoded
  | again {stream next : BodyStream σ} {body body' : Option Body}
      {decoded decoded' : DecodedStream σ}
      (looping : Looping plan maxDecodedBytes events body decoded)
      (round : decodedStep transport stream body decoded = .again next body' decoded') :
      Looping plan maxDecodedBytes events body' decoded'
  | chunk {stream next : BodyStream σ} {body : Option Body} {decoded decoded' : DecodedStream σ}
      {bytes : Bytes} (looping : Looping plan maxDecodedBytes events body decoded)
      (round : decodedStep transport stream body decoded = .done (.ok (some bytes)) next)
      (kept : next.fields.decoded = some decoded') :
      Looping plan maxDecodedBytes events next.fields.body decoded'

/-- Every position of the loop is orderly. -/
theorem Looping.inOrder {plan : StreamingDecodePlan} {maxDecodedBytes : Option Nat} {events : Body}
    (hprogressive : transport.library.Progressive Idle bound)
    (h : Looping transport plan maxDecodedBytes events body decoded) :
    InOrder transport.library Idle (body, decoded) := by
  induction h with
  | start => exact orderly_new hprogressive plan maxDecodedBytes
  | clean _ _ ih => exact ih.mono fun habsurd => by cases habsurd.1
  | @again stream next body body' decoded decoded' _ round ih =>
      have hmoves := moves_decodedStep transport stream hprogressive ih
      rw [round] at hmoves
      exact hmoves.1
  | @chunk stream next body decoded decoded' bytes _ round kept ih =>
      have hmoves := moves_decodedStep transport stream hprogressive ih
      rw [round] at hmoves
      obtain ⟨-, same, hsame, hkept, -⟩ := hmoves
      rw [kept, Option.some.injEq] at hsame
      exact hsame ▸ hkept

variable {γ δ β : Type} {decompressors : Decompressors γ δ β}

/-- With truthful decompressors, a step at the end of the body does not ask for input.  A step asks
only when what it was offered is used up and every slot is empty, and a step that reports progress
lowers a well-founded measure.  So the read loop does not overwrite input when it refills, and it
reads every body with an end to that end or to an error, with enough rounds and reads. -/
theorem decoder_progress_and_termination (htruthful : decompressors.Truthful bound)
    (plan : StreamingDecodePlan) (maxDecodedBytes : Option Nat) :
    (∀ (decoder next : StreamingDecoder (Codec γ δ β)) (input : Bytes) (step : Step),
      decoder.step (codecs decompressors) input true = (.ok step, next) →
      step.status ≠ .needsInput) ∧
    (∀ (encoded : Bytes) (session : Session (Codec γ δ β)),
      (Session.system (codecs decompressors) plan maxDecodedBytes encoded).Reachable session →
      ∀ (call : Call) (step : Step) (next : Session (Codec γ δ β)),
        session.call (codecs decompressors) call = some (.ok step, next) →
        (step.status = .needsInput → session.remaining.take call.offered = [] ∧
          ∀ layer ∈ next.decoder.layers, layer.input = []) ∧
        (step.status = .progress →
          Falls bound (next.decoder, next.remaining) (session.decoder, session.remaining))) ∧
    WellFounded (Falls (σ := Codec γ δ β) bound) ∧
    ∀ (requestWriteTimeout : Option ω) (isEndStream : Body → Bool) (events : Body),
      let transport : Transport (Codec γ δ β) ω :=
        ⟨codecs decompressors, requestWriteTimeout, isEndStream⟩
      (∀ (body : Option Body) (decoded : DecodedStream (Codec γ δ β)),
        Looping transport plan maxDecodedBytes events body decoded →
        ∀ (step : Step) (next : StreamingDecoder (Codec γ δ β)),
          decoded.decoder.step (codecs decompressors) decoded.input body.isNone =
            (.ok step, next) →
          (step.status = .needsInput →
            body.isSome = true ∧ decoded.input.drop step.consumed = []) ∧
          (step.status = .progress →
            Falls bound (next, decoded.input.drop step.consumed)
              (decoded.decoder, decoded.input))) ∧
      ((∃ event ∈ events, event.isTerminal = true) → ∀ connectionUse : Bool,
        ∃ limit, ∀ (rounds : Nat) (flags : List ReadyFrameCoalescing),
          limit ≤ rounds → limit ≤ flags.length →
          (readToEnd transport rounds flags (.new events
            (some ⟨.new (codecs decompressors) plan maxDecodedBytes, []⟩)
              connectionUse)).1.result.isSome = true) := by
  have hprogressive := progressive_codecs htruthful
  refine ⟨?_, ?_, wellFounded_falls bound, ?_⟩
  · intro decoder next input step hstep
    have hserved : Served (decoder.step (codecs decompressors) input true) := served_step
    rw [hstep] at hserved
    exact hserved
  · intro encoded session hreachable call step next hcall
    have horderly := Session.orderly_of_reachable hprogressive hreachable (Session.call_ok hcall)
    obtain ⟨-, hprogress, hneeds⟩ := Session.advances_call hprogressive horderly hcall
    exact ⟨fun hstatus => (hneeds hstatus).2, hprogress⟩
  · intro requestWriteTimeout isEndStream events transport
    refine ⟨?_, ?_⟩
    · intro body decoded hlooping step next hstep
      have hkept := hlooping.inOrder transport hprogressive
      have hadvances := advances_position transport hprogressive hkept
      rw [hstep] at hadvances
      obtain ⟨-, hprogress, hneeds, -⟩ := hadvances
      refine ⟨fun hstatus => ?_, hprogress⟩
      obtain ⟨hreal, hconsumed, hnil, -⟩ := hneeds hstatus
      refine ⟨?_, by rw [hnil, List.drop_nil]⟩
      cases body with
      | none => cases hreal
      | some rest => rfl
    · intro hends connectionUse
      apply readToEnd_ends transport hprogressive
        (some events, ⟨.new (codecs decompressors) plan maxDecodedBytes, []⟩)
      · exact .inr ⟨rfl, rfl⟩
      · rfl
      · rfl
      · exact orderly_new hprogressive plan maxDecodedBytes
      · intro same hsame
        exact Option.some.inj hsame ▸ hends

namespace DrainingExample

/-! The empty body, coded twice with Brotli, in one frame. -/

open CompositionExample (outer plan)

/-- What the outer stream of the example decodes to. -/
abbrev innerStream : Bytes := CompositionExample.inner

/-- Brotli for the two streams of the example.  The state is the input so far, or `none` after the
end.  The example has no other coding. -/
def brotliOnly : Decompressors Unit Unit (Option Bytes) where
  newMultiGzDecoder := ()
  write _ _ _ := (.error (.other "invalid gzip header"), (), [])
  flush _ _ := (.ok (), (), [])
  tryFinish _ _ := (.error (.other "unexpected end of file"), (), [])
  newDecompress := ()
  totalIn _ := 0
  totalOut _ := 0
  decompress _ _ _ := (.error "deflate decompression error", (), [])
  newBrotliState := some []
  brotliDecompressStream codec input _ :=
    match codec with
    | none => (⟨.resultSuccess, 0, []⟩, none)
    | some before =>
        if before ++ input = outer then (⟨.resultSuccess, input.length, innerStream⟩, none)
        else if before ++ input = innerStream then (⟨.resultSuccess, input.length, []⟩, none)
        else (⟨.needsMoreInput, input.length, []⟩, some (before ++ input))

/-- What a codec of the example has given. -/
def given : Codec Unit Unit (Option Bytes) → Bytes → Prop
  | .brotli none, bytes => bytes.length ≤ 1
  | _, bytes => bytes = []

theorem given_brotli {before : Option Bytes} {after : Option Bytes} {input bytes : Bytes}
    {room : Nat} {call : BrotliCall}
    (hcall : brotliOnly.brotliDecompressStream before input room = (call, after))
    (h : given (.brotli before) bytes) : given (.brotli after) (bytes ++ call.written) := by
  cases before with
  | none =>
      obtain ⟨rfl, rfl⟩ := Prod.mk.inj hcall
      simpa using h
  | some before =>
      obtain rfl : bytes = [] := h
      simp only [brotliOnly] at hcall
      split at hcall
      · obtain ⟨rfl, rfl⟩ := Prod.mk.inj hcall
        exact Nat.le_refl 1
      · split at hcall
        · obtain ⟨rfl, rfl⟩ := Prod.mk.inj hcall
          exact Nat.zero_le 1
        · obtain ⟨rfl, rfl⟩ := Prod.mk.inj hcall
          rfl

theorem gzip_sink (gzip : Gzip Unit) (input : Bytes) (eof : Bool) (limit : Nat) :
    (gzip.operation brotliOnly input eof limit).2.2 = [] := by
  unfold Gzip.operation
  split
  · rfl
  · split
    · split <;> rfl
    · rfl

theorem given_step {codec next : Codec Unit Unit (Option Bytes)} {input bytes : Bytes} {eof : Bool}
    {room : Nat} {result : CodecStep}
    (hcall : (codecs brotliOnly).step codec input eof room = .ok (next, result))
    (h : given codec bytes) : given next (bytes ++ result.output) := by
  cases codec with
  | gzip gzip =>
      obtain ⟨⟨after, step⟩, hstep, heq⟩ := map_eq_ok.mp hcall
      obtain ⟨rfl, rfl⟩ := Prod.mk.inj heq
      have hsink : step.output = [] := by
        have hnone := gzip_sink gzip input eof room
        unfold Gzip.step at hstep
        split at hstep
        · rename_i hoperation
          obtain ⟨-, rfl, -⟩ := Gzip.settle_eq hstep
          rwa [hoperation] at hnone
        · rename_i hoperation
          obtain ⟨-, rfl, -⟩ := Gzip.settle_eq hstep
          rwa [hoperation] at hnone
        · cases hstep
      rw [hsink, List.append_nil]
      exact h
  | deflate decoder => cases hcall
  | brotli decoder =>
      obtain ⟨⟨after, step⟩, hstep, heq⟩ := map_eq_ok.mp hcall
      obtain ⟨rfl, rfl⟩ := Prod.mk.inj heq
      unfold brotliStep at hstep
      cases hbrotli : brotliOnly.brotliDecompressStream decoder input room with
      | mk call state =>
          rw [hbrotli] at hstep
          obtain ⟨status, -, hstep⟩ := bind_eq_ok.mp hstep
          obtain ⟨rfl, rfl⟩ := Prod.mk.inj (Except.ok.inj hstep)
          exact given_brotli hbrotli h

theorem brotliOnly_truthful : brotliOnly.Truthful fun _ _ => 1 := by
  refine ⟨?_, ?_, ?_, ?_⟩
  · intro decoder next input sink limit consumed hcall
    cases hcall
  · intro decoder next input written room result hcall
    cases hcall
  · intro decoder next input room call hcall
    cases decoder with
    | none =>
        obtain ⟨rfl, rfl⟩ := Prod.mk.inj hcall
        exact ⟨Nat.zero_le _, by simp⟩
    | some before =>
        simp only [brotliOnly] at hcall
        split at hcall
        · obtain ⟨rfl, rfl⟩ := Prod.mk.inj hcall
          exact ⟨Nat.le_refl _, fun _ => rfl⟩
        · split at hcall
          · obtain ⟨rfl, rfl⟩ := Prod.mk.inj hcall
            exact ⟨Nat.le_refl _, fun _ => rfl⟩
          · obtain ⟨rfl, rfl⟩ := Prod.mk.inj hcall
            exact ⟨Nat.le_refl _, fun _ => rfl⟩
  · intro coding codec taken bytes hrun
    have hgiven : given codec bytes := by
      induction hrun with
      | new => cases coding <;> exact rfl
      | step _ call ih => exact given_step call ih
    cases codec with
    | gzip gzip =>
        obtain rfl : bytes = [] := hgiven
        exact Nat.zero_le _
    | deflate decoder =>
        obtain rfl : bytes = [] := hgiven
        exact Nat.zero_le _
    | brotli decoder =>
        cases decoder with
        | none => exact hgiven
        | some before =>
            obtain rfl : bytes = [] := hgiven
            exact Nat.zero_le _

theorem decoder_progress_and_termination_example :
    brotliOnly.Truthful (fun _ _ => 1) ∧
      ∃ limit, ∀ (rounds : Nat) (flags : List ReadyFrameCoalescing),
        limit ≤ rounds → limit ≤ flags.length →
        (readToEnd (⟨codecs brotliOnly, none, fun _ => false⟩ : Transport _ Text) rounds flags
          (.new [.data outer, .eof] (some ⟨.new (codecs brotliOnly) plan (some 1), []⟩)
            true)).1.result.isSome = true := by
  refine ⟨brotliOnly_truthful, ?_⟩
  have h := decoder_progress_and_termination (ω := Text) brotliOnly_truthful plan (some 1)
  exact (h.2.2.2 none (fun _ => false) [.data outer, .eof]).2 ⟨.eof, by simp, rfl⟩ true

end DrainingExample

end FogHttp.Streams
