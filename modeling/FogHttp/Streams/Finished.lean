import FogHttp.Streams.Invariant

/-!
# A stream is finished exactly once

Every event keeps the invariant.  The events that end the stream need the counts
only.  The sections of a guard move the body and the decoder between the guard
and the fields.
-/

namespace FogHttp.Streams

open Lib

variable {β δ : Type} {connectionUse : Bool} {stream : Stream β δ}

/-- After the end the counts are the whole invariant. -/
theorem sound_of_ended (h : Counted connectionUse stream)
    (hended : stream.fields.terminal ≠ none) : Sound connectionUse stream :=
  ⟨h, fun hlive => absurd hlive hended⟩

theorem not_isSome_of_open (hlive : stream.fields.terminal = none) :
    ¬ stream.fields.terminal.isSome = true := by
  simp [hlive]

/-! ## The sections of a guard -/

section Guard

variable {i : Nat} {read : Read β δ} {guard : StreamReadGuard β δ}

theorem Holds.counted (hold : Holds stream i read guard) (h : Counted connectionUse stream)
    (guard' : Option (StreamReadGuard β δ)) : Counted connectionUse (stream.setGuard i guard') :=
  counted_setGuard h hold.found (by rw [hold.held]; rfl) guard'

/-- The body of a chunk goes back to the fields. -/
theorem sound_finishChunk (h : Sound connectionUse stream) (hold : Holds stream i read guard)
    {body : β} (hbody : guard.body = some body) (hdecoded : guard.decoded = none)
    (error : Option Text) : Sound connectionUse (stream.finishChunk i body error) := by
  have hcounted := hold.counted h.counted none
  unfold Stream.finishChunk StreamStateFields.completeRead
  by_cases hlive : stream.fields.terminal = none
  · have live := h.live hlive
    obtain ⟨hnone, -⟩ := hold.taken live (Or.inl (by rw [hbody]; rfl))
    rw [if_neg (not_isSome_of_open hlive)]
    exact ⟨counted_fields hcounted hlive hlive rfl rfl rfl, fun _ =>
      hold.live_release h.counted live (by simp [hbody, hnone]) (by simp [hdecoded]) rfl rfl
        live.transport⟩
  · rw [if_pos (Option.isSome_iff_ne_none.mpr hlive)]
    exact sound_of_ended hcounted hlive

/-- The body, if there is one, and the decoder go back to the fields. -/
theorem sound_finishDecodedChunk (h : Sound connectionUse stream)
    (hold : Holds stream i read guard) (hdecoded : guard.decoded.isSome = true) :
    Sound connectionUse (stream.finishDecodedChunk i guard) := by
  have hcounted := hold.counted h.counted none
  unfold Stream.finishDecodedChunk
  by_cases hlive : stream.fields.terminal = none
  · have live := h.live hlive
    obtain ⟨hnone, hnone'⟩ := hold.taken live (Or.inr hdecoded)
    rw [if_neg (not_isSome_of_open hlive)]
    exact ⟨counted_fields hcounted hlive hlive rfl rfl rfl, fun _ =>
      hold.live_release h.counted live (by simp [hnone]) (by simp [hnone']) rfl rfl
        live.transport⟩
  · rw [if_pos (Option.isSome_iff_ne_none.mpr hlive)]
    exact sound_of_ended hcounted hlive

/-- A decoded stream has a decoder somewhere. -/
theorem Holds.decodedMode (hold : Holds stream i read guard) (live : Live stream)
    (hdecoded : guard.decoded.isSome = true) : stream.fields.decodedMode = true := by
  have hpos : 0 < stream.reads.countP Read.hasDecoder := by
    refine List.countP_pos_iff.mpr ⟨read, List.mem_of_getElem? hold.found, ?_⟩
    simp [Read.hasDecoder, hold.held, hdecoded]
  have hdecoders := live.decoders
  by_contra hmode
  rw [Bool.not_eq_true] at hmode
  rw [hmode, Bool.toNat_false] at hdecoders
  omega

/-- Releasing the body of a live stream keeps the counts. -/
theorem counted_finishTransportFromRead (h : Counted connectionUse stream) :
    Counted connectionUse stream.finishTransportFromRead := by
  unfold Stream.finishTransportFromRead
  by_cases hlive : stream.fields.terminal = none
  · obtain ⟨hconnection, hlifecycle, hpermit, hrequest⟩ :=
      releaseBody_effects stream.fields .success
    have hconnections := h.connectionUses
    have hlifecycles := h.lifecycles
    rw [if_neg (not_isSome_of_open hlive)]
    refine ⟨h.guards, ?_, ?_, ?_, ?_, h.open_, fun hended => absurd hlive hended,
      fun hended => absurd hlive hended⟩
    · change (stream.effects ++ (stream.fields.releaseBody .success).2).countP _ +
        stream.fields.permit.toNat = 1
      rw [List.countP_append, hpermit]
      exact h.permits
    · change (stream.effects ++ (stream.fields.releaseBody .success).2).countP _ + 0 = _
      rw [List.countP_append, hconnection]
      exact hconnections
    · change (stream.effects ++ (stream.fields.releaseBody .success).2).countP _ + 0 = 1
      rw [List.countP_append, hlifecycle]
      exact hlifecycles
    · change (stream.effects ++ (stream.fields.releaseBody .success).2).countP _ + _ + _ = _
      rw [List.countP_append, hrequest]
      exact h.finished
  · rw [if_pos (Option.isSome_iff_ne_none.mpr hlive)]
    exact h

theorem finishTransportFromRead_terminal (stream : Stream β δ) :
    stream.finishTransportFromRead.fields.terminal = stream.fields.terminal := by
  unfold Stream.finishTransportFromRead
  split <;> rfl

/-- The body of a decoded stream is gone after its transport, and so is the lifecycle. -/
theorem sound_finishDecodedTransport (h : Sound connectionUse stream)
    (hold : Holds stream i read guard) (hdecoded : guard.decoded.isSome = true)
    (hbody : guard.body.isSome = true) :
    Sound connectionUse (stream.finishDecodedTransport i guard) := by
  have hcounted := hold.counted h.counted (some { guard with body := none })
  have hreleased := counted_finishTransportFromRead hcounted
  by_cases hlive : stream.fields.terminal = none
  · refine ⟨hreleased, fun _ => ?_⟩
    have live := h.live hlive
    obtain ⟨hnone, hnone'⟩ := hold.taken live (Or.inl hbody)
    obtain ⟨hpending, hbodies, hdecoders⟩ := hold.countP_set (some { guard with body := none })
    have hlifecycle := live.bodies
    have hmode := hold.decodedMode live hdecoded
    have hle := Bool.toNat_le stream.fields.lifecycle
    rw [hbody, Option.any_some] at hbodies
    rw [hnone] at hlifecycle
    simp only [Option.isSome_none, Bool.toNat_false, Bool.toNat_true] at hbodies hlifecycle
    rw [Option.any_some] at hdecoders
    unfold Stream.finishDecodedTransport Stream.finishTransportFromRead
    rw [setGuard_eq hold.found, if_neg (not_isSome_of_open hlive)]
    refine ⟨?_, ?_, ?_, fun hfalse => absurd (hmode.symm.trans hfalse) (by simp), ?_⟩
    · exact hpending.trans live.pending
    · change stream.fields.body.isSome.toNat + (stream.reads.set i _).countP _ = 0
      rw [hnone]
      simp only [Option.isSome_none, Bool.toNat_false]
      omega
    · change stream.fields.decoded.isSome.toNat + (stream.reads.set i _).countP _ =
        stream.fields.decodedMode.toNat
      rw [← live.decoders, Nat.add_right_cancel hdecoders]
    · refine forall_mem_set (fun other hmem other' hother => ?_) fun other hother => ?_
      · obtain ⟨hnotified, howns⟩ := live.guards other hmem other' hother
        exact ⟨hnotified, howns.taken, howns.deferred⟩
      · rw [Option.some.injEq] at hother
        subst hother
        obtain ⟨hnotified, howns⟩ :=
          live.guards read (List.mem_of_getElem? hold.found) guard hold.held
        exact ⟨hnotified, fun _ => ⟨hnone, hnone'⟩, fun herror =>
          ⟨rfl, (howns.deferred herror).2⟩⟩
  · refine sound_of_ended hreleased ?_
    unfold Stream.finishDecodedTransport
    rw [finishTransportFromRead_terminal]
    exact hlive

/-- A poll changes the body and the decoder in place. -/
theorem sound_poll (h : Sound connectionUse stream) (hold : Holds stream i read guard)
    (body : β) (decoded : δ) :
    Sound connectionUse (stream.setGuard i (some { guard with
      body := guard.body.map fun _ => body
      decoded := guard.decoded.map fun _ => decoded })) := by
  refine ⟨hold.counted h.counted _, fun hlive => ?_⟩
  have live := h.live hlive
  obtain ⟨hpending, hbodies, hdecoders⟩ := hold.countP_set (some { guard with
      body := guard.body.map fun _ => body
      decoded := guard.decoded.map fun _ => decoded })
  rw [Option.any_some, Option.isSome_map] at hbodies hdecoders
  rw [setGuard_eq hold.found]
  refine ⟨hpending.trans live.pending, ?_, ?_, live.transport, ?_⟩
  · rw [← live.bodies]
    exact congrArg (_ + ·) (Nat.add_right_cancel hbodies)
  · rw [← live.decoders]
    exact congrArg (_ + ·) (Nat.add_right_cancel hdecoders)
  · refine forall_mem_set live.guards ?_
    intro other hother
    rw [Option.some.injEq] at hother
    subst hother
    have hguard := live.guards read (List.mem_of_getElem? hold.found) guard hold.held
    refine ⟨hguard.1, hguard.2.taken, fun herror => ?_⟩
    obtain ⟨hnone, hnone'⟩ := hguard.2.deferred herror
    simp [hnone, hnone']

end Guard

/-! ## The callers -/

/-- After the delivery no read is in progress. -/
theorem sound_deliver (h : Sound connectionUse stream) {i : Nat}
    (hread : stream.reads[i]? = some ⟨none, false⟩) :
    Sound connectionUse
      { stream.setNotified i with fields := stream.fields.finishReadDelivery } := by
  have hcounted := counted_setNotified h.counted hread
  unfold StreamStateFields.finishReadDelivery
  by_cases hlive : stream.fields.terminal = none
  · rw [if_neg (not_isSome_of_open hlive)]
    refine ⟨counted_fields hcounted hlive hlive rfl rfl rfl, fun _ => ?_⟩
    have live := h.live hlive
    have hpending := countP_set_add Read.isPending ⟨none, true⟩ hread
    have hbody := countP_set_add Read.hasBody ⟨none, true⟩ hread
    have hdecoder := countP_set_add Read.hasDecoder ⟨none, true⟩ hread
    have hle := Bool.toNat_le stream.fields.readInProgress
    rw [live.pending] at hpending
    rw [setNotified_eq hread]
    refine ⟨?_, ?_, ?_, live.transport, ?_⟩
    · change (stream.reads.set i ⟨none, true⟩).countP Read.isPending = 0
      change (stream.reads.set i ⟨none, true⟩).countP Read.isPending + 1 = _ + 0 at hpending
      omega
    · rw [← live.bodies]
      exact congrArg (_ + ·) hbody
    · rw [← live.decoders]
      exact congrArg (_ + ·) hdecoder
    · refine forall_mem_set (fun other hmem other' hother => ?_) (by simp)
      obtain ⟨hnotified, howns⟩ := live.guards other hmem other' hother
      exact ⟨hnotified, howns.taken, howns.deferred⟩
  · rw [if_pos (Option.isSome_iff_ne_none.mpr hlive)]
    exact sound_of_ended hcounted hlive

/-- A read task is aborted at once, or is in the fields. -/
theorem sound_registerReadTask (h : Sound connectionUse stream) (i : Nat) :
    Sound connectionUse (stream.registerReadTask i) := by
  unfold Stream.registerReadTask
  split
  · exact ⟨counted_readTaskAborted h.counted i, fun hlive => { h.live hlive with }⟩
  · rename_i hopen
    have hlive : stream.fields.terminal = none := by
      simp only [Bool.or_eq_true, not_or, Option.isSome_iff_ne_none, ne_eq, not_not] at hopen
      exact hopen.1
    refine ⟨counted_fields h.counted hlive hlive rfl rfl rfl, fun _ => ?_⟩
    have live := h.live hlive
    refine ⟨live.pending, live.bodies, live.decoders, live.transport,
      fun read hmem guard hguard => ?_⟩
    obtain ⟨hnotified, howns⟩ := live.guards read hmem guard hguard
    exact ⟨hnotified, howns.taken, howns.deferred⟩

/-- The tail of `finish` records the end that it has won. -/
theorem sound_finishTail (h : Sound connectionUse stream) {tail : FinishTail}
    (htail : stream.tail = some tail) : Sound connectionUse (stream.finishTail tail) := by
  have hended : stream.fields.terminal ≠ none := by
    intro hlive
    rw [(h.counted.open_ hlive).2] at htail
    simp at htail
  refine sound_of_ended ⟨h.counted.guards, ?_, ?_, ?_, ?_, fun hlive => absurd hlive hended,
    h.counted.ended, h.counted.completed⟩ hended
  all_goals
    obtain ⟨finishedRequest, failed, readTask⟩ := tail
    unfold Stream.finishTail
    simp only [List.countP_append]
  · have := h.counted.permits
    cases readTask <;> cases finishedRequest <;> exact this
  · have := h.counted.connectionUses
    cases readTask <;> cases finishedRequest <;> exact this
  · have := h.counted.lifecycles
    cases readTask <;> cases finishedRequest <;> exact this
  · have := h.counted.finished
    rw [htail] at this
    cases readTask <;> cases finishedRequest <;> exact this

/-- Another party may win the completion and record the end instead. -/
theorem sound_rivalFinish (h : Sound connectionUse stream) (hfree : stream.completion = false) :
    Sound connectionUse { stream with completion := true, rival := true } := by
  have hfinished := h.counted.finished
  rw [hfree, Bool.toNat_false] at hfinished
  refine ⟨{ h.counted with finished := ?_, completed := fun _ => rfl }, fun hlive =>
    { h.live hlive with }⟩
  change stream.effects.countP _ + (FinishTail.records stream.tail).toNat + 1 = 1
  omega

theorem sound_rivalRecord (h : Sound connectionUse stream) (hrival : stream.rival = true)
    (failed : Bool) :
    Sound connectionUse
      { stream with rival := false, effects := stream.effects ++ [.requestFinished failed] } := by
  have hfinished := h.counted.finished
  rw [hrival, Bool.toNat_true] at hfinished
  refine ⟨⟨h.counted.guards, ?_, ?_, ?_, ?_, h.counted.open_, h.counted.ended,
    h.counted.completed⟩,
    fun hlive => { h.live hlive with }⟩
  · rw [List.countP_append]
    exact h.counted.permits
  · rw [List.countP_append]
    exact h.counted.connectionUses
  · rw [List.countP_append]
    exact h.counted.lifecycles
  · rw [List.countP_append]
    change _ + 1 + (FinishTail.records stream.tail).toNat + 0 = stream.completion.toNat
    omega

/-! ## Every event -/

/-- An event of a guard is about a read that has one. -/
theorem holds_of_onGuard {i : Nat} {event : StreamReadGuard β δ → Option (Stream β δ)}
    {next : Stream β δ} (h : stream.onGuard i event = some next) :
    ∃ read guard, Holds stream i read guard ∧ event guard = some next := by
  unfold Stream.onGuard at h
  simp only [Option.bind_eq_bind, Option.bind_eq_some_iff] at h
  obtain ⟨read, hread, guard, hguard, hevent⟩ := h
  exact ⟨read, guard, ⟨hread, hguard⟩, hevent⟩

/-- Every event keeps the invariant. -/
theorem sound_step (h : Sound connectionUse stream) {event : StreamEvent β δ}
    {next : Stream β δ} (hstep : stream.step event = some next) : Sound connectionUse next := by
  cases event with
  | startRead coalescing =>
      obtain rfl : (stream.startRead coalescing).2 = next := by simpa [Stream.step] using hstep
      by_cases hlive : stream.fields.terminal = none
      · exact (startRead_of_open h hlive coalescing).2
      · rw [startRead_of_ended hlive]
        exact h
  | registerReadTask i =>
      simp only [Stream.step] at hstep
      split at hstep
      · rw [Option.some.injEq] at hstep
        exact hstep ▸ sound_registerReadTask h i
      · simp at hstep
  | poll i body decoded =>
      obtain ⟨read, guard, hold, hevent⟩ := holds_of_onGuard hstep
      rw [Option.some.injEq] at hevent
      exact hevent ▸ sound_poll h hold body decoded
  | finishChunk i error =>
      obtain ⟨read, guard, hold, hevent⟩ := holds_of_onGuard hstep
      split at hevent
      · rename_i body hdecoded hbody
        rw [Option.some.injEq] at hevent
        exact hevent ▸ sound_finishChunk h hold hbody hdecoded error
      · simp at hevent
  | finishDecodedChunk i =>
      obtain ⟨read, guard, hold, hevent⟩ := holds_of_onGuard hstep
      split at hevent
      · rename_i hdecoded
        rw [Option.some.injEq] at hevent
        exact hevent ▸ sound_finishDecodedChunk h hold hdecoded
      · simp at hevent
  | finishDecodedTransport i =>
      obtain ⟨read, guard, hold, hevent⟩ := holds_of_onGuard hstep
      split at hevent
      · rename_i hboth
        rw [Bool.and_eq_true] at hboth
        rw [Option.some.injEq] at hevent
        exact hevent ▸ sound_finishDecodedTransport h hold hboth.1 hboth.2
      · simp at hevent
  | finishSuccessFromRead i =>
      obtain ⟨read, guard, hold, hevent⟩ := holds_of_onGuard hstep
      rw [Option.some.injEq] at hevent
      exact hevent ▸ sound_finish (hold.counted h.counted none) .success false
  | abortFromRead i reason =>
      obtain ⟨read, guard, hold, hevent⟩ := holds_of_onGuard hstep
      rw [Option.some.injEq] at hevent
      exact hevent ▸ sound_finish h.counted (.abort reason) false
  | dropGuard i =>
      obtain ⟨read, guard, hold, hevent⟩ := holds_of_onGuard hstep
      rw [Option.some.injEq] at hevent
      exact hevent ▸ sound_finish (hold.counted h.counted none) (.abort .cancelled) false
  | deliver i =>
      simp only [Stream.step] at hstep
      split at hstep
      · rename_i hread
        rw [Option.some.injEq] at hstep
        exact hstep ▸ sound_deliver h hread
      · simp at hstep
  | cancelRead i =>
      simp only [Stream.step] at hstep
      split at hstep
      · rename_i guard hread
        rw [Option.some.injEq] at hstep
        have hcounted := counted_readTaskAborted (counted_setNotified h.counted hread) i
        exact hstep ▸ sound_finish hcounted (.abort .cancelled) true
      · simp at hstep
  | close =>
      obtain rfl : stream.close = next := by simpa [Stream.step] using hstep
      exact sound_finish h.counted (.abort .closed) true
  | cancel =>
      obtain rfl : stream.cancel = next := by simpa [Stream.step] using hstep
      exact sound_finish h.counted (.abort .cancelled) true
  | fail errorType =>
      obtain rfl : stream.fail errorType = next := by simpa [Stream.step] using hstep
      exact sound_finish h.counted (.abort (.error errorType)) true
  | finishTail =>
      obtain ⟨tail, htail, rfl⟩ :
          ∃ tail, stream.tail = some tail ∧ stream.finishTail tail = next := by
        simpa [Stream.step] using hstep
      exact sound_finishTail h htail
  | abortAll =>
      simp only [Stream.step, Option.some.injEq] at hstep
      exact hstep ▸ ⟨{ h.counted with }, fun hlive => { h.live hlive with }⟩
  | closeCollected =>
      simp only [Stream.step] at hstep
      split at hstep
      · rename_i collected _
        rw [Option.some.injEq] at hstep
        have hcounted : Counted connectionUse { stream with collected } := { h.counted with }
        exact hstep ▸ sound_finish hcounted (.abort .closed) true
      · simp at hstep
  | rivalFinish =>
      simp only [Stream.step] at hstep
      split at hstep
      · simp at hstep
      · rename_i hfree
        rw [Option.some.injEq] at hstep
        exact hstep ▸ sound_rivalFinish h (by simpa using hfree)
  | rivalRecord failed =>
      simp only [Stream.step] at hstep
      split at hstep
      · rename_i hrival
        rw [Option.some.injEq] at hstep
        exact hstep ▸ sound_rivalRecord h hrival failed
      · simp at hstep

theorem sound_of_reachable {body : β} {decoded : Option δ}
    (h : (streamSystem body decoded connectionUse).Reachable stream) :
    Sound connectionUse stream :=
  h.invariant (Sound connectionUse) (sound_new body decoded connectionUse)
    fun _ hsound hstep => sound_step hsound hstep

/-! ## What no event changes -/

/-- The stream keeps its mode, and its end once it has one. -/
structure Kept (fields next : StreamStateFields β δ) : Prop where
  decodedMode : next.decodedMode = fields.decodedMode
  terminal : ∀ finish, fields.terminal = some finish → next.terminal = some finish

theorem kept_finish (stream : Stream β δ) (finish : StreamFinish) (abortReadTask : Bool) :
    Kept stream.fields (stream.finish finish abortReadTask).2.fields := by
  by_cases hlive : stream.fields.terminal = none
  · rw [finish_of_open hlive]
    exact ⟨rfl, fun other hother => by simp [hlive] at hother⟩
  · rw [finish_of_ended hlive]
    exact ⟨rfl, fun _ hfinish => hfinish⟩

theorem kept_of_eq {fields next : StreamStateFields β δ}
    (hmode : next.decodedMode = fields.decodedMode)
    (hterminal : next.terminal = fields.terminal) : Kept fields next :=
  ⟨hmode, fun _ hfinish => hterminal.trans hfinish⟩

theorem kept_startRead (stream : Stream β δ) (coalescing : ReadyFrameCoalescing) :
    Kept stream.fields (stream.startRead coalescing).2.fields := by
  have hfields : (stream.startRead coalescing).2.fields =
      (stream.fields.startRead coalescing).2 := by
    unfold Stream.startRead
    split <;> rename_i hstart <;> rw [hstart]
  rw [hfields]
  unfold StreamStateFields.startRead
  repeat' split
  all_goals exact kept_of_eq rfl rfl

theorem kept_finishChunk (stream : Stream β δ) (i : Nat) (body : β) (error : Option Text) :
    Kept stream.fields (stream.finishChunk i body error).fields := by
  unfold Stream.finishChunk StreamStateFields.completeRead
  split <;> exact kept_of_eq rfl rfl

theorem kept_finishDecodedChunk (stream : Stream β δ) (i : Nat) (guard : StreamReadGuard β δ) :
    Kept stream.fields (stream.finishDecodedChunk i guard).fields := by
  unfold Stream.finishDecodedChunk
  split <;> exact kept_of_eq rfl rfl

theorem kept_finishDecodedTransport (stream : Stream β δ) (i : Nat)
    (guard : StreamReadGuard β δ) :
    Kept stream.fields (stream.finishDecodedTransport i guard).fields := by
  unfold Stream.finishDecodedTransport Stream.finishTransportFromRead
  split <;> exact kept_of_eq rfl rfl

theorem kept_registerReadTask (stream : Stream β δ) (i : Nat) :
    Kept stream.fields (stream.registerReadTask i).fields := by
  unfold Stream.registerReadTask
  split <;> exact kept_of_eq rfl rfl

theorem kept_deliver (fields : StreamStateFields β δ) : Kept fields fields.finishReadDelivery := by
  unfold StreamStateFields.finishReadDelivery
  split <;> exact kept_of_eq rfl rfl

theorem kept_step {event : StreamEvent β δ} {next : Stream β δ}
    (hstep : stream.step event = some next) : Kept stream.fields next.fields := by
  cases event with
  | startRead coalescing =>
      simp only [Stream.step, Option.some.injEq] at hstep
      exact hstep ▸ kept_startRead stream coalescing
  | registerReadTask i =>
      simp only [Stream.step, Option.ite_none_right_eq_some, Option.some.injEq] at hstep
      exact hstep.2 ▸ kept_registerReadTask stream i
  | poll i body decoded =>
      obtain ⟨read, guard, -, hevent⟩ := holds_of_onGuard hstep
      rw [Option.some.injEq] at hevent
      exact hevent ▸ kept_of_eq rfl rfl
  | finishChunk i error =>
      obtain ⟨read, guard, -, hevent⟩ := holds_of_onGuard hstep
      split at hevent
      · rw [Option.some.injEq] at hevent
        exact hevent ▸ kept_finishChunk stream i _ error
      · simp at hevent
  | finishDecodedChunk i =>
      obtain ⟨read, guard, -, hevent⟩ := holds_of_onGuard hstep
      rw [Option.ite_none_right_eq_some, Option.some.injEq] at hevent
      exact hevent.2 ▸ kept_finishDecodedChunk stream i guard
  | finishDecodedTransport i =>
      obtain ⟨read, guard, -, hevent⟩ := holds_of_onGuard hstep
      rw [Option.ite_none_right_eq_some, Option.some.injEq] at hevent
      exact hevent.2 ▸ kept_finishDecodedTransport stream i guard
  | finishSuccessFromRead i =>
      obtain ⟨read, guard, -, hevent⟩ := holds_of_onGuard hstep
      rw [Option.some.injEq] at hevent
      exact hevent ▸ kept_finish (stream.setGuard i none) .success false
  | abortFromRead i reason =>
      obtain ⟨read, guard, -, hevent⟩ := holds_of_onGuard hstep
      rw [Option.some.injEq] at hevent
      exact hevent ▸ kept_finish stream (.abort reason) false
  | dropGuard i =>
      obtain ⟨read, guard, -, hevent⟩ := holds_of_onGuard hstep
      rw [Option.some.injEq] at hevent
      exact hevent ▸ kept_finish (stream.setGuard i none) (.abort .cancelled) false
  | deliver i =>
      simp only [Stream.step] at hstep
      split at hstep
      · rw [Option.some.injEq] at hstep
        exact hstep ▸ kept_deliver stream.fields
      · simp at hstep
  | cancelRead i =>
      simp only [Stream.step] at hstep
      split at hstep
      · rw [Option.some.injEq] at hstep
        exact hstep ▸ kept_finish { stream.setNotified i with
          effects := stream.effects ++ [.readTaskAborted i] } (.abort .cancelled) true
      · simp at hstep
  | close =>
      simp only [Stream.step, Option.some.injEq] at hstep
      exact hstep ▸ kept_finish stream (.abort .closed) true
  | cancel =>
      simp only [Stream.step, Option.some.injEq] at hstep
      exact hstep ▸ kept_finish stream (.abort .cancelled) true
  | fail errorType =>
      simp only [Stream.step, Option.some.injEq] at hstep
      exact hstep ▸ kept_finish stream (.abort (.error errorType)) true
  | finishTail =>
      simp only [Stream.step, Option.map_eq_some_iff] at hstep
      obtain ⟨tail, -, rfl⟩ := hstep
      exact kept_of_eq rfl rfl
  | abortAll =>
      simp only [Stream.step, Option.some.injEq] at hstep
      exact hstep ▸ kept_of_eq rfl rfl
  | closeCollected =>
      simp only [Stream.step] at hstep
      split at hstep
      · rename_i collected _
        rw [Option.some.injEq] at hstep
        exact hstep ▸ kept_finish { stream with collected } (.abort .closed) true
      · simp at hstep
  | rivalFinish =>
      simp only [Stream.step, Option.ite_none_left_eq_some, Option.some.injEq] at hstep
      exact hstep.2 ▸ kept_of_eq rfl rfl
  | rivalRecord failed =>
      simp only [Stream.step, Option.ite_none_right_eq_some, Option.some.injEq] at hstep
      exact hstep.2 ▸ kept_of_eq rfl rfl

theorem decodedMode_of_reachable {body : β} {decoded : Option δ}
    (h : (streamSystem body decoded connectionUse).Reachable stream) :
    stream.fields.decodedMode = decoded.isSome :=
  h.invariant (fun stream => stream.fields.decodedMode = decoded.isSome) rfl
    fun _ hmode hstep => (kept_step hstep).decodedMode.trans hmode

/-! ## Exactly once -/

/-- The body, while the stream is live, has this many owners. -/
def Stream.bodyOwners (stream : Stream β δ) : Nat :=
  stream.fields.body.isSome.toNat + stream.reads.countP Read.hasBody

def Stream.decoderOwners (stream : Stream β δ) : Nat :=
  stream.fields.decoded.isSome.toNat + stream.reads.countP Read.hasDecoder

/-- A stream ends once, and releases and records what it has once. -/
theorem stream_finished_once (body : β) (decoded : Option δ) (connectionUse : Bool)
    {stream : Stream β δ}
    (h : (streamSystem body decoded connectionUse).Reachable stream) :
    (∀ next finish, (streamSystem body decoded connectionUse).Later stream next →
      stream.fields.terminal = some finish → next.fields.terminal = some finish) ∧
    (stream.effects.countP StreamEffect.isPermitRelease ≤ 1 ∧
      stream.effects.countP StreamEffect.isConnectionUseRelease ≤ connectionUse.toNat ∧
      stream.effects.countP StreamEffect.isLifecycleFinish ≤ 1 ∧
      stream.effects.countP StreamEffect.isRequestFinish +
        (FinishTail.records stream.tail).toNat + stream.rival.toNat = stream.completion.toNat) ∧
    (stream.fields.terminal ≠ none →
      stream.effects.countP StreamEffect.isPermitRelease = 1 ∧
      stream.effects.countP StreamEffect.isConnectionUseRelease = connectionUse.toNat ∧
      stream.effects.countP StreamEffect.isLifecycleFinish = 1 ∧
      stream.completion = true ∧
      stream.fields.body = none ∧ stream.fields.decoded = none ∧
      stream.fields.permit = false ∧ stream.fields.readTask = none) ∧
    stream.reads.countP Read.hasGuard ≤ 1 ∧
    (stream.fields.terminal = none →
      stream.decoderOwners = decoded.isSome.toNat ∧
      stream.bodyOwners = stream.fields.lifecycle.toNat ∧
      (decoded = none → stream.bodyOwners = 1)) ∧
    (∀ readyFrameCoalescing, (stream.startRead readyFrameCoalescing).1 = .ok none →
      stream.fields.terminal ≠ none) := by
  have hsound := sound_of_reachable h
  have hcounted := hsound.counted
  have hmode := decodedMode_of_reachable h
  have hpermits := hcounted.permits
  have hconnections := hcounted.connectionUses
  have hlifecycles := hcounted.lifecycles
  refine ⟨fun next finish hlater => ?_, ⟨by omega, by omega, by omega, hcounted.finished⟩,
    fun hended => ?_, hcounted.guards, fun hlive => ?_, fun coalescing hnone hlive => ?_⟩
  · exact hlater.stable (fun stream => stream.fields.terminal = some finish)
      (fun _ hfinish hstep => (kept_step hstep).terminal finish hfinish) h
  · obtain ⟨hbody, hdecoded, hpermit, hreadTask, hlifecycle, hconnection⟩ := hcounted.ended hended
    rw [hpermit] at hpermits
    rw [hconnection] at hconnections
    rw [hlifecycle] at hlifecycles
    exact ⟨hpermits, hconnections, hlifecycles, hcounted.completed hended, hbody, hdecoded,
      hpermit, hreadTask⟩
  · have live := hsound.live hlive
    have hdecoders := live.decoders
    rw [hmode] at hdecoders
    refine ⟨hdecoders, live.bodies, fun hidentity => ?_⟩
    have hlifecycle := live.transport (by rw [hmode, hidentity]; rfl)
    have hbodies := live.bodies
    rw [hlifecycle] at hbodies
    exact hbodies
  · exact (startRead_of_open hsound hlive coalescing).1 hnone

/-- Two reads race with a close: the first delivers, the guard of the second is dropped. -/
def racedEvents : List (StreamEvent Unit Unit) :=
  [.startRead .disabled, .registerReadTask 0, .poll 0 () (), .finishChunk 0 none, .deliver 0,
    .startRead .enabled, .registerReadTask 1, .close, .finishTail, .dropGuard 1, .deliver 1,
    .abortAll, .fail none]

def racedStream : Stream Unit Unit where
  fields :=
    { body := none
      decoded := none
      decodedMode := false
      permit := false
      lifecycle := false
      connectionUse := false
      readTask := none
      readInProgress := true
      terminal := some (.abort .closed)
      deferredBodyError := none }
  registered := false
  completion := true
  effects :=
    [.connectionUseReleased (.abort .closed), .lifecycleFinished (.abort .closed),
      .permitReleased, .readTaskAborted 1, .requestFinished true]
  reads := [⟨none, true⟩, ⟨none, true⟩]
  tail := none
  collected := 0
  rival := false

theorem stream_finished_once_raced :
    racedStream.effects.countP StreamEffect.isPermitRelease = 1 ∧
      racedStream.effects.countP StreamEffect.isRequestFinish = 1 := by
  have hrun : (streamSystem () (none : Option Unit) true).run racedEvents = some racedStream :=
    rfl
  have hreachable := TransitionSystem.reachable_of_run hrun
  obtain ⟨-, ⟨-, -, -, hfinished⟩, hended, -⟩ :=
    stream_finished_once () (none : Option Unit) true hreachable
  exact ⟨(hended (by simp [racedStream])).1, hfinished⟩

/-- The end of a decoded transport gives the body up before the end of the stream, so that
the connection can go back while the decoder has output left. -/
theorem decoded_transport_drops_body :
    ¬ ∀ stream : Stream Unit Unit,
      (streamSystem () (some ()) true).Reachable stream → stream.fields.terminal = none →
        stream.bodyOwners = 1 := by
  intro howned
  let stream := ((Stream.new () (some ()) true).startRead .disabled).2.finishDecodedTransport 0
    ⟨some (), some (), none, .disabled⟩
  have hrun : (streamSystem () (some ()) true).run
      [.startRead .disabled, .finishDecodedTransport 0] = some stream := rfl
  exact absurd (howned stream (TransitionSystem.reachable_of_run hrun) rfl) (by decide)

end FogHttp.Streams
