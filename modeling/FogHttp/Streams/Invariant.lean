import FogHttp.Lib.Positions
import FogHttp.Streams.State

/-!
# The invariant of a stream

The invariant has two parts.

* `Counted` holds always.  A resource of the stream is in its field or was
  released once, the completion of the request was recorded once or is about to
  be, there is at most one guard, and after the end the fields are empty.
* `Live` holds until the end.  Exactly one read waits for its callback while a
  read is in progress, and the body and the decoder are in the fields or with
  the one guard.  The body is gone from the end of the decoded transport on, as
  the lifecycle is.

`finish` needs no more than `Counted`, so a guard that is dropped with the body
may break `Live` right before it.  The other sections keep both.
-/

namespace FogHttp.Streams

open Lib

variable {β δ : Type}

/-! ## What is counted -/

namespace StreamEffect

def isPermitRelease : StreamEffect → Bool
  | .permitReleased => true
  | _ => false

def isConnectionUseRelease : StreamEffect → Bool
  | .connectionUseReleased _ => true
  | _ => false

def isLifecycleFinish : StreamEffect → Bool
  | .lifecycleFinished _ => true
  | _ => false

def isRequestFinish : StreamEffect → Bool
  | .requestFinished _ => true
  | _ => false

end StreamEffect

namespace Read

def hasGuard (read : Read β δ) : Bool := read.guard.isSome

def hasBody (read : Read β δ) : Bool := read.guard.any fun guard => guard.body.isSome

def hasDecoder (read : Read β δ) : Bool := read.guard.any fun guard => guard.decoded.isSome

/-- The callback of the read has not run. -/
def isPending (read : Read β δ) : Bool := !read.notified

end Read

/-- A tail that will record the end of the request. -/
def FinishTail.records : Option FinishTail → Bool
  | some tail => tail.finishedRequest
  | none => false

/-- The part of the invariant that holds always. -/
structure Counted (connectionUse : Bool) (stream : Stream β δ) : Prop where
  guards : stream.reads.countP Read.hasGuard ≤ 1
  permits : stream.effects.countP StreamEffect.isPermitRelease +
    stream.fields.permit.toNat = 1
  connectionUses : stream.effects.countP StreamEffect.isConnectionUseRelease +
    stream.fields.connectionUse.toNat = connectionUse.toNat
  lifecycles : stream.effects.countP StreamEffect.isLifecycleFinish +
    stream.fields.lifecycle.toNat = 1
  finished : stream.effects.countP StreamEffect.isRequestFinish +
    (FinishTail.records stream.tail).toNat + stream.rival.toNat = stream.completion.toNat
  open_ : stream.fields.terminal = none → stream.fields.permit = true ∧ stream.tail = none
  ended : stream.fields.terminal ≠ none →
    stream.fields.body = none ∧ stream.fields.decoded = none ∧ stream.fields.permit = false ∧
      stream.fields.readTask = none ∧ stream.fields.lifecycle = false ∧
      stream.fields.connectionUse = false
  completed : stream.fields.terminal ≠ none → stream.completion = true

/-- A guard of a live stream: it has the body and the decoder, or the error that is left to
deliver. -/
structure StreamReadGuard.Owns (guard : StreamReadGuard β δ) (fields : StreamStateFields β δ) :
    Prop where
  taken : guard.deferredBodyError = none → fields.body = none ∧ fields.decoded = none
  deferred : guard.deferredBodyError ≠ none → guard.body = none ∧ guard.decoded = none

/-- The part of the invariant that holds until the end. -/
structure Live (stream : Stream β δ) : Prop where
  pending : stream.reads.countP Read.isPending = stream.fields.readInProgress.toNat
  bodies : stream.fields.body.isSome.toNat + stream.reads.countP Read.hasBody =
    stream.fields.lifecycle.toNat
  decoders : stream.fields.decoded.isSome.toNat + stream.reads.countP Read.hasDecoder =
    stream.fields.decodedMode.toNat
  transport : stream.fields.decodedMode = false → stream.fields.lifecycle = true
  guards : ∀ read ∈ stream.reads, ∀ guard, read.guard = some guard →
    read.notified = false ∧ guard.Owns stream.fields

/-- The invariant of a stream. -/
structure Sound (connectionUse : Bool) (stream : Stream β δ) : Prop where
  counted : Counted connectionUse stream
  live : stream.fields.terminal = none → Live stream

variable {connectionUse : Bool} {stream : Stream β δ}

theorem sound_new (body : β) (decoded : Option δ) (connectionUse : Bool) :
    Sound connectionUse (Stream.new body decoded connectionUse) where
  counted :=
    { guards := by simp [Stream.new]
      permits := rfl
      connectionUses := by simp [Stream.new]
      lifecycles := rfl
      finished := rfl
      open_ := fun _ => ⟨rfl, rfl⟩
      ended := by simp [Stream.new]
      completed := by simp [Stream.new] }
  live := fun _ =>
    { pending := rfl
      bodies := rfl
      decoders := by simp [Stream.new]
      transport := fun _ => rfl
      guards := by simp [Stream.new] }

/-! ## The section of `finish` -/

theorem releaseBody_effects (fields : StreamStateFields β δ) (finish : StreamFinish) :
    (fields.releaseBody finish).2.countP StreamEffect.isConnectionUseRelease =
        fields.connectionUse.toNat ∧
      (fields.releaseBody finish).2.countP StreamEffect.isLifecycleFinish =
        fields.lifecycle.toNat ∧
      (fields.releaseBody finish).2.countP StreamEffect.isPermitRelease = 0 ∧
      (fields.releaseBody finish).2.countP StreamEffect.isRequestFinish = 0 := by
  unfold StreamStateFields.releaseBody
  cases fields.connectionUse <;> cases fields.lifecycle <;> exact ⟨rfl, rfl, rfl, rfl⟩

/-- Both ways to finish a body release it. -/
theorem finish_of_open {finish : StreamFinish} {abortReadTask : Bool}
    (h : stream.fields.terminal = none) :
    stream.finish finish abortReadTask =
      (true,
        { stream with
          fields := { stream.fields with
            terminal := some finish, readTask := none, body := none, decoded := none
            connectionUse := false, lifecycle := false, permit := false }
          registered := false
          completion := true
          effects := stream.effects ++ (stream.fields.releaseBody finish).2 ++
            (if stream.fields.permit then [.permitReleased] else [])
          tail := some
            { finishedRequest := !stream.completion
              failed := finish.failed
              readTaskToCancel := if abortReadTask then stream.fields.readTask else none } }) := by
  unfold Stream.finish
  rw [h]
  cases finish <;> rfl

theorem finish_of_ended {finish : StreamFinish} {abortReadTask : Bool}
    (h : stream.fields.terminal ≠ none) :
    stream.finish finish abortReadTask = (false, stream) := by
  unfold Stream.finish
  rw [if_pos (Option.isSome_iff_ne_none.mpr h)]

theorem finish_terminal (stream : Stream β δ) (finish : StreamFinish) (abortReadTask : Bool) :
    (stream.finish finish abortReadTask).2.fields.terminal ≠ none := by
  by_cases h : stream.fields.terminal = none
  · rw [finish_of_open h]
    simp
  · rw [finish_of_ended h]
    exact h

/-- Finishing keeps the counts, whatever happened to the body before. -/
theorem counted_finish (h : Counted connectionUse stream) (finish : StreamFinish)
    (abortReadTask : Bool) : Counted connectionUse (stream.finish finish abortReadTask).2 := by
  by_cases hterminal : stream.fields.terminal = none
  · obtain ⟨hconnection, hlifecycle, hpermit, hrequest⟩ :=
      releaseBody_effects stream.fields finish
    obtain ⟨hheld, htail⟩ := h.open_ hterminal
    have hpermits := h.permits
    have hconnections := h.connectionUses
    have hlifecycles := h.lifecycles
    have hfinished := h.finished
    rw [hheld] at hpermits
    rw [htail] at hfinished
    rw [finish_of_open hterminal, hheld]
    refine ⟨h.guards, ?_, ?_, ?_, ?_, by simp, by simp, fun _ => rfl⟩
    · simp only [List.countP_append, hpermit]
      simpa [StreamEffect.isPermitRelease] using hpermits
    · simp only [List.countP_append, hconnection]
      simpa [StreamEffect.isConnectionUseRelease] using hconnections
    · simp only [List.countP_append, hlifecycle]
      simpa [StreamEffect.isLifecycleFinish] using hlifecycles
    · simp only [List.countP_append, hrequest]
      have hnone : [StreamEffect.permitReleased].countP StreamEffect.isRequestFinish = 0 := rfl
      rw [if_pos trivial, hnone]
      simp only [FinishTail.records, Bool.toNat_false] at hfinished ⊢
      cases hcompletion : stream.completion with
      | false =>
          rw [hcompletion, Bool.toNat_false] at hfinished
          simp only [Bool.not_false, Bool.toNat_true]
          omega
      | true =>
          rw [hcompletion, Bool.toNat_true] at hfinished
          simp only [Bool.not_true, Bool.toNat_false, Bool.toNat_true]
          omega
  · rw [finish_of_ended hterminal]
    exact h

/-- After a finish nothing is left to show about a live stream. -/
theorem sound_finish (h : Counted connectionUse stream) (finish : StreamFinish)
    (abortReadTask : Bool) : Sound connectionUse (stream.finish finish abortReadTask).2 where
  counted := counted_finish h finish abortReadTask
  live hlive := absurd hlive (finish_terminal stream finish abortReadTask)

/-! ## Frames -/

/-- The counts depend on the reads by the number of guards. -/
theorem counted_reads (h : Counted connectionUse stream) {reads : List (Read β δ)}
    (hguards : reads.countP Read.hasGuard ≤ 1) : Counted connectionUse { stream with reads } :=
  { h with guards := hguards }

/-- The counts of a live stream depend on the fields by what they release. -/
theorem counted_fields (h : Counted connectionUse stream) {fields : StreamStateFields β δ}
    (hlive : fields.terminal = none) (hstream : stream.fields.terminal = none)
    (hpermit : fields.permit = stream.fields.permit)
    (hconnection : fields.connectionUse = stream.fields.connectionUse)
    (hlifecycle : fields.lifecycle = stream.fields.lifecycle) :
    Counted connectionUse { stream with fields } where
  guards := h.guards
  permits := hpermit ▸ h.permits
  connectionUses := hconnection ▸ h.connectionUses
  lifecycles := hlifecycle ▸ h.lifecycles
  finished := h.finished
  open_ _ := ⟨hpermit ▸ (h.open_ hstream).1, (h.open_ hstream).2⟩
  ended hended := absurd hlive hended
  completed hended := absurd hlive hended

/-- An aborted read task is not counted. -/
theorem counted_readTaskAborted (h : Counted connectionUse stream) (read : Nat) :
    Counted connectionUse
      { stream with effects := stream.effects ++ [.readTaskAborted read] } where
  guards := h.guards
  permits := by
    rw [List.countP_append]
    exact h.permits
  connectionUses := by
    rw [List.countP_append]
    exact h.connectionUses
  lifecycles := by
    rw [List.countP_append]
    exact h.lifecycles
  finished := by
    rw [List.countP_append]
    exact h.finished
  open_ := h.open_
  ended := h.ended
  completed := h.completed

/-- The reads after the guard of read `i` changed. -/
theorem setGuard_eq {i : Nat} {read : Read β δ} (hread : stream.reads[i]? = some read)
    (guard : Option (StreamReadGuard β δ)) :
    stream.setGuard i guard = { stream with reads := stream.reads.set i { read with guard } } := by
  unfold Stream.setGuard
  rw [modify_eq_set_of_getElem? _ hread]

theorem setNotified_eq {i : Nat} {read : Read β δ} (hread : stream.reads[i]? = some read) :
    stream.setNotified i =
      { stream with reads := stream.reads.set i { read with notified := true } } := by
  unfold Stream.setNotified
  rw [modify_eq_set_of_getElem? _ hread]

/-- A guard that is there may change or go. -/
theorem counted_setGuard (h : Counted connectionUse stream) {i : Nat} {read : Read β δ}
    (hread : stream.reads[i]? = some read) (hguard : read.guard.isSome)
    (guard : Option (StreamReadGuard β δ)) : Counted connectionUse (stream.setGuard i guard) := by
  rw [setGuard_eq hread]
  refine counted_reads h ?_
  have hset := countP_set_add Read.hasGuard { read with guard } hread
  have hold : read.hasGuard = true := hguard
  have hnew := Bool.toNat_le (Read.hasGuard { read with guard })
  have hguards := h.guards
  rw [hold, Bool.toNat_true] at hset
  omega

theorem counted_setNotified (h : Counted connectionUse stream) {i : Nat} {read : Read β δ}
    (hread : stream.reads[i]? = some read) : Counted connectionUse (stream.setNotified i) := by
  rw [setNotified_eq hread]
  refine counted_reads h ?_
  have hset := countP_set_add Read.hasGuard { read with notified := true } hread
  have hguards := h.guards
  change _ + read.hasGuard.toNat = _ + read.hasGuard.toNat at hset
  omega

/-- Without guards there is nothing to show about them. -/
theorem guards_of_countP_eq_zero {reads : List (Read β δ)}
    {P : Read β δ → StreamReadGuard β δ → Prop}
    (h : reads.countP Read.hasGuard = 0) :
    ∀ read ∈ reads, ∀ guard, read.guard = some guard → P read guard := by
  intro read hmem guard hguard
  have hnone := List.countP_eq_zero.mp h read hmem
  exact absurd (by simp [Read.hasGuard, hguard]) hnone

/-! ## Starting a read -/

/-- While no read is in progress no guard exists. -/
theorem countP_of_idle (h : Live stream) (hidle : stream.fields.readInProgress = false) :
    stream.reads.countP Read.isPending = 0 ∧ stream.reads.countP Read.hasGuard = 0 ∧
      stream.reads.countP Read.hasBody = 0 ∧ stream.reads.countP Read.hasDecoder = 0 := by
  have hpending : stream.reads.countP Read.isPending = 0 := by
    rw [h.pending, hidle, Bool.toNat_false]
  have hguard : ∀ read ∈ stream.reads, read.guard = none := by
    intro read hmem
    by_contra hguard
    obtain ⟨guard, hsome⟩ := Option.ne_none_iff_exists'.mp hguard
    have hnotified := (h.guards read hmem guard hsome).1
    exact absurd (by simp [Read.isPending, hnotified]) (List.countP_eq_zero.mp hpending read hmem)
  refine ⟨hpending, ?_, ?_, ?_⟩ <;> refine List.countP_eq_zero.mpr fun read hmem => ?_
  · simp [Read.hasGuard, hguard read hmem]
  · simp [Read.hasBody, hguard read hmem]
  · simp [Read.hasDecoder, hguard read hmem]

theorem ite_eq_toNat (b : Bool) : (if b then 1 else 0) = b.toNat := by cases b <;> rfl

/-- An idle stream gives what it has to the guard of a new read. -/
theorem live_push (h : Live stream) (hidle : stream.fields.readInProgress = false)
    {guard : StreamReadGuard β δ} {fields : StreamStateFields β δ} (howns : guard.Owns fields)
    (hbodies : fields.body.isSome.toNat + guard.body.isSome.toNat =
      stream.fields.body.isSome.toNat)
    (hdecoders : fields.decoded.isSome.toNat + guard.decoded.isSome.toNat =
      stream.fields.decoded.isSome.toNat)
    (hprogress : fields.readInProgress = true)
    (hlifecycle : fields.lifecycle = stream.fields.lifecycle)
    (hmode : fields.decodedMode = stream.fields.decodedMode) :
    Live { stream with fields, reads := stream.reads ++ [⟨some guard, false⟩] } := by
  obtain ⟨hpending, hguard, hbody, hdecoder⟩ := countP_of_idle h hidle
  have hlive := h.bodies
  have hlive' := h.decoders
  rw [hbody] at hlive
  rw [hdecoder] at hlive'
  refine ⟨?_, ?_, ?_, ?_, ?_⟩
  · rw [List.countP_append, hpending, hprogress]
    rfl
  · rw [List.countP_append, hbody, List.countP_singleton, hlifecycle]
    change fields.body.isSome.toNat + (0 + if guard.body.isSome then 1 else 0) = _
    rw [ite_eq_toNat]
    omega
  · rw [List.countP_append, hdecoder, List.countP_singleton, hmode]
    change fields.decoded.isSome.toNat + (0 + if guard.decoded.isSome then 1 else 0) = _
    rw [ite_eq_toNat]
    omega
  · rw [hlifecycle, hmode]
    exact h.transport
  · intro read hmem other hother
    rcases List.mem_append.mp hmem with hmem | hmem
    · exact absurd (by simp [Read.hasGuard, hother])
        (List.countP_eq_zero.mp hguard read hmem)
    · rw [List.mem_singleton] at hmem
      subst hmem
      rw [Option.some.injEq] at hother
      exact ⟨rfl, hother ▸ howns⟩

theorem counted_push (h : Sound connectionUse stream) (hlive : stream.fields.terminal = none)
    (hidle : stream.fields.readInProgress = false) (guard : StreamReadGuard β δ)
    {fields : StreamStateFields β δ} (hterminal : fields.terminal = none)
    (hpermit : fields.permit = stream.fields.permit)
    (hconnection : fields.connectionUse = stream.fields.connectionUse)
    (hlifecycle : fields.lifecycle = stream.fields.lifecycle) :
    Counted connectionUse
      { stream with fields, reads := stream.reads ++ [⟨some guard, false⟩] } := by
  have hfields := counted_fields h.counted hterminal hlive hpermit hconnection hlifecycle
  refine counted_reads hfields ?_
  rw [List.countP_append, (countP_of_idle (h.live hlive) hidle).2.1]
  exact Nat.le_refl 1

/-- A live stream has a body or a decoder to read, or an error to deliver. -/
theorem readable_of_idle (h : Live stream) (hidle : stream.fields.readInProgress = false) :
    (stream.fields.body.isNone && stream.fields.decoded.isNone) = false := by
  obtain ⟨-, -, hbody, hdecoder⟩ := countP_of_idle h hidle
  have hbodies := h.bodies
  have hdecoders := h.decoders
  rw [hbody] at hbodies
  rw [hdecoder] at hdecoders
  by_contra hnone
  rw [Bool.not_eq_false, Bool.and_eq_true, Option.isNone_iff_eq_none,
    Option.isNone_iff_eq_none] at hnone
  rw [hnone.1] at hbodies
  rw [hnone.2] at hdecoders
  cases hmode : stream.fields.decodedMode with
  | true => simp [hmode] at hdecoders
  | false => simp [h.transport hmode] at hbodies

/-- A guard that the fields give out is the guard of a new read. -/
theorem startRead_of_guard {coalescing : ReadyFrameCoalescing} {guard : StreamReadGuard β δ}
    {fields : StreamStateFields β δ}
    (h : stream.fields.startRead coalescing = (.ok (some guard), fields)) :
    stream.startRead coalescing =
      (.ok (some guard),
        { stream with fields, reads := stream.reads ++ [⟨some guard, false⟩] }) := by
  unfold Stream.startRead
  rw [h]

/-- Starting a read of a live stream moves the body and the decoder to a guard, or the error
that is left, or fails because a read is in progress.  It never ends the stream. -/
theorem startRead_of_open (h : Sound connectionUse stream)
    (hlive : stream.fields.terminal = none) (coalescing : ReadyFrameCoalescing) :
    (stream.startRead coalescing).1 ≠ .ok none ∧
      Sound connectionUse (stream.startRead coalescing).2 := by
  have live := h.live hlive
  cases hidle : stream.fields.readInProgress with
  | true =>
      have hfields : stream.fields.startRead coalescing =
          (.error (.fogHttpError readAlreadyInProgress), stream.fields) := by
        unfold StreamStateFields.startRead
        rw [hlive, hidle]
        rfl
      unfold Stream.startRead
      rw [hfields]
      exact ⟨by simp, h⟩
  | false =>
      cases herror : stream.fields.deferredBodyError with
      | some error =>
          have hfields : stream.fields.startRead coalescing =
              (.ok (some ⟨none, none, some error, coalescing⟩),
                { stream.fields with deferredBodyError := none, readInProgress := true }) := by
            simp [StreamStateFields.startRead, hlive, hidle, herror]
          rw [startRead_of_guard hfields]
          exact ⟨by simp, counted_push h hlive hidle _ hlive rfl rfl rfl, fun _ =>
            live_push live hidle ⟨by simp, by simp⟩ rfl rfl rfl rfl rfl⟩
      | none =>
          have hfields : stream.fields.startRead coalescing =
              (.ok (some ⟨stream.fields.body, stream.fields.decoded, none, coalescing⟩),
                { stream.fields with body := none, decoded := none, readInProgress := true }) := by
            have hreadable := readable_of_idle live hidle
            simp only [StreamStateFields.startRead, hlive, hidle, herror, hreadable]
            rfl
          rw [startRead_of_guard hfields]
          exact ⟨by simp, counted_push h hlive hidle _ hlive rfl rfl rfl, fun _ =>
            live_push live hidle ⟨by simp, by simp⟩ (Nat.zero_add _) (Nat.zero_add _) rfl rfl rfl⟩

/-- Starting a read of an ended stream changes nothing. -/
theorem startRead_of_ended (hended : stream.fields.terminal ≠ none)
    (coalescing : ReadyFrameCoalescing) : (stream.startRead coalescing).2 = stream := by
  obtain ⟨finish, hfinish⟩ := Option.ne_none_iff_exists'.mp hended
  unfold Stream.startRead StreamStateFields.startRead
  rw [hfinish]
  cases finish with
  | success => rfl
  | abort reason => cases stream.fields.decodedMode <;> rfl

/-! ## The sections of a guard -/

/-- Read `i` has the guard. -/
structure Holds (stream : Stream β δ) (i : Nat) (read : Read β δ) (guard : StreamReadGuard β δ) :
    Prop where
  found : stream.reads[i]? = some read
  held : read.guard = some guard

namespace Holds

variable {i : Nat} {read : Read β δ} {guard : StreamReadGuard β δ}

/-- The other reads have no guard. -/
theorem others (h : Holds stream i read guard) (hcounted : Counted connectionUse stream) :
    (stream.reads.set i { read with guard := none }).countP Read.hasGuard = 0 := by
  have hset := countP_set_add Read.hasGuard { read with guard := none } h.found
  have hold : read.hasGuard = true := by simp [Read.hasGuard, h.held]
  have hnew : Read.hasGuard (⟨none, read.notified⟩ : Read β δ) = false := rfl
  have hguards := hcounted.guards
  rw [hold, hnew, Bool.toNat_true, Bool.toNat_false] at hset
  omega

/-- The counts of the reads when the guard of read `i` changes. -/
theorem countP_set (h : Holds stream i read guard) (guard' : Option (StreamReadGuard β δ)) :
    (stream.reads.set i { read with guard := guard' }).countP Read.isPending =
        stream.reads.countP Read.isPending ∧
      (stream.reads.set i { read with guard := guard' }).countP Read.hasBody +
          guard.body.isSome.toNat =
        stream.reads.countP Read.hasBody + (guard'.any fun guard => guard.body.isSome).toNat ∧
      (stream.reads.set i { read with guard := guard' }).countP Read.hasDecoder +
          guard.decoded.isSome.toNat =
        stream.reads.countP Read.hasDecoder +
          (guard'.any fun guard => guard.decoded.isSome).toNat := by
  have hpending := countP_set_add Read.isPending { read with guard := guard' } h.found
  have hbody := countP_set_add Read.hasBody { read with guard := guard' } h.found
  have hdecoder := countP_set_add Read.hasDecoder { read with guard := guard' } h.found
  refine ⟨?_, ?_, ?_⟩
  · change _ + read.isPending.toNat = _ + read.isPending.toNat at hpending
    omega
  · simpa [Read.hasBody, h.held] using hbody
  · simpa [Read.hasDecoder, h.held] using hdecoder

/-- The guard of a live stream waits for its callback and owns what the fields have not. -/
theorem owns (h : Holds stream i read guard) (live : Live stream) : guard.Owns stream.fields :=
  (live.guards read (List.mem_of_getElem? h.found) guard h.held).2

/-- A guard with a body or a decoder left none in the fields. -/
theorem taken (h : Holds stream i read guard) (live : Live stream)
    (hsome : guard.body.isSome = true ∨ guard.decoded.isSome = true) :
    stream.fields.body = none ∧ stream.fields.decoded = none := by
  have howns := h.owns live
  refine howns.taken ?_
  by_contra herror
  obtain ⟨hbody, hdecoded⟩ := howns.deferred herror
  simp [hbody, hdecoded] at hsome

/-- A guard that goes gives its body and its decoder to the fields, or to nobody. -/
theorem live_release (h : Holds stream i read guard) (hcounted : Counted connectionUse stream)
    (live : Live stream) {fields : StreamStateFields β δ}
    (hbodies : fields.body.isSome.toNat + stream.fields.lifecycle.toNat =
      stream.fields.body.isSome.toNat + guard.body.isSome.toNat + fields.lifecycle.toNat)
    (hdecoders : fields.decoded.isSome.toNat =
      stream.fields.decoded.isSome.toNat + guard.decoded.isSome.toNat)
    (hprogress : fields.readInProgress = stream.fields.readInProgress)
    (hmode : fields.decodedMode = stream.fields.decodedMode)
    (htransport : fields.decodedMode = false → fields.lifecycle = true) :
    Live { stream.setGuard i none with fields } := by
  obtain ⟨hpending, hbody, hdecoder⟩ := h.countP_set none
  have hlive := live.bodies
  have hlive' := live.decoders
  have hcount := live.pending
  rw [setGuard_eq h.found]
  simp only [Option.any_none, Bool.toNat_false, Nat.add_zero] at hbody hdecoder
  refine ⟨?_, ?_, ?_, htransport, guards_of_countP_eq_zero (h.others hcounted)⟩
  · rw [hpending, hprogress, hcount]
  · change fields.body.isSome.toNat + (stream.reads.set i _).countP _ = fields.lifecycle.toNat
    omega
  · change fields.decoded.isSome.toNat + (stream.reads.set i _).countP _ =
      fields.decodedMode.toNat
    rw [hmode]
    omega

end Holds

end FogHttp.Streams
