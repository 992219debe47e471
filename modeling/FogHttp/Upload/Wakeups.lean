import FogHttp.Lib.Positions
import FogHttp.Upload.Feeders

/-!
# No missed wakeup of a feeder

A feeder suspends when its channel was full and open at its send and the event is
still clear.  The loop thread executes nothing else from `ready.clear()` on, so no set
since then was cleared again.  Whoever has made room or closed the channel has set the
event, has a set in the queue of the loop, or is about to call the ready callback.

`Feeder.Served` is this invariant for one feeder.  A section on its channel either
keeps the channel full and open or leaves a party that is about to notify.  A
notification sets the event or schedules the set, and a set reaches every suspended
feeder.  The last point rests on `Served` itself: `asyncio.Event.set` does nothing
when the event is set already, and then nobody is suspended.

Closing the loop drops the scheduled sets, and later callbacks do nothing, so the
invariant speaks of an open loop.
-/

namespace FogHttp.RequestBody

open Lib

/-! ## One feeder -/

/-- The channel accepts nothing and is not closed. -/
def UploadBodyChannel.Blocked (channel : UploadBodyChannel) : Prop :=
  channel.capacity ≤ channel.queue.length ∧ channel.closed = false

/-- A party that has popped from channel `i` or aborted it will set the event. -/
def AsyncUpload.Attended (upload : AsyncUpload) (i : Nat) : Prop :=
  i ∈ upload.notifying ∨ i ∈ upload.scheduled

/-- The channel of a feeder that waits is blocked, or the feeder will be woken. -/
def Feeder.Served (feeder : Feeder) (ready : Bool) (attended : Prop) : Prop :=
  match feeder.stage with
  | .checking _ =>
      feeder.channel.closed = true ∨ ready = true ∨ feeder.channel.Blocked ∨ attended
  | .waiting _ => ready = true ∨ feeder.channel.Blocked ∨ attended
  | .suspended _ false => ready = false ∧ (feeder.channel.Blocked ∨ attended)
  | _ => True

/-- The last call returned `False`, so the channel is closed. -/
def Feeder.Exited (feeder : Feeder) : Prop :=
  feeder.stage = .returned (some false) → feeder.channel.closed = true

namespace Feeder

variable {feeder after : Feeder} {ready ready' : Bool} {attended attended' : Prop}

/-- A feeder that stays where it is stays served when its channel stays closed, and stays
blocked or gets a notification. -/
theorem Served.mono (h : feeder.Served ready attended) (hstage : after.stage = feeder.stage)
    (hclosed : feeder.channel.closed = true → after.channel.closed = true)
    (hblocked : feeder.channel.Blocked ∨ attended → after.channel.Blocked ∨ attended') :
    after.Served ready attended' := by
  unfold Served at h ⊢
  rw [hstage]
  cases hcase : feeder.stage with
  | checking call =>
      rw [hcase] at h
      exact h.imp hclosed (Or.imp_right hblocked)
  | waiting call =>
      rw [hcase] at h
      exact h.imp_right hblocked
  | suspended call delivered =>
      rw [hcase] at h
      cases delivered with
      | false => exact ⟨h.1, hblocked h.2⟩
      | true => trivial
  | _ => trivial

/-- Any further notification keeps a feeder served. -/
theorem Served.imp (h : feeder.Served ready attended) (hattended : attended → attended') :
    feeder.Served ready attended' :=
  h.mono rfl id (Or.imp_right hattended)

/-- The event may be cleared while the feeder does not run. -/
theorem Served.clear (h : feeder.Served ready attended) (hruns : feeder.stage.runs = false) :
    feeder.Served false attended := by
  unfold Served at h ⊢
  split at h
  · rename_i call hstage
    rw [hstage] at hruns
    cases hruns
  · rename_i call hstage
    rw [hstage] at hruns
    cases hruns
  · exact ⟨rfl, h.2⟩
  · trivial

/-- A feeder is served while the event is set, unless it is suspended. -/
theorem served_of_set (hstage : ∀ call, feeder.stage ≠ .suspended call false) :
    feeder.Served true attended := by
  unfold Served
  split
  · exact Or.inr (Or.inl rfl)
  · exact Or.inl rfl
  · rename_i call hsuspended
    exact absurd hsuspended (hstage call)
  · trivial

/-- Nobody is suspended while the event is set. -/
theorem Served.not_suspended (h : feeder.Served true attended) (call : FeederCall) :
    feeder.stage ≠ .suspended call false := by
  intro hstage
  unfold Served at h
  rw [hstage] at h
  exact absurd h.1 (by decide)

theorem deliver_not_suspended (call : FeederCall) :
    feeder.deliver.stage ≠ .suspended call false := by
  unfold deliver
  split
  · simp
  · rename_i hstage
    exact hstage call false

theorem deliver_runs (feeder : Feeder) : feeder.deliver.stage.runs = feeder.stage.runs := by
  unfold deliver
  split
  · rename_i call delivered hstage
    rw [hstage]
    rfl
  · rfl

theorem Exited.deliver (h : feeder.Exited) : feeder.deliver.Exited := by
  unfold Feeder.deliver
  split
  · exact nofun
  · exact h

/-! ## Sections on a channel -/

/-- A section of another party keeps the stage and a closed channel, and it leaves a blocked
channel blocked or calls the ready callback. -/
structure Section (feeder : Feeder) (section_ : Bool × Feeder) : Prop where
  stage : section_.2.stage = feeder.stage
  closed : feeder.channel.closed = true → section_.2.channel.closed = true
  blocked : feeder.channel.Blocked → section_.1 = true ∨ section_.2.channel.Blocked

theorem section_poll (feeder : Feeder) : feeder.Section feeder.poll := by
  unfold poll UploadBodyChannel.pollRecv
  cases hqueue : feeder.channel.queue with
  | cons item rest => exact ⟨rfl, id, fun _ => Or.inl rfl⟩
  | nil =>
      cases hclosed : feeder.channel.closed with
      | true => exact ⟨rfl, fun _ => hclosed, Or.inr⟩
      | false => exact ⟨rfl, id, Or.inr⟩

theorem section_abort (feeder : Feeder) : feeder.Section feeder.abort := by
  unfold abort UploadBodyChannel.abort
  cases hclosed : feeder.channel.closed with
  | true => exact ⟨rfl, fun _ => hclosed, Or.inr⟩
  | false => exact ⟨rfl, fun _ => rfl, fun _ => Or.inl rfl⟩

theorem Served.section {section_ : Bool × Feeder} (h : feeder.Served ready attended)
    (hsection : feeder.Section section_) (hattended : attended → attended')
    (hcallback : section_.1 = true → attended') : section_.2.Served ready attended' := by
  refine h.mono hsection.stage hsection.closed ?_
  rintro (hblocked | hpending)
  · exact (hsection.blocked hblocked).symm.imp_right hcallback
  · exact Or.inr (hattended hpending)

theorem Exited.section {section_ : Bool × Feeder} (h : feeder.Exited)
    (hsection : feeder.Section section_) : section_.2.Exited :=
  fun hstage => hsection.closed (h (hsection.stage.symm.trans hstage))

end Feeder

/-! ## The own sections of a feeder -/

theorem UploadBodyChannel.push?_refused {channel : UploadBodyChannel} {item : UploadBodyItem}
    {final : Bool} {accepted closed : After} {full : Option After} {acted : Acted}
    (haccepted : accepted ≠ .returns (some false))
    (h : channel.push? item final accepted closed full = some acted)
    (hafter : acted.after = .returns (some false)) :
    acted.channel.closed = true ∨ acted.channel.Blocked := by
  unfold UploadBodyChannel.push? UploadBodyChannel.send at h
  cases hclosed : channel.closed with
  | true =>
      simp only [hclosed, if_true, Option.some.injEq] at h
      subst h
      exact Or.inl hclosed
  | false =>
      by_cases hfull : channel.queue.length ≥ channel.capacity
      · simp only [hclosed, hfull, if_true, Bool.false_eq_true, if_false,
          Option.map_eq_some_iff] at h
        obtain ⟨after, -, rfl⟩ := h
        exact Or.inr ⟨hfull, hclosed⟩
      · simp only [hclosed, hfull, Bool.false_eq_true, if_false, Option.some.injEq] at h
        subst h
        exact absurd hafter haccepted

/-- A send that returns `False` found the channel closed or blocked. -/
theorem FeederCall.act_refused {call : FeederCall} {channel : UploadBodyChannel} {acted : Acted}
    (h : call.method.act channel = some acted) (hafter : acted.after = .returns (some false)) :
    acted.channel.closed = true ∨ acted.channel.Blocked := by
  cases call with
  | fail message => exact UploadBodyChannel.push?_refused (by simp) h hafter
  | send chunk final =>
      cases chunk with
      | cons byte bytes =>
          cases final with
          | false => exact UploadBodyChannel.push?_refused (by simp) h hafter
          | true => exact UploadBodyChannel.push?_refused (by simp) h hafter
      | nil =>
          cases final with
          | false =>
              simp only [FeederCall.method, Method.act, Option.some.injEq] at h
              subst h
              exact Or.inl (by simpa using hafter)
          | true =>
              simp only [FeederCall.method, Method.act, Option.some.injEq] at h
              subst h
              exact Or.inl channel.finish_closed

namespace Feeder

variable {feeder after : Feeder} {ready ready' : Bool} {attended : Prop}

/-- After its method a feeder has a result, or it looks whether a refusing channel is closed. -/
theorem served_afterMethod {call : FeederCall} {channel : UploadBodyChannel} {acted : Acted}
    (h : call.method.act channel = some acted) :
    (⟨acted.channel, call.afterMethod acted.after⟩ : Feeder).Served ready attended ∧
      (⟨acted.channel, call.afterMethod acted.after⟩ : Feeder).Exited := by
  have hrefused := FeederCall.act_refused h
  unfold FeederCall.afterMethod
  split
  · rename_i hafter
    refine ⟨?_, by simp [Exited]⟩
    exact (hrefused hafter).imp_right fun hblocked => Or.inr (Or.inl hblocked)
  · split
    · exact ⟨trivial, by simp [Exited]⟩
    · exact ⟨trivial, by simp [Exited]⟩
    · exact ⟨trivial, by simp [Exited]⟩
  · exact ⟨trivial, by simp [Exited]⟩
  · exact ⟨trivial, by simp [Exited]⟩

/-- A section of a feeder keeps it served, and only clears the event. -/
theorem Served.next (h : feeder.Served ready attended)
    (hnext : feeder.next ready = some (ready', after)) :
    after.Served ready' attended ∧ after.Exited ∧ (ready' = ready ∨ ready' = false) := by
  obtain ⟨channel, stage⟩ := feeder
  cases stage with
  | returned result => simp [Feeder.next] at hnext
  | clearing call =>
      simp only [Feeder.next, Option.some.injEq, Prod.mk.injEq] at hnext
      obtain ⟨rfl, rfl⟩ := hnext
      exact ⟨trivial, by simp [Exited], Or.inr rfl⟩
  | sending call =>
      simp only [Feeder.next, Option.map_eq_some_iff, Prod.mk.injEq] at hnext
      obtain ⟨acted, hacted, rfl, rfl⟩ := hnext
      obtain ⟨hserved, hexited⟩ := served_afterMethod hacted
      exact ⟨hserved, hexited, Or.inl rfl⟩
  | finishing call =>
      simp only [Feeder.next, Option.some.injEq, Prod.mk.injEq] at hnext
      obtain ⟨rfl, rfl⟩ := hnext
      exact ⟨trivial, by simp [Exited], Or.inl rfl⟩
  | checking call =>
      cases hclosed : channel.closed with
      | true =>
          simp only [Feeder.next, hclosed, if_true, Option.some.injEq, Prod.mk.injEq] at hnext
          obtain ⟨rfl, rfl⟩ := hnext
          exact ⟨by cases call <;> trivial, fun _ => hclosed, Or.inl rfl⟩
      | false =>
          simp only [Feeder.next, hclosed, Bool.false_eq_true, if_false, Option.some.injEq,
            Prod.mk.injEq] at hnext
          obtain ⟨rfl, rfl⟩ := hnext
          exact ⟨h.resolve_left (by simp [hclosed]), by simp [Exited], Or.inl rfl⟩
  | waiting call =>
      cases ready with
      | true =>
          simp only [Feeder.next, if_true, Option.some.injEq, Prod.mk.injEq] at hnext
          obtain ⟨rfl, rfl⟩ := hnext
          exact ⟨trivial, by simp [Exited], Or.inl rfl⟩
      | false =>
          simp only [Feeder.next, Bool.false_eq_true, if_false, Option.some.injEq,
            Prod.mk.injEq] at hnext
          obtain ⟨rfl, rfl⟩ := hnext
          exact ⟨⟨rfl, h.resolve_left (by simp)⟩, by simp [Exited], Or.inl rfl⟩
  | suspended call delivered =>
      cases delivered with
      | false => simp [Feeder.next] at hnext
      | true =>
          simp only [Feeder.next, Option.some.injEq, Prod.mk.injEq] at hnext
          obtain ⟨rfl, rfl⟩ := hnext
          exact ⟨trivial, by simp [Exited], Or.inl rfl⟩
  | sleeping =>
      simp only [Feeder.next, Option.some.injEq, Prod.mk.injEq] at hnext
      obtain ⟨rfl, rfl⟩ := hnext
      exact ⟨trivial, by simp [Exited], Or.inl rfl⟩

end Feeder

namespace Feeder

variable {feeder after : Feeder}

/-- The feeder does not wait for anything. -/
def Quiet (feeder : Feeder) : Prop :=
  (∀ (ready : Bool) (attended : Prop), feeder.Served ready attended) ∧ feeder.Exited

theorem quiet_call {call : FeederCall} (h : feeder.call call = some after) : after.Quiet := by
  unfold Feeder.call at h
  split at h
  · rw [Option.some.injEq] at h
    subst h
    exact ⟨fun _ _ => trivial, nofun⟩
  · cases h

theorem quiet_finish (h : feeder.finish = some after) : after.Quiet := by
  unfold Feeder.finish at h
  split at h
  · rename_i result hstage
    rw [Option.some.injEq] at h
    subst h
    refine ⟨fun _ _ => ?_, fun _ => feeder.channel.finish_closed⟩
    unfold Served
    rw [hstage]
    trivial
  · cases h

theorem quiet_cancel (h : feeder.cancel = some after) : after.Quiet := by
  unfold Feeder.cancel at h
  split at h
  · rw [Option.some.injEq] at h
    subst h
    exact ⟨fun _ _ => trivial, nofun⟩
  · rw [Option.some.injEq] at h
    subst h
    exact ⟨fun _ _ => trivial, nofun⟩
  · cases h

end Feeder

/-! ## All feeders -/

namespace AsyncUpload

/-- Only one feeder runs, a feeder that returned `False` has a closed channel, and while the
loop is open every feeder is served. -/
structure Attentive (upload : AsyncUpload) : Prop where
  runs : ∀ (i : Nat) (feeder : Feeder), upload.feeders[i]? = some feeder →
    feeder.stage.runs = true → upload.running = some i
  exited : ∀ (i : Nat) (feeder : Feeder), upload.feeders[i]? = some feeder → feeder.Exited
  served : upload.loopClosed = false → ∀ (i : Nat) (feeder : Feeder),
    upload.feeders[i]? = some feeder → feeder.Served upload.ready (upload.Attended i)

variable {upload next : AsyncUpload} {i : Nat} {feeder after : Feeder}

theorem attentive_new : Attentive new where
  runs := by simp [new]
  exited := by simp [new]
  served := by simp [new]

/-- No other feeder runs when the loop thread takes this one. -/
theorem Attentive.idle (h : Attentive upload) (hrun : upload.mayRun i = true) {j : Nat}
    {other : Feeder} (hother : upload.feeders[j]? = some other) (hne : j ≠ i) :
    other.stage.runs = false := by
  cases hruns : other.stage.runs with
  | false => rfl
  | true =>
      have hrunning := h.runs j other hother hruns
      simp only [mayRun, hrunning, Bool.and_eq_true, Option.all_some, beq_iff_eq] at hrun
      exact absurd hrun.2 hne

theorem mayRun_of_isFree (h : upload.isFree = true) (i : Nat) : upload.mayRun i = true := by
  simp only [isFree, Bool.and_eq_true, Option.isNone_iff_eq_none] at h
  simp [mayRun, h.1, h.2]

/-- A step of feeder `i` on the loop thread, which may clear the event. -/
theorem Attentive.onLoop (h : Attentive upload) (hrun : upload.mayRun i = true) {ready : Bool}
    (hready : ready = upload.ready ∨ ready = false)
    (hserved : upload.loopClosed = false → after.Served ready (upload.Attended i))
    (hexited : after.Exited) : Attentive ({ upload with ready }.onLoop i after) where
  runs j other hother hruns := by
    rcases getElem?_set_cases hother with ⟨rfl, rfl⟩ | ⟨hne, hother⟩
    · simp [AsyncUpload.onLoop, hruns]
    · rw [h.idle hrun hother hne] at hruns
      cases hruns
  exited j other hother := by
    rcases getElem?_set_cases hother with ⟨rfl, rfl⟩ | ⟨hne, hother⟩
    · exact hexited
    · exact h.exited j other hother
  served hopen j other hother := by
    rcases getElem?_set_cases hother with ⟨rfl, rfl⟩ | ⟨hne, hother⟩
    · exact hserved hopen
    · have hbefore := h.served hopen j other hother
      rcases hready with rfl | rfl
      · exact hbefore
      · exact hbefore.clear (h.idle hrun hother hne)

/-- A feeder takes the loop thread and does not wait afterwards. -/
theorem Attentive.turn (h : Attentive upload) {change : Feeder → Option Feeder}
    (hquiet : ∀ {feeder after : Feeder}, change feeder = some after → after.Quiet)
    (hstep : upload.turn i change = some next) : Attentive next := by
  simp only [AsyncUpload.turn, Option.bind_eq_bind, Option.bind_eq_some_iff,
    Option.ite_none_right_eq_some, Option.some.injEq] at hstep
  obtain ⟨feeder, hi, after, hafter, hfree, rfl⟩ := hstep
  obtain ⟨hserved, hexited⟩ := hquiet hafter
  exact h.onLoop (mayRun_of_isFree hfree i) (Or.inl rfl) (fun _ => hserved _ _) hexited

/-- A section of another party on channel `i`. -/
theorem Attentive.onChannel (h : Attentive upload) (hi : upload.feeders[i]? = some feeder)
    {section_ : Bool × Feeder} (hsection : feeder.Section section_) :
    Attentive (upload.onChannel i section_) := by
  have hattended : ∀ j, upload.Attended j → (upload.onChannel i section_).Attended j := by
    rintro j (hnotifying | hscheduled)
    · left
      show j ∈ if section_.1 then upload.notifying ++ [i] else upload.notifying
      split
      · exact List.mem_append_left _ hnotifying
      · exact hnotifying
    · exact Or.inr hscheduled
  have hcallback : section_.1 = true → (upload.onChannel i section_).Attended i := by
    intro hcalls
    left
    simp [AsyncUpload.onChannel, hcalls]
  constructor
  · intro j other hother hruns
    rcases getElem?_set_cases hother with ⟨rfl, rfl⟩ | ⟨hne, hother⟩
    · exact h.runs j feeder hi (hsection.stage ▸ hruns)
    · exact h.runs j other hother hruns
  · intro j other hother
    rcases getElem?_set_cases hother with ⟨rfl, rfl⟩ | ⟨hne, hother⟩
    · exact (h.exited j feeder hi).section hsection
    · exact h.exited j other hother
  · intro hopen j other hother
    rcases getElem?_set_cases hother with ⟨rfl, rfl⟩ | ⟨hne, hother⟩
    · exact (h.served hopen j feeder hi).section hsection (hattended j) hcallback
    · exact (h.served hopen j other hother).imp (hattended j)

/-- `ready.set()` serves everybody, whatever notification it takes away. -/
theorem Attentive.set (h : Attentive upload) (notifying scheduled : List Nat) :
    Attentive { upload with notifying, scheduled }.set := by
  by_cases hready : upload.ready = true
  · rw [AsyncUpload.set, if_pos hready]
    refine ⟨h.runs, h.exited, fun hopen j other hother => ?_⟩
    have hserved := h.served hopen j other hother
    rw [hready] at hserved
    show other.Served upload.ready _
    rw [hready]
    exact Feeder.served_of_set hserved.not_suspended
  · rw [AsyncUpload.set, if_neg hready]
    have hold : ∀ {j : Nat} {other : Feeder},
        (upload.feeders.map Feeder.deliver)[j]? = some other →
          ∃ old, upload.feeders[j]? = some old ∧ old.deliver = other := by
      intro j other hother
      rwa [List.getElem?_map, Option.map_eq_some_iff] at hother
    refine ⟨fun j other hother hruns => ?_, fun j other hother => ?_,
      fun hopen j other hother => ?_⟩
    · obtain ⟨old, hold, rfl⟩ := hold hother
      exact h.runs j old hold (old.deliver_runs ▸ hruns)
    · obtain ⟨old, hold, rfl⟩ := hold hother
      exact (h.exited j old hold).deliver
    · obtain ⟨old, hold, rfl⟩ := hold hother
      exact Feeder.served_of_set Feeder.deliver_not_suspended

/-- A call of the ready callback sets the event, or its notification goes to the loop. -/
theorem Attentive.notifyReady (h : Attentive upload) {j : Nat}
    (hj : upload.notifying[j]? = some i) (onLoopThread : Bool) :
    Attentive ({ upload with notifying := upload.notifying.eraseIdx j }.notifyReady i
      onLoopThread) := by
  unfold AsyncUpload.notifyReady
  split
  · rename_i hclosed
    exact ⟨h.runs, h.exited, fun hopen => absurd hclosed (by simpa using hopen)⟩
  · split
    · exact h.set (upload.notifying.eraseIdx j) upload.scheduled
    · refine ⟨h.runs, h.exited, fun hopen k other hother => ?_⟩
      refine (h.served hopen k other hother).imp ?_
      rintro (hnotifying | hscheduled)
      · by_cases hk : k = i
        · exact Or.inr (List.mem_append_right _ (List.mem_singleton.mpr hk))
        · exact Or.inl (mem_eraseIdx_of_ne hj hnotifying hk)
      · exact Or.inr (List.mem_append_left _ hscheduled)

/-- Every step keeps all feeders served. -/
theorem attentive_step {capacity : Nat} {event : Event} (h : Attentive upload)
    (hstep : step capacity upload event = some next) : Attentive next := by
  cases event with
  | start =>
      simp only [step, Option.some.injEq] at hstep
      subst hstep
      refine ⟨fun j other hother hruns => ?_, fun j other hother => ?_,
        fun hopen j other hother => ?_⟩
      · rcases getElem?_push_cases hother with hother | ⟨rfl, rfl⟩
        · exact h.runs j other hother hruns
        · cases hruns
      · rcases getElem?_push_cases hother with hother | ⟨rfl, rfl⟩
        · exact h.exited j other hother
        · exact nofun
      · rcases getElem?_push_cases hother with hother | ⟨rfl, rfl⟩
        · exact h.served hopen j other hother
        · trivial
  | call i call => exact h.turn Feeder.quiet_call hstep
  | feeder i =>
      simp only [step, Option.bind_eq_bind, Option.bind_eq_some_iff,
        Option.ite_none_right_eq_some, Option.some.injEq] at hstep
      obtain ⟨feeder, hi, ⟨ready, after⟩, hnext, hrun, rfl⟩ := hstep
      have hopen : upload.loopClosed = false := by
        simp only [mayRun, Bool.and_eq_true, Bool.not_eq_true'] at hrun
        exact hrun.1
      obtain ⟨hserved, hexited, hready⟩ := (h.served hopen i feeder hi).next hnext
      exact h.onLoop hrun hready (fun _ => hserved) hexited
  | finish i => exact h.turn Feeder.quiet_finish hstep
  | cancel i => exact h.turn Feeder.quiet_cancel hstep
  | poll i =>
      simp only [step, Option.map_eq_some_iff] at hstep
      obtain ⟨feeder, hi, rfl⟩ := hstep
      exact h.onChannel hi feeder.section_poll
  | abort i =>
      simp only [step, Option.map_eq_some_iff] at hstep
      obtain ⟨feeder, hi, rfl⟩ := hstep
      exact h.onChannel hi feeder.section_abort
  | notify j onLoopThread =>
      simp only [step, Option.map_eq_some_iff] at hstep
      obtain ⟨i, hj, rfl⟩ := hstep
      exact h.notifyReady hj onLoopThread
  | scheduled =>
      simp only [step] at hstep
      split at hstep
      · rename_i first rest hscheduled
        simp only [Option.ite_none_right_eq_some, Option.some.injEq] at hstep
        obtain ⟨-, rfl⟩ := hstep
        exact h.set upload.notifying rest
      · cases hstep
  | closeLoop =>
      simp only [step, Option.ite_none_right_eq_some, Option.some.injEq] at hstep
      obtain ⟨-, rfl⟩ := hstep
      exact ⟨h.runs, h.exited, nofun⟩

theorem attentive_of_reachable {capacity : Nat} (h : (system capacity).Reachable upload) :
    Attentive upload :=
  h.invariant Attentive attentive_new fun _ => attentive_step

/-- A feeder that is suspended while no set is delivered to it, scheduled or about to be called
for its channel has a full and open channel, and a feeder that returned `False` has a closed
one.  The loop is open, so the ready callback sets the event or schedules the set. -/
theorem async_feeder_never_misses_wakeup {capacity : Nat}
    (hreachable : (system capacity).Reachable upload) (hi : upload.feeders[i]? = some feeder) :
    (∀ call, feeder.stage = .suspended call false → upload.loopClosed = false →
      i ∉ upload.scheduled → i ∉ upload.notifying →
        feeder.channel.capacity ≤ feeder.channel.queue.length ∧
          feeder.channel.closed = false) ∧
      (feeder.stage = .returned (some false) → feeder.channel.closed = true) := by
  have hattentive := attentive_of_reachable hreachable
  refine ⟨fun call hstage hopen hscheduled hnotifying => ?_, hattentive.exited i feeder hi⟩
  have hserved := hattentive.served hopen i feeder hi
  unfold Feeder.Served at hserved
  rw [hstage] at hserved
  rcases hserved.2 with hblocked | hattended
  · exact hblocked
  · rcases hattended with hmem | hmem
    · exact absurd hmem hnotifying
    · exact absurd hmem hscheduled

/-! Two attempts with room for one chunk.  Both feeders suspend at their second chunk.  The first
channel is aborted from another thread, and the set wakes both: the first feeder returns `False`,
and the second one suspends again. -/

namespace WakeupExample

def blockedEvents : List Event :=
  [.start, .start, .call 0 (.send [1] false), .feeder 0, .feeder 0,
    .call 0 (.send [2] false), .feeder 0, .feeder 0, .feeder 0, .feeder 0,
    .call 1 (.send [3] false), .feeder 1, .feeder 1,
    .call 1 (.send [4] false), .feeder 1, .feeder 1, .feeder 1, .feeder 1]

def events : List Event :=
  blockedEvents ++ [.abort 0, .notify 0 false, .scheduled, .feeder 0, .feeder 0, .feeder 0,
    .feeder 0, .feeder 1, .feeder 1, .feeder 1, .feeder 1, .feeder 1]

theorem async_feeder_never_misses_wakeup_example :
    ∃ upload first second, (system 1).run events = some upload ∧
      upload.feeders = [first, second] ∧
      first.stage = .returned (some false) ∧ first.channel.closed = true ∧
      second.stage = .suspended (.send [4] false) false ∧
      second.channel.capacity ≤ second.channel.queue.length ∧ second.channel.closed = false := by
  obtain ⟨upload, hrun⟩ : ∃ upload, (system 1).run events = some upload := ⟨_, rfl⟩
  have hreachable := TransitionSystem.reachable_of_run hrun
  have hfirst := @async_feeder_never_misses_wakeup upload 0
  have hsecond := @async_feeder_never_misses_wakeup upload 1
  obtain rfl := Option.some.inj hrun
  exact ⟨_, _, _, hrun, rfl, rfl, (hfirst hreachable rfl).2 rfl, rfl,
    (hsecond hreachable rfl).1 _ rfl rfl (by decide) (by decide)⟩

end WakeupExample

end AsyncUpload

end FogHttp.RequestBody
