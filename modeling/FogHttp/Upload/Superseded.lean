import FogHttp.Upload.Isolation

/-!
# Isolation of replayed uploads

`Superseded` says that the channels before an attempt are closed once its start
callback runs.  It needs a condition.  `reset_channel` closes the previous channel
through the sender that it finds with the owner.  When `fail` has taken this sender
out and still waits for room, there is none, and the old channel stays open
(`stale_send_accepted`).  `resetsSafely` is the condition on a step that excludes
it.

`replay_isolation` is the result for runs that meet it: a receiver yields what was
sent for its own attempt, the handles of earlier attempts are rejected, and a body
that is not replayable is handed out once.
-/

namespace FogHttp.RequestBody

open Lib

/-! ## Superseded attempts -/

namespace RawUploadBody

/-- The channel is closed, or there is none. -/
def isClosed (body : RawUploadBody) (k : Nat) : Bool :=
  body.channels[k]?.all fun entry => entry.channel.closed

/-- When `take_receiver` resets the channel, the owner still holds the sender of
every channel that is open. -/
def resetsSafely (body : RawUploadBody) : Event → Bool
  | .takeSection i =>
      match body.takes[i]? with
      | some ⟨.owner, .start⟩ =>
          !(body.receiver.isNone && body.replayable) ||
            (List.range body.channels.length).all fun k =>
              body.isClosed k || body.sender == some k
      | _ => true
  | _ => true

end RawUploadBody

/-- The channels before an attempt are closed, or its call closes them next. -/
def Superseded (body : RawUploadBody) : Prop :=
  ∀ take ∈ body.takes,
    (∀ receiver attempt previous, take.stage = .closing receiver attempt previous →
      ∀ j < attempt, body.isClosed j = true ∨ previous = some j) ∧
    ∀ attempt, take.stage.attempt? = some attempt → ∀ j < attempt, body.isClosed j = true

/-- A channel that changes stays closed. -/
theorem isClosed_onChannel {body : RawUploadBody} {k : Nat}
    {change : AttemptChannel → AttemptChannel}
    (hchange : ∀ entry, body.channels[k]? = some entry → entry.channel.closed = true →
      (change entry).channel.closed = true)
    {j : Nat} (h : body.isClosed j = true) : (body.onChannel k change).isClosed j = true := by
  rw [RawUploadBody.isClosed, Option.all_eq_true] at h ⊢
  intro entry hentry
  rw [RawUploadBody.onChannel, List.getElem?_modify] at hentry
  obtain ⟨old, hold, rfl⟩ := Option.map_eq_some_iff.mp hentry
  by_cases hsame : k = j
  · subst hsame
    rw [if_pos rfl]
    exact hchange old hold (h old hold)
  · rw [if_neg hsame]
    exact h old hold

theorem isClosed_close {body : RawUploadBody} {k j : Nat}
    (h : body.isClosed j = true ∨ k = j) : (body.close k).isClosed j = true := by
  rcases h with hclosed | rfl
  · exact isClosed_onChannel (fun entry _ _ => entry.channel.abort_closed) hclosed
  · rw [RawUploadBody.isClosed, Option.all_eq_true]
    intro entry hentry
    rw [RawUploadBody.close, RawUploadBody.onChannel, List.getElem?_modify] at hentry
    obtain ⟨old, hold, rfl⟩ := Option.map_eq_some_iff.mp hentry
    rw [if_pos rfl]
    exact old.channel.abort_closed

theorem isClosed_dropReceiver {body : RawUploadBody} {k j : Nat} (h : body.isClosed j = true) :
    (body.dropReceiver k).isClosed j = true :=
  isClosed_onChannel (fun entry _ _ => entry.channel.abort_closed) h

theorem isClosed_giveReceiver {body : RawUploadBody} {k j : Nat} {holder : ReceiverHolder}
    (h : body.isClosed j = true) : (body.giveReceiver k holder).isClosed j = true := by
  apply isClosed_onChannel _ h
  intro entry _ hclosed
  exact hclosed

theorem isClosed_poll {body : RawUploadBody} {k j : Nat} (h : body.isClosed j = true) :
    (body.onChannel k RawUploadBody.poll).isClosed j = true := by
  apply isClosed_onChannel _ h
  intro entry _ hclosed
  rw [RawUploadBody.poll, UploadBodyChannel.pollRecv]
  cases hqueue : entry.channel.queue with
  | nil =>
      rw [if_pos hclosed]
      exact hclosed
  | cons item rest => exact hclosed

/-- A section of a method call leaves closed channels closed. -/
theorem callSection_closed {body after : RawUploadBody} {call : Call} {stage : Stage}
    (h : body.callSection call = some (stage, after)) :
    after.takes = body.takes ∧ ∀ j, body.isClosed j = true → after.isClosed j = true := by
  have hlookup : ∀ takes, (body.lookup takes call.handle).2.takes = body.takes ∧
      (body.lookup takes call.handle).2.channels = body.channels := by
    intro takes
    cases call.handle <;> cases takes <;> exact ⟨rfl, rfl⟩
  have hsame : ∀ found : RawUploadBody, found.channels = body.channels →
      ∀ j, body.isClosed j = true → found.isClosed j = true := by
    intro found hchannels j hclosed
    rw [RawUploadBody.isClosed, hchannels]
    exact hclosed
  unfold RawUploadBody.callSection at h
  split at h
  case h_1 =>
    obtain ⟨htakes, hchannels⟩ := hlookup call.method.takesSender
    split at h <;> rename_i heq <;> cases h <;> rw [heq] at htakes hchannels
    all_goals exact ⟨htakes, hsame _ hchannels⟩
  case h_2 channel newest _ =>
    simp only [Option.bind_eq_bind, Option.bind_eq_some_iff, Option.some.injEq,
      Prod.mk.injEq] at h
    obtain ⟨entry, hentry, acted, hacted, rfl, rfl⟩ := h
    refine ⟨rfl, fun j hclosed => isClosed_onChannel ?_ hclosed⟩
    intro other hother hopen
    rw [hentry, Option.some.injEq] at hother
    exact (touched_of_act hacted).closed (hother ▸ hopen)
  case h_3 channel _ =>
    cases h
    obtain ⟨htakes, hchannels⟩ := hlookup true
    exact ⟨htakes, hsame _ hchannels⟩
  case h_4 channel _ =>
    cases h
    exact ⟨rfl, fun j hclosed =>
      isClosed_onChannel (fun entry _ _ => entry.channel.finish_closed) hclosed⟩
  case h_5 => simp at h

/-- A started attempt has a receiver. -/
theorem TakeStage.channels?_of_attempt? {stage : TakeStage} {attempt : Nat}
    (h : stage.attempt? = some attempt) :
    ∃ receiver, stage.channels? = some (receiver, attempt) := by
  unfold TakeStage.attempt? at h
  split at h
  all_goals
    simp only [Option.some.injEq, reduceCtorEq] at h
  all_goals
    subst h
    exact ⟨_, rfl⟩

namespace Superseded

variable {body next : RawUploadBody} (h : Superseded body)

include h

/-- Closed channels stay closed, and the calls of `take_receiver` stay where they are. -/
theorem keep (htakes : next.takes = body.takes)
    (hclosed : ∀ j, body.isClosed j = true → next.isClosed j = true) : Superseded next := by
  intro take htake
  obtain ⟨hclosing, hcalling⟩ := h take (htakes ▸ htake)
  constructor
  · intro receiver attempt previous hstage j hj
    exact (hclosing receiver attempt previous hstage j hj).imp_left (hclosed j)
  · intro attempt hattempt j hj
    exact hclosed j (hcalling attempt hattempt j hj)

/-- One call of `take_receiver` moves on. -/
theorem setTake {i : Nat} {take : TakeCall} (htakes : next.takes = body.takes.set i take)
    (hclosed : ∀ old ∈ body.takes, ∀ receiver attempt,
      old.stage.channels? = some (receiver, attempt) → ∀ j < attempt,
      body.isClosed j = true → next.isClosed j = true)
    (hclosing : ∀ receiver attempt previous, take.stage = .closing receiver attempt previous →
      ∀ j < attempt, next.isClosed j = true ∨ previous = some j)
    (hcalling : ∀ attempt, take.stage.attempt? = some attempt →
      ∀ j < attempt, next.isClosed j = true) : Superseded next := by
  intro other hother
  rw [htakes] at hother
  rcases List.mem_or_eq_of_mem_set hother with hmem | rfl
  · obtain ⟨hclosing', hcalling'⟩ := h other hmem
    constructor
    · intro receiver attempt previous hstage j hj
      have hchannels : other.stage.channels? = some (receiver, attempt) := by
        rw [hstage]
        rfl
      exact (hclosing' receiver attempt previous hstage j hj).imp_left
        (hclosed other hmem receiver attempt hchannels j hj)
    · intro attempt hattempt j hj
      obtain ⟨receiver, hchannels⟩ := TakeStage.channels?_of_attempt? hattempt
      exact hclosed other hmem receiver attempt hchannels j hj (hcalling' attempt hattempt j hj)
  · exact ⟨hclosing, hcalling⟩

/-- A call of `take_receiver` returns without a channel. -/
theorem setSilent {i : Nat} {take : TakeCall} (htakes : next.takes = body.takes.set i take)
    (hclosed : ∀ j, body.isClosed j = true → next.isClosed j = true)
    (hsilent : take.stage.channels? = none) : Superseded next := by
  refine h.setTake htakes (fun _ _ _ _ _ j _ => hclosed j) ?_ ?_
  · intro receiver attempt previous hstage
    rw [hstage] at hsilent
    cases hsilent
  · intro attempt hattempt
    obtain ⟨receiver, hchannels⟩ := TakeStage.channels?_of_attempt? hattempt
    rw [hchannels] at hsilent
    cases hsilent

/-- The start callback of an attempt runs, or has run. -/
theorem setAttempt {i attempt : Nat} {take : TakeCall}
    (htakes : next.takes = body.takes.set i take)
    (hclosed : ∀ j, body.isClosed j = true → next.isClosed j = true)
    (hattempt : take.stage.attempt? = some attempt)
    (hearlier : ∀ j < attempt, next.isClosed j = true) : Superseded next := by
  refine h.setTake htakes (fun _ _ _ _ _ j _ => hclosed j) ?_ ?_
  · intro receiver other previous hstage
    rw [hstage] at hattempt
    cases hattempt
  · intro other hother
    rw [hattempt, Option.some.injEq] at hother
    exact hother ▸ hearlier

end Superseded

/-- The section of `take_receiver` under the owner lock, when it resets safely. -/
theorem Superseded.takeOwned {body after : RawUploadBody} (h : Superseded body)
    (hvalid : Valid body) {i : Nat} {old : TakeCall} {stage : TakeStage}
    (hsafe : body.receiver = none → body.replayable = true →
      ∀ k < body.channels.length, body.isClosed k = true ∨ body.sender = some k)
    (hsection : body.takeOwned = (stage, after)) :
    Superseded { after with takes := body.takes.set i { old with stage } } := by
  have hkeep : ∀ (found : RawUploadBody) (k : Nat) (holder : ReceiverHolder) (j : Nat),
      found.channels = body.channels → body.isClosed j = true →
      (found.giveReceiver k holder).isClosed j = true := by
    intro found k holder j hchannels hclosed
    apply isClosed_giveReceiver
    rw [RawUploadBody.isClosed, hchannels]
    exact hclosed
  unfold RawUploadBody.takeOwned at hsection
  cases hreceiver : body.receiver with
  | some receiver =>
      obtain ⟨hnewest, hzero⟩ := hvalid.receiver receiver hreceiver
      cases hsender : body.sender with
      | none =>
          simp only [hreceiver, hsender, Option.isNone_some, Bool.false_and, Bool.false_eq_true,
            if_false, Prod.mk.injEq] at hsection
          obtain ⟨rfl, rfl⟩ := hsection
          exact h.setSilent rfl (fun j hclosed => isClosed_dropReceiver hclosed) rfl
      | some attempt =>
          simp only [hreceiver, hsender, Option.isNone_some, Bool.false_and, Bool.false_eq_true,
            if_false, Prod.mk.injEq] at hsection
          obtain ⟨rfl, rfl⟩ := hsection
          have hattempt := hvalid.sender attempt hsender
          apply h.setTake rfl
          · intro _ _ _ _ _ j _ hclosed
            exact hkeep _ receiver .takeReceiver j rfl hclosed
          · intro receiver' attempt' previous hstage j hj
            rw [TakeStage.closing.injEq] at hstage
            omega
          · intro _ hattempt
            simp [TakeStage.attempt?] at hattempt
  | none =>
      cases hreplayable : body.replayable with
      | false =>
          simp only [hreceiver, hreplayable, Option.isNone_none, Bool.not_false, Bool.and_self,
            if_true, Prod.mk.injEq] at hsection
          obtain ⟨rfl, rfl⟩ := hsection
          exact h.setSilent rfl (fun j hclosed => hclosed) rfl
      | true =>
          simp only [hreceiver, hreplayable, Option.isNone_none, Bool.not_true, Bool.and_false,
            Bool.false_eq_true, if_false, if_true, RawUploadBody.resetChannel,
            Prod.mk.injEq] at hsection
          obtain ⟨rfl, rfl⟩ := hsection
          have hold : ∀ j < body.channels.length, body.isClosed j = true →
              (RawUploadBody.giveReceiver
                { body with
                  sender := some body.channels.length
                  receiver := none
                  replayable := true
                  channels := body.channels ++ [.new] }
                body.channels.length .takeReceiver).isClosed j = true := by
            intro j hj hclosed
            apply isClosed_giveReceiver
            rw [RawUploadBody.isClosed, List.getElem?_append_left hj]
            exact hclosed
          apply h.setTake rfl
          · intro take htake receiver attempt hchannels j hj hclosed
            have hle := (hvalid.takes take htake receiver attempt hchannels).2
            rw [RawUploadBody.newest] at hle
            exact hold j (by omega) hclosed
          · intro receiver attempt previous hstage j hj
            rw [TakeStage.closing.injEq] at hstage
            obtain ⟨-, rfl, rfl⟩ := hstage
            exact (hsafe hreceiver hreplayable j hj).imp_left (hold j hj)
          · intro _ hattempt
            simp [TakeStage.attempt?] at hattempt

/-- A step that resets safely keeps superseded channels closed. -/
theorem Superseded.step {body next : RawUploadBody} {event : RawUploadBody.Event}
    (h : Superseded body) (hvalid : Valid body) (hsafe : body.resetsSafely event = true)
    (hstep : body.step event = some next) : Superseded next := by
  cases event with
  | call handle method =>
      simp only [RawUploadBody.step, Option.ite_none_right_eq_some, Option.some.injEq] at hstep
      exact hstep.2 ▸ h.keep rfl fun _ hclosed => hclosed
  | take handle =>
      simp only [RawUploadBody.step, Option.ite_none_right_eq_some, Option.some.injEq] at hstep
      rw [← hstep.2]
      intro take htake
      rcases List.mem_append.mp htake with hold | hnew
      · exact h take hold
      · rw [List.mem_singleton.mp hnew]
        constructor
        · intro receiver attempt previous hstage
          simp at hstage
        · intro attempt hattempt
          simp [TakeStage.attempt?] at hattempt
  | callSection i =>
      simp only [RawUploadBody.step, Option.bind_eq_bind, Option.bind_eq_some_iff,
        Option.some.injEq] at hstep
      obtain ⟨call, hcall, ⟨stage, after⟩, hsection, rfl⟩ := hstep
      obtain ⟨htakes, hclosed⟩ := callSection_closed hsection
      exact h.keep htakes hclosed
  | takeSection i =>
      simp only [RawUploadBody.step, Option.bind_eq_bind, Option.bind_eq_some_iff,
        Option.some.injEq] at hstep
      obtain ⟨take, htake, ⟨stage, after⟩, hsection, rfl⟩ := hstep
      have hmem : take ∈ body.takes := List.mem_of_getElem? htake
      obtain ⟨hclosing, hcalling⟩ := h take hmem
      unfold RawUploadBody.takeSection at hsection
      split at hsection
      case h_1 hstage =>
        obtain ⟨handle, oldStage⟩ := take
        simp only at hstage hsection
        subst hstage
        cases handle with
        | owner =>
            rw [Option.some.injEq] at hsection
            apply h.takeOwned hvalid _ hsection
            intro hreceiver hreplayable k hk
            simp only [RawUploadBody.resetsSafely, htake, hreceiver, hreplayable,
              Option.isNone_none, Bool.and_self, Bool.not_true, Bool.false_or,
              List.all_eq_true, List.mem_range, Bool.or_eq_true, beq_iff_eq] at hsafe
            exact hsafe k hk
        | attempt channel =>
            cases hsection
            exact h.setSilent rfl (fun j hclosed => hclosed) rfl
      case h_2 receiver attempt previous hstage =>
        cases hsection
        cases previous with
        | none =>
            refine h.setAttempt rfl (fun j hclosed => hclosed) rfl fun j hj => ?_
            exact (hclosing receiver attempt none hstage j hj).resolve_right (by simp)
        | some channel =>
            refine h.setAttempt rfl (fun j hclosed => isClosed_close (Or.inl hclosed)) rfl
              fun j hj => ?_
            have hall := hclosing receiver attempt (some channel) hstage j hj
            rw [Option.some.injEq] at hall
            exact isClosed_close hall
      case h_3 receiver attempt hstage =>
        cases hsection
        have hkeep : ∀ j, body.isClosed j = true →
            ((body.close attempt).dropReceiver receiver).isClosed j = true :=
          fun j hclosed => isClosed_dropReceiver (isClosed_close (Or.inl hclosed))
        refine h.setAttempt rfl hkeep rfl fun j hj => ?_
        exact hkeep j (hcalling attempt (by rw [hstage]; rfl) j hj)
      all_goals simp at hsection
  | callbackReturned i =>
      simp only [RawUploadBody.step] at hstep
      split at hstep
      case h_2 => simp at hstep
      case h_1 handle receiver attempt htake =>
        rw [Option.some.injEq] at hstep
        rw [← hstep]
        have hcalling := (h _ (List.mem_of_getElem? htake)).2 attempt rfl
        have hkeep : ∀ j, body.isClosed j = true →
            (body.giveReceiver receiver .transport).isClosed j = true :=
          fun j hclosed => isClosed_giveReceiver hclosed
        exact h.setAttempt rfl hkeep rfl fun j hj => hkeep j (hcalling j hj)
  | callbackRaised i =>
      simp only [RawUploadBody.step] at hstep
      split at hstep
      case h_2 => simp at hstep
      case h_1 handle receiver attempt htake =>
        rw [Option.some.injEq] at hstep
        rw [← hstep]
        have hcalling := (h _ (List.mem_of_getElem? htake)).2 attempt rfl
        exact h.setAttempt rfl (fun j hclosed => hclosed) rfl hcalling
  | poll k =>
      simp only [RawUploadBody.step, Option.ite_none_right_eq_some, Option.some.injEq] at hstep
      exact hstep.2 ▸ h.keep rfl fun _ hclosed => isClosed_poll hclosed
  | dropReceiver k =>
      simp only [RawUploadBody.step, Option.ite_none_right_eq_some, Option.some.injEq] at hstep
      exact hstep.2 ▸ h.keep rfl fun _ hclosed => isClosed_dropReceiver hclosed

/-! ## Isolation -/

/-- A receiver that was handed out has returned a beginning of what was sent into its
channel, by the handle of its attempt or by the owner while the attempt was the
newest one. -/
def YieldsOwn (body : RawUploadBody) : Prop :=
  ∀ take ∈ body.takes, ∀ receiver attempt contentLength,
    take.stage = .handed receiver attempt contentLength →
    ∀ entry, body.channels[receiver]? = some entry →
      entry.received <+: entry.accepted.map Sent.item ∧
      ∀ sent ∈ entry.accepted,
        sent.handle = .attempt attempt ∨ sent.handle = .owner ∧ sent.newest = attempt

/-- Once `take_receiver` has started an attempt, a send through the handle of an
earlier one returns false and changes no channel. -/
def RejectsStale (body : RawUploadBody) : Prop :=
  ∀ take ∈ body.takes, ∀ attempt, take.stage.attempt? = some attempt →
    ∀ call ∈ body.calls, ∀ stale < attempt, call.handle = .attempt stale →
      call.method.sends = true → ∀ channel newest, call.stage = .sender channel newest →
        (body.callSection call).map (fun result => (result.1, result.2.channels)) =
          some (.returned (some false), body.channels)

/-- A body that is not replayable lets one call of `take_receiver` get past its owner
section.  All other calls are refused before the start callback. -/
def HandsOutOnce (body : RawUploadBody) : Prop :=
  body.replayable = false →
    body.takes.countP (fun take =>
      match take.stage with
      | .start | .refused _ => false
      | _ => true) ≤ 1

theorem Valid.yieldsOwn {body : RawUploadBody} (h : Valid body) : YieldsOwn body := by
  intro take htake receiver attempt contentLength hstage entry hentry
  have hsame := (h.takes take htake receiver attempt (by rw [hstage]; rfl)).1
  have hfaithful := h.faithful receiver entry hentry
  exact ⟨(List.prefix_append _ _).trans hfaithful.content, hsame ▸ hfaithful.origin⟩

theorem Valid.handsOutOnce {body : RawUploadBody} (h : Valid body) : HandsOutOnce body := by
  intro hreplayable
  have honce := h.once hreplayable
  have hcount : body.takes.countP TakeCall.started = body.takes.countP (fun take =>
      match take.stage with
      | .start | .refused _ => false
      | _ => true) := by
    apply List.countP_congr
    intro take _
    rw [TakeCall.started]
    cases take.stage <;> simp [TakeStage.channels?]
  omega

/-- Closed channels reject the sends of the handles of superseded attempts. -/
theorem Superseded.rejectsStale {body : RawUploadBody} (h : Superseded body)
    (hvalid : Valid body) : RejectsStale body := by
  intro take htake attempt hattempt call hcall stale hstale hhandle hsends channel newest hstage
  have hclosed := (h take htake).2 attempt hattempt stale hstale
  have hchannel : channel = stale := by
    rcases hvalid.calls call hcall channel newest hstage with hown | ⟨howner, -⟩
    · rw [hhandle, Handle.attempt.injEq] at hown
      exact hown.symm
    · rw [hhandle] at howner
      simp at howner
  subst hchannel
  obtain ⟨receiver, hchannels⟩ : ∃ receiver,
      take.stage.channels? = some (receiver, attempt) := by
    cases hstage : take.stage <;> rw [hstage] at hattempt <;>
      simp [TakeStage.attempt?] at hattempt <;> subst hattempt <;> exact ⟨_, rfl⟩
  have hle := (hvalid.takes take htake receiver attempt hchannels).2
  rw [RawUploadBody.newest] at hle
  have hlt : channel < body.channels.length := by omega
  have hentry := List.getElem?_eq_getElem hlt
  rw [RawUploadBody.isClosed, hentry, Option.all_some] at hclosed
  have hact := act_of_closed hclosed hsends
  have hsame : body.channels.modify channel (fun entry =>
      { entry with
        channel := body.channels[channel].channel
        accepted := entry.accepted ++ [] }) = body.channels := by
    apply List.ext_getElem?
    intro j
    rw [List.getElem?_modify]
    by_cases hj : channel = j
    · subst hj
      rw [hentry]
      simp
    · simp [hj]
  rw [RawUploadBody.callSection, hstage]
  simp only [hentry, hact, Option.bind_eq_bind, Option.bind_some, Option.map_some,
    RawUploadBody.onChannel, Option.toList_none, List.map_nil]
  rw [hsame]
  rfl

/-- In every run in which `take_receiver` resets the channel only while the owner
holds the sender of the open channel, the attempts are isolated from each other. -/
theorem replay_isolation {contentLength : Option Nat} {replayable : Bool}
    {events : List RawUploadBody.Event} {body : RawUploadBody}
    (hrun : (RawUploadBody.system contentLength replayable).run events = some body)
    (hsafe : (RawUploadBody.system contentLength replayable).along RawUploadBody.resetsSafely
      (RawUploadBody.new contentLength replayable) events = true) :
    YieldsOwn body ∧ RejectsStale body ∧ HandsOutOnce body := by
  have hvalid : Valid body := valid_of_reachable (TransitionSystem.reachable_of_run hrun)
  have hsuperseded : Superseded body := by
    apply TransitionSystem.invariant_of_along Superseded _
      TransitionSystem.Reachable.init hrun hsafe
    · intro take htake
      simp [RawUploadBody.system, RawUploadBody.new] at htake
    · intro state next event hreachable hinv hresets hstep
      exact hinv.step (valid_of_reachable hreachable) hresets hstep
  exact ⟨hvalid.yieldsOwn, hsuperseded.rejectsStale hvalid, hvalid.handsOutOnce⟩

namespace ReplayExample

/-- A call of `take_receiver` of the owner, from its start to its return. -/
def takeReceiver (i : Nat) : List RawUploadBody.Event :=
  [.take .owner, .takeSection i, .takeSection i, .callbackReturned i]

/-- Two attempts, and then a send through the handle of the first. -/
def replayed : List RawUploadBody.Event :=
  takeReceiver 0 ++ takeReceiver 1 ++ [.call (.attempt 0) (.send [7]), .callSection 0]

/-- The first attempt fills its channel. -/
def filling : List RawUploadBody.Event :=
  (List.range uploadBodyChannelCapacity).flatMap fun i =>
    [.call (.attempt 0) (.sendNowait [7]), .callSection i, .callSection i]

/-- `fail` of the owner waits for room in the channel of the first attempt while the
second one is handed out. -/
def failing : List RawUploadBody.Event :=
  takeReceiver 0 ++ filling ++ [.call .owner (.fail []), .callSection 8] ++ takeReceiver 1

/-- The first receiver takes a chunk, and the handle of the first attempt sends one. -/
def stale : List RawUploadBody.Event :=
  [.poll 0, .call (.attempt 0) (.sendNowait [8]), .callSection 9, .callSection 9]

end ReplayExample

open ReplayExample in
theorem replay_isolation_example :
    ∃ body, (RawUploadBody.system none true).run replayed = some body ∧ RejectsStale body := by
  obtain ⟨body, hrun⟩ : ∃ body, (RawUploadBody.system none true).run replayed = some body :=
    ⟨_, rfl⟩
  exact ⟨body, hrun, (replay_isolation hrun (by decide)).2.1⟩

open ReplayExample in
/-- A send through the handle of the first attempt is accepted after `take_receiver`
has returned the receiver of the second. -/
theorem stale_send_accepted :
    ((RawUploadBody.system none true).run failing).map (fun body => body.takes[1]?) =
        some (some ⟨.owner, .handed 1 1 none⟩) ∧
      ((RawUploadBody.system none true).run (failing ++ stale)).map (fun body =>
        (body.calls[9]?, body.channels[0]?.map fun entry => entry.channel.queue.length)) =
        some (some ⟨.attempt 0, .sendNowait [8], .returned (some true)⟩, some 8) := by
  decide +kernel

end FogHttp.RequestBody
