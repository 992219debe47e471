import FogHttp.Upload.Replay

/-!
# Isolation of the channels

`Valid` is the invariant of a body: the sender that the owner holds is the one of
the newest channel, what a channel has delivered is a beginning of what was sent
into it, and what was sent into it came through its own attempt handle or through
the owner while it was the newest.  A body that is not replayable has at most one
call of `take_receiver` with a receiver.

There is one lemma for each thing that a section does to a body, and
`Valid.step` puts them together.  The invariant holds in every interleaving
(`valid_of_reachable`).
-/

namespace FogHttp.RequestBody

open Lib

/-! ## Sections on a channel -/

/-- The methods that send a chunk. -/
def Method.sends : Method → Bool
  | .send _ | .sendFinal _ | .sendNowait _ | .sendFinalNowait _ => true
  | _ => false

/-- A send puts its item into an open channel, or does nothing. -/
theorem push?_cases {channel : UploadBodyChannel} {item : UploadBodyItem} {final : Bool}
    {accepted closed : After} {full : Option After} {acted : Acted}
    (h : channel.push? item final accepted closed full = some acted) :
    acted.accepted = none ∧ acted.channel = channel ∨
      acted.accepted = some item ∧ channel.closed = false ∧
        acted.channel = channel.push item final := by
  rw [UploadBodyChannel.push?, UploadBodyChannel.send] at h
  by_cases hclosed : channel.closed = true
  · rw [if_pos hclosed] at h
    simp only [Option.some.injEq] at h
    exact Or.inl ⟨h ▸ rfl, h ▸ rfl⟩
  · rw [if_neg hclosed] at h
    by_cases hfull : channel.queue.length ≥ channel.capacity
    · rw [if_pos hfull] at h
      simp only [Option.map_eq_some_iff] at h
      obtain ⟨after, -, rfl⟩ := h
      exact Or.inl ⟨rfl, rfl⟩
    · rw [if_neg hfull] at h
      simp only [Option.some.injEq] at h
      exact Or.inr ⟨h ▸ rfl, Bool.not_eq_true _ ▸ hclosed, h ▸ rfl⟩

/-- What a section of a method may do to its channel. -/
inductive Touched (channel : UploadBodyChannel) : Option UploadBodyItem → UploadBodyChannel → Prop
  | unchanged : Touched channel none channel
  | finished : Touched channel none channel.finish
  | aborted : Touched channel none channel.abort
  | pushed (item : UploadBodyItem) (final : Bool) (hopen : channel.closed = false) :
      Touched channel (some item) (channel.push item final)

theorem touched_of_act {method : Method} {channel : UploadBodyChannel} {acted : Acted}
    (h : method.act channel = some acted) : Touched channel acted.accepted acted.channel := by
  have hpush : ∀ {item : UploadBodyItem} {final : Bool} {accepted closed : After}
      {full : Option After}, channel.push? item final accepted closed full = some acted →
      Touched channel acted.accepted acted.channel := by
    intro item final accepted closed full hpush
    rcases push?_cases hpush with ⟨haccepted, hchannel⟩ | ⟨haccepted, hopen, hchannel⟩
    · rw [haccepted, hchannel]
      exact .unchanged
    · rw [haccepted, hchannel]
      exact .pushed item final hopen
  unfold Method.act at h
  split at h
  all_goals first
    | exact hpush h
    | cases h
      first
        | exact .unchanged
        | exact .finished
        | exact .aborted

/-- A section never opens a channel again. -/
theorem Touched.closed {channel after : UploadBodyChannel} {accepted : Option UploadBodyItem}
    (h : Touched channel accepted after) (hclosed : channel.closed = true) :
    after.closed = true := by
  cases h with
  | unchanged => exact hclosed
  | finished => exact channel.finish_closed
  | aborted => exact channel.abort_closed
  | pushed item final hopen => simp [hopen] at hclosed

/-- A closed channel rejects every send. -/
theorem act_of_closed {method : Method} {channel : UploadBodyChannel}
    (hclosed : channel.closed = true) (hsends : method.sends = true) :
    method.act channel = some ⟨channel, none, .returns (some false)⟩ := by
  have hfinish : channel.finish = channel := if_pos hclosed
  unfold Method.act
  split <;> simp_all [Method.sends, UploadBodyChannel.push?, UploadBodyChannel.send_closed]

/-! ## The invariant -/

/-- What channel `k` delivers was sent into it, by those who may. -/
structure Faithful (k : Nat) (entry : AttemptChannel) : Prop where
  content : entry.received ++ entry.channel.queue <+: entry.accepted.map Sent.item
  complete : entry.channel.closed = false →
    entry.received ++ entry.channel.queue = entry.accepted.map Sent.item
  origin : ∀ sent ∈ entry.accepted,
    sent.handle = .attempt k ∨ sent.handle = .owner ∧ sent.newest = k

theorem Faithful.finish {k : Nat} {entry : AttemptChannel} (h : Faithful k entry) :
    Faithful k { entry with channel := entry.channel.finish } := by
  have hqueue : entry.channel.finish.queue = entry.channel.queue := by
    unfold UploadBodyChannel.finish
    split <;> rfl
  refine ⟨hqueue.symm ▸ h.content, ?_, h.origin⟩
  intro hopen
  simp [entry.channel.finish_closed] at hopen

theorem Faithful.abort {k : Nat} {entry : AttemptChannel} (h : Faithful k entry)
    (holder : ReceiverHolder) :
    Faithful k { entry with channel := entry.channel.abort, receiver := holder } := by
  refine ⟨?_, ?_, h.origin⟩
  · show entry.received ++ entry.channel.abort.queue <+: _
    unfold UploadBodyChannel.abort
    split
    · exact h.content
    · rw [List.append_nil]
      exact (List.prefix_append _ _).trans h.content
  · intro hopen
    simp [entry.channel.abort_closed] at hopen

theorem Faithful.poll {k : Nat} {entry : AttemptChannel} (h : Faithful k entry) :
    Faithful k (RawUploadBody.poll entry) := by
  rw [RawUploadBody.poll, UploadBodyChannel.pollRecv]
  cases hqueue : entry.channel.queue with
  | nil =>
      by_cases hclosed : entry.channel.closed = true
      · rw [if_pos hclosed]
        exact h
      · rw [if_neg hclosed]
        exact h
  | cons item rest =>
      have hsame : entry.received ++ [item] ++ rest = entry.received ++ entry.channel.queue := by
        rw [hqueue, List.append_assoc]
        rfl
      show Faithful k { entry with
        channel := { entry.channel with queue := rest }
        received := entry.received ++ [item] }
      constructor
      · exact hsame.symm ▸ h.content
      · exact fun hopen => hsame.trans (h.complete hopen)
      · exact h.origin

/-- A section of a call keeps the books, when the call may send here. -/
theorem Faithful.act {k newest : Nat} {entry : AttemptChannel} {handle : Handle}
    {after : UploadBodyChannel} {accepted : Option UploadBodyItem} (h : Faithful k entry)
    (htouched : Touched entry.channel accepted after)
    (hhandle : handle = .attempt k ∨ handle = .owner ∧ newest = k) :
    Faithful k { entry with
      channel := after
      accepted := entry.accepted ++ accepted.toList.map fun item => ⟨item, handle, newest⟩ } := by
  cases htouched with
  | unchanged => simpa using h
  | finished => simpa using h.finish
  | aborted => simpa using h.abort entry.receiver
  | pushed item final hopen =>
      have hall : entry.received ++ (entry.channel.queue ++ [item]) =
          (entry.accepted ++ [Sent.mk item handle newest]).map Sent.item := by
        rw [← List.append_assoc, h.complete hopen, List.map_append]
        rfl
      refine ⟨hall ▸ List.prefix_refl _, fun _ => hall, ?_⟩
      intro sent hsent
      rcases List.mem_append.mp hsent with hold | hnew
      · exact h.origin sent hold
      · rw [Option.toList_some, List.map_singleton, List.mem_singleton] at hnew
        rw [hnew]
        exact hhandle

theorem faithful_new (k : Nat) : Faithful k .new :=
  ⟨List.prefix_refl _, fun _ => rfl, fun sent hsent => by simp [AttemptChannel.new] at hsent⟩

/-- The channels of a call of `take_receiver`: the receiver, and the sender of the
new handle. -/
def TakeStage.channels? : TakeStage → Option (Nat × Nat)
  | .closing receiver attempt _ | .calling receiver attempt | .failing receiver attempt
  | .raised receiver attempt | .handed receiver attempt _ => some (receiver, attempt)
  | .start | .refused _ => none

/-- The call got a receiver. -/
def TakeCall.started (take : TakeCall) : Bool := take.stage.channels?.isSome

structure Valid (body : RawUploadBody) : Prop where
  channels_ne : body.channels ≠ []
  /-- The owner holds the sender of the newest channel, if any. -/
  sender : ∀ k, body.sender = some k → k = body.newest
  /-- Only the channel of `new` waits for `take_receiver`. -/
  receiver : ∀ k, body.receiver = some k → k = body.newest ∧ body.newest = 0
  calls : ∀ call ∈ body.calls, ∀ channel newest, call.stage = .sender channel newest →
    call.handle = .attempt channel ∨ call.handle = .owner ∧ newest = channel
  takes : ∀ take ∈ body.takes, ∀ receiver attempt,
    take.stage.channels? = some (receiver, attempt) → receiver = attempt ∧ attempt ≤ body.newest
  faithful : ∀ k entry, body.channels[k]? = some entry → Faithful k entry
  once : body.replayable = false →
    body.takes.countP TakeCall.started + body.receiver.isSome.toNat ≤ 1

theorem RawUploadBody.onChannel_newest (body : RawUploadBody) (k : Nat)
    (change : AttemptChannel → AttemptChannel) :
    (body.onChannel k change).newest = body.newest := by
  simp [RawUploadBody.newest, RawUploadBody.onChannel]

theorem RawUploadBody.giveReceiver_newest (body : RawUploadBody) (k : Nat)
    (holder : ReceiverHolder) : (body.giveReceiver k holder).newest = body.newest :=
  body.onChannel_newest k _

namespace Valid

variable {body : RawUploadBody} (h : Valid body)

include h

theorem onChannel {k : Nat} {change : AttemptChannel → AttemptChannel}
    (hchange : ∀ entry, body.channels[k]? = some entry → Faithful k entry →
      Faithful k (change entry)) : Valid (body.onChannel k change) := by
  have hnewest := body.onChannel_newest k change
  constructor
  · intro hnil
    exact h.channels_ne (List.modify_eq_nil_iff.mp hnil)
  · exact hnewest ▸ h.sender
  · exact hnewest ▸ h.receiver
  · exact h.calls
  · exact hnewest ▸ h.takes
  · intro j entry hentry
    rw [RawUploadBody.onChannel, List.getElem?_modify] at hentry
    obtain ⟨old, hold, rfl⟩ := Option.map_eq_some_iff.mp hentry
    by_cases hsame : k = j
    · subst hsame
      rw [if_pos rfl]
      exact hchange old hold (h.faithful k old hold)
    · rw [if_neg hsame]
      exact h.faithful j old hold
  · exact h.once

theorem clearSender : Valid { body with sender := none } := by
  refine ⟨h.channels_ne, ?_, h.receiver, h.calls, h.takes, h.faithful, h.once⟩
  intro k hk
  simp at hk

theorem lookup (takes : Bool) (handle : Handle) : Valid (body.lookup takes handle).2 := by
  cases handle with
  | attempt channel => exact h
  | owner =>
      cases takes with
      | false => exact h
      | true => exact h.clearSender

theorem clearReceiver : Valid { body with receiver := none } := by
  refine ⟨h.channels_ne, h.sender, ?_, h.calls, h.takes, h.faithful, ?_⟩
  · intro k hk
    simp at hk
  · intro hreplayable
    have honce := h.once hreplayable
    show body.takes.countP TakeCall.started + 0 ≤ 1
    omega

/-- A new channel, whose receiver is handed out at once. -/
theorem addChannel (hreplayable : body.replayable = true) :
    Valid { body with
      sender := some body.channels.length
      receiver := none
      channels := body.channels ++ [.new] } := by
  have hlength : (body.channels ++ [AttemptChannel.new]).length - 1 = body.channels.length := by
    simp
  constructor
  · simp
  · intro k hk
    rw [Option.some.injEq] at hk
    show k = (body.channels ++ [AttemptChannel.new]).length - 1
    omega
  · intro k hk
    simp at hk
  · exact h.calls
  · intro take htake receiver attempt hchannels
    obtain ⟨hsame, hle⟩ := h.takes take htake receiver attempt hchannels
    refine ⟨hsame, ?_⟩
    show attempt ≤ (body.channels ++ [AttemptChannel.new]).length - 1
    rw [RawUploadBody.newest] at hle
    omega
  · intro k entry hentry
    rcases List.mem_append.mp (List.mem_of_getElem? hentry) with hmem | hmem
    · by_cases hk : k < body.channels.length
      · rw [List.getElem?_append_left hk] at hentry
        exact h.faithful k entry hentry
      · rw [List.getElem?_append_right (by omega)] at hentry
        rw [List.mem_singleton.mp (List.mem_of_getElem? hentry)]
        exact faithful_new k
    · rw [List.mem_singleton.mp hmem]
      exact faithful_new k
  · intro hnot
    simp [hreplayable] at hnot

theorem pushCall {handle : Handle} {method : Method} :
    Valid { body with calls := body.calls ++ [⟨handle, method, .lookup⟩] } := by
  refine ⟨h.channels_ne, h.sender, h.receiver, ?_, h.takes, h.faithful, h.once⟩
  intro call hcall channel newest hstage
  rcases List.mem_append.mp hcall with hold | hnew
  · exact h.calls call hold channel newest hstage
  · rw [List.mem_singleton.mp hnew] at hstage
    simp at hstage

theorem setCall {i : Nat} {call : Call}
    (hcall : ∀ channel newest, call.stage = .sender channel newest →
      call.handle = .attempt channel ∨ call.handle = .owner ∧ newest = channel) :
    Valid { body with calls := body.calls.set i call } :=
  ⟨h.channels_ne, h.sender, h.receiver, forall_mem_set h.calls hcall, h.takes, h.faithful, h.once⟩

theorem pushTake {handle : Handle} :
    Valid { body with takes := body.takes ++ [⟨handle, .start⟩] } := by
  refine ⟨h.channels_ne, h.sender, h.receiver, h.calls, ?_, h.faithful, ?_⟩
  · intro take htake receiver attempt hchannels
    rcases List.mem_append.mp htake with hold | hnew
    · exact h.takes take hold receiver attempt hchannels
    · rw [List.mem_singleton.mp hnew] at hchannels
      simp [TakeStage.channels?] at hchannels
  · intro hreplayable
    rw [List.countP_append]
    exact h.once hreplayable

/-- A call of `take_receiver` moves on with its channels, or it is refused. -/
theorem setTake {i : Nat} {old take : TakeCall} (hold : body.takes[i]? = some old)
    (hchannels : take.stage.channels? = old.stage.channels? ∨ take.stage.channels? = none) :
    Valid { body with takes := body.takes.set i take } := by
  refine ⟨h.channels_ne, h.sender, h.receiver, h.calls, ?_, h.faithful, ?_⟩
  · apply forall_mem_set h.takes
    intro receiver attempt hsome
    rcases hchannels with hsame | hnone
    · exact h.takes old (List.mem_of_getElem? hold) receiver attempt (hsame ▸ hsome)
    · simp [hnone] at hsome
  · intro hreplayable
    have honce := h.once hreplayable
    have hcount := countP_set_add TakeCall.started take hold
    have hless : take.started.toNat ≤ old.started.toNat := by
      rcases hchannels with hsame | hnone
      · rw [TakeCall.started, TakeCall.started, hsame]
      · simp [TakeCall.started, hnone]
    show (body.takes.set i take).countP TakeCall.started + body.receiver.isSome.toNat ≤ 1
    omega

/-- A call of `take_receiver` gets its receiver. -/
theorem startTake {i : Nat} {old take : TakeCall} {receiver attempt : Nat}
    (hold : body.takes[i]? = some old)
    (hchannels : take.stage.channels? = some (receiver, attempt)) (hsame : receiver = attempt)
    (hle : attempt ≤ body.newest)
    (hfirst : body.replayable = false →
      body.takes.countP TakeCall.started + body.receiver.isSome.toNat = 0) :
    Valid { body with takes := body.takes.set i take } := by
  refine ⟨h.channels_ne, h.sender, h.receiver, h.calls, ?_, h.faithful, ?_⟩
  · apply forall_mem_set h.takes
    intro receiver' attempt' hsome
    rw [hchannels, Option.some.injEq, Prod.mk.injEq] at hsome
    obtain ⟨rfl, rfl⟩ := hsome
    exact ⟨hsame, hle⟩
  · intro hreplayable
    have hnone := hfirst hreplayable
    have hcount := countP_set_add TakeCall.started take hold
    have hone := Bool.toNat_le take.started
    show (body.takes.set i take).countP TakeCall.started + body.receiver.isSome.toNat ≤ 1
    omega

theorem close (k : Nat) : Valid (body.close k) :=
  h.onChannel fun entry _ hentry => hentry.abort entry.receiver

theorem dropReceiver (k : Nat) : Valid (body.dropReceiver k) :=
  h.onChannel fun _ _ hentry => hentry.abort .nobody

theorem giveReceiver (k : Nat) (holder : ReceiverHolder) : Valid (body.giveReceiver k holder) :=
  h.onChannel fun _ _ hentry => ⟨hentry.content, hentry.complete, hentry.origin⟩

end Valid

/-! ## Every step keeps the invariant -/

@[simp] theorem RawUploadBody.lookup_calls (body : RawUploadBody) (takes : Bool)
    (handle : Handle) : (body.lookup takes handle).2.calls = body.calls := by
  cases handle <;> cases takes <;> rfl

/-- What a lookup finds: the own sender of an attempt, or the sender of the owner. -/
theorem lookup_cases {body after : RawUploadBody} {takes : Bool} {handle : Handle}
    {sender : Option Nat} (h : body.lookup takes handle = (sender, after)) :
    (∃ channel, handle = .attempt channel ∧ sender = some channel) ∨
      handle = .owner ∧ sender = body.sender := by
  cases handle with
  | attempt channel =>
      cases h
      exact Or.inl ⟨channel, rfl, rfl⟩
  | owner =>
      cases h
      exact Or.inr ⟨rfl, rfl⟩

theorem Valid.callSection {body after : RawUploadBody} (h : Valid body) {i : Nat} {call : Call}
    {stage : Stage} (hcall : body.calls[i]? = some call)
    (hsection : body.callSection call = some (stage, after)) :
    Valid { after with calls := body.calls.set i { call with stage } } := by
  have hmem : call ∈ body.calls := List.mem_of_getElem? hcall
  unfold RawUploadBody.callSection at hsection
  split at hsection
  case h_1 hstage =>
    cases hlookup : body.lookup call.method.takesSender call.handle with
    | mk sender found =>
        have hfound : found = (body.lookup call.method.takesSender call.handle).2 := by
          rw [hlookup]
        have hvalid : Valid found := hfound ▸ h.lookup _ _
        have hcalls : found.calls = body.calls := by
          rw [hfound, RawUploadBody.lookup_calls]
        rw [hlookup] at hsection
        cases sender with
        | none =>
            cases hsection
            rw [← hcalls]
            apply hvalid.setCall
            intro channel newest hsender
            simp at hsender
        | some sender =>
            cases hsection
            rw [← hcalls]
            apply hvalid.setCall
            intro channel newest hsender
            rw [Stage.sender.injEq] at hsender
            obtain ⟨rfl, rfl⟩ := hsender
            rcases lookup_cases hlookup with ⟨own, hattempt, hown⟩ | ⟨howner, hnewest⟩
            · rw [Option.some.injEq] at hown
              exact Or.inl (hown ▸ hattempt)
            · exact Or.inr ⟨howner, (h.sender sender hnewest.symm).symm⟩
  case h_2 channel newest hstage =>
    simp only [Option.bind_eq_bind, Option.bind_eq_some_iff, Option.some.injEq,
      Prod.mk.injEq] at hsection
    obtain ⟨entry, hentry, acted, hacted, rfl, rfl⟩ := hsection
    have htouched := touched_of_act hacted
    have hhandle := h.calls call hmem channel newest hstage
    apply Valid.setCall
    · apply h.onChannel
      intro other hother hfaithful
      rw [hentry, Option.some.injEq] at hother
      subst hother
      exact hfaithful.act htouched hhandle
    · intro channel' newest' hsender
      cases hafter : acted.after <;> simp [hafter, After.stage] at hsender
  case h_3 channel hstage =>
    cases hsection
    rw [← RawUploadBody.lookup_calls body true call.handle]
    apply (h.lookup true call.handle).setCall
    intro channel' newest' hsender
    simp at hsender
  case h_4 channel hstage =>
    cases hsection
    apply (h.onChannel fun entry _ hentry => hentry.finish).setCall
    intro channel' newest' hsender
    simp at hsender
  case h_5 => simp at hsection

/-- The section of `take_receiver` under the owner lock. -/
theorem Valid.takeOwned {body after : RawUploadBody} (h : Valid body) {i : Nat} {old : TakeCall}
    {stage : TakeStage} (hold : body.takes[i]? = some old)
    (hsection : body.takeOwned = (stage, after)) :
    Valid { after with takes := body.takes.set i { old with stage } } := by
  unfold RawUploadBody.takeOwned at hsection
  cases hreceiver : body.receiver with
  | some receiver =>
      obtain ⟨hnewest, hzero⟩ := h.receiver receiver hreceiver
      have hclear := h.clearReceiver
      cases hsender : body.sender with
      | none =>
          simp only [hreceiver, hsender, Option.isNone_some, Bool.false_and, Bool.false_eq_true,
            if_false, Prod.mk.injEq] at hsection
          obtain ⟨rfl, rfl⟩ := hsection
          rw [hsender] at hclear
          exact (hclear.dropReceiver receiver).setTake hold (Or.inr rfl)
      | some attempt =>
          simp only [hreceiver, hsender, Option.isNone_some, Bool.false_and, Bool.false_eq_true,
            if_false, Prod.mk.injEq] at hsection
          obtain ⟨rfl, rfl⟩ := hsection
          have hattempt := h.sender attempt hsender
          rw [hsender] at hclear
          apply (hclear.giveReceiver receiver .takeReceiver).startTake hold rfl
          · omega
          · rw [RawUploadBody.giveReceiver_newest]
            exact Nat.le_of_eq hattempt
          · intro hreplayable
            have honce := h.once hreplayable
            rw [hreceiver, Option.isSome_some, Bool.toNat_true] at honce
            show body.takes.countP TakeCall.started + 0 = 0
            omega
  | none =>
      cases hreplayable : body.replayable with
      | false =>
          simp only [hreceiver, hreplayable, Option.isNone_none, Bool.not_false, Bool.and_self,
            if_true, Prod.mk.injEq] at hsection
          obtain ⟨rfl, rfl⟩ := hsection
          exact h.setTake hold (Or.inr rfl)
      | true =>
          simp only [hreceiver, hreplayable, Option.isNone_none, Bool.not_true, Bool.and_false,
            Bool.false_eq_true, if_false, if_true, RawUploadBody.resetChannel,
            Prod.mk.injEq] at hsection
          obtain ⟨rfl, rfl⟩ := hsection
          have hadd := h.addChannel hreplayable
          rw [hreplayable] at hadd
          apply (hadd.giveReceiver body.channels.length .takeReceiver).startTake hold rfl rfl
          · rw [RawUploadBody.giveReceiver_newest]
            simp [RawUploadBody.newest]
          · intro hnot
            simp [RawUploadBody.giveReceiver, RawUploadBody.onChannel] at hnot

theorem Valid.takeSection {body after : RawUploadBody} (h : Valid body) {i : Nat}
    {take : TakeCall} {stage : TakeStage} (htake : body.takes[i]? = some take)
    (hsection : body.takeSection take = some (stage, after)) :
    Valid { after with takes := body.takes.set i { take with stage } } := by
  unfold RawUploadBody.takeSection at hsection
  split at hsection
  case h_1 hstage =>
    split at hsection
    case h_1 =>
      rw [Option.some.injEq] at hsection
      exact h.takeOwned htake hsection
    case h_2 =>
      cases hsection
      exact h.setTake htake (Or.inr rfl)
  case h_2 receiver attempt previous hstage =>
    cases hsection
    have hsame : (TakeStage.calling receiver attempt).channels? = take.stage.channels? := by
      rw [hstage]
      rfl
    cases previous with
    | none => exact h.setTake htake (Or.inl hsame)
    | some channel => exact (h.close channel).setTake htake (Or.inl hsame)
  case h_3 receiver attempt hstage =>
    cases hsection
    have hsame : (TakeStage.raised receiver attempt).channels? = take.stage.channels? := by
      rw [hstage]
      rfl
    exact ((h.close attempt).dropReceiver receiver).setTake htake (Or.inl hsame)
  all_goals simp at hsection

theorem Valid.step {body next : RawUploadBody} {event : RawUploadBody.Event} (h : Valid body)
    (hstep : body.step event = some next) : Valid next := by
  cases event with
  | call handle method =>
      simp only [RawUploadBody.step, Option.ite_none_right_eq_some, Option.some.injEq] at hstep
      exact hstep.2 ▸ h.pushCall
  | take handle =>
      simp only [RawUploadBody.step, Option.ite_none_right_eq_some, Option.some.injEq] at hstep
      exact hstep.2 ▸ h.pushTake
  | callSection i =>
      simp only [RawUploadBody.step, Option.bind_eq_bind, Option.bind_eq_some_iff,
        Option.some.injEq] at hstep
      obtain ⟨call, hcall, ⟨stage, after⟩, hsection, rfl⟩ := hstep
      exact h.callSection hcall hsection
  | takeSection i =>
      simp only [RawUploadBody.step, Option.bind_eq_bind, Option.bind_eq_some_iff,
        Option.some.injEq] at hstep
      obtain ⟨take, htake, ⟨stage, after⟩, hsection, rfl⟩ := hstep
      exact h.takeSection htake hsection
  | callbackReturned i =>
      simp only [RawUploadBody.step] at hstep
      split at hstep
      case h_2 => simp at hstep
      case h_1 handle receiver attempt htake =>
        rw [Option.some.injEq] at hstep
        rw [← hstep]
        exact (h.giveReceiver receiver .transport).setTake htake (Or.inl rfl)
  | callbackRaised i =>
      simp only [RawUploadBody.step] at hstep
      split at hstep
      case h_2 => simp at hstep
      case h_1 handle receiver attempt htake =>
        rw [Option.some.injEq] at hstep
        rw [← hstep]
        exact h.setTake htake (Or.inl rfl)
  | poll k =>
      simp only [RawUploadBody.step, Option.ite_none_right_eq_some, Option.some.injEq] at hstep
      exact hstep.2 ▸ h.onChannel fun entry _ hentry => hentry.poll
  | dropReceiver k =>
      simp only [RawUploadBody.step, Option.ite_none_right_eq_some, Option.some.injEq] at hstep
      exact hstep.2 ▸ h.dropReceiver k

theorem valid_new (contentLength : Option Nat) (replayable : Bool) :
    Valid (RawUploadBody.new contentLength replayable) where
  channels_ne := List.cons_ne_nil _ _
  sender k hk := (Option.some.inj hk).symm
  receiver k hk := ⟨(Option.some.inj hk).symm, rfl⟩
  calls call hcall := by simp [RawUploadBody.new] at hcall
  takes take htake := by simp [RawUploadBody.new] at htake
  faithful k entry hentry := by
    rw [List.mem_singleton.mp (List.mem_of_getElem? hentry)]
    exact faithful_new k
  once _ := Nat.le_refl 1

theorem valid_of_reachable {contentLength : Option Nat} {replayable : Bool}
    {body : RawUploadBody} (h : (RawUploadBody.system contentLength replayable).Reachable body) :
    Valid body := by
  apply TransitionSystem.Reachable.invariant Valid (valid_new contentLength replayable) _ h
  intro state next event _ hvalid hstep
  exact hvalid.step hstep

end FogHttp.RequestBody
