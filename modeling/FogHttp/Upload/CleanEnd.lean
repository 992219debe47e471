import FogHttp.Upload.Completion

/-!
# Clean ends

A poll that returns the end of the body makes the transport write the final
chunk, so a body without a declared length then looks complete on the wire.
This module says when that happens before any error was returned.

* The channel was finished: the producer is finished, and the frames before the
  end are exactly the accepted chunks.
* The channel was aborted while it was open.  The queue was cleared and the poll
  ends cleanly too; the transport sees no error.  The body is then never
  reported as complete, so its connection is not used again.

`Ends` ties the state of the producer to what closed the channel and an error
item to the error that it leads to.  `CleanEnds` is the statement about the
whole log: an end that was once observed stays explained by the same case.
-/

namespace FogHttp.RequestBody

open Lib

/-! ## The invariant -/

/-- The states that the producer can have, by what closed the channel. -/
def ProducerEnding (state : ProducerState) : Option Ending → Prop
  | none => state = .open_ ∨ state = .failed
  | some .finished => state = .finished ∨ state = .failed
  | some .aborted => state = .aborted ∨ state = .failed

/-- A poll returned an error or is about to. -/
def ErrorSeen (upload : Upload) : Prop :=
  .errored ∈ upload.log ∨ (∃ message, upload.polling = some (.error message)) ∨
    upload.polling = some .timeout

structure Ends (upload : Upload) : Prop where
  producer : ProducerEnding upload.channel.producer.state upload.ending
  finished : upload.finished = true →
    ErrorSeen upload ∨ upload.channel.closed = true ∧ upload.channel.queue = []
  failed : upload.channel.producer.state = .failed →
    ErrorSeen upload ∨ (∃ message, .error message ∈ upload.channel.queue) ∨
      upload.ending = some .aborted

theorem ends_new (capacity : Nat) (contentLength : Option Nat) (hasWriteTimeout : Bool) :
    Ends (.new capacity contentLength hasWriteTimeout) := by
  constructor <;> simp [Upload.new, ProducerEnding, UploadBodyProducerCompletion.new]

/-- Without a poll under way an error that was seen is in the log. -/
theorem ErrorSeen.logged {upload : Upload} (h : ErrorSeen upload)
    (hpolling : ∀ poll, upload.polling = some poll →
      poll ≠ .timeout ∧ ∀ message, poll ≠ .error message) : .errored ∈ upload.log := by
  rcases h with hlogged | ⟨message, herror⟩ | htimeout
  · exact hlogged
  · exact absurd rfl ((hpolling _ herror).2 message)
  · exact absurd rfl (hpolling _ htimeout).1

/-- The step lemma of the sends. -/
theorem ends_send {upload : Upload} (item : UploadBodyItem) (final : Bool)
    (hsound : Sound upload) (h : Ends upload) : Ends (upload.send item final) := by
  unfold Upload.send UploadBodyChannel.send
  by_cases hclosed : upload.channel.closed = true
  · simpa [hclosed] using h
  by_cases hfull : upload.channel.queue.length ≥ upload.channel.capacity
  · simpa [hclosed, hfull] using h
  simp only [hclosed, hfull, if_false, Bool.false_eq_true]
  have hending : upload.ending = none := hsound.ending_none (by simpa using hclosed)
  have hstate : upload.channel.producer.state = .open_ ∨
      upload.channel.producer.state = .failed := by
    simpa [ProducerEnding, hending] using h.producer
  refine ⟨?_, ?_, ?_⟩
  · rcases hstate with hstate | hstate <;> cases final <;> cases item <;>
      simp [UploadBodyChannel.push, ProducerEnding, hending, hstate,
        UploadBodyProducerCompletion.recordDataFrame, UploadBodyProducerCompletion.fail,
        UploadBodyProducerCompletion.finish, UploadBodyProducerCompletion.close]
  · intro hfinished
    rcases h.finished hfinished with herror | ⟨habsurd, -⟩
    · exact Or.inl herror
    · exact absurd habsurd hclosed
  · intro hfailed
    cases item with
    | error message =>
        exact Or.inr (Or.inl ⟨message, by simp [UploadBodyChannel.push]⟩)
    | data chunk =>
        -- The failure is older than this send, and its item is still explained.
        have hbefore : upload.channel.producer.state = .failed := by
          rcases hstate with hstate | hstate
          · cases final <;>
              simp [UploadBodyChannel.push, hstate, UploadBodyProducerCompletion.finish,
                UploadBodyProducerCompletion.recordDataFrame,
                UploadBodyProducerCompletion.close] at hfailed
          · exact hstate
        rcases h.failed hbefore with herror | ⟨message, hmem⟩ | habsurd
        · exact Or.inl herror
        · exact Or.inr (Or.inl ⟨message, List.mem_append_left _ hmem⟩)
        · simp [hending] at habsurd

/-- The step lemma of `finish`. -/
theorem ends_finish {upload : Upload} (hsound : Sound upload) (h : Ends upload) :
    Ends upload.finish := by
  unfold Upload.finish UploadBodyChannel.finish
  by_cases hclosed : upload.channel.closed = true
  · simpa [hclosed] using h
  simp only [hclosed, if_false, Bool.false_eq_true]
  have hending : upload.ending = none := hsound.ending_none (by simpa using hclosed)
  have hstate : upload.channel.producer.state = .open_ ∨
      upload.channel.producer.state = .failed := by
    simpa [ProducerEnding, hending] using h.producer
  refine ⟨?_, ?_, ?_⟩
  · rcases hstate with hstate | hstate <;>
      simp [ProducerEnding, hstate, UploadBodyProducerCompletion.finish,
        UploadBodyProducerCompletion.close]
  · intro hfinished
    rcases h.finished hfinished with herror | ⟨habsurd, -⟩
    · exact Or.inl herror
    · exact absurd habsurd hclosed
  · intro hfailed
    have hbefore : upload.channel.producer.state = .failed := by
      rcases hstate with hstate | hstate
      · simp [hstate, UploadBodyProducerCompletion.finish,
          UploadBodyProducerCompletion.close] at hfailed
      · exact hstate
    rcases h.failed hbefore with herror | hqueued | habsurd
    · exact Or.inl herror
    · exact Or.inr (Or.inl hqueued)
    · simp [hending] at habsurd

/-- The step lemma of `abort`. -/
theorem ends_abort {upload : Upload} (hsound : Sound upload) (h : Ends upload) :
    Ends upload.abort := by
  unfold Upload.abort UploadBodyChannel.abort
  by_cases hclosed : upload.channel.closed = true
  · simpa [hclosed] using h
  simp only [hclosed, if_false, Bool.false_eq_true]
  have hending : upload.ending = none := hsound.ending_none (by simpa using hclosed)
  refine ⟨?_, fun _ => Or.inr ⟨rfl, rfl⟩, fun _ => Or.inr (Or.inr rfl)⟩
  have hstate : upload.channel.producer.state = .open_ ∨
      upload.channel.producer.state = .failed := by
    simpa [ProducerEnding, hending] using h.producer
  rcases hstate with hstate | hstate <;>
    simp [ProducerEnding, hstate, UploadBodyProducerCompletion.abort,
      UploadBodyProducerCompletion.close]

/-- The step lemma of the receiver section of a poll. -/
theorem ends_pollBody {upload : Upload} (h : Ends upload) (hidle : upload.polling = none) :
    Ends upload.pollBody := by
  -- No poll is under way, so an error that was seen is logged.
  have hlogged : ErrorSeen upload → .errored ∈ upload.log := fun herror =>
    herror.logged (by simp [hidle])
  unfold Upload.pollBody
  split
  · refine ⟨h.producer, ?_, ?_⟩
    · intro hfinished
      exact (h.finished hfinished).imp_left fun herror => Or.inl (hlogged herror)
    · intro hfailed
      exact (h.failed hfailed).imp_left fun herror => Or.inl (hlogged herror)
  · rename_i hrunning
    unfold UploadBodyChannel.pollRecv
    cases hqueue : upload.channel.queue with
    | nil =>
        have hfailedKept : upload.channel.producer.state = .failed →
            .errored ∈ upload.log ∨ upload.ending = some .aborted := by
          intro hfailed
          rcases h.failed hfailed with herror | ⟨message, hmem⟩ | haborted
          · exact Or.inl (hlogged herror)
          · simp [hqueue] at hmem
          · exact Or.inr haborted
        dsimp only
        by_cases hclosed : upload.channel.closed = true
        · simp only [hclosed, if_true]
          refine ⟨h.producer, fun _ => Or.inr ⟨hclosed, hqueue⟩, ?_⟩
          intro hfailed
          exact (hfailedKept hfailed).imp Or.inl Or.inr
        · simp only [hclosed, if_false, Bool.false_eq_true]
          refine ⟨h.producer, fun hdone => absurd hdone hrunning, ?_⟩
          intro hfailed
          exact (hfailedKept hfailed).imp Or.inl Or.inr
    | cons item rest =>
        cases item with
        | data chunk =>
            dsimp only
            refine ⟨h.producer, fun hdone => absurd hdone hrunning, ?_⟩
            intro hfailed
            rcases h.failed hfailed with herror | ⟨message, hmem⟩ | haborted
            · exact Or.inl (Or.inl (hlogged herror))
            · exact Or.inr (Or.inl ⟨message, by simpa [hqueue] using hmem⟩)
            · exact Or.inr (Or.inr haborted)
        | error message =>
            dsimp only
            have herror : ∀ {state : Upload}, state.polling = some (.error message) →
                ErrorSeen state := fun hpolling => Or.inr (Or.inl ⟨message, hpolling⟩)
            exact ⟨h.producer, fun _ => Or.inl (herror rfl), fun _ => Or.inl (herror rfl)⟩

/-- The step lemma of the completion section of a poll. -/
theorem ends_trackPoll {upload : Upload} {poll : BodyPoll} (h : Ends upload)
    (hpolling : upload.polling = some poll) : Ends (upload.trackPoll poll) := by
  -- An error in hand is logged by this section, and one from before stays logged.
  have hseen : ErrorSeen upload → ErrorSeen (upload.trackPoll poll) := by
    intro herror
    refine Or.inl ?_
    rcases herror with hlogged | ⟨message, hmessage⟩ | htimeout
    · cases poll <;> simp [Upload.trackPoll, hlogged]
    · rw [hpolling, Option.some.injEq] at hmessage
      simp [hmessage, Upload.trackPoll]
    · rw [hpolling, Option.some.injEq] at htimeout
      simp [htimeout, Upload.trackPoll]
  have hchannel : (upload.trackPoll poll).channel = upload.channel := by cases poll <;> rfl
  have hending : (upload.trackPoll poll).ending = upload.ending := by cases poll <;> rfl
  have hfinished : (upload.trackPoll poll).finished = upload.finished := by cases poll <;> rfl
  refine ⟨?_, ?_, ?_⟩
  · rw [hchannel, hending]
    exact h.producer
  · rw [hchannel, hfinished]
    exact fun hdone => (h.finished hdone).imp_left hseen
  · rw [hchannel, hending]
    exact fun hfailed => (h.failed hfailed).imp_left hseen

/-- The step lemma. -/
theorem ends_step {upload next : Upload} {event : Upload.Event} (hsound : Sound upload)
    (h : Ends upload) (hstep : upload.step event = some next) : Ends next := by
  cases Upload.moves_of_step hstep with
  | send item final => exact ends_send item final hsound h
  | finish => exact ends_finish hsound h
  | close => exact ends_abort hsound h
  | dropReceiver =>
      have habort := ends_abort hsound h
      exact ⟨habort.producer, habort.finished, habort.failed⟩
  | poll hidle => exact ends_pollBody h hidle
  | pollTimeout =>
      exact ⟨h.producer, fun _ => Or.inl (Or.inr (Or.inr rfl)),
        fun _ => Or.inl (Or.inr (Or.inr rfl))⟩
  | track poll hpolling => exact ends_trackPoll h hpolling
  | dropFrame => exact ⟨h.producer, h.finished, h.failed⟩
  | flush =>
      have hseen : ErrorSeen upload → ErrorSeen upload.flush :=
        Or.imp_left fun hlogged => List.mem_append_left _ hlogged
      exact ⟨h.producer, fun hdone => (h.finished hdone).imp_left hseen,
        fun hfailed => (h.failed hfailed).imp_left hseen⟩

/-! ## What is settled stays settled -/

/-- Once the channel is closed, its ending, the accepted chunks and the state of the
producer are final. -/
theorem step_settled {upload next : Upload} {event : Upload.Event} (hsound : Sound upload)
    (hstep : upload.step event = some next) (hending : upload.ending ≠ none) :
    next.ending = upload.ending ∧ next.accepted = upload.accepted ∧
      next.channel.producer.state = upload.channel.producer.state := by
  have hclosed : upload.channel.closed = true := by
    rw [hsound.closed]
    exact Option.isSome_iff_ne_none.mpr hending
  have habort : upload.abort = upload := by simp [Upload.abort, UploadBodyChannel.abort, hclosed]
  cases Upload.moves_of_step hstep with
  | send item final => simp [Upload.send, UploadBodyChannel.send, hclosed]
  | finish => simp [Upload.finish, UploadBodyChannel.finish, hclosed]
  | close | dropReceiver => simp [habort]
  | poll =>
      unfold Upload.pollBody UploadBodyChannel.pollRecv
      split
      · exact ⟨rfl, rfl, rfl⟩
      · cases upload.channel.queue with
        | nil => simp
        | cons item rest => cases item <;> exact ⟨rfl, rfl, rfl⟩
  | track poll => cases poll <;> exact ⟨rfl, rfl, rfl⟩
  | pollTimeout | dropFrame | flush => exact ⟨rfl, rfl, rfl⟩

/-- A step adds at most one observation, and an end only from a poll that found it. -/
theorem step_log {upload next : Upload} {event : Upload.Event}
    (hstep : upload.step event = some next) :
    next.log = upload.log ∨ ∃ observation, next.log = upload.log ++ [observation] ∧
      (observation = .ended → upload.polling = some .ended) := by
  cases Upload.moves_of_step hstep with
  | send item final =>
      refine Or.inl ?_
      unfold Upload.send
      split <;> rfl
  | close | dropReceiver =>
      refine Or.inl ?_
      unfold Upload.abort
      split <;> rfl
  | poll =>
      refine Or.inl ?_
      unfold Upload.pollBody
      split
      · rfl
      · split <;> rfl
  | track poll hpolling =>
      cases poll with
      | pending => exact Or.inl rfl
      | ended => exact Or.inr ⟨.ended, rfl, fun _ => hpolling⟩
      | data chunk => exact Or.inr ⟨.emitted chunk, rfl, by simp⟩
      | error message => exact Or.inr ⟨.errored, rfl, by simp⟩
      | timeout => exact Or.inr ⟨.errored, rfl, by simp⟩
  | flush => exact Or.inr ⟨.flushed upload.frames.length, rfl, by simp⟩
  | finish | pollTimeout | dropFrame => exact Or.inl rfl

/-! ## Clean ends -/

/-- What explains an end of the body that was observed after `before`. -/
inductive CleanEnd (upload : Upload) (before : List Observation) : Prop where
  /-- The channel was finished, and every accepted chunk was yielded before the end. -/
  | finished (hending : upload.ending = some .finished)
      (hproducer : upload.channel.producer.state = .finished)
      (hyielded : emittedChunks before = upload.accepted)
  /-- The channel was aborted while it was open. -/
  | aborted (hending : upload.ending = some .aborted)

/-- Every end that was observed before an error is explained. -/
def CleanEnds (upload : Upload) : Prop :=
  ∀ before after, upload.log = before ++ .ended :: after → .errored ∉ before →
    CleanEnd upload before

/-- An end under way, before an error, is explained. -/
theorem cleanEnd_polled {upload : Upload} (hsound : Sound upload) (h : Ends upload)
    (hpolling : upload.polling = some .ended) (hclean : .errored ∉ upload.log) :
    CleanEnd upload upload.log := by
  have hunseen : ¬ ErrorSeen upload := fun herror =>
    hclean (herror.logged (by simp [hpolling]))
  obtain ⟨hclosed, hqueue⟩ : upload.channel.closed = true ∧ upload.channel.queue = [] :=
    (h.finished (hsound.polled hpolling)).resolve_left hunseen
  have hsome := hsound.closed
  rw [hclosed] at hsome
  have horder := hsound.order
  cases hending : upload.ending with
  | none => simp [hending] at hsome
  | some ending =>
      cases ending with
      | aborted => exact .aborted hending
      | finished =>
          refine .finished hending ?_ ?_
          · have hstate := h.producer
            rw [hending] at hstate
            rcases hstate with hstate | hfailed
            · exact hstate
            · rcases h.failed hfailed with herror | ⟨message, hmem⟩ | haborted
              · exact absurd herror hunseen
              · simp [hqueue] at hmem
              · simp [hending] at haborted
          · have hkept : upload.discarded = [] := hsound.discarded_nil (by simp [hending])
            rw [hpolling, hkept] at horder
            simpa [Upload.queued, hqueue, BodyPoll.inHand, Upload.yielded] using horder.symm

/-- An explained end stays explained. -/
theorem CleanEnd.step {upload next : Upload} {event : Upload.Event}
    {before : List Observation} (hsound : Sound upload)
    (hstep : upload.step event = some next) (h : CleanEnd upload before) :
    CleanEnd next before := by
  cases h with
  | finished hending hproducer hyielded =>
      obtain ⟨hsame, haccepted, hstate⟩ := step_settled hsound hstep (by simp [hending])
      exact .finished (hsame.trans hending) (hstate.trans hproducer)
        (hyielded.trans haccepted.symm)
  | aborted hending =>
      obtain ⟨hsame, -, -⟩ := step_settled hsound hstep (by simp [hending])
      exact .aborted (hsame.trans hending)

/-- An end in a log that grew by one observation is an old one or the new one. -/
theorem ended_of_concat {log before after : List Observation} {observation : Observation}
    (h : log ++ [observation] = before ++ .ended :: after) :
    (∃ rest, log = before ++ .ended :: rest) ∨ before = log ∧ observation = .ended := by
  rcases List.eq_nil_or_concat after with hnil | ⟨rest, last, hconcat⟩
  · rw [hnil] at h
    obtain ⟨hlog, hlast⟩ := List.append_inj' h rfl
    exact Or.inr ⟨hlog.symm, by simpa using hlast⟩
  · rw [hconcat, List.concat_eq_append, ← List.cons_append, ← List.append_assoc] at h
    exact Or.inl ⟨rest, (List.append_inj' h rfl).1⟩

/-- The step lemma. -/
theorem cleanEnds_step {upload next : Upload} {event : Upload.Event} (hsound : Sound upload)
    (hends : Ends upload) (h : CleanEnds upload) (hstep : upload.step event = some next) :
    CleanEnds next := by
  intro before after hlog hclean
  rcases step_log hstep with hsame | ⟨observation, hgrown, hended⟩
  · exact (h before after (hsame ▸ hlog) hclean).step hsound hstep
  · rw [hgrown] at hlog
    rcases ended_of_concat hlog with ⟨rest, hold⟩ | ⟨hbefore, hobservation⟩
    · exact (h before rest hold hclean).step hsound hstep
    · rw [hbefore] at hclean ⊢
      exact (cleanEnd_polled hsound hends (hended hobservation) hclean).step hsound hstep

/-- The run lemma. -/
theorem cleanEnds_of_reachable {capacity : Nat} {contentLength : Option Nat}
    {hasWriteTimeout : Bool} {upload : Upload}
    (h : (Upload.system capacity contentLength hasWriteTimeout).Reachable upload) :
    Ends upload ∧ CleanEnds upload := by
  refine h.invariant (fun upload => Ends upload ∧ CleanEnds upload) ⟨ends_new _ _ _, ?_⟩ ?_
  · intro before after hlog
    simp [Upload.system, Upload.new] at hlog
  · intro state next event hreachable hboth hstep
    have hsound := sound_of_reachable hreachable
    exact ⟨ends_step hsound hboth.1 hstep, cleanEnds_step hsound hboth.1 hboth.2 hstep⟩

/-- A body whose producer did not finish is not complete. -/
theorem isComplete_eq_false {upload : Upload}
    (h : upload.channel.producer.state ≠ .finished) : upload.isComplete = false := by
  have hstate : (upload.channel.producer.state == .finished) = false := by simpa using h
  simp [Upload.isComplete, RequestBodyCompletionState.isComplete,
    RequestBodyCompletionState.sourceComplete, UploadBodyProducerCompletion.isFinishedAndDrained,
    hstate]

/-- For every interleaving, a poll that ends the body cleanly, before any error, was
preceded by the finish of the channel and by every accepted chunk, or by an abort of
the open channel.  In the second case the frames before the end are a prefix of the
accepted chunks, the producer is not finished, and the body is not complete. -/
theorem upload_clean_end (capacity : Nat) (contentLength : Option Nat)
    (hasWriteTimeout : Bool) (events : List Upload.Event) (upload : Upload)
    (hrun : (Upload.system capacity contentLength hasWriteTimeout).run events = some upload)
    (before after : List Observation) (hlog : upload.log = before ++ .ended :: after)
    (hclean : .errored ∉ before) :
    (upload.ending = some .finished ∧ upload.channel.producer.state = .finished ∧
      emittedChunks before = upload.accepted) ∨
    (upload.ending = some .aborted ∧ upload.channel.producer.state ≠ .finished ∧
      emittedChunks before <+: upload.accepted ∧ upload.isComplete = false) := by
  have hreachable := TransitionSystem.reachable_of_run hrun
  have hsound := sound_of_reachable hreachable
  obtain ⟨hends, hcleanEnds⟩ := cleanEnds_of_reachable hreachable
  cases hcleanEnds before after hlog hclean with
  | finished hending hproducer hyielded => exact Or.inl ⟨hending, hproducer, hyielded⟩
  | aborted hending =>
      have hstate : upload.channel.producer.state ≠ .finished := by
        have hproducer := hends.producer
        rw [hending] at hproducer
        rcases hproducer with hproducer | hproducer <;> simp [hproducer]
      have hprefix : emittedChunks before <+: upload.yielded := by
        rw [Upload.yielded, hlog, emittedChunks_append]
        exact List.prefix_append _ _
      refine Or.inr ⟨hending, hstate, hprefix.trans ?_, isComplete_eq_false hstate⟩
      rw [hsound.order, List.append_assoc, List.append_assoc]
      exact List.prefix_append _ _

namespace CleanEndExample

/-- The producer is closed while its second chunk waits in the channel. -/
def events : List Upload.Event :=
  [.send (.data [1]) false true, .send (.data [2]) false true, .poll, .track, .close, .poll,
    .track]

/-- The two cases differ: an aborted body ends without an error, and one accepted chunk
was never yielded. -/
theorem closed_upload_ends_cleanly :
    ∃ upload, (Upload.system 2 none false).run events = some upload ∧
      upload.log = [.emitted [1], .ended] ∧ .errored ∉ upload.log ∧
      upload.ending = some .aborted ∧ upload.accepted = [[1], [2]] ∧
      ¬ (upload.ending = some .finished ∧ emittedChunks [.emitted [1]] = upload.accepted) :=
  ⟨_, rfl, by decide, by decide, by decide, by decide, by decide⟩

theorem upload_clean_end_aborted :
    ∃ upload, (Upload.system 2 none false).run events = some upload ∧
      ((upload.ending = some .finished ∧ upload.channel.producer.state = .finished ∧
        emittedChunks [.emitted [1]] = upload.accepted) ∨
      (upload.ending = some .aborted ∧ upload.channel.producer.state ≠ .finished ∧
        emittedChunks [.emitted [1]] <+: upload.accepted ∧ upload.isComplete = false)) :=
  ⟨_, rfl, upload_clean_end 2 none false events _ rfl [.emitted [1]] [] rfl (by decide)⟩

end CleanEndExample

end FogHttp.RequestBody
