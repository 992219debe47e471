import FogHttp.AsyncRequests.Request

/-!
# The winner of the completion flag

The parties of a request race for `RequestCompletion`, and the winner records
the end of the request.  `Request.race` reads the race off a request, and
`step_race` shows that every section of a party is a step of the race.

`Settled` adds what the winner alone does besides: the telemetry is cancelled
and the task aborted by an abort that won, and a buffered result is delivered by
a task that won.
-/

namespace FogHttp.AsyncRequests

open Lib

namespace Effect

def isStart : Effect → Bool
  | .requestStarted => true
  | _ => false

def isFinish : Effect → Bool
  | .requestFinished _ => true
  | _ => false

/-- What is left to the winner. -/
def isExclusive : RequestKind → Effect → Bool
  | _, .requestFinished _ | _, .telemetryCancelled | _, .taskAborted => true
  | .buffered, .pythonFutureCompleted _ => true
  | _, _ => false

end Effect

namespace Request

/-! ## The race -/

/-- A buffered task removes its entry after it won, a streaming one before. -/
def taskPhase (kind : RequestKind) : TaskStage → Phase
  | .awaitingStart | .sending | .finishing _ | .dropped => .before
  | .removing _ =>
      match kind with
      | .buffered => .working
      | .streaming => .before
  | .recording _ => .working
  | .completing _ | .ended => .done

def abortPhase : AbortStage → Phase
  | .idle | .finishing _ => .before
  | .cancellingTelemetry _ | .abortingTask _ | .recording _ => .working
  | .cancellingPython | .ended => .done

def streamPhase : StreamStage → Phase
  | .open_ => .before
  | .recording _ => .working
  | .finished => .done

def phase (self : Request) : Party → Phase
  | .spawner => .before
  | .task => taskPhase self.kind self.task
  | .abort => abortPhase self.abort
  | .stream => streamPhase self.stream

def finishedCount (self : Request) : Nat :=
  self.effects.countP fun entry => entry.2.isFinish

def startedCount (self : Request) : Nat :=
  self.effects.countP fun entry => entry.2.isStart

def race (self : Request) : Race Party where
  flag := self.completion
  phase := self.phase
  recorded := self.finishedCount

variable {self next : Request} {call : RegistryCall}

theorem finishedCount_perform (self : Request) (party : Party) (effect : Effect) :
    (self.perform party effect).finishedCount = self.finishedCount + effect.isFinish.toNat := by
  unfold finishedCount perform
  rw [List.countP_append]
  cases hfinish : effect.isFinish <;> simp [hfinish]

theorem finish_cases (self : Request) (party : Party) :
    self.completion.winner = none ∧
        self.finish party = (true, { self with completion := ⟨some party⟩ }) ∨
      (∃ winner, self.completion.winner = some winner) ∧
        self.finish party = (false, self) := by
  unfold finish
  rcases self.completion.take_cases party with ⟨hnone, htake⟩ | ⟨hsome, htake⟩
  · exact Or.inl ⟨hnone, by rw [htake]⟩
  · exact Or.inr ⟨hsome, by rw [htake]⟩

/-! ### The other parties of a section -/

theorem phase_of_task (habort : next.abort = self.abort) (hstream : next.stream = self.stream) :
    ∀ other ≠ Party.task, next.phase other = self.phase other := by
  intro other hother
  cases other with
  | spawner => rfl
  | task => exact absurd rfl hother
  | abort => exact congrArg abortPhase habort
  | stream => exact congrArg streamPhase hstream

theorem phase_of_abort (hkind : next.kind = self.kind) (htask : next.task = self.task)
    (hstream : next.stream = self.stream) :
    ∀ other ≠ Party.abort, next.phase other = self.phase other := by
  intro other hother
  cases other with
  | spawner => rfl
  | task => rw [phase, phase, hkind, htask]
  | abort => exact absurd rfl hother
  | stream => exact congrArg streamPhase hstream

theorem phase_of_stream (hkind : next.kind = self.kind) (htask : next.task = self.task)
    (habort : next.abort = self.abort) :
    ∀ other ≠ Party.stream, next.phase other = self.phase other := by
  intro other hother
  cases other with
  | spawner => rfl
  | task => rw [phase, phase, hkind, htask]
  | abort => exact congrArg abortPhase habort
  | stream => exact absurd rfl hother

/-- A section after which every party is as far as it was. -/
theorem race_stay (hphase : ∀ party, next.phase party = self.phase party)
    (hcompletion : next.completion = self.completion) (heffects : next.effects = self.effects) :
    Race.Step self.race next.race :=
  .stay hphase hcompletion (congrArg (List.countP _) heffects)

theorem race_stay_task (habort : next.abort = self.abort) (hstream : next.stream = self.stream)
    (htask : taskPhase next.kind next.task = taskPhase self.kind self.task)
    (hcompletion : next.completion = self.completion) (heffects : next.effects = self.effects) :
    Race.Step self.race next.race := by
  refine race_stay ?_ hcompletion heffects
  intro party
  by_cases hparty : party = .task
  · rw [hparty]
    exact htask
  · exact phase_of_task habort hstream party hparty

/-! ### The sections -/

theorem taskStep_race {isErr : Bool} (h : self.taskStep isErr = some (next, call)) :
    Race.Step self.race next.race := by
  cases htask : self.task with
  | awaitingStart =>
      simp only [taskStep, htask] at h
      split at h
      · cases h
        exact race_stay_task rfl rfl (by rw [htask]; rfl) rfl rfl
      · split at h
        · cases h
          exact .leave .task (phase_of_task rfl rfl) (by simp [race, phase, htask, taskPhase])
            rfl rfl rfl
        · cases h
  | sending =>
      cases hkind : self.kind <;> simp only [taskStep, htask, hkind] at h <;> cases h
      · exact race_stay_task rfl rfl (by rw [htask]; rfl) rfl rfl
      · exact race_stay_task rfl rfl (by rw [htask, hkind]; rfl) rfl rfl
  | removing isErr =>
      cases hkind : self.kind <;> simp only [taskStep, htask, hkind] at h <;> cases h
      · exact race_stay_task rfl rfl (by rw [htask, hkind]; rfl) rfl rfl
      · exact race_stay_task rfl rfl (by rw [htask, hkind]; rfl) rfl rfl
  | finishing isErr =>
      have hbefore : taskPhase self.kind self.task = .before := by rw [htask]; rfl
      rcases self.finish_cases .task with ⟨hnone, hfinish⟩ | ⟨-, hfinish⟩
      · cases hkind : self.kind <;> cases isErr <;>
          simp only [taskStep, htask, hkind, hfinish] at h <;> cases h
        · exact .win .task (phase_of_task rfl rfl) hnone rfl rfl rfl
        · exact .win .task (phase_of_task rfl rfl) hnone rfl rfl rfl
        · exact .leave .task (phase_of_task rfl rfl) hbefore rfl rfl rfl
        · exact .win .task (phase_of_task rfl rfl) hnone rfl rfl rfl
      · cases hkind : self.kind <;> cases isErr <;>
          simp only [taskStep, htask, hkind, hfinish] at h <;> cases h <;>
          exact .leave .task (phase_of_task rfl rfl) hbefore rfl rfl rfl
  | recording isErr =>
      have hworking : taskPhase self.kind self.task = .working := by rw [htask]; rfl
      simp only [taskStep, htask] at h
      cases h
      exact .record .task (phase_of_task rfl rfl) hworking rfl rfl
        (self.finishedCount_perform .task (.requestFinished isErr))
  | completing isErr =>
      simp only [taskStep, htask] at h
      cases h
      refine .stay ?_ rfl (self.finishedCount_perform .task (.pythonFutureCompleted isErr))
      intro party
      cases party <;> simp [race, phase, htask, taskPhase, perform]
  | ended =>
      simp only [taskStep, htask] at h
      cases h
  | dropped =>
      simp only [taskStep, htask] at h
      cases h

theorem dropTask_race (h : self.dropTask = some (next, call)) : Race.Step self.race next.race := by
  unfold dropTask at h
  split at h
  · rename_i htask
    cases h
    exact race_stay_task rfl rfl (by rw [htask]; rfl) rfl rfl
  · rename_i htask
    cases h
    exact race_stay_task rfl rfl (by rw [htask]; rfl) rfl rfl
  · cases h

/-- The party that aborts is through once the completion is settled. -/
theorem abortPhase_afterAbort (cancelPython : Bool) :
    abortPhase (afterAbort cancelPython) = .done := by
  cases cancelPython <;> rfl

theorem abortStep_race (h : self.abortStep = some (next, call)) :
    Race.Step self.race next.race := by
  cases habort : self.abort with
  | idle =>
      simp only [abortStep, habort] at h
      cases h
  | finishing cancelPython =>
      have hbefore : abortPhase self.abort = .before := by rw [habort]; rfl
      rcases self.finish_cases .abort with ⟨hnone, hfinish⟩ | ⟨-, hfinish⟩
      · simp only [abortStep, habort, hfinish] at h
        split at h
        · cases h
          exact .win .abort (phase_of_abort rfl rfl rfl) hnone rfl rfl rfl
        · cases h
          exact .win .abort (phase_of_abort rfl rfl rfl) hnone rfl rfl rfl
      · simp only [abortStep, habort, hfinish] at h
        cases h
        exact .leave .abort (phase_of_abort rfl rfl rfl) hbefore
          (abortPhase_afterAbort cancelPython) rfl rfl
  | cancellingTelemetry cancelPython =>
      simp only [abortStep, habort] at h
      cases h
      refine .stay ?_ rfl (self.finishedCount_perform .abort .telemetryCancelled)
      intro party
      cases party <;> simp [race, phase, habort, abortPhase, perform]
  | abortingTask cancelPython =>
      simp only [abortStep, habort] at h
      cases h
      refine .stay ?_ rfl (self.finishedCount_perform .abort .taskAborted)
      intro party
      cases party <;> simp [race, phase, habort, abortPhase, perform]
  | recording cancelPython =>
      have hworking : abortPhase self.abort = .working := by rw [habort]; rfl
      simp only [abortStep, habort] at h
      cases h
      exact .record .abort (phase_of_abort rfl rfl rfl) hworking
        (abortPhase_afterAbort cancelPython) rfl
        (self.finishedCount_perform .abort (.requestFinished true))
  | cancellingPython =>
      simp only [abortStep, habort] at h
      cases h
      refine .stay ?_ rfl (self.finishedCount_perform .abort .pythonFutureCancelled)
      intro party
      cases party <;> simp [race, phase, habort, abortPhase, perform]
  | ended =>
      simp only [abortStep, habort] at h
      cases h

theorem streamStep_race {failed : Bool} (h : self.streamStep failed = some (next, call)) :
    Race.Step self.race next.race := by
  unfold streamStep at h
  split at h
  · rename_i hstream
    have hbefore : streamPhase self.stream = .before := by rw [hstream]; rfl
    split at h
    · rcases self.finish_cases .stream with ⟨hnone, hfinish⟩ | ⟨-, hfinish⟩
      · simp only [hfinish] at h
        cases h
        exact .win .stream (phase_of_stream rfl rfl rfl) hnone rfl rfl rfl
      · simp only [hfinish] at h
        cases h
        exact .leave .stream (phase_of_stream rfl rfl rfl) hbefore rfl rfl rfl
    · cases h
  · rename_i failed hkind hstream
    have hworking : streamPhase self.stream = .working := by rw [hstream]; rfl
    cases h
    exact .record .stream (phase_of_stream rfl rfl rfl) hworking rfl rfl
      (self.finishedCount_perform .stream (.requestFinished failed))
  · cases h
  · cases h

/-- The spawning call leaves the race alone. -/
theorem spawnerStep_frame {outcome : CallbackOutcome}
    (h : self.spawnerStep outcome = some (next, call)) :
    next.kind = self.kind ∧ next.completion = self.completion ∧ next.task = self.task ∧
      next.abort = self.abort ∧ next.stream = self.stream ∧
      next.abortRequested = self.abortRequested ∧ next.effects = self.effects := by
  unfold spawnerStep at h
  split at h
  all_goals (try split at h)
  all_goals (cases h)
  all_goals (exact ⟨rfl, rfl, rfl, rfl, rfl, rfl, rfl⟩)

/-- So do the future and its callback. -/
theorem futureStep_frame
    (h : self.cancelFuture = some (next, call) ∨ self.settleFuture = some (next, call) ∨
      self.callCallback = some (next, call)) :
    (call = .none ∨ call = .abortRequest) ∧
      ∃ future callback, next = { self with future := future, callback := callback } := by
  rcases h with h | h | h
  · unfold cancelFuture at h
    split at h <;> cases h
    exact ⟨Or.inl rfl, _, _, rfl⟩
  · unfold settleFuture at h
    split at h
    · split at h <;> cases h
      exact ⟨Or.inl rfl, _, _, rfl⟩
    · cases h
  · unfold callCallback at h
    split at h <;> cases h
    · exact ⟨Or.inr rfl, _, _, rfl⟩
    · exact ⟨Or.inl rfl, _, _, rfl⟩

theorem finish_requestId (self : Request) (party : Party) :
    (self.finish party).2.requestId = self.requestId := rfl

/-- A request keeps its id. -/
theorem step_requestId {action : Action} (h : self.step action = some (next, call)) :
    next.requestId = self.requestId := by
  cases action with
  | spawner outcome =>
      simp only [step] at h
      unfold spawnerStep at h
      grind
  | task isErr => grind [step, taskStep, perform, finish_requestId]
  | dropTask => grind [step, dropTask]
  | abort => grind [step, abortStep, perform, finish_requestId]
  | stream failed => grind [step, streamStep, perform, finish_requestId]
  | cancelFuture => grind [step, cancelFuture]
  | settleFuture => grind [step, settleFuture]
  | callback => grind [step, callCallback]

/-! ## What a request keeps -/

structure Settled (request : Request) : Prop where
  fair : request.race.Fair
  started : request.startedCount = 1
  only : request.completion.OnlyBy (Effect.isExclusive request.kind) request.effects
  /-- A buffered task does not wait for a start message. -/
  sends : request.kind = .buffered → request.task ≠ .awaitingStart
  /-- A buffered request has no stream. -/
  streamless : request.kind = .buffered → request.stream = .open_
  delivers : request.kind = .buffered → ∀ isErr, request.task = .completing isErr →
    request.completion.winner = some .task
  ended : request.kind = .buffered → request.task = .ended → request.completion.winner ≠ none
  dropped : request.task = .dropped → request.abortRequested = true
  aborted : request.abortRequested = true → request.completion.winner = some .abort

theorem settled_new (kind : RequestKind) (requestId : Nat) (hasTelemetry : Bool) :
    Settled (.new kind requestId hasTelemetry) where
  fair := by
    refine Race.fair_of_unset rfl ?_ rfl
    intro party
    cases party <;> cases kind <;> rfl
  started := rfl
  only := by
    intro entry hmem hkind
    rw [List.mem_singleton.mp hmem] at hkind
    cases kind <;> cases hkind
  sends := by
    intro hsame htask
    subst hsame
    cases htask
  streamless := fun _ => rfl
  delivers := by
    intro hsame isErr htask
    subst hsame
    cases htask
  ended := by
    intro hsame htask
    subst hsame
    cases htask
  dropped := by
    intro htask
    cases kind <;> cases htask
  aborted := by
    intro haborted
    cases haborted

namespace Settled

/-- The log after a section that writes nothing into it. -/
theorem log_stay (h : Settled self) (hrace : Race.Step self.race next.race)
    (hkind : next.kind = self.kind) (heffects : next.effects = self.effects) :
    next.startedCount = 1 ∧
      next.completion.OnlyBy (Effect.isExclusive next.kind) next.effects := by
  refine ⟨?_, ?_⟩
  · rw [← h.started, startedCount, startedCount, heffects]
  · rw [hkind, heffects]
    exact h.only.mono fun party hwinner => hrace.winner hwinner

/-- The log after a section that performs an effect. -/
theorem log_perform (h : Settled self) {party : Party} {effect : Effect}
    (hkind : next.kind = self.kind) (hcompletion : next.completion = self.completion)
    (heffects : next.effects = self.effects ++ [(party, effect)]) (hstart : effect.isStart = false)
    (hwinner : effect.isExclusive self.kind = true → self.completion.winner = some party) :
    next.startedCount = 1 ∧
      next.completion.OnlyBy (Effect.isExclusive next.kind) next.effects := by
  refine ⟨?_, ?_⟩
  · rw [startedCount, heffects, List.countP_append, List.countP_singleton, hstart]
    exact h.started
  · rw [hkind, heffects, hcompletion]
    exact h.only.append hwinner

/-- A section that leaves the task where it is. -/
theorem frame (h : Settled self) (hrace : Race.Step self.race next.race)
    (hlog : next.startedCount = 1 ∧
      next.completion.OnlyBy (Effect.isExclusive next.kind) next.effects)
    (hkind : next.kind = self.kind) (htask : next.task = self.task)
    (hstream : self.kind = .buffered → next.stream = self.stream)
    (hmono : self.abortRequested = true → next.abortRequested = true)
    (haborted : next.abortRequested = true → next.completion.winner = some .abort) :
    Settled next where
  fair := h.fair.step hrace
  started := hlog.1
  only := hlog.2
  sends := by
    rw [hkind, htask]
    exact h.sends
  streamless := by
    intro hbuffered
    rw [hkind] at hbuffered
    rw [hstream hbuffered]
    exact h.streamless hbuffered
  delivers := by
    rw [hkind, htask]
    intro hbuffered isErr hcompleting
    exact hrace.winner (h.delivers hbuffered isErr hcompleting)
  ended := by
    rw [hkind, htask]
    intro hbuffered hended
    obtain ⟨winner, hwinner⟩ := Option.ne_none_iff_exists'.mp (h.ended hbuffered hended)
    have hlater : next.completion.winner = some winner := hrace.winner hwinner
    rw [hlater]
    simp
  dropped := by
    rw [htask]
    intro hdropped
    exact hmono (h.dropped hdropped)
  aborted := haborted

theorem spawnerStep (h : Settled self) {outcome : CallbackOutcome}
    (hstep : self.spawnerStep outcome = some (next, call)) : Settled next := by
  obtain ⟨hkind, hcompletion, htask, habort, hstream, haborted, heffects⟩ :=
    spawnerStep_frame hstep
  have hrace : Race.Step self.race next.race := by
    refine race_stay_task habort hstream ?_ hcompletion heffects
    rw [hkind, htask]
  refine h.frame hrace (h.log_stay hrace hkind heffects) hkind htask (fun _ => hstream) ?_ ?_
  · rw [haborted]
    exact id
  · rw [haborted, hcompletion]
    exact h.aborted

theorem futureStep (h : Settled self)
    (hstep : self.cancelFuture = some (next, call) ∨ self.settleFuture = some (next, call) ∨
      self.callCallback = some (next, call)) : Settled next := by
  obtain ⟨-, future, callback, rfl⟩ := futureStep_frame hstep
  have hrace : Race.Step self.race
      ({ self with future := future, callback := callback } : Request).race :=
    race_stay_task rfl rfl rfl rfl rfl
  exact h.frame hrace (h.log_stay hrace rfl rfl) rfl rfl (fun _ => rfl) id h.aborted

theorem abortStep (h : Settled self) (hstep : self.abortStep = some (next, call)) :
    Settled next := by
  have hrace := abortStep_race hstep
  have hwon : abortPhase self.abort = .working → self.completion.winner = some .abort :=
    h.fair.working .abort
  cases habort : self.abort with
  | idle =>
      simp only [Request.abortStep, habort] at hstep
      cases hstep
  | finishing cancelPython =>
      have hlater : self.abortRequested = true → next.completion.winner = some .abort :=
        fun haborted => hrace.winner (h.aborted haborted)
      rcases self.finish_cases .abort with ⟨-, hfinish⟩ | ⟨-, hfinish⟩
      · simp only [Request.abortStep, habort, hfinish] at hstep
        split at hstep
        · cases hstep
          exact h.frame hrace (h.log_stay hrace rfl rfl) rfl rfl (fun _ => rfl) id hlater
        · cases hstep
          exact h.frame hrace (h.log_stay hrace rfl rfl) rfl rfl (fun _ => rfl) id hlater
      · simp only [Request.abortStep, habort, hfinish] at hstep
        cases hstep
        exact h.frame hrace (h.log_stay hrace rfl rfl) rfl rfl (fun _ => rfl) id hlater
  | cancellingTelemetry cancelPython =>
      rw [habort] at hwon
      simp only [Request.abortStep, habort] at hstep
      cases hstep
      exact h.frame hrace (h.log_perform rfl rfl rfl rfl fun _ => hwon rfl) rfl rfl
        (fun _ => rfl) id h.aborted
  | abortingTask cancelPython =>
      rw [habort] at hwon
      simp only [Request.abortStep, habort] at hstep
      cases hstep
      exact h.frame hrace (h.log_perform rfl rfl rfl rfl fun _ => hwon rfl) rfl rfl
        (fun _ => rfl) (fun _ => rfl) fun _ => hwon rfl
  | recording cancelPython =>
      rw [habort] at hwon
      simp only [Request.abortStep, habort] at hstep
      cases hstep
      exact h.frame hrace (h.log_perform rfl rfl rfl rfl fun _ => hwon rfl) rfl rfl
        (fun _ => rfl) id h.aborted
  | cancellingPython =>
      simp only [Request.abortStep, habort] at hstep
      cases hstep
      refine h.frame hrace (h.log_perform rfl rfl rfl rfl ?_) rfl rfl (fun _ => rfl) id h.aborted
      cases self.kind <;> simp [Effect.isExclusive]
  | ended =>
      simp only [Request.abortStep, habort] at hstep
      cases hstep

theorem streamStep (h : Settled self) {failed : Bool}
    (hstep : self.streamStep failed = some (next, call)) : Settled next := by
  have hrace := streamStep_race hstep
  have hlater : self.abortRequested = true → next.completion.winner = some .abort :=
    fun haborted => hrace.winner (h.aborted haborted)
  unfold Request.streamStep at hstep
  split at hstep
  · rename_i hkind hstream
    have hnot : self.kind = .buffered → next.stream = self.stream := by
      rw [hkind]
      simp
    split at hstep
    · rcases self.finish_cases .stream with ⟨-, hfinish⟩ | ⟨-, hfinish⟩
      · simp only [hfinish] at hstep
        cases hstep
        exact h.frame hrace (h.log_stay hrace rfl rfl) rfl rfl hnot id hlater
      · simp only [hfinish] at hstep
        cases hstep
        exact h.frame hrace (h.log_stay hrace rfl rfl) rfl rfl hnot id hlater
    · cases hstep
  · rename_i failed hkind hstream
    have hnot : self.kind = .buffered → next.stream = self.stream := by
      rw [hkind]
      simp
    have hwon : self.completion.winner = some .stream :=
      h.fair.working .stream (congrArg streamPhase hstream)
    cases hstep
    exact h.frame hrace (h.log_perform rfl rfl rfl rfl fun _ => hwon) rfl rfl hnot id h.aborted
  · cases hstep
  · cases hstep

/-- A section of the task. -/
theorem task_frame (h : Settled self) (hrace : Race.Step self.race next.race)
    (hlog : next.startedCount = 1 ∧
      next.completion.OnlyBy (Effect.isExclusive next.kind) next.effects)
    (hkind : next.kind = self.kind) (hstream : next.stream = self.stream)
    (haborted : next.abortRequested = self.abortRequested)
    (hsends : next.task ≠ .awaitingStart) (hdropped : next.task ≠ .dropped)
    (hdelivers : self.kind = .buffered → ∀ isErr, next.task = .completing isErr →
      next.completion.winner = some .task)
    (hended : self.kind = .buffered → next.task = .ended → next.completion.winner ≠ none) :
    Settled next where
  fair := h.fair.step hrace
  started := hlog.1
  only := hlog.2
  sends := fun _ => hsends
  streamless := by
    rw [hkind, hstream]
    exact h.streamless
  delivers := by
    rw [hkind]
    exact hdelivers
  ended := by
    rw [hkind]
    exact hended
  dropped := fun htask => absurd htask hdropped
  aborted := by
    rw [haborted]
    exact fun haborted => hrace.winner (h.aborted haborted)

theorem taskStep (h : Settled self) {isErr : Bool}
    (hstep : self.taskStep isErr = some (next, call)) : Settled next := by
  have hrace := taskStep_race hstep
  cases htask : self.task with
  | awaitingStart =>
      have hstreaming : self.kind ≠ .buffered := fun hkind => h.sends hkind htask
      simp only [Request.taskStep, htask] at hstep
      split at hstep
      · cases hstep
        exact h.task_frame hrace (h.log_stay hrace rfl rfl) rfl rfl rfl (by simp) (by simp)
          (by simp) (by simp)
      · split at hstep
        · cases hstep
          exact h.task_frame hrace (h.log_stay hrace rfl rfl) rfl rfl rfl (by simp) (by simp)
            (by simp) (fun hkind => absurd hkind hstreaming)
        · cases hstep
  | sending =>
      cases hkind : self.kind <;> simp only [Request.taskStep, htask, hkind] at hstep <;>
        cases hstep <;>
        exact h.task_frame hrace (h.log_stay hrace hkind.symm rfl) hkind.symm rfl rfl
          (by simp) (by simp) (by simp) (by simp)
  | removing isErr =>
      cases hkind : self.kind <;> simp only [Request.taskStep, htask, hkind] at hstep <;>
        cases hstep <;>
        exact h.task_frame hrace (h.log_stay hrace hkind.symm rfl) hkind.symm rfl rfl
          (by simp) (by simp) (by simp) (by simp)
  | finishing isErr =>
      cases hkind : self.kind with
      | buffered =>
          rcases self.finish_cases .task with ⟨-, hfinish⟩ | ⟨⟨winner, hwinner⟩, hfinish⟩
          · simp only [Request.taskStep, htask, hkind, hfinish] at hstep
            cases hstep
            exact h.task_frame hrace (h.log_stay hrace hkind.symm rfl) hkind.symm rfl rfl (by simp)
              (by simp) (by simp) (by simp)
          · simp only [Request.taskStep, htask, hkind, hfinish] at hstep
            cases hstep
            refine h.task_frame hrace (h.log_stay hrace hkind.symm rfl) hkind.symm rfl rfl (by simp)
              (by simp) (by simp) ?_
            intro _ _ hnone
            have hlost : self.completion.winner = none := hnone
            rw [hwinner] at hlost
            cases hlost
      | streaming =>
          have hnot : self.kind ≠ .buffered := by
            rw [hkind]
            simp
          rcases self.finish_cases .task with ⟨-, hfinish⟩ | ⟨-, hfinish⟩ <;> cases isErr <;>
            simp only [Request.taskStep, htask, hkind, hfinish] at hstep <;> cases hstep <;>
            exact h.task_frame hrace (h.log_stay hrace hkind.symm rfl) hkind.symm rfl rfl (by simp)
              (by simp) (fun hbuffered => absurd hbuffered hnot)
              (fun hbuffered => absurd hbuffered hnot)
  | recording isErr =>
      have hwon : self.completion.winner = some .task :=
        h.fair.working .task (congrArg (taskPhase self.kind) htask)
      simp only [Request.taskStep, htask] at hstep
      cases hstep
      exact h.task_frame hrace (h.log_perform rfl rfl rfl rfl fun _ => hwon) rfl rfl rfl
        (by simp) (by simp) (fun _ _ _ => hwon) (by simp)
  | completing isErr =>
      have hdelivers := fun hkind => h.delivers hkind isErr htask
      simp only [Request.taskStep, htask] at hstep
      cases hstep
      refine h.task_frame hrace (h.log_perform rfl rfl rfl rfl ?_) rfl rfl rfl (by simp) (by simp)
        (by simp) ?_
      · intro hexclusive
        cases hkind : self.kind with
        | buffered => exact hdelivers hkind
        | streaming =>
            rw [hkind] at hexclusive
            cases hexclusive
      · intro hkind _ hnone
        have hwinner : self.completion.winner = none := hnone
        rw [hdelivers hkind] at hwinner
        cases hwinner
  | ended =>
      simp only [Request.taskStep, htask] at hstep
      cases hstep
  | dropped =>
      simp only [Request.taskStep, htask] at hstep
      cases hstep

theorem dropTask (h : Settled self) (hstep : self.dropTask = some (next, call)) :
    Settled next := by
  have hrace := dropTask_race hstep
  unfold Request.dropTask at hstep
  have hdropped : self.abortRequested = true ∧ next = { self with task := .dropped } := by
    split at hstep <;> cases hstep
    · rename_i haborted _
      exact ⟨haborted, rfl⟩
    · rename_i haborted _
      exact ⟨haborted, rfl⟩
  obtain ⟨haborted, rfl⟩ := hdropped
  have hlog := h.log_stay hrace rfl rfl
  exact
    { fair := h.fair.step hrace
      started := hlog.1
      only := hlog.2
      sends := by simp
      streamless := h.streamless
      delivers := by simp
      ended := by simp
      dropped := fun _ => haborted
      aborted := h.aborted }

/-- Every section of every party keeps what is settled. -/
theorem step (h : Settled self) {action : Action} (hstep : self.step action = some (next, call)) :
    Settled next := by
  cases action with
  | spawner outcome => exact h.spawnerStep hstep
  | task isErr => exact h.taskStep hstep
  | dropTask => exact h.dropTask hstep
  | abort => exact h.abortStep hstep
  | stream failed => exact h.streamStep hstep
  | cancelFuture => exact h.futureStep (.inl hstep)
  | settleFuture => exact h.futureStep (.inr (.inl hstep))
  | callback => exact h.futureStep (.inr (.inr hstep))

/-- A request that is taken out of the registry. -/
theorem hold (h : Settled self) (hidle : self.abort = .idle) (cancelPython : Bool) :
    Settled { self with abort := .finishing cancelPython } := by
  have hrace : Race.Step self.race
      ({ self with abort := .finishing cancelPython } : Request).race := by
    refine race_stay ?_ rfl rfl
    intro party
    cases party <;> simp [phase, hidle, abortPhase]
  exact h.frame hrace (h.log_stay hrace rfl rfl) rfl rfl (fun _ => rfl) id h.aborted

end Settled

end Request

end FogHttp.AsyncRequests
