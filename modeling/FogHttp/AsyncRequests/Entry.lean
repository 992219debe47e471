import FogHttp.AsyncRequests.Winner

/-!
# A request and its registry entry

`Listed` relates a request to the question whether the registry has an entry for
it.  The task of a buffered request may win before the entry is inserted, and
then the check after the insertion removes the entry; the task of a streaming
request starts after the spawning call is through with the registry, and removes
the entry before it looks at the flag.

`Listed.step` keeps this for every section of every party, and `not_registered`
draws the conclusion: no entry is left when the task is through and the spawning
call returned the future.
-/

namespace FogHttp.AsyncRequests

open Lib

namespace RegistryCall

/-- The registry has an entry for the request after the call. -/
def leaves (registered : Prop) : RegistryCall → Prop
  | .none | .abortRequest => registered
  | .insert => True
  | .remove => False

end RegistryCall

/-- The task of a streaming request has removed the entry. -/
def TaskStage.removed : TaskStage → Bool
  | .finishing _ | .recording _ | .completing _ | .ended => true
  | _ => false

/-! ## A request and its entry -/

namespace Request

structure Listed (registered : Prop) (request : Request) : Prop where
  inserting : request.spawner = .inserting → request.abort = .idle
  idle : registered → request.abort = .idle ∧ request.spawner ≠ .inserting
  sent : request.startSent = true → request.spawner = .returned true
  waits : request.kind = .streaming → (∀ ok, request.spawner ≠ .returned ok) →
    request.task = .awaitingStart ∨ request.task = .dropped
  /-- The entry of a buffered task that won is removed by the task, or by the spawning call
  that looks at the flag after it inserted the entry. -/
  rechecks : registered → request.kind = .buffered → request.completion.winner = some .task →
    (∀ isErr, request.task ≠ .removing isErr) →
    request.spawner = .checking ∨ request.spawner = .removing
  removes : registered → request.kind = .streaming → request.task.removed = true →
    request.spawner = .returned false

variable {self next : Request} {call : RegistryCall} {registered : Prop}

theorem listed_new (kind : RequestKind) (requestId : Nat) (hasTelemetry : Bool) :
    Listed False (.new kind requestId hasTelemetry) where
  inserting := fun _ => rfl
  idle := by simp
  sent := by simp [Request.new]
  waits := by
    intro hsame _
    subst hsame
    exact Or.inl rfl
  rechecks := by simp
  removes := by simp

namespace Listed

/-- An entry that other requests took away is not missed. -/
theorem mono (h : Listed registered self) {fewer : Prop} (hfewer : fewer → registered) :
    Listed fewer self :=
  { h with
    idle := fun hentry => h.idle (hfewer hentry)
    rechecks := fun hentry => h.rechecks (hfewer hentry)
    removes := fun hentry => h.removes (hfewer hentry) }

/-- The entry of a request that is being aborted is gone. -/
theorem of_aborting (h : Listed registered self) (habort : self.abort ≠ .idle) :
    ¬registered ∧ self.spawner ≠ .inserting :=
  ⟨fun hentry => habort (h.idle hentry).1, fun hinserting => habort (h.inserting hinserting)⟩

/-- A section that leaves the spawning call and the task where they are. -/
theorem frame (h : Listed registered self) (hkind : next.kind = self.kind)
    (hspawner : next.spawner = self.spawner) (hstart : next.startSent = self.startSent)
    (htask : next.task = self.task)
    (habort : next.abort = self.abort ∨ self.abort ≠ .idle)
    (hwinner : next.completion.winner = some .task → self.completion.winner = some .task) :
    Listed registered next where
  inserting := by
    rw [hspawner]
    intro hinserting
    rcases habort with habort | habort
    · rw [habort]
      exact h.inserting hinserting
    · exact absurd hinserting (h.of_aborting habort).2
  idle := by
    rw [hspawner]
    intro hentry
    rcases habort with habort | habort
    · rw [habort]
      exact h.idle hentry
    · exact absurd hentry (h.of_aborting habort).1
  sent := by
    rw [hstart, hspawner]
    exact h.sent
  waits := by
    rw [hkind, hspawner, htask]
    exact h.waits
  rechecks := by
    rw [hkind, hspawner, htask]
    intro hentry hbuffered hwon
    exact h.rechecks hentry hbuffered (hwinner hwon)
  removes := by
    rw [hkind, hspawner, htask]
    exact h.removes

/-- After the check no task that is through with the registry has an entry, so the rest of
the spawning call need not look at it again. -/
theorem after_check (h : Listed registered self)
    (hstage : self.spawner = .addingCallback ∨ self.spawner = .starting ∨
      self.spawner = .failing)
    (hkind : next.kind = self.kind) (htask : next.task = self.task)
    (habort : next.abort = self.abort) (hcompletion : next.completion = self.completion)
    (hspawner : next.spawner ≠ .inserting)
    (hsent : next.startSent = true → next.spawner = .returned true) :
    Listed registered next where
  inserting := fun hinserting => absurd hinserting hspawner
  idle := by
    intro hentry
    rw [habort]
    exact ⟨(h.idle hentry).1, hspawner⟩
  sent := hsent
  waits := by
    rw [hkind, htask]
    intro hstreaming _
    apply h.waits hstreaming
    rcases hstage with hstage | hstage | hstage <;> rw [hstage] <;> simp
  rechecks := by
    rw [hkind, htask, hcompletion]
    intro hentry hbuffered hwon hremoved
    rcases h.rechecks hentry hbuffered hwon hremoved with hbefore | hbefore <;>
      rw [hbefore] at hstage <;> simp at hstage
  removes := by
    rw [hkind, htask]
    intro hentry hstreaming hremoved
    rw [h.removes hentry hstreaming hremoved] at hstage
    simp at hstage

/-- The entry is inserted: a buffered task may have won already, a streaming one has not
started. -/
theorem insert (h : Listed registered self) (hspawner : self.spawner = .inserting) :
    Listed True { self with spawner := .checking } where
  inserting := by simp
  idle := fun _ => ⟨h.inserting hspawner, (by simp)⟩
  sent := by
    intro hstart
    rw [h.sent hstart] at hspawner
    cases hspawner
  waits := by
    intro hstreaming _
    apply h.waits hstreaming
    rw [hspawner]
    simp
  rechecks := fun _ _ _ _ => Or.inl rfl
  removes := by
    intro _ hstreaming hremoved
    have htask := h.waits hstreaming (by rw [hspawner]; simp)
    rcases htask with htask | htask <;>
      · simp only [htask, TaskStage.removed] at hremoved
        cases hremoved

/-- The check after the insertion: an entry of a task that won is removed next. -/
theorem check (h : Listed registered self) (hspawner : self.spawner = .checking)
    {stage : SpawnStage}
    (hstage : stage = .removing ∨
      stage = .addingCallback ∧ self.completion.winner = none) :
    Listed registered { self with spawner := stage } where
  inserting := by
    intro hsame
    subst hsame
    rcases hstage with hstage | ⟨hstage, -⟩ <;> cases hstage
  idle := by
    intro hentry
    refine ⟨(h.idle hentry).1, ?_⟩
    intro hsame
    subst hsame
    rcases hstage with hstage | ⟨hstage, -⟩ <;> cases hstage
  sent := by
    intro hstart
    rw [h.sent hstart] at hspawner
    cases hspawner
  waits := by
    intro hstreaming _
    apply h.waits hstreaming
    rw [hspawner]
    simp
  rechecks := by
    intro _ _ hwon _
    rcases hstage with hstage | ⟨-, hnone⟩
    · exact Or.inr hstage
    · have hunset : self.completion.winner = some .task := hwon
      rw [hnone] at hunset
      cases hunset
  removes := by
    intro hentry hstreaming hremoved
    rw [h.removes hentry hstreaming hremoved] at hspawner
    cases hspawner

theorem remove (h : Listed registered self) (hspawner : self.spawner = .removing) :
    Listed False { self with spawner := .addingCallback } where
  inserting := by simp
  idle := by simp
  sent := by
    intro hstart
    rw [h.sent hstart] at hspawner
    cases hspawner
  waits := by
    intro hstreaming _
    apply h.waits hstreaming
    rw [hspawner]
    simp
  rechecks := by simp
  removes := by simp

theorem spawnerStep (h : Listed registered self) {outcome : CallbackOutcome}
    (hstep : self.spawnerStep outcome = some (next, call)) :
    Listed (call.leaves registered) next := by
  -- nothing is sent before the last stage
  have hsent : (∀ ok, self.spawner ≠ .returned ok) → ∀ {stage : SpawnStage},
      self.startSent = true → stage = .returned true :=
    fun hstage _ hstart => absurd (h.sent hstart) (hstage true)
  cases hspawner : self.spawner with
  | inserting =>
      simp only [Request.spawnerStep, hspawner] at hstep
      cases hstep
      exact h.insert hspawner
  | checking =>
      simp only [Request.spawnerStep, hspawner] at hstep
      split at hstep
      · cases hstep
        exact h.check hspawner (Or.inl rfl)
      · rename_i hunset
        cases hstep
        exact h.check hspawner (Or.inr ⟨rfl, by simpa [OneShot.isSet] using hunset⟩)
  | removing =>
      simp only [Request.spawnerStep, hspawner] at hstep
      cases hstep
      exact h.remove hspawner
  | addingCallback =>
      have hnot : ∀ ok, self.spawner ≠ .returned ok := by
        rw [hspawner]
        simp
      simp only [Request.spawnerStep, hspawner] at hstep
      split at hstep <;> cases hstep <;>
        exact h.after_check (Or.inl hspawner) rfl rfl rfl rfl (by simp) (hsent hnot)
  | starting =>
      have hnot : ∀ ok, self.spawner ≠ .returned ok := by
        rw [hspawner]
        simp
      simp only [Request.spawnerStep, hspawner] at hstep
      split at hstep <;> cases hstep
      · exact h.after_check (Or.inr (Or.inl hspawner)) rfl rfl rfl rfl (by simp) (hsent hnot)
      · exact h.after_check (Or.inr (Or.inl hspawner)) rfl rfl rfl rfl (by simp) (hsent hnot)
      · exact h.after_check (Or.inr (Or.inl hspawner)) rfl rfl rfl rfl (by simp) (fun _ => rfl)
  | failing =>
      have hnot : ∀ ok, self.spawner ≠ .returned ok := by
        rw [hspawner]
        simp
      simp only [Request.spawnerStep, hspawner] at hstep
      cases hstep
      exact h.after_check (Or.inr (Or.inr hspawner)) rfl rfl rfl rfl (by simp) (hsent hnot)
  | returned ok =>
      simp only [Request.spawnerStep, hspawner] at hstep
      cases hstep

/-- A section of the task, with what is left of the entry after it. -/
theorem task_frame (h : Listed registered self) {left : Prop} (hleft : left → registered)
    (hkind : next.kind = self.kind) (hspawner : next.spawner = self.spawner)
    (hstart : next.startSent = self.startSent) (habort : next.abort = self.abort)
    (hwaits : self.task = .awaitingStart ∨ self.task = .dropped →
      ∃ ok, self.spawner = .returned ok)
    (hrechecks : left → self.kind = .buffered → next.completion.winner = some .task →
      (∀ isErr, next.task ≠ .removing isErr) →
      self.spawner = .checking ∨ self.spawner = .removing)
    (hremoves : left → self.kind = .streaming → next.task.removed = true →
      self.spawner = .returned false) :
    Listed left next where
  inserting := by
    rw [hspawner, habort]
    exact h.inserting
  idle := by
    rw [hspawner, habort]
    exact fun hentry => h.idle (hleft hentry)
  sent := by
    rw [hspawner, hstart]
    exact h.sent
  waits := by
    rw [hkind, hspawner]
    intro hstreaming hstage
    obtain ⟨ok, hok⟩ := hwaits (h.waits hstreaming hstage)
    exact absurd hok (hstage ok)
  rechecks := by
    rw [hkind, hspawner]
    exact hrechecks
  removes := by
    rw [hkind, hspawner]
    exact hremoves

theorem taskStep (h : Listed registered self) {isErr : Bool}
    (hstep : self.taskStep isErr = some (next, call)) :
    Listed (call.leaves registered) next := by
  cases htask : self.task with
  | awaitingStart =>
      have hrechecks : registered → self.kind = .buffered →
          self.completion.winner = some .task → self.spawner = .checking ∨
            self.spawner = .removing :=
        fun hentry hbuffered hwon => h.rechecks hentry hbuffered hwon (by simp [htask])
      simp only [Request.taskStep, htask] at hstep
      split at hstep
      · rename_i hstart
        cases hstep
        exact h.task_frame id rfl rfl rfl rfl (fun _ => ⟨true, h.sent hstart⟩)
          (fun hentry hbuffered hwon _ => hrechecks hentry hbuffered hwon)
          (by simp [TaskStage.removed])
      · split at hstep
        · rename_i hreturned
          cases hstep
          exact h.task_frame id rfl rfl rfl rfl (fun _ => ⟨false, hreturned⟩)
            (fun hentry hbuffered hwon _ => hrechecks hentry hbuffered hwon)
            (fun _ _ _ => hreturned)
        · cases hstep
  | sending =>
      cases hkind : self.kind with
      | buffered =>
          simp only [Request.taskStep, htask, hkind] at hstep
          cases hstep
          exact h.task_frame id hkind.symm rfl rfl rfl (by simp [htask])
            (fun hentry hbuffered hwon _ => h.rechecks hentry hbuffered hwon (by simp [htask]))
            (fun _ hstreaming => by simp [hkind] at hstreaming)
      | streaming =>
          simp only [Request.taskStep, htask, hkind] at hstep
          cases hstep
          exact h.task_frame id hkind.symm rfl rfl rfl (by simp [htask])
            (fun _ hbuffered => by simp [hkind] at hbuffered) (by simp [TaskStage.removed])
  | removing isErr =>
      cases hkind : self.kind <;> simp only [Request.taskStep, htask, hkind] at hstep <;>
        cases hstep <;>
        exact h.task_frame False.elim hkind.symm rfl rfl rfl (by simp [htask]) False.elim False.elim
  | finishing isErr =>
      cases hkind : self.kind with
      | buffered =>
          rcases self.finish_cases .task with ⟨-, hfinish⟩ | ⟨-, hfinish⟩
          · simp only [Request.taskStep, htask, hkind, hfinish] at hstep
            cases hstep
            exact h.task_frame id hkind.symm rfl rfl rfl (by simp [htask])
              (fun _ _ _ hnot => absurd rfl (hnot isErr)) (by simp [TaskStage.removed])
          · simp only [Request.taskStep, htask, hkind, hfinish] at hstep
            cases hstep
            exact h.task_frame id hkind.symm rfl rfl rfl (by simp [htask])
              (fun hentry hbuffered hwon _ => h.rechecks hentry hbuffered hwon (by simp [htask]))
              (fun hentry hstreaming _ => h.removes hentry hstreaming (by rw [htask]; rfl))
      | streaming =>
          rcases self.finish_cases .task with ⟨-, hfinish⟩ | ⟨-, hfinish⟩ <;> cases isErr <;>
            simp only [Request.taskStep, htask, hkind, hfinish] at hstep <;> cases hstep <;>
            exact h.task_frame id hkind.symm rfl rfl rfl (by simp [htask])
              (fun _ hbuffered => by simp [hkind] at hbuffered)
              (fun hentry hstreaming _ => h.removes hentry hstreaming (by rw [htask]; rfl))
  | recording isErr =>
      simp only [Request.taskStep, htask] at hstep
      cases hstep
      exact h.task_frame id rfl rfl rfl rfl (by simp [htask])
        (fun hentry hbuffered hwon _ => h.rechecks hentry hbuffered hwon (by simp [htask]))
        (fun hentry hstreaming _ => h.removes hentry hstreaming (by rw [htask]; rfl))
  | completing isErr =>
      simp only [Request.taskStep, htask] at hstep
      cases hstep
      exact h.task_frame id rfl rfl rfl rfl (by simp [htask])
        (fun hentry hbuffered hwon _ => h.rechecks hentry hbuffered hwon (by simp [htask]))
        (fun hentry hstreaming _ => h.removes hentry hstreaming (by rw [htask]; rfl))
  | ended =>
      simp only [Request.taskStep, htask] at hstep
      cases hstep
  | dropped =>
      simp only [Request.taskStep, htask] at hstep
      cases hstep

theorem dropTask (h : Listed registered self) (hstep : self.dropTask = some (next, call)) :
    Listed (call.leaves registered) next := by
  have hdropped : (∀ isErr, self.task ≠ .removing isErr) ∧ call = .none ∧
      next = { self with task := .dropped } := by
    unfold Request.dropTask at hstep
    split at hstep
    · rename_i htask
      cases hstep
      exact ⟨by simp [htask], rfl, rfl⟩
    · rename_i htask
      cases hstep
      exact ⟨by simp [htask], rfl, rfl⟩
    · cases hstep
  obtain ⟨htask, rfl, rfl⟩ := hdropped
  exact
    { inserting := h.inserting
      idle := h.idle
      sent := h.sent
      waits := fun _ _ => Or.inr rfl
      rechecks := fun hentry hbuffered hwon _ => h.rechecks hentry hbuffered hwon htask
      removes := by simp [TaskStage.removed] }

/-- The entry of a request that is being aborted is gone already. -/
theorem abortStep (h : Listed registered self) (hstep : self.abortStep = some (next, call)) :
    Listed (call.leaves registered) next := by
  cases habort : self.abort with
  | idle =>
      simp only [Request.abortStep, habort] at hstep
      cases hstep
  | finishing cancelPython =>
      have hnot : self.abort ≠ .idle := by simp [habort]
      rcases self.finish_cases .abort with ⟨-, hfinish⟩ | ⟨-, hfinish⟩
      · simp only [Request.abortStep, habort, hfinish] at hstep
        split at hstep
        · cases hstep
          exact h.frame rfl rfl rfl rfl (Or.inr hnot) (by simp)
        · cases hstep
          exact h.frame rfl rfl rfl rfl (Or.inr hnot) (by simp)
      · simp only [Request.abortStep, habort, hfinish] at hstep
        cases hstep
        exact h.frame rfl rfl rfl rfl (Or.inr hnot) id
  | cancellingTelemetry cancelPython =>
      simp only [Request.abortStep, habort] at hstep
      cases hstep
      exact h.frame rfl rfl rfl rfl (Or.inr (by simp [habort])) id
  | abortingTask cancelPython =>
      simp only [Request.abortStep, habort] at hstep
      cases hstep
      exact h.frame rfl rfl rfl rfl (Or.inr (by simp [habort])) id
  | recording cancelPython =>
      simp only [Request.abortStep, habort] at hstep
      cases hstep
      exact h.frame rfl rfl rfl rfl (Or.inr (by simp [habort])) id
  | cancellingPython =>
      simp only [Request.abortStep, habort] at hstep
      cases hstep
      exact h.frame rfl rfl rfl rfl (Or.inr (by simp [habort])) id
  | ended =>
      simp only [Request.abortStep, habort] at hstep
      cases hstep

theorem streamStep (h : Listed registered self) {failed : Bool}
    (hstep : self.streamStep failed = some (next, call)) :
    Listed (call.leaves registered) next := by
  unfold Request.streamStep at hstep
  split at hstep
  · split at hstep
    · rcases self.finish_cases .stream with ⟨-, hfinish⟩ | ⟨-, hfinish⟩
      · simp only [hfinish] at hstep
        cases hstep
        exact h.frame rfl rfl rfl rfl (Or.inl rfl) (by simp)
      · simp only [hfinish] at hstep
        cases hstep
        exact h.frame rfl rfl rfl rfl (Or.inl rfl) id
    · cases hstep
  · cases hstep
    exact h.frame rfl rfl rfl rfl (Or.inl rfl) id
  · cases hstep
  · cases hstep

theorem futureStep (h : Listed registered self)
    (hstep : self.cancelFuture = some (next, call) ∨ self.settleFuture = some (next, call) ∨
      self.callCallback = some (next, call)) : Listed (call.leaves registered) next := by
  obtain ⟨hcall, future, callback, rfl⟩ := futureStep_frame hstep
  have hleaves : call.leaves registered = registered := by
    rcases hcall with rfl | rfl <;> rfl
  rw [hleaves]
  exact h.frame rfl rfl rfl rfl (Or.inl rfl) id

/-- Every section of every party keeps the request and its entry in step. -/
theorem step (h : Listed registered self) {action : Action}
    (hstep : self.step action = some (next, call)) : Listed (call.leaves registered) next := by
  cases action with
  | spawner outcome => exact h.spawnerStep hstep
  | task isErr => exact h.taskStep hstep
  | dropTask => exact h.dropTask hstep
  | abort => exact h.abortStep hstep
  | stream failed => exact h.streamStep hstep
  | cancelFuture => exact h.futureStep (.inl hstep)
  | settleFuture => exact h.futureStep (.inr (.inl hstep))
  | callback => exact h.futureStep (.inr (.inr hstep))

/-- The entry is taken out to abort the request. -/
theorem hold (h : Listed registered self) (hspawner : self.spawner ≠ .inserting)
    (cancelPython : Bool) : Listed False { self with abort := .finishing cancelPython } where
  inserting := fun hinserting => absurd hinserting hspawner
  idle := by simp
  sent := h.sent
  waits := h.waits
  rechecks := by simp
  removes := by simp

/-- A request whose task is through, and whose spawning call returned it, has no entry. -/
theorem not_registered (h : Listed registered self) (hsettled : self.Settled)
    (hspawner : self.spawner = .returned true)
    (hended : self.task = .ended ∨ self.task = .dropped ∨ self.abortRequested = true) :
    ¬registered := by
  intro hentry
  have hidle : self.phase .abort = .before := congrArg abortPhase (h.idle hentry).1
  have hloser := hsettled.fair.before .abort hidle
  rcases hended with hended | hdropped | haborted
  · cases hkind : self.kind with
    | buffered =>
        -- somebody won, and it can only be the task
        have hstream : self.phase .stream = .before :=
          congrArg streamPhase (hsettled.streamless hkind)
        cases hwinner : self.completion.winner with
        | none => exact hsettled.ended hkind hended hwinner
        | some winner =>
            cases winner with
            | spawner => exact hsettled.fair.before .spawner rfl hwinner
            | abort => exact hloser hwinner
            | stream => exact hsettled.fair.before .stream hstream hwinner
            | task =>
                have hstage := h.rechecks hentry hkind hwinner (by simp [hended])
                rw [hspawner] at hstage
                simp at hstage
    | streaming =>
        have hstage := h.removes hentry hkind (by rw [hended]; rfl)
        rw [hspawner] at hstage
        cases hstage
  · exact hloser (hsettled.aborted (hsettled.dropped hdropped))
  · exact hloser (hsettled.aborted haborted)

end Listed

end Request

end FogHttp.AsyncRequests
