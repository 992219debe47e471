import FogHttp.AsyncRequests.Entry
import FogHttp.AsyncRequests.Registry

/-!
# Every request ends once and leaves the registry

A section of one request changes its own entry only, and an abort of any
request, `abort_all` and an id that is used again can only take entries away.
So all requests are `Settled` and `Listed` in every reachable state, which is
`Consistent`, and `request_completion_exactly_once` reads the ends of the
requests off it.
-/

namespace FogHttp.AsyncRequests

open Lib

/-! ## Entries -/

namespace AsyncRequestRegistry

variable {self : AsyncRequestRegistry} {requestId request other position : Nat}

/-- An insertion adds no entry but its own. -/
theorem lookup_of_insert
    (h : (self.insert requestId request).active.lookup other = some position) :
    other = requestId ∧ position = request ∨ self.active.lookup other = some position := by
  by_cases hkey : other = requestId
  · subst hkey
    rw [insert, AList.lookup_insert, Option.some.injEq] at h
    exact Or.inl ⟨rfl, h.symm⟩
  · rw [insert, AList.lookup_insert_ne hkey] at h
    exact Or.inr h

/-- A removal adds no entry, and leaves none under its id. -/
theorem lookup_of_remove
    (h : (self.remove requestId).2.active.lookup other = some position) :
    other ≠ requestId ∧ self.active.lookup other = some position := by
  by_cases hkey : other = requestId
  · subst hkey
    rw [remove, AList.lookup_erase] at h
    cases h
  · rw [remove, AList.lookup_erase_ne hkey] at h
    exact ⟨hkey, h⟩

theorem mem_drain {position : Nat} (h : position ∈ self.drain.1) : self.Holds position := by
  rw [drain, List.mem_map] at h
  obtain ⟨⟨requestId, request⟩, hentry, rfl⟩ := h
  exact ⟨requestId, AList.mem_lookup_iff.mpr hentry⟩

end AsyncRequestRegistry

/-! ## All requests -/

structure Consistent (state : ClientRequests) : Prop where
  requests : ∀ {i : Nat} {request : Request}, state.requests[i]? = some request →
    request.Settled ∧ request.Listed (state.registry.Holds i)
  /-- An entry has the id of its request. -/
  keys : ∀ {requestId i : Nat}, state.registry.active.lookup requestId = some i →
    ∃ request, state.requests[i]? = some request ∧ request.requestId = requestId

namespace Consistent

variable {state : ClientRequests} {i : Nat} {request after : Request}

theorem fewer (h : Consistent state) {registry : AsyncRequestRegistry}
    (hfewer : ∀ {requestId i : Nat}, registry.active.lookup requestId = some i →
      state.registry.active.lookup requestId = some i) :
    Consistent { state with registry := registry } where
  requests := by
    intro i request hrequest
    obtain ⟨hsettled, hlisted⟩ := h.requests hrequest
    refine ⟨hsettled, hlisted.mono ?_⟩
    intro hholds
    obtain ⟨requestId, hentry⟩ := hholds
    exact ⟨requestId, hfewer hentry⟩
  keys := fun hentry => h.keys (hfewer hentry)

theorem set (h : Consistent state) (hrequest : state.requests[i]? = some request)
    (hid : after.requestId = request.requestId) (hsettled : after.Settled)
    (hlisted : after.Listed (state.registry.Holds i)) :
    Consistent { state with requests := state.requests.set i after } where
  requests := by
    intro j other hother
    by_cases hj : i = j
    · subst hj
      have hsame : (state.requests.set i after)[i]? = some after := by
        obtain ⟨hi, -⟩ := List.getElem?_eq_some_iff.mp hrequest
        simp [hi]
      rw [hsame, Option.some.injEq] at hother
      subst hother
      exact ⟨hsettled, hlisted⟩
    · rw [List.getElem?_set_ne hj] at hother
      exact h.requests hother
  keys := by
    intro requestId j hentry
    obtain ⟨other, hother, hkey⟩ := h.keys hentry
    by_cases hj : i = j
    · subst hj
      rw [hrequest, Option.some.injEq] at hother
      obtain ⟨hi, -⟩ := List.getElem?_eq_some_iff.mp hrequest
      exact ⟨after, by simp [hi], by rw [hid, hother, hkey]⟩
    · exact ⟨other, by rw [List.getElem?_set_ne hj, hother], hkey⟩

/-- The request of an entry that was taken out. -/
theorem hold (h : Consistent state) (hrequest : state.requests[i]? = some request)
    (hidle : request.abort = .idle ∧ request.spawner ≠ .inserting)
    (hnot : ¬state.registry.Holds i) (cancelPython : Bool) :
    Consistent (state.hold i cancelPython) := by
  obtain ⟨hsettled, hlisted⟩ := h.requests hrequest
  have hset : state.hold i cancelPython =
      { state with
        requests := state.requests.set i { request with abort := .finishing cancelPython } } := by
    unfold ClientRequests.hold
    rw [List.modify_eq_set_getElem?, hrequest]
    rfl
  rw [hset]
  exact h.set hrequest rfl (hsettled.hold hidle.1 cancelPython)
    ((hlisted.hold hidle.2 cancelPython).mono hnot)

theorem remove (h : Consistent state) (requestId : Nat) :
    Consistent { state with registry := (state.registry.remove requestId).2 } :=
  h.fewer fun hentry => (AsyncRequestRegistry.lookup_of_remove hentry).2

theorem insert (h : Consistent state) (hrequest : state.requests[i]? = some request)
    (hlisted : request.Listed True) :
    Consistent { state with registry := state.registry.insert request.requestId i } where
  requests := by
    intro j other hother
    obtain ⟨hsettled, hother'⟩ := h.requests hother
    by_cases hj : j = i
    · subst hj
      rw [hrequest, Option.some.injEq] at hother
      subst hother
      exact ⟨hsettled, hlisted.mono fun _ => trivial⟩
    · refine ⟨hsettled, hother'.mono ?_⟩
      intro hholds
      obtain ⟨requestId, hentry⟩ := hholds
      rcases AsyncRequestRegistry.lookup_of_insert hentry with ⟨-, hsame⟩ | hentry
      · exact absurd hsame hj
      · exact ⟨requestId, hentry⟩
  keys := by
    intro requestId j hentry
    rcases AsyncRequestRegistry.lookup_of_insert hentry with ⟨hkey, hsame⟩ | hentry
    · subst hkey hsame
      exact ⟨request, hrequest, rfl⟩
    · exact h.keys hentry

/-- After a removal the registry has no entry for the request of the id. -/
theorem not_holds_remove (h : Consistent state) (hrequest : state.requests[i]? = some request) :
    ¬(state.registry.remove request.requestId).2.Holds i := by
  intro hholds
  obtain ⟨requestId, hentry⟩ := hholds
  obtain ⟨hne, hentry⟩ := AsyncRequestRegistry.lookup_of_remove hentry
  obtain ⟨other, hother, hkey⟩ := h.keys hentry
  rw [hrequest, Option.some.injEq] at hother
  exact hne (by rw [hother, hkey])

theorem abortRequest (h : Consistent state) (requestId : Nat) :
    Consistent (state.abortRequest requestId) := by
  have hremoved := h.remove requestId
  unfold ClientRequests.abortRequest
  simp only [AsyncRequestRegistry.remove] at hremoved ⊢
  cases hentry : state.registry.active.lookup requestId with
  | none => exact hremoved
  | some j =>
      obtain ⟨request, hrequest, hkey⟩ := h.keys hentry
      have hidle := (h.requests hrequest).2.idle ⟨requestId, hentry⟩
      have hgone := h.not_holds_remove hrequest
      rw [hkey] at hgone
      exact hremoved.hold hrequest hidle hgone false

/-- No request is drained twice, as its only id is in the registry once. -/
theorem nodup_drain (h : Consistent state) : state.registry.drain.1.Nodup := by
  rw [AsyncRequestRegistry.drain]
  refine List.Nodup.map_on ?_ state.registry.active.nodupKeys.nodup
  intro first hfirst second hsecond hsame
  obtain ⟨firstId, i⟩ := first
  obtain ⟨secondId, j⟩ := second
  have hsame : i = j := hsame
  subst hsame
  obtain ⟨request, hrequest, hkey⟩ := h.keys (AList.mem_lookup_iff.mpr hfirst)
  obtain ⟨other, hother, hkey'⟩ := h.keys (AList.mem_lookup_iff.mpr hsecond)
  rw [hrequest, Option.some.injEq] at hother
  rw [← hkey, ← hkey', hother]

/-- The drained requests are held one after the other. -/
theorem hold_all (taken : List Nat) (h : Consistent state)
    (hempty : ∀ i, ¬state.registry.Holds i) (hnodup : taken.Nodup)
    (htaken : ∀ i ∈ taken, ∃ request, state.requests[i]? = some request ∧
      request.abort = .idle ∧ request.spawner ≠ .inserting) :
    Consistent (taken.foldl (fun state request => state.hold request true) state) := by
  induction taken generalizing state with
  | nil => exact h
  | cons i taken ih =>
      obtain ⟨request, hrequest, hidle⟩ := htaken i List.mem_cons_self
      obtain ⟨hnot, hnodup⟩ := List.nodup_cons.mp hnodup
      rw [List.foldl_cons]
      refine ih (h.hold hrequest hidle (hempty i) true) hempty hnodup ?_
      intro j hj
      obtain ⟨other, hother, hidle⟩ := htaken j (List.mem_cons_of_mem i hj)
      have hne : i ≠ j := by
        intro hsame
        subst hsame
        exact hnot hj
      exact ⟨other, (List.getElem?_modify_ne _ _ hne).trans hother, hidle⟩

theorem abortAll (h : Consistent state) : Consistent state.abortAll := by
  have hempty : ∀ i, ¬state.registry.drain.2.Holds i := by
    intro i hholds
    obtain ⟨requestId, hentry⟩ := hholds
    rw [AsyncRequestRegistry.drain, AList.lookup_empty] at hentry
    cases hentry
  have hdrained : Consistent { state with registry := state.registry.drain.2 } :=
    h.fewer fun {requestId i} hentry => absurd ⟨requestId, hentry⟩ (hempty i)
  refine hdrained.hold_all state.registry.drain.1 hempty h.nodup_drain ?_
  intro i hi
  obtain ⟨requestId, hentry⟩ := AsyncRequestRegistry.mem_drain hi
  obtain ⟨request, hrequest, -⟩ := h.keys hentry
  exact ⟨request, hrequest, (h.requests hrequest).2.idle ⟨requestId, hentry⟩⟩

theorem spawn (h : Consistent state) (kind : RequestKind) (hasTelemetry : Bool) :
    Consistent
      { registry := state.registry.takeRequestId.2
        requests := state.requests ++
          [Request.new kind state.registry.takeRequestId.1 hasTelemetry] } where
  requests := by
    intro i request hrequest
    rw [List.getElem?_append] at hrequest
    split at hrequest
    · exact h.requests hrequest
    · rename_i hi
      -- nothing has an entry beyond the requests that there are
      have hnot : ¬state.registry.takeRequestId.2.Holds i := by
        intro hholds
        obtain ⟨requestId, hentry⟩ := hholds
        obtain ⟨old, hold, -⟩ := h.keys hentry
        obtain ⟨hlt, -⟩ := List.getElem?_eq_some_iff.mp hold
        exact hi hlt
      rw [List.getElem?_singleton] at hrequest
      split at hrequest
      · rw [Option.some.injEq] at hrequest
        subst hrequest
        exact ⟨Request.settled_new kind _ hasTelemetry,
          (Request.listed_new kind _ hasTelemetry).mono hnot⟩
      · cases hrequest
  keys := by
    intro requestId i hentry
    obtain ⟨request, hrequest, hkey⟩ := h.keys hentry
    obtain ⟨hi, -⟩ := List.getElem?_eq_some_iff.mp hrequest
    exact ⟨request, by rw [List.getElem?_append_left hi, hrequest], hkey⟩

/-- One section of one request, with its call of the registry. -/
theorem section_ (h : Consistent state) (hrequest : state.requests[i]? = some request)
    {action : Request.Action} {call : RegistryCall}
    (hstep : request.step action = some (after, call)) :
    Consistent
      ({ state with requests := state.requests.set i after }.call i after.requestId call) := by
  obtain ⟨hsettled, hlisted⟩ := h.requests hrequest
  have hid := Request.step_requestId hstep
  have hsettled' := hsettled.step hstep
  have hlisted' := hlisted.step hstep
  have hi : i < state.requests.length := (List.getElem?_eq_some_iff.mp hrequest).1
  cases call with
  | none => exact h.set hrequest hid hsettled' hlisted'
  | abortRequest => exact (h.set hrequest hid hsettled' hlisted').abortRequest after.requestId
  | insert =>
      have hset := h.set hrequest hid hsettled' (hlisted'.mono fun _ => trivial)
      exact hset.insert (by simp [hi]) hlisted'
  | remove =>
      have hgone := h.not_holds_remove hrequest
      rw [← hid] at hgone
      exact (h.remove after.requestId).set hrequest hid hsettled' (hlisted'.mono hgone)

theorem step (h : Consistent state) {next : ClientRequests} {event : ClientRequests.Event}
    (hstep : state.step event = some next) : Consistent next := by
  cases event with
  | spawn kind hasTelemetry =>
      cases hstep
      exact h.spawn kind hasTelemetry
  | section_ i action =>
      simp only [ClientRequests.step, Option.bind_eq_bind, Option.bind_eq_some_iff,
        Option.some.injEq, Prod.exists] at hstep
      obtain ⟨request, hrequest, after, call, hafter, rfl⟩ := hstep
      exact h.section_ hrequest hafter
  | abortAll =>
      cases hstep
      exact h.abortAll

end Consistent

theorem consistent_of_reachable {state : ClientRequests} (h : requestSystem.Reachable state) :
    Consistent state := by
  refine h.invariant Consistent ?_ fun _ hstate hstep => hstate.step hstep
  exact
    { requests := by
        intro i request hrequest
        cases hrequest
      keys := by
        intro requestId i hentry
        cases hentry }

/-! ## The end of a request -/

namespace Request

/-- The party has run to its end. -/
def hasEnded (self : Request) : Party → Prop
  | .spawner => ∃ ok, self.spawner = .returned ok
  | .task => self.task = .ended
  | .abort => self.abort = .ended
  | .stream => self.stream = .finished

/-- The task has ended, was dropped, or was aborted and is about to be dropped. -/
def taskOver (self : Request) : Prop :=
  self.task = .ended ∨ self.task = .dropped ∨ self.abortRequested = true

theorem phase_of_hasEnded {self : Request} {party : Party} (h : self.hasEnded party)
    (hspawner : party ≠ .spawner) : self.phase party = .done := by
  cases party with
  | spawner => exact absurd rfl hspawner
  | task => exact congrArg (taskPhase self.kind) h
  | abort => exact congrArg abortPhase h
  | stream => exact congrArg streamPhase h

namespace Settled

variable {self : Request}

theorem finishedCount_le (h : self.Settled) : self.finishedCount ≤ self.startedCount := by
  rw [h.started]
  exact h.fair.recorded_le_one

/-- The spawning call never wins, and any other winner that is through has recorded the end. -/
theorem finishedCount_eq (h : self.Settled) {winner : Party}
    (hwinner : self.completion.winner = some winner) (hended : self.hasEnded winner) :
    self.finishedCount = self.startedCount := by
  have hspawner : winner ≠ .spawner := by
    intro hsame
    subst hsame
    exact h.fair.before .spawner rfl hwinner
  rw [h.started]
  exact h.fair.recorded_eq_one hwinner (phase_of_hasEnded hended hspawner)

end Settled

end Request

/-- In every run of any number of requests, the end of a request is recorded at most once for
its start, and once when the party that won the completion flag is through; only the winner
cancels the telemetry, aborts the task and delivers a buffered result; and the registry has
no entry for a request whose task is over and whose future was returned. -/
theorem request_completion_exactly_once {state : ClientRequests}
    (h : requestSystem.Reachable state) {i : Nat} {request : Request}
    (hrequest : state.requests[i]? = some request) :
    (request.startedCount = 1 ∧ request.finishedCount ≤ request.startedCount) ∧
    (∀ winner, request.completion.winner = some winner → request.hasEnded winner →
      request.finishedCount = request.startedCount) ∧
    (∀ party, (party, .telemetryCancelled) ∈ request.effects ∨
      (party, .taskAborted) ∈ request.effects → request.completion.winner = some party) ∧
    (∀ party isErr, request.kind = .buffered →
      (party, .pythonFutureCompleted isErr) ∈ request.effects →
      request.completion.winner = some party) ∧
    (request.spawner = .returned true → request.taskOver →
      ∀ requestId, state.registry.active.lookup requestId ≠ some i) := by
  obtain ⟨hsettled, hlisted⟩ := (consistent_of_reachable h).requests hrequest
  refine ⟨⟨hsettled.started, hsettled.finishedCount_le⟩, ?_, ?_, ?_, ?_⟩
  · intro winner hwinner hended
    exact hsettled.finishedCount_eq hwinner hended
  · intro party heffect
    rcases heffect with hmem | hmem
    · exact hsettled.only _ hmem (by cases request.kind <;> rfl)
    · exact hsettled.only _ hmem (by cases request.kind <;> rfl)
  · intro party isErr hkind hmem
    exact hsettled.only _ hmem (by rw [hkind]; rfl)
  · intro hspawner hover requestId hentry
    exact hlisted.not_registered hsettled hspawner hover ⟨requestId, hentry⟩

/-- A buffered task wins before its entry is inserted, and `abort_all` ends a streaming
request whose task waits for its start. -/
def closeEvents : List ClientRequests.Event :=
  [.spawn .buffered true, .spawn .streaming true,
    .section_ 0 (.task false), .section_ 0 (.task false), .section_ 0 (.task false),
    .section_ 0 (.spawner .added), .section_ 0 (.spawner .added), .section_ 0 (.spawner .added),
    .section_ 0 (.task false), .section_ 0 (.task false), .section_ 0 (.spawner .added),
    .section_ 1 (.spawner .added), .abortAll, .section_ 1 .abort, .section_ 1 .abort,
    .section_ 1 .abort, .section_ 1 (.spawner .added), .section_ 1 (.spawner .added),
    .section_ 1 (.spawner .added), .section_ 1 (.spawner .added), .section_ 1 .dropTask,
    .section_ 1 .abort, .section_ 1 .abort]

theorem request_completion_exactly_once_close :
    ∃ state first second, requestSystem.run closeEvents = some state ∧
      state.requests = [first, second] ∧
      (first.completion.winner = some .task ∧ first.finishedCount = first.startedCount ∧
        ∀ requestId, state.registry.active.lookup requestId ≠ some 0) ∧
      second.completion.winner = some .abort ∧ second.finishedCount = second.startedCount := by
  have hrun : requestSystem.run closeEvents = some _ := rfl
  have hreachable := TransitionSystem.reachable_of_run hrun
  obtain ⟨-, hfirst, -, -, hentry⟩ := request_completion_exactly_once (i := 0) hreachable rfl
  obtain ⟨-, hsecond, -⟩ := request_completion_exactly_once (i := 1) hreachable rfl
  exact ⟨_, _, _, hrun, rfl, ⟨rfl, hfirst .task rfl rfl, hentry rfl (Or.inl rfl)⟩, rfl,
    hsecond .abort rfl rfl⟩

end FogHttp.AsyncRequests
