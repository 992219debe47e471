import FogHttp.Lib.Positions
import FogHttp.Lib.Transition

/-!
# Monitors

A monitor is shared state under one lock with a condition variable on it.  A thread
that has to wait does so in a loop of the shape

```
while must_wait:
    condition.wait()
```

and whoever changes the state calls `condition.notify_all()` when somebody may be
waiting for the change.

`Monitor` is the pure part of such code: what a thread does in one section under the
lock, or in one step outside of it.  `Monitor.system` is the transition system of any
number of threads.  `wait()` ends a section and puts the thread to sleep, and a thread
that sleeps has no turn until a section of another thread notifies.

* `step_cases` says what an event does to the shared state and to the stages of the
  threads, which is all that an invariant of the shared state needs.
* `Attentive` is the discipline of the sections: a thread goes to sleep only while its
  `guard` holds, and a section that may end a guard notifies.  `guarded_of_reachable` is
  what follows: no thread sleeps although it need not wait, so no wakeup is lost.
* `Descends` says that a thread comes nearer to its end in every turn in which it does not
  go to sleep.  `turns_le_budget` bounds the turns of the threads that are there.

Nothing here names a function of a particular program.
-/

namespace FogHttp.Lib

/-- The code of the threads of a monitor.  `σ` is the shared state, `π` the stages of a
thread, `κ` the calls that a thread may make and `ε` the answers from outside. -/
structure Monitor (σ π κ ε : Type) where
  init : σ
  /-- The first stage of a call. -/
  enter : κ → π
  /-- One turn of the thread at a position, or `none` when its call has returned. -/
  turn : Nat → ε → σ → π → Option (σ × π × Bool × Bool)

namespace Monitor

/-- A thread with the place where it stands. -/
structure Thread (π : Type) where
  stage : π
  /-- The thread is in `wait()` and was not notified. -/
  asleep : Bool
deriving DecidableEq, Repr

structure State (σ π : Type) where
  shared : σ
  threads : List (Thread π)
deriving DecidableEq, Repr

inductive Event (κ ε : Type) where
  /-- A new thread makes a call. -/
  | start (call : κ)
  | turn (i : Nat) (answer : ε)
deriving DecidableEq, Repr

variable {σ π κ ε : Type}

/-- A notification reaches a thread. -/
def Thread.wake (thread : Thread π) : Thread π := { thread with asleep := false }

namespace State

def stages (state : State σ π) : List π := state.threads.map Thread.stage

/-- A thread ends a turn: `waits` and `notifies` say which calls of the condition it
made. -/
def finishTurn (state : State σ π) (i : Nat) (shared : σ) (stage : π) (waits notifies : Bool) :
    State σ π :=
  let threads := if notifies then state.threads.map Thread.wake else state.threads
  { shared, threads := threads.set i ⟨stage, waits⟩ }

end State

def step (monitor : Monitor σ π κ ε) (state : State σ π) : Event κ ε → Option (State σ π)
  | .start call => some { state with threads := state.threads ++ [⟨monitor.enter call, false⟩] }
  | .turn i answer => do
      let thread ← state.threads[i]?
      if thread.asleep then none
      else
        let (shared, stage, waits, notifies) ← monitor.turn i answer state.shared thread.stage
        some (state.finishTurn i shared stage waits notifies)

/-- Any number of threads, and all interleavings of their turns. -/
def system (monitor : Monitor σ π κ ε) : TransitionSystem (State σ π) (Event κ ε) :=
  ⟨⟨monitor.init, []⟩, monitor.step⟩

variable {monitor : Monitor σ π κ ε} {state next : State σ π}

/-! ## What a turn does -/

/-- The inversion lemma of a turn. -/
theorem turn_cases {i : Nat} {answer : ε} (h : monitor.step state (.turn i answer) = some next) :
    ∃ thread shared stage waits notifies,
      state.threads[i]? = some thread ∧ thread.asleep = false ∧
        monitor.turn i answer state.shared thread.stage = some (shared, stage, waits, notifies) ∧
          next = state.finishTurn i shared stage waits notifies := by
  rw [step, Option.bind_eq_bind, Option.bind_eq_some_iff] at h
  obtain ⟨thread, hthread, h⟩ := h
  split at h
  · cases h
  · rename_i hawake
    rw [Option.bind_eq_bind, Option.bind_eq_some_iff] at h
    obtain ⟨⟨shared, stage, waits, notifies⟩, hturn, h⟩ := h
    exact ⟨thread, shared, stage, waits, notifies, hthread, Bool.eq_false_iff.mpr hawake,
      hturn, (Option.some.inj h).symm⟩

/-- The inversion lemma of an event. -/
theorem event_cases {event : Event κ ε} (h : monitor.step state event = some next) :
    (∃ call, next = { state with threads := state.threads ++ [⟨monitor.enter call, false⟩] }) ∨
      ∃ i answer thread shared stage waits notifies,
        state.threads[i]? = some thread ∧ thread.asleep = false ∧
          monitor.turn i answer state.shared thread.stage = some (shared, stage, waits, notifies) ∧
            next = state.finishTurn i shared stage waits notifies := by
  cases event with
  | start call => exact Or.inl ⟨call, (Option.some.inj h).symm⟩
  | turn i answer =>
      obtain ⟨thread, shared, stage, waits, notifies, hturn⟩ := turn_cases h
      exact Or.inr ⟨i, answer, thread, shared, stage, waits, notifies, hturn⟩

/-- A turn moves one stage. -/
theorem stages_finishTurn (i : Nat) (shared : σ) (stage : π) (waits notifies : Bool) :
    (state.finishTurn i shared stage waits notifies).stages = state.stages.set i stage := by
  have hwake : (state.threads.map Thread.wake).map Thread.stage =
      state.threads.map Thread.stage := by
    rw [List.map_map]
    rfl
  unfold State.finishTurn State.stages
  cases notifies with
  | true => rw [if_pos rfl, List.map_set, hwake]
  | false => rw [if_neg Bool.false_ne_true, List.map_set]

/-- What an event does to the shared state and to the stages. -/
theorem step_cases {event : Event κ ε} (h : monitor.step state event = some next) :
    (∃ call, next.shared = state.shared ∧ next.stages = state.stages ++ [monitor.enter call]) ∨
      ∃ i answer old shared stage waits notifies, state.stages[i]? = some old ∧
        monitor.turn i answer state.shared old = some (shared, stage, waits, notifies) ∧
          next.shared = shared ∧ next.stages = state.stages.set i stage := by
  rcases event_cases h with ⟨call, rfl⟩ |
    ⟨i, answer, thread, shared, stage, waits, notifies, hthread, -, hturn, rfl⟩
  · exact Or.inl ⟨call, rfl, List.map_append⟩
  · refine Or.inr ⟨i, answer, thread.stage, shared, stage, waits, notifies, ?_, hturn, rfl,
      stages_finishTurn i shared stage waits notifies⟩
    rw [State.stages, List.getElem?_map, hthread]
    rfl

/-- An invariant of the shared state and the stages holds in every reachable state. -/
theorem invariant_of_reachable (Inv : σ → List π → Prop) (hinit : Inv monitor.init [])
    (hstart : ∀ {shared : σ} {stages : List π} (call : κ), Inv shared stages →
      Inv shared (stages ++ [monitor.enter call]))
    (hturn : ∀ {shared shared' : σ} {stages : List π} {i : Nat} {answer : ε} {old stage : π}
      {waits notifies : Bool}, Inv shared stages → stages[i]? = some old →
      monitor.turn i answer shared old = some (shared', stage, waits, notifies) →
      Inv shared' (stages.set i stage))
    (h : monitor.system.Reachable state) : Inv state.shared state.stages := by
  refine h.invariant (fun state => Inv state.shared state.stages) hinit ?_
  intro state next event _ hinv hstep
  rcases step_cases hstep with ⟨call, hshared, hstages⟩ |
    ⟨i, answer, old, shared, stage, waits, notifies, hold, hrun, hshared, hstages⟩
  · rw [hshared, hstages]
    exact hstart call hinv
  · rw [hshared, hstages]
    exact hturn hinv hold hrun

/-! ## No lost wakeup -/

/-- A thread sleeps only while its guard holds, and a turn that may end the guard of another
thread notifies. -/
structure Attentive (monitor : Monitor σ π κ ε) (guard : σ → π → Prop) : Prop where
  waits : ∀ {i : Nat} {answer : ε} {shared shared' : σ} {old stage : π} {notifies : Bool},
    monitor.turn i answer shared old = some (shared', stage, true, notifies) →
    guard shared' stage
  keeps : ∀ {i : Nat} {answer : ε} {shared shared' : σ} {old stage : π} {waits : Bool},
    monitor.turn i answer shared old = some (shared', stage, waits, false) →
    ∀ other, guard shared other → guard shared' other

/-- Every thread that sleeps has to wait. -/
theorem guarded_of_reachable {guard : σ → π → Prop} (hattentive : monitor.Attentive guard)
    (h : monitor.system.Reachable state) :
    ∀ thread ∈ state.threads, thread.asleep = true → guard state.shared thread.stage := by
  refine h.invariant
    (fun state => ∀ thread ∈ state.threads, thread.asleep = true →
      guard state.shared thread.stage) nofun ?_
  intro state next event _ hguarded hstep
  rcases event_cases hstep with ⟨call, rfl⟩ |
    ⟨i, answer, thread, shared, stage, waits, notifies, -, -, hturn, rfl⟩
  · intro other hmem hasleep
    rcases List.mem_append.mp hmem with hmem | hmem
    · exact hguarded other hmem hasleep
    · rw [List.mem_singleton.mp hmem] at hasleep
      cases hasleep
  · refine forall_mem_set ?_ ?_
    · intro other hmem hasleep
      cases notifies with
      | true =>
          -- After a notification nobody but the thread of the turn sleeps.
          obtain ⟨old, -, rfl⟩ := List.mem_map.mp hmem
          cases hasleep
      | false => exact hattentive.keeps hturn _ (hguarded other hmem hasleep)
    · intro hwaits
      dsimp only at hwaits
      subst hwaits
      exact hattentive.waits hturn

/-- A thread that is awake and has not returned can take its turn. -/
theorem turn_enabled {i : Nat} {answer : ε} {thread : Thread π}
    (hthread : state.threads[i]? = some thread) (hawake : thread.asleep = false)
    (h : (monitor.turn i answer state.shared thread.stage).isSome = true) :
    ∃ next, monitor.step state (.turn i answer) = some next := by
  obtain ⟨⟨shared, stage, waits, notifies⟩, hturn⟩ := Option.isSome_iff_exists.mp h
  refine ⟨state.finishTurn i shared stage waits notifies, ?_⟩
  rw [step, hthread, Option.bind_eq_bind, Option.bind_some, hawake, if_neg Bool.false_ne_true,
    hturn]
  rfl

/-! ## Progress -/

/-- A turn takes its thread nearer to its end, or only puts it to sleep. -/
def Descends (monitor : Monitor σ π κ ε) (rank : π → Nat) : Prop :=
  ∀ {i : Nat} {answer : ε} {shared shared' : σ} {old stage : π} {waits notifies : Bool},
    monitor.turn i answer shared old = some (shared', stage, waits, notifies) →
      rank stage < rank old ∨ rank stage = rank old ∧ waits = true ∧ notifies = false

/-- A bound on the turns that the threads have left. -/
def State.budget (rank : π → Nat) (state : State σ π) : Nat :=
  (state.stages.map rank).sum * (state.threads.length + 1) +
    state.threads.countP fun thread => !thread.asleep

theorem budget_lt {rank : π → Nat} (hdescends : monitor.Descends rank) {i : Nat} {answer : ε}
    (h : monitor.step state (.turn i answer) = some next) :
    next.budget rank < state.budget rank := by
  obtain ⟨thread, shared, stage, waits, notifies, hthread, hawake, hturn, rfl⟩ := turn_cases h
  have hstage : state.stages[i]? = some thread.stage := by
    rw [State.stages, List.getElem?_map, hthread]
    rfl
  have hsum := sum_map_set_add rank stage hstage
  have hlength : (state.finishTurn i shared stage waits notifies).threads.length =
      state.threads.length := by
    unfold State.finishTurn
    split <;> simp
  unfold State.budget
  rw [stages_finishTurn, hlength]
  rcases hdescends hturn with hlt | ⟨hsame, rfl, rfl⟩
  · -- Even when everybody wakes up, the rank that was lost pays for it.
    have hawakes := List.countP_le_length (p := fun thread : Thread π => !thread.asleep)
      (l := (state.finishTurn i shared stage waits notifies).threads)
    rw [hlength] at hawakes
    have hle : ((state.stages.set i stage).map rank).sum + 1 ≤ (state.stages.map rank).sum := by
      omega
    have hmul := Nat.mul_le_mul_right (state.threads.length + 1) hle
    rw [Nat.add_mul, Nat.one_mul] at hmul
    omega
  · have hcount := countP_set_add (fun thread => !thread.asleep) ⟨stage, true⟩ hthread
    have hle : ((state.stages.set i stage).map rank).sum = (state.stages.map rank).sum := by
      omega
    rw [hle]
    unfold State.finishTurn
    rw [if_neg Bool.false_ne_true]
    rw [hawake] at hcount
    simp only [Bool.not_false, Bool.not_true, Bool.toNat_true, Bool.toNat_false] at hcount
    dsimp only
    omega

/-- The threads that are there come to an end: they take no more turns than their budget. -/
theorem turns_le_budget {rank : π → Nat} (hdescends : monitor.Descends rank)
    {turns : List (Nat × ε)}
    (h : (turns.map fun turn => .turn turn.1 turn.2).foldlM monitor.step state = some next) :
    turns.length + next.budget rank ≤ state.budget rank := by
  induction turns generalizing state with
  | nil =>
      simp only [List.map_nil, List.foldlM_nil, pure, Option.some.injEq] at h
      rw [h, List.length_nil, Nat.zero_add]
  | cons turn turns ih =>
      rw [List.map_cons, List.foldlM_cons, Option.bind_eq_bind, Option.bind_eq_some_iff] at h
      obtain ⟨middle, hstep, hrest⟩ := h
      have hlt := budget_lt hdescends hstep
      have hle := ih hrest
      rw [List.length_cons]
      omega

end Monitor

end FogHttp.Lib
