import Mathlib.Algebra.Ring.Int.Defs
import Mathlib.Algebra.Ring.Nat
import Mathlib.Data.List.Basic

/-!
# Transition systems

Concurrent code is modelled by a state, a type of events and a step function.
An event is one atomic section of one party, and the step function returns
`none` when the party is not at that section.  Every interleaving of the parties
is then one list of events, and a property of all interleavings is a property
of all reachable states.

* `TransitionSystem` is the system, `run` follows a list of events, and
  `Reachable` is membership in some run.
* `Reachable.invariant` is the induction over runs: a property that holds at the
  start and survives every step from a reachable state holds in every reachable
  state.
* `Later` relates two states of one run, and `Later.stable` is its induction.
* `run_map_view` relates a system to one that keeps books about it.
* `along` says that every step of a run meets a condition.  `invariant_of_along` is the
  induction over such runs, and `exists_of_not_along` finds the step that misses it.
* The parties of a system stand in a list, and a step replaces one entry.  The
  `set` lemmas say what that does to a count, to a sum and to an existence
  statement over the list.

Nothing here names a function of a particular program.
-/

namespace FogHttp.Lib

structure TransitionSystem (σ ε : Type) where
  init : σ
  /-- The state after an event, or `none` when the event is not enabled. -/
  step : σ → ε → Option σ

namespace TransitionSystem

variable {σ ε : Type}

/-- The state after a list of events, each of them enabled in its turn. -/
def run (system : TransitionSystem σ ε) (events : List ε) : Option σ :=
  events.foldlM system.step system.init

/-- A state that some run ends in. -/
inductive Reachable (system : TransitionSystem σ ε) : σ → Prop where
  | init : Reachable system system.init
  | step {state next : σ} {event : ε} (reachable : Reachable system state)
      (step : system.step state event = some next) : Reachable system next

/-- Every step from a reachable state that follows events stays reachable. -/
theorem Reachable.foldlM {system : TransitionSystem σ ε} {state next : σ} {events : List ε}
    (h : system.Reachable state) (hrun : events.foldlM system.step state = some next) :
    system.Reachable next := by
  induction events generalizing state with
  | nil =>
      simp only [List.foldlM_nil, pure, Option.some.injEq] at hrun
      exact hrun ▸ h
  | cons event events ih =>
      rw [List.foldlM_cons, Option.bind_eq_bind, Option.bind_eq_some_iff] at hrun
      obtain ⟨middle, hstep, hrest⟩ := hrun
      exact ih (h.step hstep) hrest

/-- The end of a run is reachable. -/
theorem reachable_of_run {system : TransitionSystem σ ε} {state : σ} {events : List ε}
    (h : system.run events = some state) : system.Reachable state :=
  Reachable.init.foldlM h

/-- The invariant rule.  The step may use that its first state is reachable. -/
theorem Reachable.invariant {system : TransitionSystem σ ε} {state : σ} (Inv : σ → Prop)
    (hinit : Inv system.init)
    (hstep : ∀ {state next : σ} {event : ε}, system.Reachable state → Inv state →
      system.step state event = some next → Inv next)
    (h : system.Reachable state) : Inv state := by
  induction h with
  | init => exact hinit
  | step reachable step ih => exact hstep reachable ih step

/-- `next` comes at or after `state` in a run. -/
def Later (system : TransitionSystem σ ε) (state next : σ) : Prop :=
  ∃ events : List ε, events.foldlM system.step state = some next

theorem Later.reachable {system : TransitionSystem σ ε} {state next : σ}
    (hlater : system.Later state next) (h : system.Reachable state) : system.Reachable next := by
  obtain ⟨events, hrun⟩ := hlater
  exact h.foldlM hrun

/-- What every step from a reachable state keeps is kept from one state to all later
ones. -/
theorem Later.stable {system : TransitionSystem σ ε} {state next : σ} (Inv : σ → Prop)
    (hstep : ∀ {state next : σ} {event : ε}, system.Reachable state → Inv state →
      system.step state event = some next → Inv next)
    (hreachable : system.Reachable state) (hlater : system.Later state next)
    (h : Inv state) : Inv next := by
  obtain ⟨events, hrun⟩ := hlater
  induction events generalizing state with
  | nil =>
      simp only [List.foldlM_nil, pure, Option.some.injEq] at hrun
      exact hrun ▸ h
  | cons event events ih =>
      rw [List.foldlM_cons, Option.bind_eq_bind, Option.bind_eq_some_iff] at hrun
      obtain ⟨middle, hmiddle, hrest⟩ := hrun
      exact ih (hreachable.step hmiddle) (hstep hreachable h hmiddle) hrest

/-- A system that only keeps books about another one has its runs: whatever `view` reads
off is what the other system computes. -/
theorem run_map_view {τ : Type} {system : TransitionSystem σ ε}
    {observer : TransitionSystem τ ε} (view : τ → σ) (hinit : view observer.init = system.init)
    (hstep : ∀ state event,
      (observer.step state event).map view = system.step (view state) event)
    (events : List ε) : (observer.run events).map view = system.run events := by
  have hfollow : ∀ (events : List ε) (state : τ),
      (events.foldlM observer.step state).map view =
        events.foldlM system.step (view state) := by
    intro events
    induction events with
    | nil =>
        intro state
        rfl
    | cons event events ih =>
        intro state
        rw [List.foldlM_cons, List.foldlM_cons, ← hstep state event]
        cases observer.step state event with
        | none => rfl
        | some next => exact ih next
  unfold run
  rw [hfollow, hinit]

/-! ## Runs whose steps meet a condition -/

/-- Every step of the run that these events make from a state meets the condition. -/
def along (system : TransitionSystem σ ε) (p : σ → ε → Bool) : σ → List ε → Bool
  | _, [] => true
  | state, event :: events =>
      p state event &&
        match system.step state event with
        | some next => system.along p next events
        | none => true

theorem along_cons {system : TransitionSystem σ ε} {p : σ → ε → Bool} {state next : σ}
    {event : ε} {events : List ε} (h : system.step state event = some next) :
    system.along p state (event :: events) =
      (p state event && system.along p next events) := by
  simp only [along, h]

/-- The invariant rule for a run whose steps meet a condition: a property that such a step
keeps holds at its end. -/
theorem invariant_of_along {system : TransitionSystem σ ε} {p : σ → ε → Bool}
    (Inv : σ → Prop)
    (hstep : ∀ {state next : σ} {event : ε}, system.Reachable state → Inv state →
      p state event = true → system.step state event = some next → Inv next)
    {state final : σ} {events : List ε} (hreachable : system.Reachable state)
    (hrun : events.foldlM system.step state = some final)
    (halong : system.along p state events = true) (h : Inv state) : Inv final := by
  induction events generalizing state with
  | nil =>
      simp only [List.foldlM_nil, pure, Option.some.injEq] at hrun
      exact hrun ▸ h
  | cons event events ih =>
      rw [List.foldlM_cons, Option.bind_eq_bind, Option.bind_eq_some_iff] at hrun
      obtain ⟨middle, hmiddle, hrest⟩ := hrun
      rw [along_cons hmiddle, Bool.and_eq_true] at halong
      exact ih (hreachable.step hmiddle) hrest halong.2
        (hstep hreachable h halong.1 hmiddle)

/-- A run with a step that misses the condition goes through such a step. -/
theorem exists_of_not_along {system : TransitionSystem σ ε} {p : σ → ε → Bool}
    {state final : σ} {events : List ε} (hreachable : system.Reachable state)
    (hrun : events.foldlM system.step state = some final)
    (hnot : system.along p state events = false) :
    ∃ before event after, system.Reachable before ∧ p before event = false ∧
      system.step before event = some after ∧ system.Later after final := by
  induction events generalizing state with
  | nil => simp [along] at hnot
  | cons event events ih =>
      rw [List.foldlM_cons, Option.bind_eq_bind, Option.bind_eq_some_iff] at hrun
      obtain ⟨middle, hmiddle, hrest⟩ := hrun
      rw [along_cons hmiddle, Bool.and_eq_false_iff] at hnot
      rcases hnot with hfirst | hlater
      · exact ⟨state, event, middle, hreachable, hfirst, hmiddle, events, hrest⟩
      · exact ih (hreachable.step hmiddle) hrest hlater

end TransitionSystem

/-! ## Replacing one party -/

section Party

variable {α : Type} {parties : List α} {i : Nat} {old new : α}

/-- Replacing a party changes a count by that party only. -/
theorem countP_set_add (p : α → Bool) (new : α) (h : parties[i]? = some old) :
    (parties.set i new).countP p + (p old).toNat = parties.countP p + (p new).toNat := by
  obtain ⟨hi, rfl⟩ := List.getElem?_eq_some_iff.mp h
  rw [List.countP_set hi]
  have hpos : p parties[i] = true → 0 < parties.countP p := by
    intro hp
    exact List.countP_pos_iff.mpr ⟨_, List.getElem_mem hi, hp⟩
  cases hold : p parties[i] with
  | true =>
      have := hpos hold
      cases p new <;> simp <;> omega
  | false => cases p new <;> simp

/-- Replacing a party changes a sum by that party only. -/
theorem sum_map_set_add (f : α → Nat) (new : α) (h : parties[i]? = some old) :
    ((parties.set i new).map f).sum + f old = (parties.map f).sum + f new := by
  induction parties generalizing i with
  | nil => simp at h
  | cons party parties ih =>
      cases i with
      | zero =>
          rw [List.getElem?_cons_zero, Option.some.injEq] at h
          subst h
          rw [List.set_cons_zero, List.map_cons, List.map_cons, List.sum_cons, List.sum_cons]
          omega
      | succ i =>
          rw [List.getElem?_cons_succ] at h
          have hrest := ih h
          rw [List.set_cons_succ, List.map_cons, List.map_cons, List.sum_cons, List.sum_cons]
          omega

/-- The sum is at least the share of one party. -/
theorem le_sum_map (f : α → Nat) (h : parties[i]? = some old) :
    f old ≤ (parties.map f).sum := by
  induction parties generalizing i with
  | nil => simp at h
  | cons party parties ih =>
      rw [List.map_cons, List.sum_cons]
      cases i with
      | zero =>
          rw [List.getElem?_cons_zero, Option.some.injEq] at h
          rw [h]
          omega
      | succ i =>
          have hrest := ih h
          omega

/-- A sum is at least a count of parties that contribute to it. -/
theorem countP_le_sum_map {p : α → Bool} {f : α → Nat}
    (h : ∀ party ∈ parties, p party = true → 0 < f party) :
    parties.countP p ≤ (parties.map f).sum := by
  induction parties with
  | nil => simp
  | cons party parties ih =>
      have hrest := ih fun other hmem => h other (List.mem_cons_of_mem _ hmem)
      rw [List.countP_cons, List.map_cons, List.sum_cons]
      split
      · rename_i hparty
        have hpos := h party (by simp) hparty
        omega
      · omega

/-- A property of all parties after one of them was replaced. -/
theorem forall_mem_set {P : α → Prop} (hrest : ∀ party ∈ parties, P party) (hnew : P new) :
    ∀ party ∈ parties.set i new, P party := by
  intro party hmem
  rcases List.mem_or_eq_of_mem_set hmem with hmem | rfl
  · exact hrest party hmem
  · exact hnew

/-- A party that is not the replaced one is still there. -/
theorem exists_mem_set {P : α → Prop} (h : parties[i]? = some old) (hold : ¬ P old)
    (hex : ∃ party ∈ parties, P party) : ∃ party ∈ parties.set i new, P party := by
  obtain ⟨party, hmem, hparty⟩ := hex
  obtain ⟨j, hj⟩ := List.mem_iff_getElem?.mp hmem
  have hne : i ≠ j := by
    intro hsame
    subst hsame
    rw [h] at hj
    exact hold (Option.some.inj hj ▸ hparty)
  exact ⟨party, List.mem_iff_getElem?.mpr ⟨j, by rw [List.getElem?_set_ne hne, hj]⟩, hparty⟩

/-- The replaced party is there. -/
theorem mem_set_self (h : parties[i]? = some old) : new ∈ parties.set i new := by
  obtain ⟨hi, -⟩ := List.getElem?_eq_some_iff.mp h
  exact List.mem_iff_getElem?.mpr ⟨i, by simp [hi]⟩

end Party

end FogHttp.Lib
