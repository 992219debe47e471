import Mathlib.Data.Nat.Notation

/-!
# Loops that ask their surroundings

A `loop` of the source whose body may `return` or `continue` is a function from
the state to a `Round`.  What the body learns from outside in one round (the
network, the clock, a callback) is the answer of that round, and the loop takes
one answer a round from a stream.  A statement about all streams is a statement
about all surroundings, also those that react to what the loop did before,
because a reacting partner gives some stream of answers.

`Round.Ends` is what one round guarantees.  `loop` has fuel.  `loop_invariant`
holds for every amount of it.
`loop_returns` is the variant rule: while a measure falls with every further
round, a fuel above the measure lets the loop return.
`Round.Meets` also speaks of the result, and `loop_meets` is the rule for total
correctness: the loop returns, with a result that meets its condition.

Nothing here names a function of a particular program.
-/

namespace FogHttp.Lib

variable {σ ρ ε : Type}

/-- The end of one round of a loop, with the state it leaves. -/
inductive Round (σ ρ : Type) where
  | done (result : ρ) (state : σ)
  | again (state : σ)

/-- At most `fuel` rounds.  There is no result when the fuel runs out. -/
def loop (round : ε → σ → Round σ ρ) : Nat → (Nat → ε) → σ → Option ρ × σ
  | 0, _, state => (none, state)
  | fuel + 1, answers, state =>
      match round (answers 0) state with
      | .done result state => (some result, state)
      | .again state => loop round fuel (fun n => answers (n + 1)) state

/-- A round returns with a state in `done`, or goes on with one in `again`. -/
def Round.Ends (done again : σ → Prop) : Round σ ρ → Prop
  | .done _ state => done state
  | .again state => again state

theorem Round.Ends.imp {done again done' again' : σ → Prop} {end_ : Round σ ρ}
    (h : end_.Ends done again) (hdone : ∀ state, done state → done' state)
    (hagain : ∀ state, again state → again' state) : end_.Ends done' again' := by
  cases end_ with
  | done result state => exact hdone state h
  | again state => exact hagain state h

variable {round : ε → σ → Round σ ρ}

/-- The invariant rule: `Inv` holds between the rounds and `Post` holds at the end. -/
theorem loop_invariant (Inv Post : σ → Prop) (hpost : ∀ state, Inv state → Post state)
    (hround : ∀ answer state, Inv state → (round answer state).Ends Post Inv)
    (fuel : Nat) (answers : Nat → ε) (state : σ) (h : Inv state) :
    Post (loop round fuel answers state).2 := by
  induction fuel generalizing answers state with
  | zero => exact hpost state h
  | succ fuel ih =>
      have hends := hround (answers 0) state h
      rw [loop]
      cases hnext : round (answers 0) state with
      | done result next =>
          rw [hnext] at hends
          exact hends
      | again next =>
          rw [hnext] at hends
          exact ih _ next hends

/-- The variant rule. -/
theorem loop_returns (Inv : σ → Prop) (variant : σ → Nat)
    (hround : ∀ answer state, Inv state →
      (round answer state).Ends (fun _ => True)
        (fun next => Inv next ∧ variant next < variant state))
    (fuel : Nat) (answers : Nat → ε) (state : σ) (h : Inv state) (hfuel : variant state < fuel) :
    (loop round fuel answers state).1.isSome = true := by
  induction fuel generalizing answers state with
  | zero => omega
  | succ fuel ih =>
      have hends := hround (answers 0) state h
      rw [loop]
      cases hnext : round (answers 0) state with
      | done result next => rfl
      | again next =>
          rw [hnext] at hends
          obtain ⟨hinv, hless⟩ := hends
          apply ih _ next hinv
          omega

/-- A round returns with a result and a state in `done`, or goes on with a state
in `again`. -/
def Round.Meets (done : ρ → σ → Prop) (again : σ → Prop) : Round σ ρ → Prop
  | .done result state => done result state
  | .again state => again state

theorem Round.Meets.imp {done done' : ρ → σ → Prop} {again again' : σ → Prop}
    {end_ : Round σ ρ} (h : end_.Meets done again)
    (hdone : ∀ result state, done result state → done' result state)
    (hagain : ∀ state, again state → again' state) : end_.Meets done' again' := by
  cases end_ with
  | done result state => exact hdone result state h
  | again state => exact hagain state h

/-- The rule for total correctness. -/
theorem loop_meets (Inv : σ → Prop) (Post : ρ → σ → Prop) (variant : σ → Nat)
    (hround : ∀ answer state, Inv state →
      (round answer state).Meets Post (fun next => Inv next ∧ variant next < variant state))
    (fuel : Nat) (answers : Nat → ε) (state : σ) (h : Inv state) (hfuel : variant state < fuel) :
    ∃ result final, loop round fuel answers state = (some result, final) ∧ Post result final := by
  induction fuel generalizing answers state with
  | zero => omega
  | succ fuel ih =>
      have hmeets := hround (answers 0) state h
      rw [loop]
      cases hnext : round (answers 0) state with
      | done result next =>
          rw [hnext] at hmeets
          exact ⟨result, next, rfl, hmeets⟩
      | again next =>
          rw [hnext] at hmeets
          obtain ⟨hinv, hless⟩ := hmeets
          apply ih _ next hinv
          omega

/-- The rule for partial correctness, for one stream of answers. -/
theorem loop_partial (Inv : σ → Prop) (Post : ρ → σ → Prop) (answers : Nat → ε)
    (hround : ∀ n state, Inv state → (round (answers n) state).Meets Post Inv)
    (fuel : Nat) (state : σ) (h : Inv state) {result : ρ} {final : σ}
    (hrun : loop round fuel answers state = (some result, final)) : Post result final := by
  induction fuel generalizing answers state with
  | zero => simp [loop] at hrun
  | succ fuel ih =>
      have hmeets := hround 0 state h
      rw [loop] at hrun
      cases hnext : round (answers 0) state with
      | done done next =>
          rw [hnext] at hmeets hrun
          simp only [Prod.mk.injEq, Option.some.injEq] at hrun
          obtain ⟨rfl, rfl⟩ := hrun
          exact hmeets
      | again next =>
          rw [hnext] at hmeets hrun
          exact ih (fun n => answers (n + 1)) (fun n => hround (n + 1)) next hmeets hrun

/-! ## Loops with more state -/

variable {σ' ε' : Type} {round' : ε' → σ' → Round σ' ρ}

/-- A round whose state is seen through a function. -/
def Round.map (view : σ → σ') : Round σ ρ → Round σ' ρ
  | .done result state => .done result (view state)
  | .again state => .again (view state)

theorem Round.meets_map {view : σ → σ'} {done : ρ → σ' → Prop} {again : σ' → Prop}
    {end_ : Round σ ρ} : (end_.map view).Meets done again ↔
      end_.Meets (fun result state => done result (view state)) fun state =>
        again (view state) := by
  cases end_ <;> rfl

/-- A loop that carries more state returns what the smaller loop returns, when every
round does. -/
theorem loop_map (view : σ → σ') (answer' : ε → ε')
    (hround : ∀ answer state,
      (round answer state).map view = round' (answer' answer) (view state))
    (fuel : Nat) (answers : Nat → ε) (state : σ) :
    loop round' fuel (fun n => answer' (answers n)) (view state) =
      ((loop round fuel answers state).1, view (loop round fuel answers state).2) := by
  induction fuel generalizing answers state with
  | zero => rfl
  | succ fuel ih =>
      rw [loop, loop, ← hround]
      cases round (answers 0) state with
      | done result next => rfl
      | again next => exact ih (fun n => answers (n + 1)) next

end FogHttp.Lib
