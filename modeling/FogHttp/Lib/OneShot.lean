import Mathlib.Data.List.Basic

/-!
# Flags that one party sets

Several parties race for a flag that is set once, with

```
flag.compare_exchange(false, true).is_ok()
```

and only the party that set it goes on to the work that is to be done once.
`OneShot` is the flag, with the party that set it.  The parties write what they
do into one log, each entry with its party.

* `take_cases` is the exchange: it succeeds on a flag that nobody set, and
  leaves any other flag alone.
* `OnlyBy` says that every entry of a kind is by the winner.  It survives an
  exchange, and an entry that is of another kind or by the winner.
* `Race` is the whole pattern: every party comes to the flag once, the winner
  works and then records the end, and the others go home.  `Race.Fair` is its
  invariant, and a program whose steps are `Race.Step`s records the end at most
  once, and exactly once when its winner is through.

Nothing here names a function of a particular program.
-/

namespace FogHttp.Lib

/-- A flag, with the party that set it. -/
structure OneShot (π : Type) where
  winner : Option π
deriving DecidableEq, Repr

namespace OneShot

variable {π ε : Type} {flag : OneShot π} {party : π}

/-- A flag that nobody set. -/
def unset : OneShot π := ⟨none⟩

def isSet (flag : OneShot π) : Bool := flag.winner.isSome

/-- The exchange of one party: whether it succeeded, and the flag after it. -/
def take (flag : OneShot π) (party : π) : Bool × OneShot π :=
  match flag.winner with
  | none => (true, ⟨some party⟩)
  | some _ => (false, flag)

theorem take_cases (flag : OneShot π) (party : π) :
    flag.winner = none ∧ flag.take party = (true, ⟨some party⟩) ∨
      (∃ winner, flag.winner = some winner) ∧ flag.take party = (false, flag) := by
  unfold take
  cases h : flag.winner with
  | none => exact Or.inl ⟨rfl, rfl⟩
  | some winner => exact Or.inr ⟨⟨winner, rfl⟩, rfl⟩

/-! ## What only the winner does -/

/-- Every entry of the kind is by the winner. -/
def OnlyBy (flag : OneShot π) (kind : ε → Bool) (log : List (π × ε)) : Prop :=
  ∀ entry ∈ log, kind entry.2 = true → flag.winner = some entry.1

variable {kind : ε → Bool} {log : List (π × ε)} {effect : ε}

theorem OnlyBy.mono {after : OneShot π} (h : flag.OnlyBy kind log)
    (hwinner : ∀ party, flag.winner = some party → after.winner = some party) :
    after.OnlyBy kind log := by
  intro entry hmem hkind
  exact hwinner entry.1 (h entry hmem hkind)

theorem OnlyBy.append (h : flag.OnlyBy kind log)
    (hwinner : kind effect = true → flag.winner = some party) :
    flag.OnlyBy kind (log ++ [(party, effect)]) := by
  intro entry hmem hentry
  rcases List.mem_append.mp hmem with hmem | hmem
  · exact h entry hmem hentry
  · rw [List.mem_singleton.mp hmem] at hentry ⊢
    exact hwinner hentry

end OneShot

/-! ## The race for the flag -/

/-- How far a party has come: it has not seen the flag, it won and has not recorded the
end, or there is nothing left to record. -/
inductive Phase where
  | before
  | working
  | done
deriving DecidableEq, Repr

structure Race (π : Type) where
  flag : OneShot π
  phase : π → Phase
  /-- How often the end was recorded. -/
  recorded : Nat

namespace Race

variable {π : Type} {race next : Race π}

structure Fair (race : Race π) : Prop where
  before : ∀ party, race.phase party = .before → race.flag.winner ≠ some party
  working : ∀ party, race.phase party = .working → race.flag.winner = some party
  unset : race.flag.winner = none → race.recorded = 0
  recorded : ∀ party, race.flag.winner = some party →
    race.recorded = if race.phase party = .done then 1 else 0

/-- At the start nobody has seen the flag. -/
theorem fair_of_unset (hflag : race.flag.winner = none)
    (hphase : ∀ party, race.phase party = .before) (hrecorded : race.recorded = 0) :
    Fair race where
  before := by
    intro party _
    rw [hflag]
    simp
  working := by
    intro party hworking
    rw [hphase] at hworking
    cases hworking
  unset := fun _ => hrecorded
  recorded := by
    intro party hwinner
    rw [hflag] at hwinner
    cases hwinner

/-- The end is recorded at most once. -/
theorem Fair.recorded_le_one (h : Fair race) : race.recorded ≤ 1 := by
  cases hwinner : race.flag.winner with
  | none =>
      rw [h.unset hwinner]
      exact Nat.zero_le 1
  | some party =>
      rw [h.recorded party hwinner]
      split <;> omega

/-- The end is recorded once when the winner is through. -/
theorem Fair.recorded_eq_one (h : Fair race) {party : π}
    (hwinner : race.flag.winner = some party) (hdone : race.phase party = .done) :
    race.recorded = 1 := by
  rw [h.recorded party hwinner, if_pos hdone]

/-- One step of one party. -/
inductive Step (race next : Race π) : Prop where
  | stay (phase : ∀ party, next.phase party = race.phase party) (flag : next.flag = race.flag)
      (recorded : next.recorded = race.recorded)
  /-- The party goes home, without the exchange or after one that failed. -/
  | leave (party : π) (others : ∀ other ≠ party, next.phase other = race.phase other)
      (before : race.phase party = .before) (done : next.phase party = .done)
      (flag : next.flag = race.flag) (recorded : next.recorded = race.recorded)
  | win (party : π) (others : ∀ other ≠ party, next.phase other = race.phase other)
      (unset : race.flag.winner = none) (working : next.phase party = .working)
      (flag : next.flag.winner = some party) (recorded : next.recorded = race.recorded)
  | record (party : π) (others : ∀ other ≠ party, next.phase other = race.phase other)
      (working : race.phase party = .working) (done : next.phase party = .done)
      (flag : next.flag = race.flag) (recorded : next.recorded = race.recorded + 1)

/-- A party that goes home changes nothing, as it is not the winner. -/
theorem Fair.leave (h : Fair race) {party : π}
    (others : ∀ other ≠ party, next.phase other = race.phase other)
    (hbefore : race.phase party = .before) (hdone : next.phase party = .done)
    (hflag : next.flag = race.flag) (hrecorded : next.recorded = race.recorded) : Fair next := by
  have hloser := h.before party hbefore
  refine ⟨?_, ?_, ?_, ?_⟩
  · intro other hother
    rw [hflag]
    by_cases heq : other = party
    · exact heq ▸ hloser
    · exact h.before other (others other heq ▸ hother)
  · intro other hother
    by_cases heq : other = party
    · rw [heq, hdone] at hother
      cases hother
    · rw [hflag]
      exact h.working other (others other heq ▸ hother)
  · rw [hflag, hrecorded]
    exact h.unset
  · intro other hwinner
    rw [hflag] at hwinner
    have hne : other ≠ party := by
      intro hsame
      subst hsame
      exact hloser hwinner
    rw [hrecorded, others other hne]
    exact h.recorded other hwinner

theorem Fair.win (h : Fair race) {party : π}
    (others : ∀ other ≠ party, next.phase other = race.phase other)
    (hunset : race.flag.winner = none) (hworking : next.phase party = .working)
    (hflag : next.flag.winner = some party) (hrecorded : next.recorded = race.recorded) :
    Fair next := by
  refine ⟨?_, ?_, ?_, ?_⟩
  · intro other hother hwinner
    rw [hflag, Option.some.injEq] at hwinner
    rw [← hwinner, hworking] at hother
    cases hother
  · intro other hother
    by_cases heq : other = party
    · rw [heq, hflag]
    · have hwinner := h.working other (others other heq ▸ hother)
      rw [hunset] at hwinner
      cases hwinner
  · intro hnone
    rw [hflag] at hnone
    cases hnone
  · intro other hwinner
    rw [hflag, Option.some.injEq] at hwinner
    rw [hrecorded, h.unset hunset, ← hwinner, hworking, if_neg (by decide)]

/-- The winner records the end, and nobody did so before. -/
theorem Fair.record (h : Fair race) {party : π}
    (others : ∀ other ≠ party, next.phase other = race.phase other)
    (hworking : race.phase party = .working) (hdone : next.phase party = .done)
    (hflag : next.flag = race.flag) (hrecorded : next.recorded = race.recorded + 1) :
    Fair next := by
  have hwinner := h.working party hworking
  have hzero : race.recorded = 0 := by
    rw [h.recorded party hwinner, hworking, if_neg (by decide)]
  refine ⟨?_, ?_, ?_, ?_⟩
  · intro other hother
    rw [hflag]
    by_cases heq : other = party
    · rw [heq, hdone] at hother
      cases hother
    · exact h.before other (others other heq ▸ hother)
  · intro other hother
    rw [hflag]
    by_cases heq : other = party
    · rw [heq, hwinner]
    · exact h.working other (others other heq ▸ hother)
  · intro hnone
    rw [hflag, hwinner] at hnone
    cases hnone
  · intro other hother
    rw [hflag, hwinner, Option.some.injEq] at hother
    rw [← hother, hdone, if_pos rfl, hrecorded, hzero]

theorem Fair.step (h : Fair race) (hstep : Step race next) : Fair next := by
  cases hstep with
  | stay phase flag recorded =>
      refine ⟨?_, ?_, ?_, ?_⟩ <;> simp only [phase, flag, recorded]
      · exact h.before
      · exact h.working
      · exact h.unset
      · exact h.recorded
  | leave party others before done flag recorded =>
      exact h.leave others before done flag recorded
  | win party others unset working flag recorded =>
      exact h.win others unset working flag recorded
  | record party others working done flag recorded =>
      exact h.record others working done flag recorded

/-- A winner stays the winner. -/
theorem Step.winner (hstep : Step race next) {party : π} (h : race.flag.winner = some party) :
    next.flag.winner = some party := by
  cases hstep with
  | stay phase flag recorded => rw [flag, h]
  | leave party others before done flag recorded => rw [flag, h]
  | win party others unset working flag recorded =>
      rw [unset] at h
      cases h
  | record party others working done flag recorded => rw [flag, h]

end Race

end FogHttp.Lib
