import FogHttp.Lib.Positions

/-!
# Semaphore permits

An acquire needs a permit of its origin's semaphore and a permit of the global
semaphore.  A semaphore is the number of its available permits.  The origin
semaphores live in an arena, so the position of a semaphore is its identity.

`tryAcquirePermits` takes both permits or none: `tryAcquirePermits_true` says
what a success takes, and `tryAcquirePermits_false` that a failure gives back
what it took.  Semaphores are never closed, so the two errors for a closed gate
do not arise.

Of `tokio::sync::Semaphore` this takes two things from its documentation:
`try_acquire_owned` takes a permit at once when one is available and fails
otherwise, and the drop of an owned permit makes it available again.  Nobody
waits for a semaphore here.  The gate has a queue of its own.
-/

namespace FogHttp.Acquire

/-- The available permits of the global semaphore and of the origin
semaphores. -/
structure Permits where
  global : Nat
  origins : List Nat
deriving DecidableEq, Repr

namespace Permits

/-- `try_acquire_owned` on an origin semaphore. -/
def tryAcquireOrigin (permits : Permits) (semaphore : Nat) : Option Permits :=
  match permits.origins[semaphore]? with
  | some (available + 1) =>
      some { permits with origins := permits.origins.set semaphore available }
  | _ => none

/-- `try_acquire_owned` on the global semaphore. -/
def tryAcquireGlobal (permits : Permits) : Option Permits :=
  match permits.global with
  | available + 1 => some { permits with global := available }
  | 0 => none

/-- The drop of an origin permit. -/
def releaseOrigin (permits : Permits) : Option Nat → Permits
  | some semaphore =>
      match permits.origins[semaphore]? with
      | some available =>
          { permits with origins := permits.origins.set semaphore (available + 1) }
      | none => permits
  | none => permits

/-- The drop of a global permit. -/
def releaseGlobal (permits : Permits) : Permits :=
  { permits with global := permits.global + 1 }

/-- Whether both permits of an acquire are available. -/
def Available (permits : Permits) (semaphore : Option Nat) : Prop :=
  permits.global ≠ 0 ∧
    ∀ k, semaphore = some k → ∃ available, permits.origins[k]? = some (available + 1)

end Permits

/-- `try_acquire_permits`: the origin permit first, then the global one.  Without
the global permit the origin permit is dropped again. -/
def tryAcquirePermits (permits : Permits) (semaphore : Option Nat) : Bool × Permits :=
  let origin := match semaphore with
    | some semaphore => permits.tryAcquireOrigin semaphore
    | none => some permits
  match origin with
  | none => (false, permits)
  | some taken =>
      match taken.tryAcquireGlobal with
      | none => (false, taken.releaseOrigin semaphore)
      | some both => (true, both)

namespace Permits

theorem tryAcquireOrigin_eq_some {permits taken : Permits} {semaphore : Nat}
    (h : permits.tryAcquireOrigin semaphore = some taken) :
    ∃ available, permits.origins[semaphore]? = some (available + 1) ∧
      taken = { permits with origins := permits.origins.set semaphore available } := by
  rw [tryAcquireOrigin] at h
  split at h
  · rename_i available havailable
    exact ⟨available, havailable, (Option.some.inj h).symm⟩
  · simp at h

/-- Dropping the permit that was just taken restores the semaphore. -/
theorem releaseOrigin_tryAcquireOrigin {permits taken : Permits} {semaphore : Nat}
    (h : permits.tryAcquireOrigin semaphore = some taken) :
    taken.releaseOrigin (some semaphore) = permits := by
  obtain ⟨available, havailable, rfl⟩ := tryAcquireOrigin_eq_some h
  obtain ⟨hlt, hget⟩ := List.getElem?_eq_some_iff.mp havailable
  have hset : (permits.origins.set semaphore available)[semaphore]? = some available := by
    simp [hlt]
  simp only [releaseOrigin, hset, List.set_set]
  rw [← hget, List.set_getElem_self]

/-- A release adds one permit to its own semaphore. -/
theorem getElem?_releaseOrigin {permits : Permits} {semaphore : Option Nat} {k n : Nat}
    (h : (permits.releaseOrigin semaphore).origins[k]? = some n) :
    ∃ m, permits.origins[k]? = some m ∧ n = m + (semaphore == some k).toNat := by
  cases semaphore with
  | none => exact ⟨n, h, by simp⟩
  | some s =>
      rw [releaseOrigin] at h
      split at h
      · rename_i available havailable
        rcases Lib.getElem?_set_cases h with ⟨rfl, rfl⟩ | ⟨hk, h⟩
        · exact ⟨available, havailable, by simp⟩
        · exact ⟨n, h, by simp [Ne.symm hk]⟩
      · rename_i hnone
        have hk : s ≠ k := by
          intro hsame
          subst hsame
          rw [hnone] at h
          simp at h
        exact ⟨n, h, by simp [hk]⟩

@[simp] theorem releaseOrigin_global (permits : Permits) (semaphore : Option Nat) :
    (permits.releaseOrigin semaphore).global = permits.global := by
  unfold releaseOrigin
  split
  · split <;> rfl
  · rfl

@[simp] theorem releaseOrigin_length (permits : Permits) (semaphore : Option Nat) :
    (permits.releaseOrigin semaphore).origins.length = permits.origins.length := by
  unfold releaseOrigin
  split
  · split <;> simp
  · rfl

end Permits

/-- A failed attempt leaves the semaphores as they were, and one of the two
permits was not available. -/
theorem tryAcquirePermits_false {permits after : Permits} {semaphore : Option Nat}
    (h : tryAcquirePermits permits semaphore = (false, after)) :
    after = permits ∧ ¬ permits.Available semaphore := by
  unfold tryAcquirePermits at h
  cases semaphore with
  | none =>
      dsimp only at h
      split at h
      · rename_i hglobal
        refine ⟨by simpa [Permits.releaseOrigin] using h.symm, ?_⟩
        intro havailable
        unfold Permits.tryAcquireGlobal at hglobal
        split at hglobal
        · simp at hglobal
        · exact havailable.1 ‹_›
      · simp at h
  | some k =>
      dsimp only at h
      split at h
      · rename_i horigin
        refine ⟨by simpa using h.symm, ?_⟩
        intro havailable
        obtain ⟨available, hk⟩ := havailable.2 k rfl
        simp [Permits.tryAcquireOrigin, hk] at horigin
      · rename_i taken htaken
        have hrestore := Permits.releaseOrigin_tryAcquireOrigin htaken
        split at h
        · rename_i hglobal
          refine ⟨by simpa [hrestore] using h.symm, ?_⟩
          intro havailable
          obtain ⟨available, -, rfl⟩ := Permits.tryAcquireOrigin_eq_some htaken
          unfold Permits.tryAcquireGlobal at hglobal
          split at hglobal
          · simp at hglobal
          · exact havailable.1 ‹_›
        · simp at h

/-- A successful attempt takes one permit of each semaphore, and both were
available. -/
theorem tryAcquirePermits_true {permits after : Permits} {semaphore : Option Nat}
    (h : tryAcquirePermits permits semaphore = (true, after)) :
    permits.Available semaphore ∧ after.global + 1 = permits.global ∧
      after.origins.length = permits.origins.length ∧
      ∀ k n, after.origins[k]? = some n →
        permits.origins[k]? = some (n + (semaphore == some k).toNat) := by
  have hglobal : ∀ {taken both : Permits}, taken.tryAcquireGlobal = some both →
      both.global + 1 = taken.global ∧ both.origins = taken.origins := by
    intro taken both hboth
    unfold Permits.tryAcquireGlobal at hboth
    split at hboth
    · rename_i available havailable
      rw [← Option.some.inj hboth]
      exact ⟨havailable.symm, rfl⟩
    · simp at hboth
  unfold tryAcquirePermits at h
  cases semaphore with
  | none =>
      dsimp only at h
      split at h
      · simp at h
      · rename_i both hboth
        obtain ⟨hcount, horigins⟩ := hglobal hboth
        simp only [Prod.mk.injEq, true_and] at h
        subst h
        refine ⟨⟨by omega, by simp⟩, hcount, by rw [horigins], ?_⟩
        intro k n hk
        simpa [horigins] using hk
  | some s =>
      dsimp only at h
      split at h
      · simp at h
      · rename_i taken htaken
        split at h
        · simp at h
        · rename_i both hboth
          obtain ⟨hcount, horigins⟩ := hglobal hboth
          obtain ⟨available, hs, rfl⟩ := Permits.tryAcquireOrigin_eq_some htaken
          simp only [Prod.mk.injEq, true_and] at h
          subst h
          dsimp only at hcount
          refine ⟨⟨by omega, ?_⟩, hcount, by rw [horigins]; simp, ?_⟩
          · intro k hk
            exact ⟨available, by rw [← Option.some.inj hk, hs]⟩
          intro k n hk
          rw [horigins] at hk
          rcases Lib.getElem?_set_cases hk with ⟨rfl, rfl⟩ | ⟨hks, hk⟩
          · simp [hs]
          · simp [hk, Ne.symm hks]

/-- An attempt without both permits available fails. -/
theorem tryAcquirePermits_fst_false {permits : Permits} {semaphore : Option Nat}
    (h : ¬ permits.Available semaphore) : (tryAcquirePermits permits semaphore).1 = false := by
  cases htry : tryAcquirePermits permits semaphore with
  | mk success after =>
      cases success with
      | false => rfl
      | true => exact absurd (tryAcquirePermits_true htry).1 h

end FogHttp.Acquire
