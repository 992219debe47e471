import Mathlib.Data.List.Basic
import Mathlib.Data.List.Nodup

/-!
# A fair counting semaphore

A semaphore has a number of available permits and a queue of waiting futures.  A
released permit goes to the oldest waiting future, and only when nobody waits does
it become available.  The future that a permit was given to has not run yet: it
takes the permit up at its next poll, and if it is dropped first, the permit is
released again.

This is what the documentation of `tokio::sync::Semaphore` promises, for acquires of
one permit each: the semaphore is fair, permits are given out in the order in which
they were asked for, and an acquire that is cancelled loses its place in the queue.
An attempt that does not wait may take an available permit at any time.

* `free` counts the permits that nobody has taken up, the available ones and those
  given to a future.  Every operation changes it by the permit that its caller gains
  or gives back, so `free` and the permits in use add up to the limit.
* `Waits w` says that the semaphore knows the future `w`, and `Distinct` that it
  knows no future twice.  Then a future that took its permit up or was dropped leaves
  no trace.

Nothing here names a function of a particular program.
-/

namespace FogHttp.Lib

structure Semaphore where
  available : Nat
  /-- The waiting futures, oldest first. -/
  queue : List Nat
  /-- The futures that were given a permit and have not taken it up. -/
  assigned : List Nat
deriving DecidableEq, Repr

namespace Semaphore

/-- A semaphore with `limit` permits. -/
def new (limit : Nat) : Semaphore := ⟨limit, [], []⟩

/-- The attempt to take an available permit at once. -/
def tryAcquire (semaphore : Semaphore) : Option Semaphore :=
  match semaphore.available with
  | 0 => none
  | available + 1 => some { semaphore with available }

/-- Future `w` joins the queue. -/
def enqueue (semaphore : Semaphore) (w : Nat) : Semaphore :=
  { semaphore with queue := semaphore.queue ++ [w] }

/-- A permit is given back. -/
def release (semaphore : Semaphore) : Semaphore :=
  match semaphore.queue with
  | [] => { semaphore with available := semaphore.available + 1 }
  | w :: rest => { semaphore with queue := rest, assigned := w :: semaphore.assigned }

/-- The poll of a queued future: it takes up the permit that it was given. -/
def takeUp (semaphore : Semaphore) (w : Nat) : Option Semaphore :=
  if w ∈ semaphore.assigned then
    some { semaphore with assigned := semaphore.assigned.erase w }
  else none

/-- The drop of a queued future: a permit that it was given is released. -/
def cancel (semaphore : Semaphore) (w : Nat) : Semaphore :=
  if w ∈ semaphore.assigned then
    release { semaphore with assigned := semaphore.assigned.erase w }
  else { semaphore with queue := semaphore.queue.erase w }

/-- The permits that nobody has taken up. -/
def free (semaphore : Semaphore) : Nat := semaphore.available + semaphore.assigned.length

/-- The semaphore knows future `w`. -/
def Waits (semaphore : Semaphore) (w : Nat) : Prop :=
  w ∈ semaphore.queue ++ semaphore.assigned

/-- No future is known twice. -/
def Distinct (semaphore : Semaphore) : Prop := (semaphore.queue ++ semaphore.assigned).Nodup

/-! ## The permits add up -/

@[simp] theorem free_new (limit : Nat) : (new limit).free = limit := rfl

theorem free_of_tryAcquire {before after : Semaphore} (h : before.tryAcquire = some after) :
    after.free + 1 = before.free := by
  unfold tryAcquire at h
  split at h
  · simp at h
  · rename_i available havailable
    rw [Option.some.injEq] at h
    subst h
    show available + before.assigned.length + 1 = before.available + before.assigned.length
    omega

@[simp] theorem free_enqueue (semaphore : Semaphore) (w : Nat) :
    (semaphore.enqueue w).free = semaphore.free := rfl

@[simp] theorem free_release (semaphore : Semaphore) :
    semaphore.release.free = semaphore.free + 1 := by
  unfold release
  split
  · show semaphore.available + 1 + semaphore.assigned.length =
      semaphore.available + semaphore.assigned.length + 1
    omega
  · rfl

theorem free_of_takeUp {before after : Semaphore} {w : Nat}
    (h : before.takeUp w = some after) : after.free + 1 = before.free := by
  unfold takeUp at h
  split at h
  · rename_i hmem
    rw [Option.some.injEq] at h
    subst h
    have hlength := List.length_erase_of_mem hmem
    have hpos := List.length_pos_of_mem hmem
    show before.available + (before.assigned.erase w).length + 1 =
      before.available + before.assigned.length
    omega
  · simp at h

@[simp] theorem free_cancel (semaphore : Semaphore) (w : Nat) :
    (semaphore.cancel w).free = semaphore.free := by
  unfold cancel
  split
  · rename_i hmem
    have hlength := List.length_erase_of_mem hmem
    have hpos := List.length_pos_of_mem hmem
    rw [free_release]
    show semaphore.available + (semaphore.assigned.erase w).length + 1 =
      semaphore.available + semaphore.assigned.length
    omega
  · rfl

/-! ## The futures that are known -/

@[simp] theorem not_waits_new (limit w : Nat) : ¬ (new limit).Waits w := by
  simp [Waits, new]

theorem distinct_new (limit : Nat) : (new limit).Distinct := List.nodup_nil

/-- An immediate acquisition does not touch the queue. -/
theorem tryAcquire_queues {before after : Semaphore} (h : before.tryAcquire = some after) :
    after.queue ++ after.assigned = before.queue ++ before.assigned := by
  unfold tryAcquire at h
  split at h
  · simp at h
  · rw [Option.some.injEq] at h
    subst h
    rfl

/-- A release moves at most one future from the queue to the assigned ones. -/
theorem release_queues (semaphore : Semaphore) :
    (semaphore.release.queue ++ semaphore.release.assigned).Perm
      (semaphore.queue ++ semaphore.assigned) := by
  unfold release
  split
  · rename_i hqueue
    rw [hqueue]
  · rename_i w rest hqueue
    rw [hqueue]
    exact List.perm_middle

theorem enqueue_queues (semaphore : Semaphore) (w : Nat) :
    ((semaphore.enqueue w).queue ++ (semaphore.enqueue w).assigned).Perm
      (w :: (semaphore.queue ++ semaphore.assigned)) := by
  show (semaphore.queue ++ [w] ++ semaphore.assigned).Perm _
  rw [List.append_assoc]
  exact List.perm_middle

/-- A future that took its permit up is known once less. -/
theorem takeUp_queues {before after : Semaphore} {w : Nat} (h : before.takeUp w = some after) :
    (before.queue ++ before.assigned).Perm (w :: (after.queue ++ after.assigned)) := by
  unfold takeUp at h
  split at h
  · rename_i hmem
    rw [Option.some.injEq] at h
    subst h
    exact ((List.perm_cons_erase hmem).append_left before.queue).trans List.perm_middle
  · simp at h

/-- A dropped future is known once less. -/
theorem cancel_queues {semaphore : Semaphore} {w : Nat} (h : semaphore.Waits w) :
    (semaphore.queue ++ semaphore.assigned).Perm
      (w :: ((semaphore.cancel w).queue ++ (semaphore.cancel w).assigned)) := by
  unfold cancel
  split
  · rename_i hmem
    have herased := ((List.perm_cons_erase hmem).append_left semaphore.queue).trans
      List.perm_middle
    have hreleased :=
      release_queues { semaphore with assigned := semaphore.assigned.erase w }
    exact herased.trans (hreleased.symm.cons w)
  · rename_i hnot
    have hqueue : w ∈ semaphore.queue := (List.mem_append.mp h).resolve_right hnot
    exact (List.perm_cons_erase hqueue).append_right semaphore.assigned

/-- What one future more or less means for the known futures. -/
theorem waits_of_perm_cons {more less : Semaphore} {w : Nat}
    (h : (more.queue ++ more.assigned).Perm (w :: (less.queue ++ less.assigned))) (v : Nat) :
    more.Waits v ↔ v = w ∨ less.Waits v := by
  unfold Waits
  rw [h.mem_iff, List.mem_cons]

theorem distinct_of_perm_cons {more less : Semaphore} {w : Nat}
    (h : (more.queue ++ more.assigned).Perm (w :: (less.queue ++ less.assigned))) :
    more.Distinct ↔ ¬ less.Waits w ∧ less.Distinct := by
  unfold Distinct Waits
  rw [h.nodup_iff, List.nodup_cons]

end Semaphore

end FogHttp.Lib
