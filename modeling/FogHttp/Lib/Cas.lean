import Mathlib.Data.Nat.Notation

/-!
# Compare-exchange loops

An atomic counter is updated by a loop of the shape

```
let mut current = counter.load();
loop {
    let next = update(current)?;
    match counter.compare_exchange_weak(current, next) {
        Ok(_) => return,
        Err(actual) => current = actual,
    }
}
```

`AtomicLoop` is the pure part of such a function and `Cas` is where one thread
stands in it, so that other threads may run between any two atomic operations.
`AtomicLoop.step` is one atomic operation on the counter.  A weak exchange may
fail although the counter has the expected value.

`step_cases` says what an operation does: it leaves the counter alone and looks
at it again, or it applies the update to the value that the counter has now.
`settle` is the function as a whole, given the value that its last operation
finds, and `settle_of_step` connects it to the operations.

Nothing here names a function of a particular program.
-/

namespace FogHttp.Lib

variable {ε δ : Type}

/-- Where a thread stands in a compare-exchange loop. -/
inductive Cas (ε : Type) where
  | load
  | exchange (current next : Nat)
  | done (result : Except ε Unit)

structure AtomicLoop (ε : Type) where
  /-- The function returns before it looks at the counter. -/
  returnsAtOnce : Bool
  /-- The value to store, or the error to return. -/
  update : Nat → Except ε Nat

namespace AtomicLoop

variable (self : AtomicLoop ε)

/-- The function is called. -/
def start : Cas ε := if self.returnsAtOnce then .done (.ok ()) else .load

/-- The loop body, after it learned the value of the counter. -/
def body (current : Nat) : Cas ε :=
  match self.update current with
  | .ok next => .exchange current next
  | .error error => .done (.error error)

/-- One atomic operation: the counter and the place of the thread after it. -/
def step (spurious : Bool) (counter : Nat) : Cas ε → Option (Nat × Cas ε)
  | .load => some (counter, self.body counter)
  | .exchange current next =>
      if counter = current && !spurious then some (next, .done (.ok ()))
      else some (counter, self.body counter)
  | .done _ => none

/-- The value to store was computed from the expected one. -/
def Valid : Cas ε → Prop
  | .load => self.returnsAtOnce = false
  | .exchange current next => self.returnsAtOnce = false ∧ self.update current = .ok next
  | .done _ => True

variable {self}

theorem valid_start : self.Valid self.start := by
  unfold start
  cases h : self.returnsAtOnce
  · exact h
  · trivial

theorem valid_body (hloops : self.returnsAtOnce = false) (current : Nat) :
    self.Valid (self.body current) := by
  unfold body
  split
  · rename_i next hnext
    exact ⟨hloops, hnext⟩
  · trivial

/-- The inversion lemma of an atomic operation. -/
theorem step_cases {spurious : Bool} {counter after : Nat} {cas next : Cas ε}
    (hvalid : self.Valid cas) (h : self.step spurious counter cas = some (after, next)) :
    self.returnsAtOnce = false ∧
      (after = counter ∧ next = self.body counter ∨
        self.update counter = .ok after ∧ next = .done (.ok ())) := by
  cases cas with
  | load =>
      simp only [step, Option.some.injEq, Prod.mk.injEq] at h
      exact ⟨hvalid, Or.inl ⟨h.1.symm, h.2.symm⟩⟩
  | exchange current target =>
      obtain ⟨hloops, hupdate⟩ := hvalid
      refine ⟨hloops, ?_⟩
      rw [step] at h
      split at h
      · rename_i hsame
        simp only [Bool.and_eq_true, decide_eq_true_eq] at hsame
        simp only [Option.some.injEq, Prod.mk.injEq] at h
        rw [hsame.1, hupdate, h.1]
        exact Or.inr ⟨rfl, h.2.symm⟩
      · simp only [Option.some.injEq, Prod.mk.injEq] at h
        exact Or.inl ⟨h.1.symm, h.2.symm⟩
  | done result => simp [step] at h

/-- The function as a whole, when its last operation finds `counter`: the counter
that it leaves, or its error. -/
def settle (loop : AtomicLoop ε) (counter : Nat) : Except ε Nat :=
  if loop.returnsAtOnce then .ok counter else loop.update counter

/-- The operation that ends a function settles it. -/
theorem settle_of_step {spurious : Bool} {counter after : Nat} {cas : Cas ε}
    {result : Except ε Unit} (hvalid : self.Valid cas)
    (h : self.step spurious counter cas = some (after, .done result)) :
    self.settle counter = result.map (fun () => after) ∧ (result.isOk ∨ after = counter) := by
  obtain ⟨hloops, hsteps⟩ := step_cases hvalid h
  rw [settle, hloops]
  rcases hsteps with ⟨rfl, hbody⟩ | ⟨hupdate, hdone⟩
  · refine ⟨?_, Or.inr rfl⟩
    rw [body] at hbody
    split at hbody
    · simp at hbody
    · rename_i error herror
      rw [Cas.done.injEq] at hbody
      rw [hbody]
      exact herror
  · rw [Cas.done.injEq] at hdone
    rw [hdone]
    exact ⟨hupdate, Or.inl rfl⟩

/-- A function with another error type. -/
def mapError (loop : AtomicLoop ε) (convert : ε → δ) : AtomicLoop δ where
  returnsAtOnce := loop.returnsAtOnce
  update current := (loop.update current).mapError convert

end AtomicLoop

end FogHttp.Lib
