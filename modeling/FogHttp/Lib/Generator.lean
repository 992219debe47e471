import Mathlib.Data.List.Basic

/-!
# Generators

A generator of Python is modelled by its whole run: the values that it yields,
in order, and how it ends.  `ε` are the exceptions, `υ` the values and `σ` the
result, which is the state that the statements of the generator leave.

Nothing here names a function of a particular program.
-/

namespace FogHttp.Lib

/-- A generator that has run: the values it yielded, and its exception or its result. -/
structure Generated (ε υ σ : Type) where
  yields : List υ
  result : Except ε σ
deriving DecidableEq

namespace Generated

variable {α ε υ σ ρ : Type}

/-- A generator that yields nothing. -/
def pure (state : σ) : Generated ε υ σ := ⟨[], .ok state⟩

/-- The generator that raises. -/
def raise (error : ε) : Generated ε υ σ := ⟨[], .error error⟩

/-- A statement that does not yield. -/
def lift (statement : Except ε σ) : Generated ε υ σ := ⟨[], statement⟩

/-- The generator that yields one value. -/
def one (value : υ) (state : σ) : Generated ε υ σ := ⟨[value], .ok state⟩

/-- The next statements run after a generator that did not raise. -/
def andThen (first : Generated ε υ σ) (next : σ → Generated ε υ ρ) : Generated ε υ ρ :=
  match first.result with
  | .error error => ⟨first.yields, .error error⟩
  | .ok state => ⟨first.yields ++ (next state).yields, (next state).result⟩

/-- `for value in first: yield value`. -/
def reyield (first : Generated ε υ σ) : Generated ε υ σ :=
  ⟨first.yields.flatMap fun value => [value], first.result⟩

/-- A loop over a list. -/
def forEach (body : α → Generated ε υ Unit) : List α → Generated ε υ Unit
  | [] => .pure ()
  | entry :: entries => (body entry).andThen fun () => forEach body entries

theorem reyield_eq (generated : Generated ε υ σ) : generated.reyield = generated := by
  unfold reyield
  rw [List.flatMap_singleton']

/-- What runs after a generator that did not raise adds its values. -/
theorem andThen_of_ok {first : Generated ε υ σ} {state : σ} (h : first.result = .ok state)
    (next : σ → Generated ε υ ρ) :
    first.andThen next = ⟨first.yields ++ (next state).yields, (next state).result⟩ := by
  unfold andThen
  rw [h]

/-- A loop whose rounds do not raise yields what its rounds yield. -/
theorem forEach_of_ok {body : α → Generated ε υ Unit} {values : α → List υ} {entries : List α}
    (h : ∀ entry ∈ entries, body entry = ⟨values entry, .ok ()⟩) :
    forEach body entries = ⟨entries.flatMap values, .ok ()⟩ := by
  induction entries with
  | nil => rfl
  | cons entry entries ih =>
      rw [forEach, h entry List.mem_cons_self,
        andThen_of_ok rfl, ih fun other hmem => h other (List.mem_cons_of_mem _ hmem)]
      rfl

end Generated

end FogHttp.Lib
