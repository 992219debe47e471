import Mathlib.Data.List.Forall2

/-!
# Fallible computations

A Rust function that returns a `Result` is a function into `Except`, and the
`?` operator is the bind of `Except`.  `bind_eq_ok` takes a successful
computation apart at a bind, so that a proof about a function with several
early returns reads its steps in order and never unfolds the monad.  `bind_eq_error`
says at which of them it has failed.

A computation that may also panic is an `ExceptT` over `Option`, where `none` is the
panic, and `run_bind_eq_ok` takes it apart in the same way.

A `collect` of an iterator of results is `List.mapM`.  `mapM_eq_ok` relates the
list that was collected to the list it came from, entry by entry, and `mapM_eq_some`
does the same for options.
`exists_of_mem_mapM`, `exists_result_of_mem` and `ne_nil_of_mapM` are what callers need
of it.

Nothing here names a function of a particular program.
-/

namespace FogHttp.Lib

variable {α β ε : Type}

/-- A bind succeeds when both of its parts do. -/
theorem bind_eq_ok {computation : Except ε α} {next : α → Except ε β} {result : β} :
    (computation >>= next) = .ok result ↔
      ∃ value, computation = .ok value ∧ next value = .ok result := by
  cases computation with
  | error error => simp [bind, Except.bind]
  | ok value => simp [bind, Except.bind]

/-- A bind of computations that may panic succeeds when both do. -/
theorem run_bind_eq_ok {computation : ExceptT ε Option α} {next : α → ExceptT ε Option β}
    {result : β} :
    (computation >>= next).run = some (.ok result) ↔
      ∃ value, computation.run = some (.ok value) ∧ (next value).run = some (.ok result) := by
  rw [ExceptT.run_bind]
  cases computation.run with
  | none => simp
  | some outcome => cases outcome <;> simp

/-- A mapped error does not change when a computation succeeds. -/
theorem mapError_eq_ok {δ : Type} {computation : Except ε α} {convert : ε → δ} {result : α} :
    computation.mapError convert = .ok result ↔ computation = .ok result := by
  cases computation <;> simp [Except.mapError]

/-- A mapped computation succeeds when the computation does. -/
theorem map_eq_ok {computation : Except ε α} {convert : α → β} {result : β} :
    computation.map convert = .ok result ↔
      ∃ value, computation = .ok value ∧ convert value = result := by
  cases computation <;> simp [Except.map]

/-- A collected list corresponds to its source entry by entry. -/
theorem mapM_eq_ok {convert : α → Except ε β} {values : List α} {results : List β}
    (h : values.mapM convert = .ok results) :
    List.Forall₂ (fun value result => convert value = .ok result) values results := by
  induction values generalizing results with
  | nil =>
      simp only [List.mapM_nil, pure, Except.pure, Except.ok.injEq] at h
      exact h ▸ List.Forall₂.nil
  | cons value values ih =>
      rw [List.mapM_cons, bind_eq_ok] at h
      obtain ⟨result, hresult, h⟩ := h
      rw [bind_eq_ok] at h
      obtain ⟨rest, hrest, h⟩ := h
      simp only [pure, Except.pure, Except.ok.injEq] at h
      exact h ▸ List.Forall₂.cons hresult (ih hrest)

/-- A list that is collected from options corresponds to its source entry by entry. -/
theorem mapM_eq_some {convert : α → Option β} {values : List α} {results : List β}
    (h : values.mapM convert = some results) :
    List.Forall₂ (fun value result => convert value = some result) values results := by
  induction values generalizing results with
  | nil =>
      obtain rfl := Option.some.inj h
      exact .nil
  | cons value values ih =>
      rw [List.mapM_cons, Option.bind_eq_bind, Option.bind_eq_some_iff] at h
      obtain ⟨result, hresult, h⟩ := h
      rw [Option.bind_eq_bind, Option.bind_eq_some_iff] at h
      obtain ⟨rest, hrest, h⟩ := h
      obtain rfl := Option.some.inj h
      exact .cons hresult (ih hrest)

/-- Every collected entry comes from an entry of the source. -/
theorem exists_of_mem_mapM {convert : α → Except ε β} {values : List α} {results : List β}
    {result : β} (h : values.mapM convert = .ok results) (hmem : result ∈ results) :
    ∃ value ∈ values, convert value = .ok result := by
  have hpairs := mapM_eq_ok h
  have hlength := hpairs.length_eq
  obtain ⟨i, hi, rfl⟩ := List.getElem_of_mem hmem
  exact ⟨values[i], List.getElem_mem _, hpairs.get (by omega) hi⟩

/-- Every entry of the source is collected. -/
theorem exists_result_of_mem {convert : α → Except ε β} {values : List α} {results : List β}
    {value : α} (h : values.mapM convert = .ok results) (hmem : value ∈ values) :
    ∃ result ∈ results, convert value = .ok result := by
  have hpairs := mapM_eq_ok h
  have hlength := hpairs.length_eq
  obtain ⟨i, hi, rfl⟩ := List.getElem_of_mem hmem
  exact ⟨results[i], List.getElem_mem _, hpairs.get hi (by omega)⟩

/-- A source with entries is collected into a list with entries. -/
theorem ne_nil_of_mapM {convert : α → Except ε β} {values : List α} {results : List β}
    (h : values.mapM convert = .ok results) (hne : values ≠ []) : results ≠ [] := by
  intro hsame
  subst hsame
  have hlength := (mapM_eq_ok h).length_eq
  exact hne (List.eq_nil_of_length_eq_zero hlength)

end FogHttp.Lib
