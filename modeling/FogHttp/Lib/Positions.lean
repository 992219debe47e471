import Mathlib.Data.List.Basic

/-!
# Lists by position

A Rust vector is edited at a position: an entry is set, removed or replaced.
These lemmas say what that does to a count, to a projection, to membership and
to the entry at another position.

Nothing here names a function of a particular program.
-/

namespace FogHttp.Lib

variable {α β : Type}

/-- Removing an entry changes a count by that entry only. -/
theorem countP_eraseIdx (p : α → Bool) {entries : List α} {i : Nat} {entry : α}
    (h : entries[i]? = some entry) :
    (entries.eraseIdx i).countP p + (p entry).toNat = entries.countP p := by
  induction entries generalizing i with
  | nil => simp at h
  | cons first rest ih =>
      cases i with
      | zero =>
          simp only [List.getElem?_cons_zero, Option.some.injEq] at h
          subst h
          rw [List.eraseIdx_cons_zero, List.countP_cons]
          cases p first <;> simp
      | succ i =>
          rw [List.getElem?_cons_succ] at h
          rw [List.eraseIdx_cons_succ, List.countP_cons, List.countP_cons, ← ih h]
          omega

/-- Two lists that agree position by position on a property have it equally often. -/
theorem countP_eq_of_positions {p : α → Bool} {q : β → Bool} {entries : List α}
    {others : List β} (hlength : entries.length = others.length)
    (h : ∀ (i : Nat) (entry : α) (other : β), entries[i]? = some entry →
      others[i]? = some other → p entry = q other) : entries.countP p = others.countP q := by
  induction entries generalizing others with
  | nil =>
      obtain rfl := List.length_eq_zero_iff.mp hlength.symm
      rfl
  | cons entry entries ih =>
      cases others with
      | nil => cases hlength
      | cons other others =>
          rw [List.countP_cons, List.countP_cons, h 0 entry other rfl rfl,
            ih (Nat.succ.inj hlength) fun i => h (i + 1)]

/-- An entry of a list in which position `i` was set is the new one or an old
one. -/
theorem getElem?_set_cases {entries : List α} {i j : Nat} {new entry : α}
    (h : (entries.set i new)[j]? = some entry) :
    j = i ∧ entry = new ∨ j ≠ i ∧ entries[j]? = some entry := by
  by_cases hj : j = i
  · subst hj
    have hlt : j < entries.length := by
      simpa using (List.getElem?_eq_some_iff.mp h).1
    rw [List.getElem?_set_self hlt, Option.some.injEq] at h
    exact Or.inl ⟨rfl, h.symm⟩
  · rw [List.getElem?_set_ne (Ne.symm hj)] at h
    exact Or.inr ⟨hj, h⟩

/-- Removing an entry keeps all entries that differ from it. -/
theorem mem_eraseIdx_of_ne {entries : List α} {i : Nat} {old entry : α}
    (h : entries[i]? = some old) (hmem : entry ∈ entries) (hne : entry ≠ old) :
    entry ∈ entries.eraseIdx i := by
  obtain ⟨j, hj⟩ := List.mem_iff_getElem?.mp hmem
  refine List.mem_eraseIdx_iff_getElem?.mpr ⟨j, ?_, hj⟩
  intro hsame
  subst hsame
  rw [h, Option.some.injEq] at hj
  exact hne hj.symm

/-- A replacement keeps all entries that differ from the replaced one. -/
theorem mem_modify_of_ne {g : α → α} {entries : List α} {i : Nat} {old entry : α}
    (h : entries[i]? = some old) (hmem : entry ∈ entries) (hne : entry ≠ old) :
    entry ∈ entries.modify i g := by
  obtain ⟨j, hj⟩ := List.mem_iff_getElem?.mp hmem
  have hij : i ≠ j := by
    intro hsame
    subst hsame
    rw [h, Option.some.injEq] at hj
    exact hne hj.symm
  exact List.mem_iff_getElem?.mpr ⟨j, by rw [List.getElem?_modify_ne _ _ hij, hj]⟩

/-- An entry of a list to which `new` was pushed is an old one or `new`. -/
theorem getElem?_push_cases {entries : List α} {j : Nat} {new entry : α}
    (h : (entries ++ [new])[j]? = some entry) :
    entries[j]? = some entry ∨ j = entries.length ∧ entry = new := by
  by_cases hlt : j < entries.length
  · rw [List.getElem?_append_left hlt] at h
    exact Or.inl h
  · have hj : j = entries.length := by
      have hbound := (List.getElem?_eq_some_iff.mp h).1
      rw [List.length_append, List.length_singleton] at hbound
      omega
    subst hj
    rw [List.getElem?_concat_length, Option.some.injEq] at h
    exact Or.inr ⟨rfl, h.symm⟩

/-- Setting an entry to itself changes nothing. -/
theorem set_eq_self {entries : List α} {i : Nat} {entry : α} (h : entries[i]? = some entry) :
    entries.set i entry = entries := by
  obtain ⟨hlt, rfl⟩ := List.getElem?_eq_some_iff.mp h
  exact List.set_getElem_self hlt

/-- A projection that the new entry agrees on does not change. -/
theorem map_getElem?_set (f : α → β) {entries : List α} {i : Nat} {old new : α}
    (h : entries[i]? = some old) (hf : f new = f old) (j : Nat) :
    (entries.set i new)[j]?.map f = entries[j]?.map f := by
  by_cases hj : i = j
  · subst hj
    rw [List.getElem?_set_self (List.getElem?_eq_some_iff.mp h).1, h, Option.map_some,
      Option.map_some, hf]
  · rw [List.getElem?_set_ne hj]

/-- A replacement at the position of an entry sets that position. -/
theorem modify_eq_set_of_getElem? (g : α → α) {entries : List α} {i : Nat} {entry : α}
    (h : entries[i]? = some entry) : entries.modify i g = entries.set i (g entry) := by
  refine List.ext_getElem? fun j => ?_
  by_cases hij : i = j
  · subst hij
    rw [List.getElem?_modify_eq, h, List.getElem?_set_self (List.getElem?_eq_some_iff.mp h).1]
    rfl
  · rw [List.getElem?_modify_ne _ _ hij, List.getElem?_set_ne hij]

/-- A projection that the replaced entry agrees on does not change. -/
theorem map_modify_eq (f : α → β) (g : α → α) {entries : List α} {i : Nat}
    (h : ∀ entry, entries[i]? = some entry → f (g entry) = f entry) :
    (entries.modify i g).map f = entries.map f := by
  induction entries generalizing i with
  | nil => simp
  | cons first rest ih =>
      cases i with
      | zero => simp [h first (by simp)]
      | succ i =>
          rw [List.modify_succ_cons, List.map_cons, List.map_cons,
            ih fun entry hentry => h entry (by simpa using hentry)]

/-- An entry after a replacement is an old one or the new one. -/
theorem mem_modify {g : α → α} {entries : List α} {i : Nat} {entry : α}
    (h : entry ∈ entries.modify i g) :
    entry ∈ entries ∨ ∃ old, entries[i]? = some old ∧ entry = g old := by
  obtain ⟨j, hj⟩ := List.mem_iff_getElem?.mp h
  by_cases hij : i = j
  · subst hij
    rw [List.getElem?_modify_eq] at hj
    cases hold : entries[i]? with
    | none => simp [hold] at hj
    | some old => exact Or.inr ⟨old, rfl, by simpa [hold, eq_comm] using hj⟩
  · rw [List.getElem?_modify_ne _ _ hij] at hj
    exact Or.inl (List.mem_iff_getElem?.mpr ⟨j, hj⟩)

/-- Removing the first entry with a property depends only on the entries of the list. -/
theorem eraseP_congr {p q : α → Bool} {entries : List α}
    (h : ∀ entry ∈ entries, p entry = q entry) : entries.eraseP p = entries.eraseP q := by
  induction entries with
  | nil => rfl
  | cons first rest ih =>
      rw [List.eraseP_cons, List.eraseP_cons, h first (by simp),
        ih fun entry hmem => h entry (List.mem_cons_of_mem _ hmem)]

end FogHttp.Lib
