import Mathlib.Algebra.Ring.Int.Defs
import Mathlib.Algebra.Ring.Nat
import Mathlib.Data.List.Basic

/-!
# Maps as lists of entries

A map is modelled by the list of its entries, and its lookup by the first entry with
the key.  These lemmas say which lookups survive the removal of other entries, when a lookup
finds an entry of the list, and what counts by key add up to.

Nothing here names a function of a particular program.
-/

namespace FogHttp.Lib

variable {κ ν : Type} [BEq κ] [LawfulBEq κ]

/-- A lookup finds an entry of the list. -/
theorem mem_of_lookup {entries : List (κ × ν)} {key : κ} {value : ν}
    (h : entries.lookup key = some value) : (key, value) ∈ entries := by
  obtain ⟨before, after, rfl, -⟩ := List.lookup_eq_some_iff.mp h
  simp

/-- A lookup that finds an entry still finds it after other entries were removed. -/
theorem lookup_filter {entries : List (κ × ν)} {key : κ} {value : ν} {keep : κ × ν → Bool}
    (h : entries.lookup key = some value) (hkeep : keep (key, value) = true) :
    (entries.filter keep).lookup key = some value := by
  obtain ⟨before, after, rfl, hbefore⟩ := List.lookup_eq_some_iff.mp h
  rw [List.filter_append, List.filter_cons_of_pos hkeep]
  refine List.lookup_eq_some_iff.mpr ⟨_, _, rfl, ?_⟩
  intro entry hmem
  exact hbefore entry (List.mem_filter.mp hmem).1

/-- In a map without repeated keys, the lookup of the key of an entry finds it. -/
theorem lookup_of_mem {entries : List (κ × ν)} {key : κ} {value : ν}
    (hnodup : (entries.map Prod.fst).Nodup) (h : (key, value) ∈ entries) :
    entries.lookup key = some value := by
  induction entries with
  | nil => cases h
  | cons first rest ih =>
      rw [List.map_cons, List.nodup_cons] at hnodup
      rcases List.mem_cons.mp h with rfl | hmem
      · exact List.lookup_cons_self
      · have hne : key ≠ first.1 := by
          rintro rfl
          exact hnodup.1 (List.mem_map.mpr ⟨_, hmem, rfl⟩)
        rw [List.lookup_cons, beq_eq_false_iff_ne.mpr hne]
        exact ih hnodup.2 hmem

omit [LawfulBEq κ] in
/-- A key without an entry has none after a removal. -/
theorem lookup_filter_none {entries : List (κ × ν)} {key : κ} (keep : κ × ν → Bool)
    (h : entries.lookup key = none) : (entries.filter keep).lookup key = none := by
  rw [List.lookup_eq_none_iff] at h ⊢
  intro entry hmem
  exact h entry (List.mem_filter.mp hmem).1

/-- Another entry in front of the list does not change a lookup. -/
theorem lookup_cons_of_ne {entries : List (κ × ν)} {key other : κ} (value : ν)
    (h : key ≠ other) : List.lookup key ((other, value) :: entries) = entries.lookup key := by
  rw [List.lookup_cons, beq_eq_false_iff_ne.mpr h]

/-! ## Counts by key -/

/-- The count of a disjunction whose parts exclude each other. -/
theorem countP_or_of_disjoint {α : Type} {p q : α → Bool}
    (hdisjoint : ∀ entry, p entry = true → q entry = false) (entries : List α) :
    entries.countP (fun entry => p entry || q entry) = entries.countP p + entries.countP q := by
  induction entries with
  | nil => rfl
  | cons entry entries ih =>
      rw [List.countP_cons, List.countP_cons, List.countP_cons, ih]
      cases hp : p entry with
      | true =>
          rw [hdisjoint entry hp]
          simp only [Bool.true_or, if_true, Bool.false_eq_true, if_false]
          omega
      | false =>
          simp only [Bool.false_or, Bool.false_eq_true, if_false]
          omega

/-- Counts of properties that exclude each other add up to the count of all of them. -/
theorem sum_map_countP {ι α : Type} {p : ι → α → Bool}
    (hdisjoint : ∀ i j entry, p i entry = true → p j entry = true → i = j) {keys : List ι}
    (hnodup : keys.Nodup) (entries : List α) :
    (keys.map fun key => entries.countP (p key)).sum =
      entries.countP fun entry => keys.any fun key => p key entry := by
  induction keys with
  | nil => simp
  | cons key keys ih =>
      rw [List.nodup_cons] at hnodup
      rw [List.map_cons, List.sum_cons, ih hnodup.2]
      simp only [List.any_cons]
      rw [countP_or_of_disjoint]
      intro entry hentry
      rw [List.any_eq_false]
      intro other hmem hother
      exact hnodup.1 (hdisjoint key other entry hentry hother ▸ hmem)

end FogHttp.Lib
