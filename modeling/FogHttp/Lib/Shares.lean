import Mathlib.Algebra.BigOperators.Group.List.Basic

/-!
# A total and its shares

Several parties update one total, and each keeps a share of what it has contributed.  An update
`ActsWithin` a share when it does to the total what it does to the share: it adds to it, or it
takes away what the share has.  The total then stays the sum of the shares, whoever updates it
(`sum_map_set`).

`sum_map_partition` splits the parties by a key: the totals of the keys add up to the total of
all parties.

Nothing here names a function of a particular program.
-/

namespace FogHttp.Lib

variable {M α : Type} [AddCommMonoid M]

/-- The update needs no more than the part `a` of a total. -/
def ActsWithin (f : M → M) (a : M) : Prop := ∀ b, f (a + b) = f a + b

theorem ActsWithin.id (a : M) : ActsWithin (fun b => b) a := fun _ => rfl

section Parties

variable {parties : List α} {i : Nat} {old : α} {share : α → M}

/-- One party updates its share and the total. -/
theorem sum_map_set (new : α) {f : M → M} (h : parties[i]? = some old)
    (hnew : share new = f (share old)) (hf : ActsWithin f (share old)) :
    ((parties.set i new).map share).sum = f (parties.map share).sum := by
  induction parties generalizing i with
  | nil => simp at h
  | cons first rest ih =>
      cases i with
      | zero =>
          obtain rfl : first = old := by simpa using h
          rw [List.set_cons_zero, List.map_cons, List.map_cons, List.sum_cons, List.sum_cons,
            hnew, hf]
      | succ i =>
          have hrest : ((rest.set i new).map share).sum = f (rest.map share).sum := ih h
          obtain ⟨others, hothers⟩ : ∃ others, (rest.map share).sum = share old + others := by
            obtain ⟨before, after, rfl⟩ :=
              List.append_of_mem (List.mem_of_getElem? (l := rest) h)
            refine ⟨(before.map share).sum + (after.map share).sum, ?_⟩
            rw [List.map_append, List.sum_append, List.map_cons, List.sum_cons]
            exact add_left_comm _ _ _
          rw [List.set_cons_succ, List.map_cons, List.map_cons, List.sum_cons, List.sum_cons,
            hrest, hothers, hf, add_left_comm, add_left_comm (share first), hf]

/-- A party changes and its share does not. -/
theorem sum_map_set_same (new : α) (h : parties[i]? = some old) (hnew : share new = share old) :
    ((parties.set i new).map share).sum = (parties.map share).sum :=
  sum_map_set new h hnew (ActsWithin.id _)

end Parties

theorem sum_range_ite_eq (x : M) (k n : Nat) :
    ((List.range n).map fun m => if k = m then x else 0).sum = if k < n then x else 0 := by
  induction n with
  | zero => rfl
  | succ n ih =>
      rw [List.range_succ, List.map_append, List.sum_append, ih, List.map_singleton,
        List.sum_singleton]
      by_cases heq : k = n
      · rw [if_pos heq, if_neg (by omega), if_pos (by omega), zero_add]
      · rw [if_neg heq, add_zero]
        by_cases hlt : k < n
        · rw [if_pos hlt, if_pos (by omega)]
        · rw [if_neg hlt, if_neg (by omega)]

/-- The parties by their keys. -/
theorem sum_map_partition (parties : List α) (share : α → M) (key : α → Nat) (n : Nat)
    (hkey : ∀ party ∈ parties, key party < n) :
    ((List.range n).map fun m =>
        (parties.map fun party => if key party = m then share party else 0).sum).sum =
      (parties.map share).sum := by
  induction parties with
  | nil =>
      refine List.sum_eq_zero fun x hx => ?_
      obtain ⟨m, -, rfl⟩ := List.mem_map.mp hx
      rfl
  | cons first rest ih =>
      have hfirst : key first < n := hkey first List.mem_cons_self
      have hrest := ih fun party hparty => hkey party (List.mem_cons_of_mem _ hparty)
      have hshare : ((List.range n).map fun m => if key first = m then share first else 0).sum =
          share first := by
        rw [sum_range_ite_eq, if_pos hfirst]
      rw [List.map_cons, List.sum_cons, ← hrest]
      refine Eq.trans ?_ (congrArg (· + _) hshare)
      rw [← List.sum_map_add]
      rfl

end FogHttp.Lib
