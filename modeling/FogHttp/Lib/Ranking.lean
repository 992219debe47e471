import Mathlib.Data.List.Shortlex

/-!
# Ranking by the first difference

`FirstLess r left right` compares two lists of one length at the first place
where they differ.  It is a part of the shortlex order, and so it is well founded
when `r` is.

The entries of the lists are places of a system in the order of their weight.  A
step that lowers one place may raise the places behind it.
-/

namespace FogHttp.Lib

variable {α : Type} {r : α → α → Prop} {left middle right : List α}

/-- The lists agree up to an index, and `left` is smaller there. -/
structure FirstLess (r : α → α → Prop) (left right : List α) : Prop where
  length_eq : left.length = right.length
  less : ∃ (i : Nat) (a b : α), (∀ j : Nat, j < i → left[j]? = right[j]?) ∧
    left[i]? = some a ∧ right[i]? = some b ∧ r a b

namespace FirstLess

theorem head {a b : α} (h : r a b) (hlength : left.length = right.length) :
    FirstLess r (a :: left) (b :: right) :=
  ⟨by simp [hlength], 0, a, b, by omega, rfl, rfl, h⟩

theorem cons (h : FirstLess r left right) (a : α) : FirstLess r (a :: left) (a :: right) := by
  obtain ⟨hlength, i, b, c, hsame, hb, hc, hless⟩ := h
  refine ⟨by simp [hlength], i + 1, b, c, ?_, hb, hc, hless⟩
  intro j hj
  cases j with
  | zero => rfl
  | succ j => exact hsame j (by omega)

theorem trans (htrans : ∀ {a b c : α}, r a b → r b c → r a c) (h : FirstLess r left middle)
    (h' : FirstLess r middle right) : FirstLess r left right := by
  obtain ⟨hlength, i, a, b, hsame, ha, hb, hless⟩ := h
  obtain ⟨hlength', k, b', c, hsame', hb', hc, hless'⟩ := h'
  refine ⟨hlength.trans hlength', ?_⟩
  -- The first difference of the two ends is the smaller of the two indices.
  rcases Nat.lt_trichotomy i k with hlt | heq | hgt
  · refine ⟨i, a, b, fun j hj => ?_, ha, ?_, hless⟩
    · rw [hsame j hj, hsame' j (by omega)]
    · rw [← hsame' i hlt, hb]
  · subst heq
    have hmiddle : b = b' := by
      rw [hb] at hb'
      exact Option.some.inj hb'
    subst hmiddle
    refine ⟨i, a, c, fun j hj => ?_, ha, hc, htrans hless hless'⟩
    rw [hsame j hj, hsame' j hj]
  · refine ⟨k, b', c, fun j hj => ?_, ?_, hc, hless'⟩
    · rw [hsame j (by omega), hsame' j hj]
    · rw [hsame k hgt, hb']

/-- Lists that agree up to an index and differ there are in the lexicographic order. -/
theorem lex (h : FirstLess r left right) : List.Lex r left right := by
  obtain ⟨-, i, a, b, hsame, ha, hb, hless⟩ := h
  induction i generalizing left right with
  | zero =>
      cases left with
      | nil => simp at ha
      | cons first left =>
          cases right with
          | nil => simp at hb
          | cons second right =>
              have hfirst : first = a := by simpa using ha
              have hsecond : second = b := by simpa using hb
              subst hfirst hsecond
              exact List.Lex.rel hless
  | succ i ih =>
      cases left with
      | nil => simp at ha
      | cons first left =>
          cases right with
          | nil => simp at hb
          | cons second right =>
              have hfirst : first = second := by simpa using hsame 0 (by omega)
              subst hfirst
              apply List.Lex.cons
              exact ih (fun j hj => hsame (j + 1) (by omega)) ha hb

end FirstLess

theorem wellFounded_firstLess (h : WellFounded r) : WellFounded (FirstLess r) :=
  Subrelation.wf (fun hless => List.Shortlex.of_lex hless.length_eq hless.lex) (List.Shortlex.wf h)

end FogHttp.Lib
