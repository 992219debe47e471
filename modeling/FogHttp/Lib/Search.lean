import Mathlib.Data.List.Infix

/-!
# The first occurrence of a pattern

`position pattern text` is the index at which `pattern` first occurs in `text`,
as `windows(n).position(..)` finds it.

Text that arrives in pieces is searched again after each piece.
`position_append` says that an occurrence stays where it was found, and
`position_of_append` that one which ends inside of the text so far is found in
it already.  `firstEnd_of_position` says what was found without an index: the
text up to the end of the occurrence is the shortest beginning that ends with
the pattern.

Nothing here names a function of a particular program.
-/

namespace FogHttp.Lib

variable {α : Type} [BEq α] [LawfulBEq α] {pattern text : List α} {i : Nat}

/-- The index of the first occurrence of a pattern. -/
def position (pattern : List α) : List α → Option Nat
  | [] => none
  | c :: rest =>
      if pattern.isPrefixOf (c :: rest) then some 0
      else (position pattern rest).map fun i => i + 1

theorem position_cons_of_match {c : α} {rest : List α} (h : pattern <+: c :: rest) :
    position pattern (c :: rest) = some 0 := by
  rw [position, if_pos (List.isPrefixOf_iff_prefix.mpr h)]

theorem position_cons_of_no_match {c : α} {rest : List α} (h : ¬ pattern <+: c :: rest) :
    position pattern (c :: rest) = (position pattern rest).map fun i => i + 1 := by
  rw [position, if_neg (fun hstarts => h (List.isPrefixOf_iff_prefix.mp hstarts))]

/-- What was found is an occurrence. -/
theorem prefix_drop_of_position (h : position pattern text = some i) :
    pattern <+: text.drop i := by
  induction text generalizing i with
  | nil => simp [position] at h
  | cons c rest ih =>
      by_cases hstarts : pattern <+: c :: rest
      · rw [position_cons_of_match hstarts, Option.some.injEq] at h
        rw [← h]
        exact hstarts
      · rw [position_cons_of_no_match hstarts, Option.map_eq_some_iff] at h
        obtain ⟨j, hj, rfl⟩ := h
        exact ih hj

/-- An occurrence ends inside of the text. -/
theorem position_add_length_le (hne : pattern ≠ []) (h : position pattern text = some i) :
    i + pattern.length ≤ text.length := by
  have hlength := (prefix_drop_of_position h).length_le
  have hpositive := List.length_pos_iff.mpr hne
  rw [List.length_drop] at hlength
  omega

/-- An occurrence stays where it is when more text arrives. -/
theorem position_append (h : position pattern text = some i) (more : List α) :
    position pattern (text ++ more) = some i := by
  induction text generalizing i with
  | nil => simp [position] at h
  | cons c rest ih =>
      by_cases hstarts : pattern <+: c :: rest
      · rw [position_cons_of_match hstarts] at h
        rw [← h, List.cons_append]
        exact position_cons_of_match (hstarts.trans (List.prefix_append (c :: rest) more))
      · rw [position_cons_of_no_match hstarts, Option.map_eq_some_iff] at h
        obtain ⟨j, hj, rfl⟩ := h
        have hnot : ¬ pattern <+: c :: (rest ++ more) := by
          intro hlong
          -- The pattern fits into the old text, since it occurs there later.
          have hfits := (prefix_drop_of_position hj).length_le
          rw [List.length_drop] at hfits
          apply hstarts
          apply List.prefix_of_prefix_length_le hlong (List.prefix_append (c :: rest) more)
          rw [List.length_cons]
          omega
        rw [List.cons_append, position_cons_of_no_match hnot, ih hj]
        rfl

/-- An occurrence that ends inside of the text so far is found in it. -/
theorem position_of_append {more : List α} (h : position pattern (text ++ more) = some i)
    (hne : pattern ≠ []) (hfits : i + pattern.length ≤ text.length) :
    position pattern text = some i := by
  induction text generalizing i with
  | nil =>
      have hpositive := List.length_pos_iff.mpr hne
      rw [List.length_nil] at hfits
      omega
  | cons c rest ih =>
      rw [List.cons_append] at h
      by_cases hstarts : pattern <+: c :: (rest ++ more)
      · rw [position_cons_of_match hstarts, Option.some.injEq] at h
        rw [← h]
        apply position_cons_of_match
        apply List.prefix_of_prefix_length_le hstarts (List.prefix_append (c :: rest) more)
        omega
      · have hnot : ¬ pattern <+: c :: rest := fun hshort =>
          hstarts (hshort.trans (List.prefix_append (c :: rest) more))
        rw [position_cons_of_no_match hstarts, Option.map_eq_some_iff] at h
        obtain ⟨j, hj, rfl⟩ := h
        rw [List.length_cons] at hfits
        rw [position_cons_of_no_match hnot, ih hj (by omega)]
        rfl

/-- A text without an occurrence has none in its beginning. -/
theorem position_eq_none_of_append {more : List α} (h : position pattern (text ++ more) = none) :
    position pattern text = none := by
  cases hfound : position pattern text with
  | none => rfl
  | some i => simp [position_append hfound] at h

/-- An occurrence anywhere bounds the place of the first one. -/
theorem position_le_of_prefix_drop {j : Nat} (hne : pattern ≠ [])
    (h : pattern <+: text.drop j) : ∃ i, position pattern text = some i ∧ i ≤ j := by
  induction text generalizing j with
  | nil =>
      rw [List.drop_nil, List.prefix_nil] at h
      exact absurd h hne
  | cons c rest ih =>
      by_cases hstarts : pattern <+: c :: rest
      · exact ⟨0, position_cons_of_match hstarts, Nat.zero_le j⟩
      · cases j with
        | zero => exact absurd h hstarts
        | succ j =>
            obtain ⟨i, hi, hle⟩ := ih h
            refine ⟨i + 1, ?_, by omega⟩
            rw [position_cons_of_no_match hstarts, hi]
            rfl

/-- A text ends with the pattern, and no shorter beginning of it does. -/
def FirstEnd (pattern text : List α) : Prop :=
  pattern <:+ text ∧ ∀ pre, pre <+: text → pattern <:+ pre → pre = text

/-- The text up to the end of the first occurrence. -/
theorem firstEnd_of_position (hne : pattern ≠ []) (h : position pattern text = some i) :
    FirstEnd pattern (text.take (i + pattern.length)) := by
  have hfits := position_add_length_le hne h
  obtain ⟨rest, hrest⟩ := prefix_drop_of_position h
  constructor
  · refine ⟨text.take i, ?_⟩
    rw [List.take_add, ← hrest, List.take_left]
  · intro pre hpre hsuffix
    have htext : pre <+: text := hpre.trans (List.take_prefix _ text)
    have hlength := hpre.length_le
    obtain ⟨front, rfl⟩ := hsuffix
    obtain ⟨more, rfl⟩ := htext
    have hfound : pattern <+: (front ++ pattern ++ more).drop front.length := by
      rw [List.append_assoc, List.drop_left]
      exact List.prefix_append pattern more
    obtain ⟨j, hj, hle⟩ := position_le_of_prefix_drop hne hfound
    rw [h, Option.some.injEq] at hj
    apply hpre.eq_of_length
    rw [List.length_take] at hlength ⊢
    rw [List.length_append] at hlength ⊢
    omega

end FogHttp.Lib
