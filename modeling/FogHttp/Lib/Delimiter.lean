import Mathlib.Data.List.Basic
import Mathlib.Data.List.Infix

/-!
# Splitting at a delimiter

`cut` finds the first place of a delimiter in a list, and `splitEach` cuts at
every place, from the left and without overlaps.  The entries are of any type.

Two pieces that are joined by a delimiter can show it at the seam only if the
delimiter overlaps itself.  A delimiter whose first entry does not occur again
does not, and then `cut_join` and `splitEach_join` get the pieces back.

The last section is about a single entry as the delimiter, where the pieces are
those of `List.splitOn`.

Nothing here names a function of a particular program.
-/

namespace FogHttp.Lib

variable {α : Type} {first : α} {more piece text : List α}

/-! ## Lists without a place of a delimiter -/

/-- The first entry does not occur in front. -/
theorem not_infix_append (hpiece : first ∉ piece) (htext : ¬ first :: more <:+: text) :
    ¬ first :: more <:+: piece ++ text := by
  induction piece with
  | nil => exact htext
  | cons c rest ih =>
      simp only [List.mem_cons, not_or] at hpiece
      rw [List.cons_append, List.infix_cons_iff, not_or]
      refine ⟨fun hbegins => hpiece.1 ?_, ih hpiece.2⟩
      exact (List.cons_prefix_cons.mp hbegins).1

theorem not_infix_cons {c : α} (hbegins : ¬ first :: more <+: c :: text)
    (htext : ¬ first :: more <:+: text) : ¬ first :: more <:+: c :: text := by
  rw [List.infix_cons_iff, not_or]
  exact ⟨hbegins, htext⟩

theorem not_infix_of_not_mem (htext : first ∉ text) : ¬ first :: more <:+: text := by
  intro hwithin
  exact htext (hwithin.subset List.mem_cons_self)

/-- A delimiter does not start inside of a piece and end in the next delimiter. -/
theorem not_prefix_seam (text : List α) (hfirst : first ∉ more)
    (hpiece : ¬ first :: more <:+: piece) (hne : piece ≠ []) :
    ¬ first :: more <+: piece ++ (first :: more ++ text) := by
  intro hbegins
  by_cases hlength : (first :: more).length ≤ piece.length
  · exact hpiece (List.prefix_of_prefix_length_le hbegins (List.prefix_append _ _) hlength).isInfix
  · have hlong : piece ++ [first] <+: first :: more := by
      refine List.prefix_of_prefix_length_le ⟨more ++ text, by simp⟩ hbegins ?_
      rw [List.length_append, List.length_singleton]
      omega
    obtain ⟨c, rest, rfl⟩ := List.exists_cons_of_ne_nil hne
    rw [List.cons_append, List.cons_prefix_cons] at hlong
    exact hfirst (hlong.2.subset (by simp))

/-! ## Cutting -/

section Cut

variable [DecidableEq α]

/-- The list before the first place of `delimiter`, and the list behind it. -/
def cut (delimiter : List α) : List α → Option (List α × List α)
  | [] => if delimiter = [] then some ([], []) else none
  | c :: rest =>
      if delimiter.isPrefixOf (c :: rest) then some ([], (c :: rest).drop delimiter.length)
      else (cut delimiter rest).map fun pieces => (c :: pieces.1, pieces.2)

/-- The pieces between the places of `delimiter`, at most `count` of them and the rest. -/
def cutAll (delimiter : List α) : Nat → List α → List (List α)
  | 0, text => [text]
  | count + 1, text =>
      match cut delimiter text with
      | none => [text]
      | some (before, after) => before :: cutAll delimiter count after

/-- The pieces between the places of a delimiter that is not empty. -/
def splitEach (delimiter text : List α) : List (List α) :=
  cutAll delimiter text.length text

/-- What has no place of the first entry is not cut. -/
theorem cut_append (hpiece : first ∉ piece) :
    cut (first :: more) (piece ++ text) =
      (cut (first :: more) text).map fun pieces => (piece ++ pieces.1, pieces.2) := by
  induction piece with
  | nil => simp
  | cons c rest ih =>
      simp only [List.mem_cons, not_or] at hpiece
      have hne : (first :: more).isPrefixOf (c :: (rest ++ text)) = false := by
        simp [List.isPrefixOf, hpiece.1]
      rw [List.cons_append, cut, hne, if_neg Bool.false_ne_true, ih hpiece.2, Option.map_map]
      rfl

/-- A place of the delimiter at the front. -/
theorem cut_delimiter (first : α) (more text : List α) :
    cut (first :: more) (first :: more ++ text) = some ([], text) := by
  have hbegins : (first :: more).isPrefixOf (first :: (more ++ text)) = true := by
    simp [List.isPrefixOf_iff_prefix]
  rw [List.cons_append, cut, if_pos hbegins, ← List.cons_append, List.drop_left']
  rfl

/-- A list that goes on with another entry than the delimiter. -/
theorem cut_cons {c : α} (h : ¬ first :: more <+: c :: text) :
    cut (first :: more) (c :: text) =
      (cut (first :: more) text).map fun pieces => (c :: pieces.1, pieces.2) := by
  have hbegins : (first :: more).isPrefixOf (c :: text) = false := by
    rw [← Bool.not_eq_true, List.isPrefixOf_iff_prefix]
    exact h
  rw [cut, hbegins, if_neg Bool.false_ne_true]

/-- A list without a place of the delimiter. -/
theorem cut_eq_none (h : ¬ first :: more <:+: text) : cut (first :: more) text = none := by
  induction text with
  | nil => rw [cut, if_neg (List.cons_ne_nil first more)]
  | cons c rest ih =>
      rw [List.infix_cons_iff, not_or] at h
      rw [cut_cons h.1, ih h.2]
      rfl

/-- Cutting undoes joining. -/
theorem cut_join (hfirst : first ∉ more) (hpiece : ¬ first :: more <:+: piece) :
    cut (first :: more) (piece ++ (first :: more ++ text)) = some (piece, text) := by
  induction piece with
  | nil => exact cut_delimiter first more text
  | cons c rest ih =>
      have hseam : ¬ first :: more <+: c :: (rest ++ (first :: more ++ text)) :=
        not_prefix_seam text hfirst hpiece (List.cons_ne_nil c rest)
      rw [List.infix_cons_iff, not_or] at hpiece
      rw [List.cons_append, cut_cons hseam, ih hpiece.2]
      rfl

/-- Splitting undoes joining. -/
theorem splitEach_join (hfirst : first ∉ more) (pieces : List (List α))
    (hpieces : ∀ other ∈ piece :: pieces, ¬ first :: more <:+: other) :
    splitEach (first :: more) (piece ++ pieces.flatMap (first :: more ++ ·)) =
      piece :: pieces := by
  have hcount : ∀ (pieces : List (List α)) (piece : List α) (count : Nat),
      pieces.length ≤ count → (∀ other ∈ piece :: pieces, ¬ first :: more <:+: other) →
      cutAll (first :: more) count (piece ++ pieces.flatMap (first :: more ++ ·)) =
        piece :: pieces := by
    intro pieces
    induction pieces with
    | nil =>
        intro piece count _ hpieces
        rw [List.flatMap_nil, List.append_nil]
        cases count with
        | zero => rfl
        | succ count => rw [cutAll, cut_eq_none (hpieces piece List.mem_cons_self)]
    | cons next pieces ih =>
        intro piece count hle hpieces
        obtain ⟨count, rfl⟩ : ∃ less, count = less + 1 :=
          ⟨count - 1, by rw [List.length_cons] at hle; omega⟩
        have hnext := ih next count (by rw [List.length_cons] at hle; omega)
          fun other hmem => hpieces other (List.mem_cons_of_mem _ hmem)
        rw [List.flatMap_cons, List.append_assoc, cutAll,
          cut_join hfirst (hpieces piece List.mem_cons_self)]
        dsimp only
        rw [hnext]
  refine hcount pieces piece _ ?_ hpieces
  rw [List.length_append, List.length_flatMap]
  have hsum : ∀ pieces : List (List α),
      pieces.length ≤ (pieces.map fun piece => (first :: more ++ piece).length).sum := by
    intro pieces
    induction pieces with
    | nil => exact Nat.le_refl 0
    | cons piece pieces ih =>
        rw [List.map_cons, List.sum_cons, List.length_cons, List.length_append, List.length_cons]
        omega
  have hpieces := hsum pieces
  omega

end Cut

/-! ## Pieces between single entries -/

section Pieces

variable {c sep : α} {pieces : List (List α)}

/-- An entry of a joined list is a separator, or an entry of a piece. -/
theorem mem_intercalate (h : c ∈ [sep].intercalate pieces) :
    c = sep ∨ ∃ piece ∈ pieces, c ∈ piece := by
  induction pieces with
  | nil => simp at h
  | cons piece pieces ih =>
      cases pieces with
      | nil => exact .inr ⟨piece, List.mem_singleton_self piece, by simpa using h⟩
      | cons next pieces =>
          rw [List.intercalate_cons_cons, List.append_assoc, List.mem_append, List.mem_append,
            List.mem_singleton] at h
          rcases h with h | h | h
          · exact .inr ⟨piece, List.mem_cons_self, h⟩
          · exact .inl h
          · refine (ih h).imp_right fun ⟨other, hother, hc⟩ => ?_
            exact ⟨other, List.mem_cons_of_mem _ hother, hc⟩

theorem mem_intercalate_of_mem (hpiece : piece ∈ pieces) (hc : c ∈ piece) :
    c ∈ [sep].intercalate pieces := by
  induction pieces with
  | nil => exact absurd hpiece List.not_mem_nil
  | cons other pieces ih =>
      cases pieces with
      | nil =>
          rw [List.mem_singleton.mp hpiece] at hc
          simpa using hc
      | cons next pieces =>
          rw [List.intercalate_cons_cons, List.append_assoc, List.mem_append, List.mem_append]
          rcases List.mem_cons.mp hpiece with rfl | hpiece
          · exact .inl hc
          · exact .inr (.inr (ih hpiece))

variable [BEq α]

theorem mem_of_mem_splitOn [LawfulBEq α] (hpiece : piece ∈ text.splitOn sep) (hc : c ∈ piece) :
    c ∈ text := by
  have hmem : c ∈ [sep].intercalate (text.splitOn sep) := mem_intercalate_of_mem hpiece hc
  rw [List.intercalate_splitOn] at hmem
  exact hmem

/-- A piece has no separator. -/
theorem not_mem_of_mem_splitOn [LawfulBEq α] (hpiece : piece ∈ text.splitOn sep) :
    sep ∉ piece := by
  induction text generalizing piece with
  | nil =>
      rw [List.splitOn_eq_splitOnP, List.splitOnP_nil, List.mem_singleton] at hpiece
      exact hpiece ▸ List.not_mem_nil
  | cons c rest ih =>
      obtain ⟨first, others, hrest⟩ := List.exists_cons_of_ne_nil (List.splitOn_ne_nil sep rest)
      rw [List.splitOn_cons_eq_if_modifyHead, hrest] at hpiece
      rw [hrest] at ih
      split at hpiece
      · rcases List.mem_cons.mp hpiece with rfl | hpiece
        · exact List.not_mem_nil
        · exact ih hpiece
      · rename_i hne
        rw [List.modifyHead_cons] at hpiece
        rcases List.mem_cons.mp hpiece with rfl | hpiece
        · have hc : sep ≠ c := fun heq => hne (beq_iff_eq.mpr heq.symm)
          simpa [hc] using ih List.mem_cons_self
        · exact ih (List.mem_cons_of_mem _ hpiece)

/-- The pieces of a list and of what follows it meet in one piece. -/
theorem splitOn_append (sep : α) (left : List α) : ∃ front last, ∀ right, ∃ piece pieces,
    right.splitOn sep = piece :: pieces ∧
      (left ++ right).splitOn sep = front ++ (last ++ piece) :: pieces := by
  induction left with
  | nil =>
      refine ⟨[], [], fun right => ?_⟩
      obtain ⟨piece, pieces, hright⟩ := List.exists_cons_of_ne_nil (List.splitOn_ne_nil sep right)
      exact ⟨piece, pieces, hright, hright⟩
  | cons c left ih =>
      obtain ⟨front, last, ih⟩ := ih
      by_cases hc : (c == sep) = true
      · refine ⟨[] :: front, last, fun right => ?_⟩
        obtain ⟨piece, pieces, hright, hsplit⟩ := ih right
        refine ⟨piece, pieces, hright, ?_⟩
        rw [List.cons_append, List.splitOn_cons_eq_if_modifyHead, if_pos hc, hsplit]
        rfl
      · cases front with
        | nil =>
            refine ⟨[], c :: last, fun right => ?_⟩
            obtain ⟨piece, pieces, hright, hsplit⟩ := ih right
            refine ⟨piece, pieces, hright, ?_⟩
            rw [List.cons_append, List.splitOn_cons_eq_if_modifyHead, if_neg hc, hsplit]
            rfl
        | cons first front =>
            refine ⟨(c :: first) :: front, last, fun right => ?_⟩
            obtain ⟨piece, pieces, hright, hsplit⟩ := ih right
            refine ⟨piece, pieces, hright, ?_⟩
            rw [List.cons_append, List.splitOn_cons_eq_if_modifyHead, if_neg hc, hsplit]
            rfl

end Pieces

end FogHttp.Lib
