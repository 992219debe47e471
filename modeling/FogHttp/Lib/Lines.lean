import Mathlib.Data.List.Basic
import Mathlib.Data.List.TakeWhile

/-!
# Lines of a text

`lines` splits a text at the line breaks CR LF, CR and LF.  Its first text
argument is the part of the current line that was read before, so that a text
can be split piece by piece.

The alphabet is any type with two letters for CR and LF.  Nothing here names a
function of a particular program.
-/

namespace FogHttp.Lib

section Lines

variable {α : Type} [DecidableEq α] (cr lf : α)

/-- The lines of `text`, of which `line` was read before.  A line break at the end starts
no line. -/
def lines (line : List α) : List α → List (List α)
  | [] => if line = [] then [] else [line]
  | c :: rest =>
      if c = lf then line :: lines [] rest
      else if c = cr then
        -- A CR before an LF leaves the end of the line to the LF.
        if rest.head? = some lf then lines line rest else line :: lines [] rest
      else lines (line ++ [c]) rest

/-- `splitLines` of a whole text. -/
def splitLines (text : List α) : List (List α) := lines cr lf [] text

variable {cr lf} {line text rest : List α} {c : α}

theorem lines_letter (hcr : c ≠ cr) (hlf : c ≠ lf) :
    lines cr lf line (c :: rest) = lines cr lf (line ++ [c]) rest := by
  rw [lines, if_neg hlf, if_neg hcr]

theorem lines_lf : lines cr lf line (lf :: rest) = line :: lines cr lf [] rest := by
  rw [lines, if_pos rfl]

theorem lines_crlf (hne : cr ≠ lf) :
    lines cr lf line (cr :: lf :: rest) = line :: lines cr lf [] rest := by
  rw [lines, if_neg hne, if_pos rfl, List.head?_cons, if_pos rfl, lines_lf]

/-- A CR ends the line, unless an LF does. -/
theorem lines_cr (hne : cr ≠ lf) (h : rest.head? ≠ some lf) :
    lines cr lf line (cr :: rest) = line :: lines cr lf [] rest := by
  rw [lines, if_neg hne, if_pos rfl, if_neg h]

/-- The letters of a line that was begun stay in front. -/
theorem lines_head (hline : line ≠ []) :
    ∃ more others, lines cr lf line text = (line ++ more) :: others := by
  induction text generalizing line with
  | nil => exact ⟨[], [], by rw [lines, if_neg hline, List.append_nil]⟩
  | cons c rest ih =>
      rw [lines]
      split
      · exact ⟨[], _, by rw [List.append_nil]⟩
      · split
        · split
          · exact ih hline
          · exact ⟨[], _, by rw [List.append_nil]⟩
        · obtain ⟨more, others, hmore⟩ := @ih (line ++ [c]) (by simp)
          exact ⟨c :: more, others, by rw [hmore, List.append_assoc, List.singleton_append]⟩

end Lines

/-! ## Up to the first bad entry -/

/-- The good entries at the front of a list that goes on with a bad one. -/
theorem takeWhile_append_bad {α : Type} {p : α → Bool} {good : List α} {bad : α}
    {others : List α} (hgood : ∀ entry ∈ good, p entry = true) (hbad : p bad = false) :
    (good ++ bad :: others).takeWhile p = good := by
  rw [List.takeWhile_append_of_pos hgood, List.takeWhile_cons_of_neg (by simp [hbad]),
    List.append_nil]

end FogHttp.Lib
