import FogHttp.Lib.Text

/-!
# Quoted strings in a separated text

A reader of a separated text follows three states: outside of a quoted string, inside of
one, and behind an escape inside of one.  A separator counts outside only.

`scan` is the run of these states over a piece without a separator that counts, and a piece
is `Closed` when it begins and ends outside.  Characters that are no mark change nothing
outside, so trimming them keeps a piece closed (`closed_trimMatches`).

Nothing here names a function of a particular program.
-/

namespace FogHttp.Lib

/-- The characters that a reader of quoted strings looks for. -/
structure QuoteMarks where
  separator : Char
  quote : Char
  escape : Char

inductive QuoteState where
  | outside
  | inside
  | escaped
deriving DecidableEq, Repr

namespace QuoteMarks

variable (marks : QuoteMarks)

/-- The state behind a character. -/
def step : QuoteState → Char → QuoteState
  | .outside, c => if c = marks.quote then .inside else .outside
  | .inside, c =>
      if c = marks.escape then .escaped else if c = marks.quote then .outside else .inside
  | .escaped, _ => .inside

/-- The state behind a piece, if no separator counts in it. -/
def scan : QuoteState → Text → Option QuoteState
  | state, [] => some state
  | state, c :: rest =>
      if state = .outside ∧ c = marks.separator then none else scan (marks.step state c) rest

/-- The piece begins and ends outside of quoted strings, and no separator counts in it. -/
def Closed (piece : Text) : Prop := marks.scan .outside piece = some .outside

/-- The character is neither a separator nor a quote. -/
def Neutral (c : Char) : Prop := c ≠ marks.separator ∧ c ≠ marks.quote

variable {marks}

theorem scan_append (state : QuoteState) (front back : Text) :
    marks.scan state (front ++ back) =
      (marks.scan state front).bind fun next => marks.scan next back := by
  induction front generalizing state with
  | nil => rfl
  | cons c front ih =>
      rw [List.cons_append, scan, scan]
      split
      · rfl
      · exact ih _

/-- Outside, a neutral character changes nothing. -/
theorem scan_outside_cons {c : Char} (hc : marks.Neutral c) (rest : Text) :
    marks.scan .outside (c :: rest) = marks.scan .outside rest := by
  rw [scan, if_neg (fun h => hc.1 h.2), step, if_neg hc.2]

/-- A neutral character does not lead outside. -/
theorem eq_outside_of_step {state : QuoteState} {c : Char} (hc : marks.Neutral c)
    (h : marks.step state c = .outside) : state = .outside := by
  cases state with
  | outside => rfl
  | inside =>
      rw [step, if_neg hc.2] at h
      split at h <;> cases h
  | escaped => cases h

theorem closed_of_neutral {piece : Text} (h : ∀ c ∈ piece, marks.Neutral c) :
    marks.Closed piece := by
  induction piece with
  | nil => rfl
  | cons c rest ih =>
      show marks.scan _ _ = _
      rw [scan_outside_cons (h c List.mem_cons_self)]
      exact ih fun d hd => h d (List.mem_cons_of_mem c hd)

/-- A piece stays closed when a neutral last character is dropped. -/
theorem closed_of_concat {piece : Text} {c : Char} (hc : marks.Neutral c)
    (h : marks.Closed (piece ++ [c])) : marks.Closed piece := by
  unfold Closed at h
  rw [scan_append] at h
  obtain ⟨state, hpiece, hlast⟩ := Option.bind_eq_some_iff.mp h
  rw [scan] at hlast
  split at hlast
  · cases hlast
  · have hstate := eq_outside_of_step hc (Option.some.inj hlast)
    rw [hstate] at hpiece
    exact hpiece

theorem closed_dropWhile {drop : Char → Bool} (hdrop : ∀ c, drop c = true → marks.Neutral c)
    {piece : Text} (h : marks.Closed piece) : marks.Closed (piece.dropWhile drop) := by
  induction piece with
  | nil => exact h
  | cons c rest ih =>
      rw [List.dropWhile_cons]
      split
      · rename_i hc
        unfold Closed at h
        rw [scan_outside_cons (hdrop c hc)] at h
        exact ih h
      · exact h

theorem closed_reverse_dropWhile {drop : Char → Bool}
    (hdrop : ∀ c, drop c = true → marks.Neutral c) {reversed : Text}
    (h : marks.Closed reversed.reverse) :
    marks.Closed (reversed.dropWhile drop).reverse := by
  induction reversed with
  | nil => exact h
  | cons c rest ih =>
      rw [List.dropWhile_cons]
      split
      · rename_i hc
        rw [List.reverse_cons] at h
        exact ih (closed_of_concat (hdrop c hc) h)
      · exact h

/-- Trimming neutral characters keeps a piece closed. -/
theorem closed_trimMatches {drop : Char → Bool} (hdrop : ∀ c, drop c = true → marks.Neutral c)
    {piece : Text} (h : marks.Closed piece) : marks.Closed (trimMatches drop piece) := by
  refine closed_reverse_dropWhile hdrop ?_
  rw [List.reverse_reverse]
  exact closed_dropWhile hdrop h

end QuoteMarks

end FogHttp.Lib
