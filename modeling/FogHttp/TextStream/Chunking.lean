import FogHttp.TextStream.LineSplitter

/-!
# Line splitting does not depend on chunking

The splitter stands for a way to split the text that is still to come:
`LineSplitter.rest` are the lines of that text behind the pending segments and
the deferred CR.  `Renders` says that a generator is a part of such a split.
What it yields are the next lines, and it ends in a splitter for the others, or
with the error of a line that is too long whatever follows.

`renders_feedBreaks` is the scan of a window, by induction on the window.
`renders_feed` and `renders_flush` are the two methods, and `renders_iterChunks`
is the run.
-/

namespace FogHttp.TextStream

open Lib

/-- A line that is not longer than the limit. -/
def fits (maxLineChars : Option Nat) (line : PyStr) : Bool :=
  maxLineChars.all fun maxLineChars => line.length ≤ maxLineChars

variable {σ ρ : Type} {maxLineChars : Option Nat}

/-- A line fits, or its length raises. -/
theorem ensureMaxLineChars_cases (maxLineChars : Option Nat) (line : PyStr) :
    ensureMaxLineChars line.length maxLineChars = .ok () ∧ fits maxLineChars line = true ∨
      ∃ limit, maxLineChars = some limit ∧
        ensureMaxLineChars line.length maxLineChars = .error (lineTooLong limit) ∧
        fits maxLineChars line = false := by
  cases maxLineChars with
  | none => exact Or.inl ⟨rfl, rfl⟩
  | some limit =>
      by_cases hlong : line.length > limit
      · refine Or.inr ⟨limit, rfl, if_pos hlong, ?_⟩
        rw [fits, Option.all_some, decide_eq_false_iff_not]
        omega
      · refine Or.inl ⟨if_neg hlong, ?_⟩
        rw [fits, Option.all_some, decide_eq_true_eq]
        omega

/-- A line that is too long stays so. -/
theorem fits_append {line : PyStr} (h : fits maxLineChars line = false) (more : PyStr) :
    fits maxLineChars (line ++ more) = false := by
  cases maxLineChars with
  | none => exact h
  | some limit =>
      simp only [fits, Option.all_some, decide_eq_false_iff_not, List.length_append] at h ⊢
      omega

/-! ## Parts of a split -/

/-- A generator that yields the next lines of `spec`, and leaves the others to its result. -/
def Renders (maxLineChars : Option Nat) (spec : PyStr → List PyStr)
    (post : σ → (PyStr → List PyStr) → Prop) (generated : Generated ResponseError PyStr σ) : Prop :=
  (∀ line ∈ generated.yields, fits maxLineChars line = true) ∧
    match generated.result with
    | .ok state => ∃ others, post state others ∧
        ∀ text, spec text = generated.yields ++ others text
    | .error error => ∃ limit, maxLineChars = some limit ∧ error = lineTooLong limit ∧
        ∀ text, ∃ bad others, spec text = generated.yields ++ bad :: others ∧
          fits maxLineChars bad = false

variable {spec : PyStr → List PyStr} {post : σ → (PyStr → List PyStr) → Prop}
  {post' : ρ → (PyStr → List PyStr) → Prop}

theorem renders_pure {state : σ} (h : post state spec) :
    Renders maxLineChars spec post (.pure state) :=
  ⟨fun _ hmem => absurd hmem (List.not_mem_nil), spec, h, fun _ => rfl⟩

theorem renders_one {line : PyStr} {state : σ} {others : PyStr → List PyStr}
    (hline : fits maxLineChars line = true) (hspec : ∀ text, spec text = line :: others text)
    (h : post state others) : Renders maxLineChars spec post (.one line state) := by
  refine ⟨fun other hmem => ?_, others, h, hspec⟩
  rw [List.mem_singleton.mp hmem]
  exact hline

/-- The rule for two statements. -/
theorem Renders.andThen {first : Generated ResponseError PyStr σ}
    {next : σ → Generated ResponseError PyStr ρ}
    (h : Renders maxLineChars spec post first)
    (hnext : ∀ state others, post state others →
      Renders maxLineChars others post' (next state)) :
    Renders maxLineChars spec post' (first.andThen next) := by
  obtain ⟨hfits, hresult⟩ := h
  unfold Generated.andThen
  cases hfirst : first.result with
  | error error =>
      rw [hfirst] at hresult
      exact ⟨hfits, hresult⟩
  | ok state =>
      rw [hfirst] at hresult
      obtain ⟨others, hpost, hspec⟩ := hresult
      obtain ⟨hfits', hresult'⟩ := hnext state others hpost
      refine ⟨fun line hmem => ?_, ?_⟩
      · rcases List.mem_append.mp hmem with hmem | hmem
        · exact hfits line hmem
        · exact hfits' line hmem
      · dsimp only
        cases hsecond : (next state).result with
        | ok state' =>
            rw [hsecond] at hresult'
            obtain ⟨others', hpost', hspec'⟩ := hresult'
            exact ⟨others', hpost', fun text => by
              rw [hspec, hspec', List.append_assoc]⟩
        | error error =>
            rw [hsecond] at hresult'
            obtain ⟨limit, hlimit, herror, hbad⟩ := hresult'
            refine ⟨limit, hlimit, herror, fun text => ?_⟩
            obtain ⟨bad, others', hspec', hlong⟩ := hbad text
            exact ⟨bad, others', by rw [hspec, hspec', List.append_assoc], hlong⟩

/-- A split of a text that is known. -/
theorem Renders.at {generated : Generated ResponseError PyStr σ}
    (h : Renders maxLineChars spec post generated)
    (text : PyStr) :
    Renders maxLineChars (fun _ => spec text)
      (fun state others => ∃ more, post state more ∧ others = fun _ => more text) generated := by
  obtain ⟨hfits, hresult⟩ := h
  refine ⟨hfits, ?_⟩
  cases hgenerated : generated.result with
  | ok state =>
      rw [hgenerated] at hresult
      obtain ⟨others, hpost, hspec⟩ := hresult
      exact ⟨fun _ => others text, ⟨others, hpost, rfl⟩, fun _ => hspec text⟩
  | error error =>
      rw [hgenerated] at hresult
      obtain ⟨limit, hlimit, herror, hbad⟩ := hresult
      exact ⟨limit, hlimit, herror, fun _ => hbad text⟩

/-! ## The splitter -/

namespace LineSplitter

variable {self : LineSplitter}

/-- The part of the current line that was read. -/
def pending (self : LineSplitter) : PyStr := self.pendingParts.flatten

/-- The lines of `text` for a splitter that has read what came before. -/
def rest (self : LineSplitter) (text : PyStr) : List PyStr :=
  lines CR LF self.pending (if self.deferredCr then CR :: text else text)

/-- The invariant of a splitter. -/
structure Valid (maxLineChars : Option Nat) (splitter : LineSplitter) : Prop where
  limit : splitter.maxLineChars = maxLineChars
  parts : ∀ part ∈ splitter.pendingParts, part ≠ []
  chars : splitter.pendingChars = splitter.pending.length
  within : fits maxLineChars splitter.pending = true

theorem valid_new (maxLineChars : Option Nat) : (new maxLineChars).Valid maxLineChars :=
  ⟨rfl, by simp [new], rfl, by cases maxLineChars <;> rfl⟩

/-- `_append_segment` goes on with a line that fits, or raises. -/
theorem appendSegment_cases (h : self.Valid maxLineChars) (segment : PyStr) :
    (∃ next, self.appendSegment segment = .ok next ∧ next.Valid maxLineChars ∧
      next.pending = self.pending ++ segment ∧ next.deferredCr = self.deferredCr) ∨
    (∃ limit, maxLineChars = some limit ∧
      self.appendSegment segment = .error (lineTooLong limit) ∧
      fits maxLineChars (self.pending ++ segment) = false ∧ segment ≠ []) := by
  unfold appendSegment
  split
  · rename_i hempty
    have hnil : segment = [] := by simpa using hempty
    exact Or.inl ⟨self, rfl, h, by rw [hnil, List.append_nil], rfl⟩
  · rename_i hsome
    have hne : segment ≠ [] := by simpa using hsome
    have hflatten : (self.pendingParts ++ [segment]).flatten = self.pending ++ segment := by
      rw [List.flatten_append, List.flatten_singleton, pending]
    rcases ensureMaxLineChars_cases self.maxLineChars (self.pending ++ segment) with
      ⟨hok, hfits⟩ | ⟨limit, hlimit, herror, hlong⟩
    · rw [List.length_append, ← h.chars] at hok
      rw [hok]
      refine Or.inl ⟨_, rfl, ⟨h.limit, ?_, ?_, ?_⟩, hflatten, rfl⟩
      · intro part hmem
        rcases List.mem_append.mp hmem with hmem | hmem
        · exact h.parts part hmem
        · rw [List.mem_singleton.mp hmem]
          exact hne
      · rw [pending, hflatten, List.length_append, h.chars]
      · rw [pending, hflatten, ← h.limit]
        exact hfits
    · rw [List.length_append, ← h.chars] at herror
      rw [herror]
      exact Or.inr ⟨limit, h.limit ▸ hlimit, rfl, h.limit ▸ hlong, hne⟩

/-- A splitter after a line was taken. -/
theorem Valid.taken (h : self.Valid maxLineChars) :
    Valid maxLineChars { self with pendingParts := [], pendingChars := 0 } :=
  ⟨h.limit, by simp, rfl, (valid_new maxLineChars).within⟩

/-- Taking a line that ends here. -/
theorem renders_yieldLine (h : self.Valid maxLineChars) {others : PyStr → List PyStr}
    (hspec : ∀ text, spec text = self.pending :: others text) :
    Renders maxLineChars spec
      (fun next more => next.Valid maxLineChars ∧ next.pending = [] ∧
        next.deferredCr = self.deferredCr ∧ more = others) self.yieldLine :=
  renders_one h.within hspec ⟨h.taken, rfl, rfl, rfl⟩

/-! ## The scan of a window -/

/-- A segment that ends the line, and what follows it. -/
theorem renders_segment (h : self.Valid maxLineChars) {segment : PyStr}
    {others : PyStr → List PyStr}
    (hspec : ∀ text, spec text = (self.pending ++ segment) :: others text)
    {post : LineSplitter → (PyStr → List PyStr) → Prop}
    {next : LineSplitter → Generated ResponseError PyStr LineSplitter}
    (hnext : ∀ state : LineSplitter, state.Valid maxLineChars → state.pending = [] →
      state.deferredCr = self.deferredCr → Renders maxLineChars others post (next state)) :
    Renders maxLineChars spec post
      (match self.appendSegment segment with
        | .error error => ⟨[], .error error⟩
        | .ok self => self.yieldLine.andThen next) := by
  rcases appendSegment_cases h segment with
    ⟨grown, hgrown, hvalid, hpending, hdeferred⟩ | ⟨limit, hlimit, herror, hlong, -⟩
  · have hline : ∀ text, spec text = grown.pending :: others text := by
      intro text
      rw [hspec, hpending]
    rw [hgrown]
    refine (renders_yieldLine hvalid hline).andThen ?_
    intro state more hpost
    obtain ⟨hstate, hnil, hcr, rfl⟩ := hpost
    exact hnext state hstate hnil (hcr.trans hdeferred)
  · rw [herror]
    exact ⟨by simp, limit, hlimit, rfl, fun text => ⟨_, _, hspec text, hlong⟩⟩

theorem slice_eq {text pre after : PyStr} {scanEnd start : Nat}
    (htext : text.take scanEnd = pre ++ after) :
    slice text start pre.length = pre.drop start := by
  have hle : pre.length ≤ scanEnd := by
    have hlength := congrArg List.length htext
    rw [List.length_take, List.length_append] at hlength
    omega
  have htake : text.take pre.length = pre := by
    rw [← Nat.min_eq_left hle, ← List.take_take, htext, List.take_left']
    rfl
  rw [slice, htake]

/-- What is left of a chunk after its window was scanned: `tail` and the text that follows. -/
def Scanned (maxLineChars : Option Nat) (tail : PyStr → PyStr) (state : LineSplitter)
    (others : PyStr → List PyStr) : Prop :=
  state.Valid maxLineChars ∧ state.deferredCr = false ∧
    others = fun text => lines CR LF state.pending (tail text)

variable {text pre window : PyStr} {scanEnd segmentStart pos : Nat} {tail : PyStr → PyStr}

/-- The segment after the last line break. -/
theorem renders_lastSegment (h : self.Valid maxLineChars) (hdeferred : self.deferredCr = false)
    (htext : text.take scanEnd = pre) :
    Renders maxLineChars
      (fun text => lines CR LF (self.pending ++ pre.drop segmentStart) (tail text))
      (Scanned maxLineChars tail) (feedBreaks text scanEnd self segmentStart []) := by
  unfold feedBreaks
  rw [slice, htext]
  rcases appendSegment_cases h (pre.drop segmentStart) with
    ⟨grown, hgrown, hvalid, hpending, hcr⟩ | ⟨limit, hlimit, herror, hlong, hne⟩
  · rw [hgrown]
    refine ⟨by simp, _, ⟨hvalid, hcr.trans hdeferred, rfl⟩, fun text => ?_⟩
    rw [hpending]
    rfl
  · rw [herror]
    refine ⟨by simp, limit, hlimit, rfl, fun text => ?_⟩
    have hline : self.pending ++ pre.drop segmentStart ≠ [] := by simp [hne]
    obtain ⟨more, others, hlines⟩ :
        ∃ more others, lines CR LF (self.pending ++ pre.drop segmentStart) (tail text) =
          (self.pending ++ pre.drop segmentStart ++ more) :: others := lines_head hline
    exact ⟨_, others, hlines, fits_append hlong more⟩

/-- One line break.  The scan goes on behind it with an empty segment. -/
theorem renders_break {lineBreak rest : PyStr} {breaks : List (Nat × Nat)}
    (h : self.Valid maxLineChars) (hdeferred : self.deferredCr = false)
    (htext : text.take scanEnd = pre ++ (lineBreak ++ rest))
    (hlines : ∀ line text, lines CR LF line (lineBreak ++ rest ++ tail text) =
      line :: lines CR LF [] (rest ++ tail text))
    (hnext : ∀ state : LineSplitter, state.Valid maxLineChars → state.deferredCr = false →
      Renders maxLineChars
        (fun text => lines CR LF
          (state.pending ++ (pre ++ lineBreak).drop (pre ++ lineBreak).length) (rest ++ tail text))
        (Scanned maxLineChars tail)
        (feedBreaks text scanEnd state (pre ++ lineBreak).length breaks)) :
    Renders maxLineChars
      (fun text => lines CR LF (self.pending ++ pre.drop segmentStart)
        (lineBreak ++ rest ++ tail text))
      (Scanned maxLineChars tail)
      (feedBreaks text scanEnd self segmentStart
        ((pre.length, (pre ++ lineBreak).length) :: breaks)) := by
  rw [feedBreaks, slice_eq htext]
  refine renders_segment h (fun text => hlines _ text) fun state hstate hnil hcr => ?_
  have hrest := hnext state hstate (hcr.trans hdeferred)
  rw [hnil, List.drop_length] at hrest
  exact hrest

/-- The scan of a window, by induction on the window.  A CR at its end is a line break of its
own, so no LF may follow the window then. -/
theorem renders_feedBreaks (pos : Nat) (window : PyStr) :
    ∀ {self : LineSplitter} {pre : PyStr} {segmentStart : Nat}, self.Valid maxLineChars →
      self.deferredCr = false → segmentStart ≤ pre.length → pos = pre.length →
      text.take scanEnd = pre ++ window →
      (window.getLast? = some CR → ∀ text, (tail text).head? ≠ some LF) →
      Renders maxLineChars
        (fun text => lines CR LF (self.pending ++ pre.drop segmentStart) (window ++ tail text))
        (Scanned maxLineChars tail)
        (feedBreaks text scanEnd self segmentStart (lineBreaks pos window)) := by
  induction pos, window using lineBreaks.induct with
  | case1 pos =>
      intro self pre segmentStart h hdeferred _ _ htext _
      rw [List.append_nil] at htext
      exact renders_lastSegment h hdeferred htext
  | case2 pos =>
      intro self pre segmentStart h hdeferred _ hsame htext hcut
      subst hsame
      have hbreaks : lineBreaks pre.length [CR] = [(pre.length, (pre ++ [CR]).length)] := by
        rw [List.length_append]
        rfl
      rw [hbreaks]
      refine renders_break h hdeferred htext (fun line text => lines_cr CR_ne_LF (hcut rfl text))
        fun state hstate hcr => ?_
      exact renders_lastSegment hstate hcr htext
  | case3 pos rest ih =>
      intro self pre segmentStart h hdeferred _ hsame htext hcut
      subst hsame
      have hbreaks : lineBreaks pre.length (CR :: LF :: rest) =
          (pre.length, (pre ++ [CR, LF]).length) :: lineBreaks (pre.length + 2) rest := by
        rw [List.length_append]
        rfl
      rw [hbreaks]
      refine renders_break h hdeferred htext (fun line text => lines_crlf CR_ne_LF)
        fun state hstate hcr => ?_
      refine ih hstate hcr (Nat.le_refl _) (by rw [List.length_append]; rfl)
        (htext.trans (List.append_assoc pre [CR, LF] rest).symm) fun hlast => hcut ?_
      rw [List.getLast?_cons_cons, List.getLast?_cons, hlast]
      rfl
  | case4 pos d rest hd ih =>
      intro self pre segmentStart h hdeferred _ hsame htext hcut
      subst hsame
      have hbreaks : lineBreaks pre.length (CR :: d :: rest) =
          (pre.length, (pre ++ [CR]).length) :: lineBreaks (pre.length + 1) (d :: rest) := by
        rw [List.length_append]
        simp only [lineBreaks, if_true, if_neg hd]
        rfl
      rw [hbreaks]
      refine renders_break h hdeferred htext
        (fun line text => lines_cr CR_ne_LF (by simpa using hd))
        fun state hstate hcr => ?_
      refine ih hstate hcr (Nat.le_refl _) (by rw [List.length_append]; rfl)
        (htext.trans (List.append_assoc pre [CR] (d :: rest)).symm) fun hlast => hcut ?_
      rw [List.getLast?_cons_cons, hlast]
  | case5 pos rest _ ih =>
      intro self pre segmentStart h hdeferred _ hsame htext hcut
      subst hsame
      have hbreaks : lineBreaks pre.length (LF :: rest) =
          (pre.length, (pre ++ [LF]).length) :: lineBreaks (pre.length + 1) rest := by
        rw [List.length_append]
        cases rest <;> simp [lineBreaks, CR_ne_LF.symm]
      rw [hbreaks]
      refine renders_break h hdeferred htext (fun line text => lines_lf) fun state hstate hcr => ?_
      refine ih hstate hcr (Nat.le_refl _) (by rw [List.length_append]; rfl)
        (htext.trans (List.append_assoc pre [LF] rest).symm) fun hlast => hcut ?_
      rw [List.getLast?_cons, hlast]
      rfl
  | case6 pos c rest hcr hlf ih =>
      intro self pre segmentStart h hdeferred hle hsame htext hcut
      subst hsame
      have hbreaks : lineBreaks pre.length (c :: rest) = lineBreaks (pre.length + 1) rest := by
        cases rest <;> simp [lineBreaks, hcr, hlf]
      have hscan := @ih self (pre ++ [c]) segmentStart h hdeferred
        (by rw [List.length_append]; omega) (by rw [List.length_append]; rfl)
        (htext.trans (List.append_assoc pre [c] rest).symm) fun hlast => hcut (by
          rw [List.getLast?_cons, hlast]
          rfl)
      have hspec : (fun text => lines CR LF (self.pending ++ pre.drop segmentStart)
          (c :: rest ++ tail text)) =
          fun text => lines CR LF (self.pending ++ (pre ++ [c]).drop segmentStart)
            (rest ++ tail text) := by
        funext text
        rw [List.drop_append_of_le_length hle, ← List.append_assoc]
        exact lines_letter hcr hlf
      rw [hbreaks, hspec]
      exact hscan

/-! ## The methods -/

/-- What is left to a splitter. -/
def Left (maxLineChars : Option Nat) (state : LineSplitter) (others : PyStr → List PyStr) :
    Prop :=
  state.Valid maxLineChars ∧ others = state.rest

/-- A scan of a chunk behind `pre`.  A CR at its end is deferred. -/
theorem renders_scan (h : self.Valid maxLineChars) (hdeferred : self.deferredCr = false)
    (pre chunk : PyStr) (hpre : pre.getLast? ≠ some CR) :
    Renders maxLineChars (fun text => lines CR LF self.pending (chunk ++ text))
      (Left maxLineChars) (self.scan (pre ++ chunk) pre.length) := by
  unfold scan finditer
  by_cases hlast : (pre ++ chunk).getLast? = some CR
  · obtain ⟨window, rfl⟩ : ∃ window, chunk = window ++ [CR] := by
      cases hchunk : chunk.getLast? with
      | none =>
          rw [List.getLast?_append, hchunk, Option.none_or] at hlast
          exact absurd hlast hpre
      | some c =>
          rw [List.getLast?_append, hchunk, Option.some_or, Option.some.injEq] at hlast
          subst hlast
          exact ⟨chunk.dropLast, (List.dropLast_append_getLast? CR hchunk).symm⟩
    have hend : (pre ++ (window ++ [CR])).length - 1 = (pre ++ window).length := by
      simp only [List.length_append, List.length_singleton]
      omega
    have htake : (pre ++ (window ++ [CR])).take (pre ++ window).length = pre ++ window := by
      rw [← List.append_assoc, List.take_left']
      rfl
    have hslice : slice (pre ++ (window ++ [CR])) pre.length (pre ++ window).length = window := by
      rw [slice, htake, List.drop_left']
      rfl
    rw [if_pos hlast, hend]
    dsimp only
    rw [hslice]
    have hscan : Renders maxLineChars
        (fun text => lines CR LF (self.pending ++ pre.drop pre.length) (window ++ CR :: text))
        (Scanned maxLineChars fun text => CR :: text)
        (feedBreaks (pre ++ (window ++ [CR])) (pre ++ window).length self pre.length
          (lineBreaks pre.length window)) :=
      renders_feedBreaks pre.length window h hdeferred (Nat.le_refl _) rfl htake
        fun _ text => by simp [CR_ne_LF]
    rw [List.drop_length, List.append_nil] at hscan
    have hspec : (fun text => lines CR LF self.pending (window ++ [CR] ++ text)) =
        fun text => lines CR LF self.pending (window ++ CR :: text) := by
      funext text
      rw [List.append_assoc, List.singleton_append]
    rw [hspec]
    refine hscan.andThen ?_
    intro state others hpost
    obtain ⟨hstate, hcr, rfl⟩ := hpost
    have hlt : (pre ++ window).length < (pre ++ (window ++ [CR])).length := by
      simp only [List.length_append, List.length_singleton]
      omega
    rw [hcr, decide_eq_true hlt]
    exact renders_pure ⟨⟨hstate.limit, hstate.parts, hstate.chars, hstate.within⟩, rfl⟩
  · have htake : (pre ++ chunk).take (pre ++ chunk).length = pre ++ chunk := List.take_length
    have hslice : slice (pre ++ chunk) pre.length (pre ++ chunk).length = chunk := by
      rw [slice, htake, List.drop_left']
      rfl
    rw [if_neg hlast]
    dsimp only
    rw [hslice]
    have hscan : Renders maxLineChars
        (fun text => lines CR LF (self.pending ++ pre.drop pre.length) (chunk ++ text))
        (Scanned maxLineChars fun text => text)
        (feedBreaks (pre ++ chunk) (pre ++ chunk).length self pre.length
          (lineBreaks pre.length chunk)) :=
      renders_feedBreaks pre.length chunk h hdeferred (Nat.le_refl _) rfl htake
        fun hcr => absurd (by rw [List.getLast?_append, hcr]; rfl) hlast
    rw [List.drop_length, List.append_nil] at hscan
    refine hscan.andThen ?_
    intro state others hpost
    obtain ⟨hstate, hcr, rfl⟩ := hpost
    rw [hcr, decide_eq_false (Nat.lt_irrefl _)]
    refine renders_pure ⟨⟨hstate.limit, hstate.parts, hstate.chars, hstate.within⟩, ?_⟩
    funext text
    rw [rest]
    rfl

/-- `feed` yields the lines that end in the chunk. -/
theorem renders_feed (h : self.Valid maxLineChars) (chunk : PyStr) :
    Renders maxLineChars (fun text => self.rest (chunk ++ text)) (Left maxLineChars)
      (self.feed chunk) := by
  unfold feed
  cases chunk with
  | nil => exact renders_pure ⟨h, rfl⟩
  | cons c chunk =>
      rw [List.isEmpty_cons, if_neg Bool.false_ne_true]
      cases hdeferred : self.deferredCr with
      | false =>
          have hspec : (fun text => self.rest (c :: chunk ++ text)) =
              fun text => lines CR LF self.pending (c :: chunk ++ text) := by
            funext text
            rw [rest, hdeferred]
            rfl
          rw [hspec, if_neg Bool.false_ne_true]
          exact renders_scan h hdeferred [] (c :: chunk) (by simp)
      | true =>
          -- The deferred CR ends the line, with the LF in front of the chunk if there is one.
          have hvalid : Valid maxLineChars { self with deferredCr := false } :=
            ⟨h.limit, h.parts, h.chars, h.within⟩
          rw [if_pos rfl, List.head?_cons]
          by_cases hlf : c = LF
          · subst hlf
            have hspec : ∀ text, self.rest (LF :: chunk ++ text) =
                self.pending :: lines CR LF [] (chunk ++ text) := by
              intro text
              rw [rest, hdeferred]
              exact lines_crlf CR_ne_LF
            refine (renders_yieldLine hvalid hspec).andThen ?_
            intro state others hpost
            obtain ⟨hstate, hnil, hcr, rfl⟩ := hpost
            rw [if_pos rfl]
            have hscan := renders_scan hstate hcr [LF] chunk (by decide)
            rw [hnil] at hscan
            exact hscan
          · have hspec : ∀ text, self.rest (c :: chunk ++ text) =
                self.pending :: lines CR LF [] (c :: chunk ++ text) := by
              intro text
              rw [rest, hdeferred]
              exact lines_cr CR_ne_LF (by simpa using hlf)
            refine (renders_yieldLine hvalid hspec).andThen ?_
            intro state others hpost
            obtain ⟨hstate, hnil, hcr, rfl⟩ := hpost
            rw [if_neg (by simpa using hlf)]
            have hscan := renders_scan hstate hcr [] (c :: chunk) (by simp)
            rw [hnil] at hscan
            exact hscan

/-- `flush` yields the line that the end of the text ends. -/
theorem renders_flush (h : self.Valid maxLineChars) :
    Renders maxLineChars (fun _ => self.rest []) (fun _ others => others = fun _ => [])
      self.flush := by
  have hparts : ∀ {state : LineSplitter}, state.Valid maxLineChars →
      state.deferredCr = false →
      Renders maxLineChars (fun _ => state.rest []) (fun _ others => others = fun _ => [])
        (if state.pendingParts.isEmpty then .pure state else state.yieldLine) := by
    intro state hstate hcr
    have hrest : state.rest [] = if state.pending = [] then [] else [state.pending] := by
      rw [rest, hcr]
      rfl
    cases hpending : state.pendingParts with
    | nil =>
        have hnil : state.pending = [] := by rw [pending, hpending, List.flatten_nil]
        rw [hrest, if_pos hnil]
        exact renders_pure rfl
    | cons part parts =>
        have hne : state.pending ≠ [] := by
          have hpart := hstate.parts part (by rw [hpending]; exact List.mem_cons_self)
          rw [pending, hpending, List.flatten_cons]
          simp [hpart]
        rw [hrest, if_neg hne]
        exact renders_one hstate.within (fun _ => rfl) rfl
  unfold flush
  cases hdeferred : self.deferredCr with
  | false => exact hparts h hdeferred
  | true =>
      have hvalid : Valid maxLineChars { self with deferredCr := false } :=
        ⟨h.limit, h.parts, h.chars, h.within⟩
      have hspec : ∀ _ : PyStr, self.rest [] = self.pending :: [] := by
        intro _
        rw [rest, hdeferred]
        exact lines_cr CR_ne_LF (by simp)
      refine (renders_yieldLine hvalid hspec).andThen ?_
      intro state others hpost
      obtain ⟨hstate, hnil, hcr, rfl⟩ := hpost
      have hlast := hparts hstate hcr
      rw [rest, hnil, hcr] at hlast
      exact hlast

/-- The run lemma. -/
theorem renders_iterChunks (chunks : List PyStr) :
    ∀ {self : LineSplitter}, self.Valid maxLineChars →
      Renders maxLineChars (fun _ => self.rest chunks.flatten)
        (fun _ others => others = fun _ => [])
        (iterChunks self chunks) := by
  induction chunks with
  | nil =>
      intro self h
      exact renders_flush h
  | cons chunk chunks ih =>
      intro self h
      rw [List.flatten_cons]
      refine ((renders_feed h chunk).at chunks.flatten).andThen ?_
      intro state others hpost
      obtain ⟨more, ⟨hstate, rfl⟩, rfl⟩ := hpost
      exact ih hstate

end LineSplitter

/-! ## The result -/

/-- What a generator that renders a whole text has yielded, and how it ended. -/
theorem outcome_of_renders {reference : List PyStr} {generated : Generated ResponseError PyStr σ}
    (h : Renders maxLineChars (fun _ => reference) (fun _ others => others = fun _ => [])
      generated) :
    generated.yields = reference.takeWhile (fits maxLineChars) ∧
      ((∃ error, generated.result = .error error) ↔
        ∃ line ∈ reference, fits maxLineChars line = false) ∧
      ∀ error, generated.result = .error error →
        ∃ limit, maxLineChars = some limit ∧ error = lineTooLong limit := by
  obtain ⟨hfits, hresult⟩ := h
  cases hgenerated : generated.result with
  | ok state =>
      rw [hgenerated] at hresult
      obtain ⟨others, rfl, hspec⟩ := hresult
      have hreference : reference = generated.yields ++ [] := hspec []
      rw [List.append_nil] at hreference
      rw [hreference]
      refine ⟨(List.takeWhile_eq_self_iff.mpr hfits).symm, ⟨by simp, ?_⟩, by simp⟩
      intro hpost
      obtain ⟨line, hmem, hbad⟩ := hpost
      rw [hfits line hmem] at hbad
      simp at hbad
  | error error =>
      rw [hgenerated] at hresult
      obtain ⟨limit, hlimit, rfl, hspec⟩ := hresult
      obtain ⟨bad, others, hreference, hbad⟩ : ∃ bad others,
          reference = generated.yields ++ bad :: others ∧ fits maxLineChars bad = false := hspec []
      rw [hreference]
      refine ⟨(takeWhile_append_bad hfits hbad).symm, ⟨fun _ => ?_, fun _ => ⟨_, rfl⟩⟩, ?_⟩
      · exact ⟨bad, by simp, hbad⟩
      · intro error herror
        rw [Except.error.injEq] at herror
        exact ⟨limit, hlimit, herror.symm⟩

theorem aiterChunks_eq (chunks : List PyStr) (splitter : LineSplitter) :
    aiterChunks splitter chunks = iterChunks splitter chunks := by
  induction chunks generalizing splitter with
  | nil => exact Generated.reyield_eq _
  | cons chunk chunks ih =>
      rw [aiterChunks, iterChunks, Generated.reyield_eq]
      congr 1
      funext splitter
      exact ih splitter

/-- For every text in any chunks and every limit: both iterators yield the lines of the whole
text up to the first one that is too long, and raise exactly when there is one. -/
theorem lines_independent_of_chunking (chunks : List PyStr) (maxLineChars : Option Nat) :
    let reference := splitLines CR LF chunks.flatten
    let outcome := iterLines chunks maxLineChars
    outcome.yields = reference.takeWhile (fits maxLineChars) ∧
      ((∃ error, outcome.result = .error error) ↔
        ∃ line ∈ reference, fits maxLineChars line = false) ∧
      (∀ error, outcome.result = .error error →
        ∃ limit, maxLineChars = some limit ∧ error = lineTooLong limit) ∧
      aiterLines chunks maxLineChars = outcome := by
  intro reference outcome
  have hrun := LineSplitter.renders_iterChunks chunks (LineSplitter.valid_new maxLineChars)
  obtain ⟨hyields, hraises, herror⟩ := outcome_of_renders hrun
  exact ⟨hyields, hraises, herror, aiterChunks_eq chunks _⟩

end FogHttp.TextStream
