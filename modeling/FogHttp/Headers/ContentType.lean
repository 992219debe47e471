import FogHttp.Headers.Body
import FogHttp.Lib.Quoting
import FogHttp.Multipart.Stream

/-!
# Content types with a boundary

`explicit_content_type_with_boundary` splits the content type of a multipart request and
joins the parts again with the boundary behind them.  The result splits into the same
parts.

* `_ContentTypeSplitter` follows the states of a reader of quoted strings.  `Splits` is
  what it has in hand: closed parts and a part in progress.
* A part that was split off is closed, and it stays closed when it is trimmed.  So in a
  joined content type no part can swallow the separator behind it (`foldl_join`).
-/

namespace FogHttp

open Lib Multipart

namespace ContentTypeSplitter

/-- The marks of a content type. -/
def marks : QuoteMarks := ⟨';', '"', '\\'⟩

/-- A splitter in a state of a reader. -/
def inState (parts : List Text) (buffer : Text) : QuoteState → ContentTypeSplitter
  | .outside => ⟨parts, buffer, false, false⟩
  | .inside => ⟨parts, buffer, true, false⟩
  | .escaped => ⟨parts, buffer, true, true⟩

/-- A character that does not count as a separator joins the part in progress. -/
theorem append_inState {state : QuoteState} {char : Char}
    (h : ¬ (state = .outside ∧ char = marks.separator)) (parts : List Text) (buffer : Text) :
    (inState parts buffer state).append char =
      inState parts (buffer ++ [char]) (marks.step state char) := by
  cases state with
  | outside =>
      have hseparator : char ≠ ';' := fun hchar => h ⟨rfl, hchar⟩
      by_cases hquote : char = '"'
      · subst hquote
        rfl
      · simp [inState, append, QuoteMarks.step, marks, hquote, hseparator]
  | inside =>
      by_cases hescape : char = '\\'
      · subst hescape
        rfl
      · by_cases hquote : char = '"'
        · subst hquote
          rfl
        · simp [inState, append, QuoteMarks.step, marks, hescape, hquote]
  | escaped => rfl

/-! ## Parts that were split off -/

/-- What a splitter has made of the characters it has read. -/
structure Splits (read : Text) (parts : List Text) (buffer : Text) (state : QuoteState) :
    Prop where
  closed : ∀ part ∈ parts, marks.Closed part
  rest : marks.scan .outside buffer = some state
  chars : ∀ part ∈ parts ++ [buffer], ∀ c ∈ part, c ∈ read

theorem splits_new : Splits [] [] [] .outside where
  closed := by simp
  rest := rfl
  chars := by simp

/-- The part in progress takes one more character. -/
theorem Splits.grow {read buffer : Text} {parts : List Text} {state : QuoteState}
    (h : Splits read parts buffer state) {char : Char}
    (hcounts : ¬ (state = .outside ∧ char = marks.separator)) :
    Splits (read ++ [char]) parts (buffer ++ [char]) (marks.step state char) where
  closed := h.closed
  rest := by
    rw [QuoteMarks.scan_append, h.rest]
    show marks.scan state [char] = _
    rw [QuoteMarks.scan, if_neg hcounts]
    rfl
  chars part hpart c hc := by
    rcases List.mem_append.mp hpart with hpart | hpart
    · exact List.mem_append_left _ (h.chars part (List.mem_append_left _ hpart) c hc)
    · obtain rfl := List.mem_singleton.mp hpart
      rcases List.mem_append.mp hc with hc | hc
      · exact List.mem_append_left _ (h.chars buffer (by simp) c hc)
      · exact List.mem_append_right _ hc

/-- A separator that counts completes the part in progress. -/
theorem Splits.cut {read buffer : Text} {parts : List Text}
    (h : Splits read parts buffer .outside) (char : Char) :
    Splits (read ++ [char]) (parts ++ [buffer]) [] .outside where
  closed part hpart := by
    rcases List.mem_append.mp hpart with hpart | hpart
    · exact h.closed part hpart
    · obtain rfl := List.mem_singleton.mp hpart
      exact h.rest
  rest := rfl
  chars part hpart c hc := by
    rcases List.mem_append.mp hpart with hpart | hpart
    · exact List.mem_append_left _ (h.chars part hpart c hc)
    · obtain rfl := List.mem_singleton.mp hpart
      cases hc

/-- A splitter reads on. -/
theorem Splits.foldl {read buffer : Text} {parts : List Text} {state : QuoteState}
    (h : Splits read parts buffer state) (text : Text) :
    ∃ done last after, text.foldl append (inState parts buffer state) = inState done last after ∧
      Splits (read ++ text) done last after := by
  induction text generalizing read parts buffer state with
  | nil => exact ⟨parts, buffer, state, rfl, by simpa using h⟩
  | cons c rest ih =>
      rw [List.append_cons, List.foldl_cons]
      by_cases hcounts : state = .outside ∧ c = marks.separator
      · obtain ⟨rfl, rfl⟩ := hcounts
        exact ih (h.cut _)
      · rw [append_inState hcounts]
        exact ih (h.grow hcounts)

/-- A part of a content type is closed and has its characters from there. -/
theorem closed_of_mem_split {contentType part : Text} {parts : List Text}
    (h : split contentType = .ok parts) (hpart : part ∈ parts) :
    marks.Closed part ∧ ∀ c ∈ part, c ∈ contentType := by
  obtain ⟨done, last, after, hfold, hsplits⟩ := splits_new.foldl contentType
  rw [List.nil_append] at hsplits
  have hclosed : ∀ part ∈ done ++ [last], after = .outside → marks.Closed part := by
    rintro part hpart rfl
    rcases List.mem_append.mp hpart with hpart | hpart
    · exact hsplits.closed part hpart
    · obtain rfl := List.mem_singleton.mp hpart
      exact hsplits.rest
  have hsplit : split contentType =
      if (inState done last after).inQuote || (inState done last after).escape then
        .error (.valueError multipartContentTypeUnsupported)
      else .ok ((inState done last after).parts ++ [(inState done last after).buffer]) := by
    rw [← hfold]
    rfl
  rw [hsplit] at h
  cases after with
  | outside =>
      rw [← Except.ok.inj h] at hpart
      exact ⟨hclosed part hpart rfl, hsplits.chars part hpart⟩
  | inside => cases h
  | escaped => cases h

/-! ## Joined parts -/

/-- A piece in which no separator counts joins the part in progress. -/
theorem foldl_scan {state after : QuoteState} {piece : Text}
    (h : marks.scan state piece = some after) (parts : List Text) (buffer : Text) :
    piece.foldl append (inState parts buffer state) = inState parts (buffer ++ piece) after := by
  induction piece generalizing state buffer with
  | nil =>
      rw [Option.some.inj h, List.append_nil]
      rfl
  | cons c rest ih =>
      rw [QuoteMarks.scan] at h
      split at h
      · cases h
      · rename_i hcounts
        rw [List.foldl_cons, append_inState hcounts, ih h, List.append_assoc,
          List.singleton_append]

/-- Closed parts come back from their join, each but the first behind a blank. -/
theorem foldl_join {part : Text} {others : List Text} (hpart : marks.Closed part)
    (hothers : ∀ other ∈ others, marks.Closed other) (parts : List Text) (buffer : Text) :
    ∃ (done : List Text) (last : Text),
      (List.intercalate ("; " : Text) (part :: others)).foldl append
          (inState parts buffer .outside) = inState done last .outside ∧
        done ++ [last] = parts ++ (buffer ++ part) :: others.map (' ' :: ·) := by
  induction others generalizing part parts buffer with
  | nil =>
      refine ⟨parts, buffer ++ part, ?_, rfl⟩
      rw [List.intercalate_singleton, foldl_scan hpart]
  | cons next others ih =>
      obtain ⟨done, last, hfold, hparts⟩ := ih (hothers next List.mem_cons_self)
        (fun other hmem => hothers other (List.mem_cons_of_mem _ hmem))
        (parts ++ [buffer ++ part]) [' ']
      refine ⟨done, last, ?_, ?_⟩
      · rw [List.intercalate_cons_cons, List.append_assoc, List.foldl_append,
          foldl_scan hpart, List.foldl_append]
        exact hfold
      · rw [hparts, List.append_assoc]
        rfl

/-- The split of joined parts. -/
theorem split_join {part : Text} {others : List Text} (hpart : marks.Closed part)
    (hothers : ∀ other ∈ others, marks.Closed other) :
    split (List.intercalate ("; " : Text) (part :: others)) =
      .ok (part :: others.map (' ' :: ·)) := by
  obtain ⟨done, last, hfold, hparts⟩ := foldl_join hpart hothers [] []
  unfold split
  rw [show new = inState [] [] .outside from rfl, hfold]
  simp only [inState, Bool.or_self, Bool.false_eq_true, if_false]
  rw [hparts]
  rfl

end ContentTypeSplitter

/-! ## Trimmed parts -/

theorem neutral_of_isWhitespace {c : Char} (h : isWhitespace c = true) :
    ContentTypeSplitter.marks.Neutral c := by
  constructor
  · rintro rfl
    exact absurd h (by decide)
  · rintro rfl
    exact absurd h (by decide)

/-- What `_stripped_parts` makes of the parts of a split. -/
def strippedParts (parts : List Text) : List Text :=
  (parts.map trim).filter fun part => !part.isEmpty

/-- A part of a content type as `_content_type_parts` returns it. -/
structure Stripped (part : Text) : Prop where
  closed : ContentTypeSplitter.marks.Closed part
  trimmed : trim part = part
  nonempty : part ≠ []
  printable : part.all Multipart.isHeaderValueChar = true

/-- Stripped parts come back from behind their blanks. -/
theorem strippedParts_join {part : Text} {others : List Text} (hpart : Stripped part)
    (hothers : ∀ other ∈ others, Stripped other) :
    strippedParts (part :: others.map (' ' :: ·)) = part :: others := by
  have hblank : ∀ other ∈ others, trim (' ' :: other) = other := by
    intro other hmem
    have hcons : trim (' ' :: other) = trim other := trimMatches_cons (by decide) other
    rw [hcons, (hothers other hmem).trimmed]
  have htrim : (others.map (' ' :: ·)).map trim = others := by
    rw [List.map_map]
    exact (List.map_congr_left hblank).trans (List.map_id others)
  unfold strippedParts
  rw [List.map_cons, hpart.trimmed, htrim, List.filter_eq_self]
  intro other hmem
  rcases List.mem_cons.mp hmem with rfl | hmem
  · simpa using hpart.nonempty
  · simpa using (hothers other hmem).nonempty

/-- A character of a join comes from the separator or from a part. -/
theorem mem_of_mem_intercalate {sep : Text} {parts : List Text} {c : Char}
    (h : c ∈ List.intercalate sep parts) : c ∈ sep ∨ ∃ part ∈ parts, c ∈ part := by
  induction parts with
  | nil => cases h
  | cons part others ih =>
      cases others with
      | nil =>
          rw [List.intercalate_singleton] at h
          exact Or.inr ⟨part, List.mem_cons_self, h⟩
      | cons next others =>
          rw [List.intercalate_cons_cons, List.append_assoc, List.mem_append,
            List.mem_append] at h
          rcases h with h | h | h
          · exact Or.inr ⟨part, List.mem_cons_self, h⟩
          · exact Or.inl h
          · rcases ih h with hsep | ⟨other, hmem, hother⟩
            · exact Or.inl hsep
            · exact Or.inr ⟨other, List.mem_cons_of_mem _ hmem, hother⟩

theorem headerValue_eq_ok_iff {value result : Text} :
    Multipart.headerValue value = .ok result ↔
      value.all Multipart.isHeaderValueChar = true ∧ result = value := by
  unfold Multipart.headerValue
  split
  · rename_i hprintable
    simp [hprintable, eq_comm]
  · rename_i hprintable
    simp [hprintable]

/-- The parts of an accepted content type are stripped. -/
theorem contentTypeParts_eq_ok {contentType mediaType : Text} {parameters : List Text}
    (h : contentTypeParts contentType = .ok (mediaType, parameters)) :
    ∀ part ∈ mediaType :: parameters, Stripped part := by
  unfold contentTypeParts at h
  rw [bind_eq_ok] at h
  obtain ⟨_, hvalue, h⟩ := h
  rw [bind_eq_ok] at h
  obtain ⟨parts, hsplit, h⟩ := h
  have hprintable := (headerValue_eq_ok_iff.mp hvalue).1
  have hparts : strippedParts parts = mediaType :: parameters := by
    unfold strippedParts
    split at h
    · cases h
    · rename_i first others hstripped
      obtain ⟨rfl, rfl⟩ := Prod.mk.inj (Except.ok.inj h)
      exact hstripped
  intro part hmem
  rw [← hparts] at hmem
  obtain ⟨hmem, hnonempty⟩ := List.mem_filter.mp hmem
  obtain ⟨raw, hraw, rfl⟩ := List.mem_map.mp hmem
  obtain ⟨hclosed, hchars⟩ := ContentTypeSplitter.closed_of_mem_split hsplit hraw
  refine ⟨QuoteMarks.closed_trimMatches (fun c => neutral_of_isWhitespace) hclosed,
    trimMatches_idem isWhitespace raw, by simpa using hnonempty, ?_⟩
  refine List.all_eq_true.mpr fun c hc => ?_
  exact List.all_eq_true.mp hprintable c (hchars c (mem_of_mem_trimMatches hc))

/-- Joined stripped parts split into themselves. -/
theorem contentTypeParts_join {mediaType : Text} {parameters : List Text}
    (h : ∀ part ∈ mediaType :: parameters, Stripped part) :
    contentTypeParts (List.intercalate ("; " : Text) (mediaType :: parameters)) =
      .ok (mediaType, parameters) := by
  have hmedia := h mediaType List.mem_cons_self
  have hparameters : ∀ parameter ∈ parameters, Stripped parameter :=
    fun parameter hmem => h parameter (List.mem_cons_of_mem _ hmem)
  have hprintable : (List.intercalate ("; " : Text) (mediaType :: parameters)).all
      Multipart.isHeaderValueChar = true := by
    refine List.all_eq_true.mpr fun c hc => ?_
    rcases mem_of_mem_intercalate hc with hseparator | ⟨part, hmem, hpart⟩
    · have hprintable : ("; " : Text).all Multipart.isHeaderValueChar = true := rfl
      exact List.all_eq_true.mp hprintable c hseparator
    · exact List.all_eq_true.mp (h part hmem).printable c hpart
  have hsplit := ContentTypeSplitter.split_join hmedia.closed
    fun parameter hmem => (hparameters parameter hmem).closed
  have hstripped := strippedParts_join hmedia hparameters
  unfold contentTypeParts
  rw [bind_eq_ok]
  refine ⟨_, headerValue_eq_ok_iff.mpr ⟨hprintable, rfl⟩, ?_⟩
  rw [bind_eq_ok]
  refine ⟨_, hsplit, ?_⟩
  split
  · rename_i hnil
    cases hstripped.symm.trans hnil
  · rename_i hcons
    obtain ⟨rfl, rfl⟩ := List.cons.inj (hstripped.symm.trans hcons)
    rfl

/-! ## The boundary -/

/-- The parameter that is added. -/
def boundaryPart (boundary : Text) : Text := boundaryParameter ++ '=' :: boundary

/-- A character that a stripped part can have anywhere. -/
def isPlain (c : Char) : Bool :=
  c != ';' && c != '"' && !isWhitespace c && Multipart.isHeaderValueChar c

theorem isPlain_hexDigit {digit : Nat} (h : digit < 16) : isPlain (hexDigit digit) = true := by
  have hdigits : ∀ digit : Fin 16, isPlain (hexDigit digit.val) = true := by decide
  exact hdigits ⟨digit, h⟩

theorem isPlain_of_mem_boundaryPart {bytes : List UInt8} {c : Char}
    (h : c ∈ boundaryPart (generateBoundary bytes).text) : isPlain c = true := by
  have hfixed : ("boundary=foghttp-" : Text).all isPlain = true := rfl
  have htext : boundaryPart (generateBoundary bytes).text =
      ("boundary=foghttp-" : Text) ++ tokenHex bytes := rfl
  rw [htext] at h
  rcases List.mem_append.mp h with h | h
  · exact List.all_eq_true.mp hfixed c h
  · obtain ⟨byte, -, hdigit⟩ := List.mem_flatMap.mp h
    have hlt := byte.toNat_lt
    simp only [List.mem_cons, List.not_mem_nil, or_false] at hdigit
    rcases hdigit with rfl | rfl
    · exact isPlain_hexDigit (by omega)
    · exact isPlain_hexDigit (by omega)

theorem stripped_of_isPlain {part : Text} (h : ∀ c ∈ part, isPlain c = true)
    (hne : part ≠ []) : Stripped part := by
  have hchars : ∀ c ∈ part, ContentTypeSplitter.marks.Neutral c ∧ isWhitespace c = false ∧
      Multipart.isHeaderValueChar c = true := by
    intro c hc
    have hplain := h c hc
    simp only [isPlain, Bool.and_eq_true, bne_iff_ne, ne_eq, Bool.not_eq_true'] at hplain
    exact ⟨hplain.1.1, hplain.1.2, hplain.2⟩
  have hpadded : trimMatches isWhitespace ([] ++ part ++ []) = part :=
    trimMatches_padded (by simp) (fun c hc => (hchars c hc).2.1) (by simp)
  rw [List.append_nil] at hpadded
  exact ⟨QuoteMarks.closed_of_neutral fun c hc => (hchars c hc).1, hpadded, hne,
    List.all_eq_true.mpr fun c hc => (hchars c hc).2.2⟩

/-- A content type that was accepted splits, with its boundary, into the media type and the
parameters that it had, and the boundary behind them.  It has no other parameter of that
name. -/
theorem boundary_parameter_stable {contentType result : Text} {bytes : List UInt8}
    (h : explicitContentTypeWithBoundary contentType (generateBoundary bytes).text = .ok result) :
    ∃ mediaType parameters, contentTypeParts contentType = .ok (mediaType, parameters) ∧
      contentTypeParts result =
        .ok (mediaType, parameters ++ [boundaryPart (generateBoundary bytes).text]) ∧
      ContentTypeSplitter.split result =
        .ok (mediaType ::
          (parameters ++ [boundaryPart (generateBoundary bytes).text]).map (' ' :: ·)) ∧
      (∀ parameter ∈ parameters, parameterName parameter ≠ boundaryParameter) ∧
      parameterName (boundaryPart (generateBoundary bytes).text) = boundaryParameter := by
  unfold explicitContentTypeWithBoundary at h
  rw [bind_eq_ok] at h
  obtain ⟨⟨mediaType, parameters⟩, hparts, h⟩ := h
  dsimp only at h
  split at h
  · cases h
  · split at h
    · cases h
    · rename_i hnames
      have hresult : result = List.intercalate ("; " : Text)
          (mediaType :: (parameters ++ [boundaryPart (generateBoundary bytes).text])) :=
        (Except.ok.inj h).symm
      have hstripped : ∀ part ∈ mediaType ::
          (parameters ++ [boundaryPart (generateBoundary bytes).text]), Stripped part := by
        intro part hmem
        rw [← List.cons_append] at hmem
        rcases List.mem_append.mp hmem with hmem | hmem
        · exact contentTypeParts_eq_ok hparts part hmem
        · obtain rfl := List.mem_singleton.mp hmem
          exact stripped_of_isPlain (fun c => isPlain_of_mem_boundaryPart) (by simp [boundaryPart])
      refine ⟨mediaType, parameters, hparts, ?_, ?_, ?_, rfl⟩
      · rw [hresult]
        exact contentTypeParts_join hstripped
      · rw [hresult]
        exact ContentTypeSplitter.split_join (hstripped _ List.mem_cons_self).closed
          fun other hmem => (hstripped other (List.mem_cons_of_mem _ hmem)).closed
      · intro parameter hmem hname
        exact hnames (List.any_eq_true.mpr ⟨parameter, hmem, beq_iff_eq.mpr hname⟩)

/-- A quoted separator and an escaped quote in front of the boundary. -/
theorem boundary_parameter_stable_example :
    ∃ result, explicitContentTypeWithBoundary "Multipart/Form-Data ; note=\"a;\\\" b\";;"
        (generateBoundary [0, 255]).text = .ok result ∧
      contentTypeParts result =
        .ok ("Multipart/Form-Data", ["note=\"a;\\\" b\"", "boundary=foghttp-00ff"]) := by
  have hresult : explicitContentTypeWithBoundary "Multipart/Form-Data ; note=\"a;\\\" b\";;"
      (generateBoundary [0, 255]).text =
        .ok "Multipart/Form-Data; note=\"a;\\\" b\"; boundary=foghttp-00ff" := by
    decide +kernel
  have hparts : contentTypeParts "Multipart/Form-Data ; note=\"a;\\\" b\";;" =
      .ok ("Multipart/Form-Data", ["note=\"a;\\\" b\""]) := by
    decide +kernel
  obtain ⟨mediaType, parameters, hsame, hjoined, -⟩ := boundary_parameter_stable hresult
  obtain ⟨rfl, rfl⟩ := Prod.mk.inj (Except.ok.inj (hparts.symm.trans hsame))
  exact ⟨_, hresult, hjoined⟩

end FogHttp
