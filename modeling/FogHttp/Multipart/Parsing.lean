import FogHttp.Multipart.Reference

/-!
# The parser undoes the encoder

A written part is a list of header lines of printable ASCII, an empty line and a
content.  The lemmas go from the inside out.

* `unquote_quote`: a quoted string, whatever quotes and backslashes are in it.
* `parseDisposition_value` and `parseHeader_line`: the header lines.
* `parsePart_wire`: a part, up to the first empty line.
* `avoids_wire`: a part shows no delimiter, since its only CRs are in front of a
  header line, of an empty line or of its content.
* `parse_wire`: the body.
-/

namespace FogHttp.Multipart

open Lib

/-! ## Printable text -/

/-- All characters may stand in a header value. -/
def Printable (text : Text) : Prop := ∀ c ∈ text, isHeaderValueChar c = true

instance (text : Text) : Decidable (Printable text) :=
  decidable_of_iff (text.all isHeaderValueChar = true) List.all_eq_true

theorem Printable.append {left right : Text} (hleft : Printable left) (hright : Printable right) :
    Printable (left ++ right) := by
  intro c hmem
  rcases List.mem_append.mp hmem with hmem | hmem
  · exact hleft c hmem
  · exact hright c hmem

theorem Printable.flatMap {α : Type} {entries : List α} {text : α → Text}
    (h : ∀ entry ∈ entries, Printable (text entry)) : Printable (entries.flatMap text) := by
  intro c hmem
  obtain ⟨entry, hentry, hc⟩ := List.mem_flatMap.mp hmem
  exact h entry hentry c hc

theorem Boundary.printable_text (boundary : Boundary) : Printable boundary.text :=
  List.all_eq_true.mp boundary.printable

theorem headerValue_of_printable {value : Text} (h : Printable value) :
    headerValue value = .ok value := by
  rw [headerValue, if_pos (List.all_eq_true.mpr h)]

theorem printable_of_headerValue {value result : Text} (h : headerValue value = .ok result) :
    Printable value ∧ result = value := by
  unfold headerValue at h
  split at h
  · rename_i hall
    rw [Except.ok.injEq] at h
    exact ⟨List.all_eq_true.mp hall, h.symm⟩
  · simp at h

/-- An ASCII text. -/
def Ascii (text : Text) : Prop := ∀ c ∈ text, c.toNat < 0x80

theorem Printable.ascii {text : Text} (h : Printable text) : Ascii text := by
  intro c hmem
  have hc := h c hmem
  simp only [isHeaderValueChar, Bool.and_eq_true, decide_eq_true_eq] at hc
  omega

/-! ## Bytes of texts -/

def byteOf (c : Char) : UInt8 := c.val.toUInt8

theorem encode_append (left right : Text) : encode (left ++ right) = encode left ++ encode right :=
  List.flatMap_append

/-- ASCII characters are one byte each. -/
theorem encode_of_ascii {text : Text} (h : Ascii text) : encode text = text.map byteOf := by
  induction text with
  | nil => rfl
  | cons c rest ih =>
      have hc : c.utf8Size = 1 := by
        have hlt := h c List.mem_cons_self
        rw [Char.utf8Size, if_pos]
        rw [UInt32.le_iff_toNat_le]
        have hval : c.val.toNat < 128 := hlt
        change c.val.toNat ≤ 127
        omega
      rw [encode, List.flatMap_cons, String.utf8EncodeChar_eq_singleton hc]
      change c.val.toUInt8 :: encode rest = _
      rw [ih fun other hmem => h other (List.mem_cons_of_mem _ hmem)]
      rfl

theorem toNat_byteOf {c : Char} (h : c.toNat < 0x80) : (byteOf c).toNat = c.toNat := by
  have hval : c.val.toNat < 128 := h
  rw [byteOf, UInt32.toNat_toUInt8]
  change c.val.toNat % 256 = c.val.toNat
  omega

theorem decodeAscii_encode {text : Text} (h : Ascii text) :
    decodeAscii (encode text) = some text := by
  rw [encode_of_ascii h, decodeAscii, if_pos]
  · rw [List.map_map]
    congr 1
    refine (List.map_congr_left fun c hmem => ?_).trans (List.map_id text)
    rw [Function.comp_apply, toNat_byteOf (h c hmem)]
    exact Char.ofNat_toNat c
  · rw [List.all_map, List.all_eq_true]
    intro c hmem
    rw [Function.comp_apply, toNat_byteOf (h c hmem)]
    exact decide_eq_true (h c hmem)

/-- The bytes of a printable text have no CR. -/
theorem Printable.not_mem_encode {text : Text} (h : Printable text) :
    (13 : UInt8) ∉ encode text := by
  rw [encode_of_ascii h.ascii]
  intro hmem
  obtain ⟨c, hc, hbyte⟩ := List.mem_map.mp hmem
  have hnat := congrArg UInt8.toNat hbyte
  rw [toNat_byteOf (h.ascii c hc)] at hnat
  have hprintable := h c hc
  simp only [isHeaderValueChar, Bool.and_eq_true, decide_eq_true_eq] at hprintable
  change c.toNat = 13 at hnat
  omega

/-! ## Quoted strings -/

/-- A character in a quoted string. -/
def escapeChar (c : Char) : Text :=
  if c = '\\' then ['\\', '\\'] else if c = '"' then ['\\', '"'] else [c]

def quote (value : Text) : Text := value.flatMap escapeChar

/-- The two replacements do not meet. -/
theorem replace_replace (value : Text) :
    replace '"' ['\\', '"'] (replace '\\' ['\\', '\\'] value) = quote value := by
  unfold replace quote
  rw [List.flatMap_assoc]
  refine List.flatMap_congr fun c _ => ?_
  unfold escapeChar
  by_cases hbackslash : c = '\\'
  · subst hbackslash
    rfl
  · rw [if_neg hbackslash, if_neg hbackslash, List.flatMap_singleton]

theorem quotedHeaderValue_of_printable {value : Text} (h : Printable value) :
    quotedHeaderValue value = .ok (quote value) := by
  unfold quotedHeaderValue
  rw [headerValue_of_printable h]
  exact congrArg Except.ok (replace_replace value)

theorem printable_quote {value : Text} (h : Printable value) : Printable (quote value) := by
  refine Printable.flatMap fun c hmem => ?_
  unfold escapeChar
  split
  · decide
  · split
    · decide
    · intro other hother
      rw [List.mem_singleton.mp hother]
      exact h c hmem

/-- A quoted string ends at its closing quote, and holds the value. -/
theorem unquote_quote (value rest : Text) :
    unquote (quote value ++ '"' :: rest) = some (value, rest) := by
  induction value with
  | nil => rfl
  | cons c value ih =>
      rw [quote, List.flatMap_cons, List.append_assoc]
      change unquote (escapeChar c ++ (quote value ++ '"' :: rest)) = _
      unfold escapeChar
      by_cases hbackslash : c = '\\'
      · subst hbackslash
        rw [if_pos rfl]
        change (unquote (quote value ++ '"' :: rest)).map _ = _
        rw [ih]
        rfl
      · rw [if_neg hbackslash]
        by_cases hquote : c = '"'
        · subst hquote
          rw [if_pos rfl]
          change (unquote (quote value ++ '"' :: rest)).map _ = _
          rw [ih]
          rfl
        · rw [if_neg hquote, List.singleton_append, unquote, ih]
          · rfl
          · exact hquote
          · intro _ _ hsame
            subst hsame
            exact absurd rfl hbackslash
          · intro hsame
            subst hsame
            exact absurd rfl hbackslash

/-- Quoting is injective. -/
theorem quote_injective {left right : Text} (h : quote left = quote right) : left = right := by
  have hleft := unquote_quote left []
  rw [h, unquote_quote right []] at hleft
  simpa using hleft.symm

/-! ## Header lines -/

/-- A name and a quoted value. -/
def quotedParam (parameter : Text × Text) : Text :=
  parameter.1 ++ ("=\"".toList ++ (quote parameter.2 ++ ['"']))

/-- One parameter as it is written. -/
def parameterText (parameter : Text × Text) : Text := "; ".toList ++ quotedParam parameter

def dispositionValue (parameters : List (Text × Text)) : Text :=
  "form-data".toList ++ parameters.flatMap parameterText

/-- Behind enough count, the parameters come back. -/
theorem parseParameters_text (parameters : List (Text × Text))
    (hnames : ∀ parameter ∈ parameters, '=' ∉ parameter.1) (count : Nat)
    (hcount : parameters.length ≤ count) :
    parseParameters count (parameters.flatMap parameterText) = some parameters := by
  induction parameters generalizing count with
  | nil => cases count <;> rfl
  | cons parameter parameters ih =>
      obtain ⟨count, rfl⟩ : ∃ less, count = less + 1 :=
        ⟨count - 1, by rw [List.length_cons] at hcount; omega⟩
      have hrest := ih (fun other hmem => hnames other (List.mem_cons_of_mem _ hmem)) count
        (by rw [List.length_cons] at hcount; omega)
      have hname := hnames parameter List.mem_cons_self
      generalize hafter : parameters.flatMap parameterText = after at hrest
      have htext : (parameter :: parameters).flatMap parameterText =
          "; ".toList ++ (parameter.1 ++ ("=\"".toList ++ (quote parameter.2 ++ '"' :: after))) := by
        rw [List.flatMap_cons, hafter, parameterText, quotedParam]
        simp only [List.append_assoc, List.singleton_append]
      have hcut : cut "=\"".toList
          (parameter.1 ++ ("=\"".toList ++ (quote parameter.2 ++ '"' :: after))) =
          some (parameter.1, quote parameter.2 ++ '"' :: after) := by
        change cut ('=' :: ['"']) (parameter.1 ++ ('=' :: ['"'] ++ _)) = _
        rw [cut_append hname, cut_delimiter, Option.map_some, List.append_nil]
      rw [htext]
      change ((cut "=\"".toList (parameter.1 ++ ("=\"".toList ++ (quote parameter.2 ++ '"' :: after)))).bind
        fun pieces => (unquote pieces.2).bind fun quoted =>
        (parseParameters count quoted.2).bind fun parameters =>
          some ((pieces.1, quoted.1) :: parameters)) = _
      rw [hcut, Option.bind_some, unquote_quote, Option.bind_some, hrest]
      rfl

/-- A parameter is not empty. -/
theorem length_le_flatMap (parameters : List (Text × Text)) :
    parameters.length ≤ (parameters.flatMap parameterText).length := by
  induction parameters with
  | nil => exact Nat.le_refl 0
  | cons parameter parameters ih =>
      rw [List.length_cons, List.flatMap_cons, List.length_append, parameterText,
        List.length_append]
      change _ ≤ 2 + _ + _
      omega

theorem parseDisposition_value (parameters : List (Text × Text))
    (hnames : ∀ parameter ∈ parameters, '=' ∉ parameter.1) :
    parseDisposition (dispositionValue parameters) = some parameters := by
  have hstrip : stripText "form-data".toList (dispositionValue parameters) =
      some (parameters.flatMap parameterText) := by
    unfold stripText dispositionValue
    rw [if_pos (List.isPrefixOf_iff_prefix.mpr (List.prefix_append _ _)), List.drop_left']
    rfl
  unfold parseDisposition
  rw [hstrip]
  exact parseParameters_text parameters hnames _ (length_le_flatMap parameters)

/-- A header line as it is written. -/
def headerLine (header : Text × Text) : Text := header.1 ++ (": ".toList ++ header.2)

theorem parseHeader_line {header : Text × Text} (hname : ':' ∉ header.1)
    (hascii : Ascii (headerLine header)) :
    parseHeader (encode (headerLine header)) = some header := by
  unfold parseHeader
  rw [decodeAscii_encode hascii]
  change cut (':' :: [' ']) (header.1 ++ (':' :: [' '] ++ header.2)) = _
  rw [cut_append hname, cut_delimiter, Option.map_some, List.append_nil]

/-! ## Parts -/

/-- The headers of a part. -/
def Part.headers (part : Part) : List (Text × Text) :=
  ("Content-Disposition".toList, dispositionValue part.parameters) ::
    part.contentType.toList.map fun contentType => ("Content-Type".toList, contentType)

/-- The header lines of a part, joined. -/
def Part.head (part : Part) : Text := List.intercalate crlf (part.headers.map headerLine)

/-- The bytes behind the delimiter of a part. -/
def Part.wire (part : Part) : Bytes :=
  CRLF ++ (encode part.head ++ (CRLF ++ (CRLF ++ part.content)))

/-- What the encoder is asked to write. -/
structure Part.Writable (part : Part) : Prop where
  headerNames : part.headerNames = part.headers.map Prod.fst
  names : ∀ parameter ∈ part.parameters, Printable parameter.1 ∧ '=' ∉ parameter.1
  values : ∀ parameter ∈ part.parameters, Printable parameter.2
  contentType : ∀ contentType, part.contentType = some contentType → Printable contentType

variable {part : Part} {boundary : Boundary}

theorem printable_dispositionValue (h : part.Writable) :
    Printable (dispositionValue part.parameters) := by
  refine Printable.append (by decide) (Printable.flatMap fun parameter hmem => ?_)
  refine Printable.append (by decide) (Printable.append (h.names parameter hmem).1 ?_)
  exact Printable.append (by decide)
    (Printable.append (printable_quote (h.values parameter hmem)) (by decide))

theorem printable_headerLine (h : part.Writable) :
    ∀ header ∈ part.headers, Printable (headerLine header) := by
  have hdisposition : Printable "Content-Disposition".toList := by decide
  have hcontentType : Printable "Content-Type".toList := by decide
  have hseparator : Printable ": ".toList := by decide
  intro header hmem
  rcases List.mem_cons.mp hmem with rfl | hmem
  · exact hdisposition.append (hseparator.append (printable_dispositionValue h))
  · obtain ⟨contentType, hsome, rfl⟩ := List.mem_map.mp hmem
    exact hcontentType.append
      (hseparator.append (h.contentType contentType (Option.mem_toList.mp hsome)))

theorem parseHeader_headers (h : part.Writable) :
    (part.headers.map fun header => encode (headerLine header)).mapM parseHeader =
      some part.headers := by
  have hdisposition : ':' ∉ "Content-Disposition".toList := by decide
  have hcontentType : ':' ∉ "Content-Type".toList := by decide
  have hheader : ∀ header ∈ part.headers,
      parseHeader (encode (headerLine header)) = some header := by
    intro header hmem
    refine parseHeader_line ?_ (printable_headerLine h header hmem).ascii
    rcases List.mem_cons.mp hmem with rfl | hmem
    · exact hdisposition
    · obtain ⟨contentType, -, rfl⟩ := List.mem_map.mp hmem
      exact hcontentType
  rw [List.mapM_map]
  generalize part.headers = headers at hheader
  induction headers with
  | nil => rfl
  | cons header headers ih =>
      rw [List.mapM_cons, Function.comp_apply, hheader header List.mem_cons_self,
        ih fun other hmem => hheader other (List.mem_cons_of_mem _ hmem)]
      rfl

/-- The header lines joined by CRLF, as bytes. -/
theorem encode_head (part : Part) :
    encode part.head = encode (headerLine ("Content-Disposition".toList,
        dispositionValue part.parameters)) ++
      part.contentType.toList.flatMap fun contentType =>
        CRLF ++ encode (headerLine ("Content-Type".toList, contentType)) := by
  unfold Part.head Part.headers
  cases part.contentType with
  | none =>
      change encode (List.intercalate crlf [_]) = _ ++ []
      rw [List.append_nil]
      simp [List.intercalate]
  | some contentType =>
      change encode (List.intercalate crlf [_, _]) = _
      simp only [List.intercalate, List.intersperse_cons_cons, List.intersperse_singleton,
        List.flatten_cons, List.flatten_nil, encode_append, List.append_nil, Option.toList_some,
        List.flatMap_cons, List.flatMap_nil]
      rfl

/-- The bytes of a printable line, and what follows, hold a place of a delimiter only in what
follows. -/
theorem cut_line {line : Text} (h : Printable line) (more text : Bytes) :
    cut (13 :: more) (encode line ++ text) =
      (cut (13 :: more) text).map fun pieces => (encode line ++ pieces.1, pieces.2) :=
  cut_append h.not_mem_encode

/-- A line of a header starts with a `C`. -/
theorem encode_contentType (value : Text) :
    ∃ rest, encode (headerLine ("Content-Type".toList, value)) = 67 :: rest :=
  ⟨_, by rw [headerLine, encode_append]; rfl⟩

/-- The headers end at the first empty line. -/
theorem cut_head (h : part.Writable) :
    cut (CRLF ++ CRLF) (encode part.head ++ (CRLF ++ (CRLF ++ part.content))) =
      some (encode part.head, part.content) := by
  have hlines := printable_headerLine h
  have hempty : cut (CRLF ++ CRLF) (CRLF ++ (CRLF ++ part.content)) = some ([], part.content) :=
    cut_delimiter 13 [10, 13, 10] part.content
  rw [encode_head]
  have hfirst := hlines _ List.mem_cons_self
  cases hcontentType : part.contentType with
  | none =>
      rw [Option.toList_none, List.flatMap_nil, List.append_nil]
      change cut (13 :: [10, 13, 10]) _ = _
      rw [cut_line hfirst]
      change (cut (CRLF ++ CRLF) _).map _ = _
      rw [hempty, Option.map_some, List.append_nil]
  | some contentType =>
      have hsecond := hlines ("Content-Type".toList, contentType)
        (by simp [Part.headers, hcontentType])
      obtain ⟨rest, hrest⟩ := encode_contentType contentType
      rw [Option.toList_some, List.flatMap_singleton, List.append_assoc, List.append_assoc]
      change cut (13 :: [10, 13, 10]) _ = _
      have hbreak : cut (13 :: [10, 13, 10]) (CRLF ++ (encode (headerLine
          ("Content-Type".toList, contentType)) ++ (CRLF ++ (CRLF ++ part.content)))) =
          some (CRLF ++ encode (headerLine ("Content-Type".toList, contentType)),
            part.content) := by
        change cut (13 :: [10, 13, 10]) (13 :: 10 :: (encode _ ++ _)) = _
        rw [cut_cons, cut_cons, cut_line hsecond]
        · change ((((cut (CRLF ++ CRLF) _).map _).map _).map _) = _
          rw [hempty, Option.map_some, Option.map_some, Option.map_some, List.append_nil]
          rfl
        · intro hbegins
          rw [List.cons_prefix_cons] at hbegins
          simp at hbegins
        · intro hbegins
          rw [hrest] at hbegins
          simp at hbegins
      rw [cut_line hfirst, hbreak]
      rfl

/-- Splitting the headers at CRLF gives the lines. -/
theorem splitEach_head (h : part.Writable) :
    splitEach CRLF (encode part.head) =
      part.headers.map fun header => encode (headerLine header) := by
  have hlines := printable_headerLine h
  have hsplit := splitEach_join (show (13 : UInt8) ∉ [10] by decide)
    (part.contentType.toList.map fun contentType =>
      encode (headerLine ("Content-Type".toList, contentType)))
    (?_ : ∀ other ∈ encode (headerLine ("Content-Disposition".toList,
      dispositionValue part.parameters)) :: _, _)
  · rw [List.flatMap_map] at hsplit
    rw [encode_head]
    refine hsplit.trans ?_
    simp [Part.headers]
  · intro other hmem
    refine not_infix_of_not_mem ?_
    rcases List.mem_cons.mp hmem with rfl | hmem
    · exact (hlines _ List.mem_cons_self).not_mem_encode
    · obtain ⟨contentType, hsome, rfl⟩ := List.mem_map.mp hmem
      refine (hlines _ (List.mem_cons_of_mem _ ?_)).not_mem_encode
      exact List.mem_map.mpr ⟨contentType, hsome, rfl⟩

/-- A part that was written is read back. -/
theorem parsePart_wire (h : part.Writable) :
    parsePart (encode part.head ++ (CRLF ++ (CRLF ++ part.content))) = some part := by
  have hnames : ∀ parameter ∈ part.parameters, '=' ∉ parameter.1 :=
    fun parameter hmem => (h.names parameter hmem).2
  have hdisposition : part.headers.lookup ("Content-Disposition" : Text) =
      some (dispositionValue part.parameters) := rfl
  have hcontentType : part.headers.lookup ("Content-Type" : Text) = part.contentType := by
    unfold Part.headers
    cases part.contentType <;> rfl
  unfold parsePart
  rw [cut_head h]
  change ((splitEach CRLF (encode part.head)).mapM parseHeader).bind _ = _
  rw [splitEach_head h, parseHeader_headers h, Option.bind_some]
  change ((part.headers.lookup ("Content-Disposition" : Text)).bind fun disposition =>
    (parseDisposition disposition).bind _) = _
  rw [hdisposition, Option.bind_some, parseDisposition_value _ hnames, Option.bind_some,
    hcontentType, ← h.headerNames]

/-! ## Bodies -/

/-- The delimiter without its line break. -/
def dashBoundary (boundary : Boundary) : Bytes := encode ("--".toList ++ boundary.text)

theorem encode_delimiter (boundary : Boundary) :
    encode (crlf ++ "--".toList ++ boundary.text) = 13 :: 10 :: dashBoundary boundary := by
  rw [List.append_assoc, encode_append]
  rfl

theorem not_mem_dashBoundary (boundary : Boundary) :
    (13 : UInt8) ∉ 10 :: dashBoundary boundary := by
  have hdashes : Printable "--".toList := by decide
  have hprintable := hdashes.append boundary.printable_text
  rw [List.mem_cons, not_or]
  exact ⟨by decide, hprintable.not_mem_encode⟩

/-- The delimiter starts with a hyphen. -/
theorem not_prefix_dashBoundary {c : UInt8} {text : Bytes} (h : c ≠ 45) :
    ¬ dashBoundary boundary <+: c :: text := by
  intro hbegins
  rw [dashBoundary, encode_append] at hbegins
  exact h (List.cons_prefix_cons.mp hbegins).1.symm

/-- A line break holds a delimiter only if the boundary follows. -/
theorem not_infix_crlf {text : Bytes} (hbegins : ¬ dashBoundary boundary <+: text)
    (htext : ¬ 13 :: 10 :: dashBoundary boundary <:+: text) :
    ¬ 13 :: 10 :: dashBoundary boundary <:+: CRLF ++ text := by
  have hlf : ¬ (13 : UInt8) :: 10 :: dashBoundary boundary <+: 10 :: text := by
    intro hlf
    exact absurd (List.cons_prefix_cons.mp hlf).1 (by decide)
  refine not_infix_cons (fun hcr => hbegins ?_) (not_infix_cons hlf htext)
  exact (List.cons_prefix_cons.mp (List.cons_prefix_cons.mp hcr).2).2

/-- A part shows a delimiter only in its content. -/
theorem avoids_wire (h : part.Writable) (havoids : Avoids boundary part.content) :
    ¬ 13 :: 10 :: dashBoundary boundary <:+: part.wire := by
  obtain ⟨hwithin, hstart⟩ := havoids
  rw [encode_delimiter] at hwithin
  have hlines := printable_headerLine h
  have hfirst := (hlines _ List.mem_cons_self).not_mem_encode
  have hcr : ∀ text : Bytes, ¬ dashBoundary boundary <+: CRLF ++ text :=
    fun text => not_prefix_dashBoundary (by decide)
  have hend := not_infix_crlf (hcr part.content) (not_infix_crlf hstart hwithin)
  have hhead : ¬ 13 :: 10 :: dashBoundary boundary <:+:
      encode part.head ++ (CRLF ++ (CRLF ++ part.content)) := by
    rw [encode_head, List.append_assoc]
    refine not_infix_append hfirst ?_
    cases hcontentType : part.contentType with
    | none => exact hend
    | some contentType =>
        have hsecond := hlines ("Content-Type".toList, contentType)
          (by simp [Part.headers, hcontentType])
        obtain ⟨rest, hrest⟩ := encode_contentType contentType
        rw [Option.toList_some, List.flatMap_singleton, List.append_assoc]
        refine not_infix_crlf ?_ (not_infix_append hsecond.not_mem_encode hend)
        rw [hrest]
        exact not_prefix_dashBoundary (by decide)
  refine not_infix_crlf ?_ hhead
  rw [encode_head, headerLine, encode_append]
  exact not_prefix_dashBoundary (by decide)

/-- The bytes of a part and the line break behind it. -/
def partBytes (boundary : Boundary) (part : Part) : Bytes :=
  dashBoundary boundary ++ (part.wire ++ CRLF)

/-- What is behind the last delimiter. -/
def closingPiece : Bytes := encode "--".toList ++ CRLF

theorem not_infix_closingPiece : ¬ 13 :: 10 :: dashBoundary boundary <:+: closingPiece := by
  have hdashes : Printable "--".toList := by decide
  have hbegins : ¬ dashBoundary boundary <+: [] := by
    rw [dashBoundary, encode_append]
    exact fun hbegins => List.cons_ne_nil _ _ (List.prefix_nil.mp hbegins)
  exact not_infix_append hdashes.not_mem_encode
    (not_infix_crlf hbegins (not_infix_of_not_mem List.not_mem_nil))

/-- The bytes of a body. -/
def wire (boundary : Boundary) (parts : List Part) : Bytes :=
  parts.flatMap (partBytes boundary) ++ closingBoundary boundary

/-- A body is its parts, joined by the delimiter. -/
theorem wire_eq_join (boundary : Boundary) (parts : List Part) :
    CRLF ++ wire boundary parts = [] ++ (parts.map Part.wire ++ [closingPiece]).flatMap
      (13 :: 10 :: dashBoundary boundary ++ ·) := by
  rw [wire, List.nil_append]
  induction parts with
  | nil =>
      rw [List.flatMap_nil, List.nil_append, List.map_nil, List.nil_append, List.flatMap_singleton,
        closingBoundary, encode_append, encode_append]
      change 13 :: 10 :: _ = 13 :: 10 :: _
      rw [closingPiece, dashBoundary]
      simp only [List.append_assoc]
      rfl
  | cons part parts ih =>
      rw [List.flatMap_cons, List.map_cons, List.cons_append, List.flatMap_cons, ← ih, partBytes]
      simp only [List.append_assoc, List.cons_append]
      rfl

/-- The pieces of a body are its parts. -/
theorem parseParts_wire {parts : List Part} (h : ∀ part ∈ parts, part.Writable) :
    parseParts (parts.map Part.wire ++ [closingPiece]) = some parts := by
  induction parts with
  | nil => rfl
  | cons part parts ih =>
      have hrest := ih fun other hmem => h other (List.mem_cons_of_mem _ hmem)
      have hpart := parsePart_wire (h part List.mem_cons_self)
      rw [List.map_cons, List.cons_append, parseParts]
      change (parsePart (encode part.head ++ (CRLF ++ (CRLF ++ part.content)))).bind (fun part =>
        (parseParts (parts.map Part.wire ++ [closingPiece])).bind fun parts =>
          some (part :: parts)) = _
      rw [hpart, hrest]
      rfl

/-- The parser undoes the encoder. -/
theorem parse_wire {parts : List Part} (h : ∀ part ∈ parts, part.Writable)
    (havoids : ∀ part ∈ parts, Avoids boundary part.content) :
    parse boundary.text (wire boundary parts) = some parts := by
  unfold parse
  rw [encode_delimiter, wire_eq_join,
    splitEach_join (not_mem_dashBoundary boundary), List.tail_cons, parseParts_wire h]
  intro piece hmem
  rcases List.mem_cons.mp hmem with rfl | hmem
  · exact not_infix_of_not_mem List.not_mem_nil
  · rcases List.mem_append.mp hmem with hmem | hmem
    · obtain ⟨part, hpart, rfl⟩ := List.mem_map.mp hmem
      exact avoids_wire (h part hpart) (havoids part hpart)
    · rw [List.mem_singleton.mp hmem]
      exact not_infix_closingPiece

end FogHttp.Multipart
