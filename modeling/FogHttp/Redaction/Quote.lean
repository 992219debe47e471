import FogHttp.Redaction.Urllib

/-!
# Percent encoding

`urllib.parse.quote` without safe characters is how a user writes a name or a password into a
URL.  `unquote_quote` is its round trip through `unquote`.

The decoder of `unquote` works on one byte at a time with an unfinished sequence in hand.
`utf8Decode_char` runs it over the bytes of one character, with one case for each length of
a UTF-8 sequence.
-/

namespace FogHttp.Redaction

open Lib

/-! ## UTF-8 -/

/-- `str.encode()`. -/
def utf8Encode (text : Text) : List UInt8 := text.flatMap String.utf8EncodeChar

theorem utf8Encode_cons (c : Char) (text : Text) :
    utf8Encode (c :: text) = String.utf8EncodeChar c ++ utf8Encode text := List.flatMap_cons

/-- A byte that opens no sequence. -/
theorem utf8Decode_ascii {byte : Nat} (h : byte < 0x80) (rest : List Nat) :
    utf8Decode none (byte :: rest) = Char.ofNat byte :: utf8Decode none rest := by
  rw [utf8Decode, utf8Start, if_pos h]
  rfl

/-- A byte that continues a sequence. -/
theorem utf8Decode_continue {missing lower upper value byte : Nat} (hmissing : missing ≠ 1)
    (hbyte : lower ≤ byte ∧ byte ≤ upper) (rest : List Nat) :
    utf8Decode (some ⟨missing, lower, upper, value⟩) (byte :: rest) =
      utf8Decode (some ⟨missing - 1, 0x80, 0xBF, value * 64 + (byte - 0x80)⟩) rest := by
  rw [utf8Decode, if_pos hbyte]
  exact if_neg hmissing

/-- A byte that ends a sequence. -/
theorem utf8Decode_last {lower upper value byte : Nat} (hbyte : lower ≤ byte ∧ byte ≤ upper)
    (rest : List Nat) :
    utf8Decode (some ⟨1, lower, upper, value⟩) (byte :: rest) =
      Char.ofNat (value * 64 + (byte - 0x80)) :: utf8Decode none rest := by
  rw [utf8Decode, if_pos hbyte]
  exact if_pos rfl

/-- The bytes that open a sequence of two, three and four bytes. -/
theorem utf8Decode_two {byte : Nat} (h : 0xC2 ≤ byte ∧ byte ≤ 0xDF) (rest : List Nat) :
    utf8Decode none (byte :: rest) =
      utf8Decode (some ⟨1, 0x80, 0xBF, byte - 0xC0⟩) rest := by
  rw [utf8Decode, utf8Start, if_neg (by omega), if_pos h]
  rfl

theorem utf8Decode_three {byte : Nat} (h : 0xE0 ≤ byte ∧ byte ≤ 0xEF) (rest : List Nat) :
    utf8Decode none (byte :: rest) =
      utf8Decode (some ⟨2, if byte = 0xE0 then 0xA0 else 0x80,
        if byte = 0xED then 0x9F else 0xBF, byte - 0xE0⟩) rest := by
  rw [utf8Decode, utf8Start, if_neg (by omega), if_neg (by omega), if_pos h]
  rfl

theorem utf8Decode_four {byte : Nat} (h : 0xF0 ≤ byte ∧ byte ≤ 0xF4) (rest : List Nat) :
    utf8Decode none (byte :: rest) =
      utf8Decode (some ⟨3, if byte = 0xF0 then 0x90 else 0x80,
        if byte = 0xF4 then 0x8F else 0xBF, byte - 0xF0⟩) rest := by
  rw [utf8Decode, utf8Start, if_neg (by omega), if_neg (by omega), if_neg (by omega), if_pos h]
  rfl

theorem byte_toNat {n : Nat} (h : n < 256) : (UInt8.ofNat n).toNat = n :=
  UInt8.toNat_ofNat_of_lt' h

theorem char_eq {c : Char} {n : Nat} (h : n = c.toNat) : Char.ofNat n = c := by
  rw [h, Char.ofNat_toNat]

/-- The bytes of a character are read as that character. -/
theorem utf8Decode_char (c : Char) (rest : List Nat) :
    utf8Decode none ((String.utf8EncodeChar c).map UInt8.toNat ++ rest) =
      c :: utf8Decode none rest := by
  have hvalid : c.toNat < 0xd800 ∨ 0xdfff < c.toNat ∧ c.toNat < 0x110000 := c.valid
  have hval : c.val.toNat = c.toNat := rfl
  unfold String.utf8EncodeChar
  rw [hval]
  dsimp only
  split
  · rename_i hone
    rw [List.map_cons, List.map_nil, List.cons_append, List.nil_append, byte_toNat (by omega),
      utf8Decode_ascii (by omega), Char.ofNat_toNat]
  · split
    · rw [List.map_cons, List.map_cons, List.map_nil, List.cons_append, List.cons_append,
        List.nil_append, byte_toNat (by omega), byte_toNat (by omega), utf8Decode_two (by omega),
        utf8Decode_last (by omega)]
      refine List.cons_eq_cons.mpr ⟨char_eq ?_, rfl⟩
      omega
    · split
      · -- Behind 0xE0 and 0xED some second bytes are refused, but no scalar value has them.
        rw [List.map_cons, List.map_cons, List.map_cons, List.map_nil, List.cons_append,
          List.cons_append, List.cons_append, List.nil_append, byte_toNat (by omega),
          byte_toNat (by omega), byte_toNat (by omega), utf8Decode_three (by omega),
          utf8Decode_continue (by omega) (by split <;> split <;> omega),
          utf8Decode_last (by omega)]
        refine List.cons_eq_cons.mpr ⟨char_eq ?_, rfl⟩
        omega
      · rw [List.map_cons, List.map_cons, List.map_cons, List.map_cons, List.map_nil,
          List.cons_append, List.cons_append, List.cons_append, List.cons_append,
          List.nil_append, byte_toNat (by omega), byte_toNat (by omega), byte_toNat (by omega),
          byte_toNat (by omega), utf8Decode_four (by omega),
          utf8Decode_continue (by omega) (by split <;> split <;> omega),
          utf8Decode_continue (by omega) (by omega), utf8Decode_last (by omega)]
        refine List.cons_eq_cons.mpr ⟨char_eq ?_, rfl⟩
        omega

/-- What was encoded is decoded. -/
theorem utf8Decode_utf8Encode (text : Text) :
    utf8Decode none ((utf8Encode text).map UInt8.toNat) = text := by
  induction text with
  | nil => rfl
  | cons c text ih => rw [utf8Encode_cons, List.map_append, utf8Decode_char, ih]

/-! ## Escapes -/

theorem toNat_ofNat {n : Nat} (h : n < 0xd800) : (Char.ofNat n).toNat = n := by
  have hvalid : n.isValidChar := Or.inl h
  unfold Char.ofNat
  rw [dif_pos hvalid]
  rfl

/-- A digit of `%XX`. -/
def hexDigit (n : Nat) : Char := if n < 10 then Char.ofNat ('0'.toNat + n)
  else Char.ofNat ('A'.toNat + (n - 10))

/-- The characters that `quote` leaves alone, when none is named as safe besides. -/
def isAlwaysSafe (c : Char) : Bool :=
  isAsciiAlphanumeric c || c == '_' || c == '.' || c == '-' || c == '~'

def quoteByte (byte : UInt8) : Text :=
  if isAlwaysSafe (Char.ofNat byte.toNat) then [Char.ofNat byte.toNat]
  else ['%', hexDigit (byte.toNat / 16), hexDigit (byte.toNat % 16)]

/-- `quote`, without safe characters. -/
def quote (text : Text) : Text := (utf8Encode text).flatMap quoteByte

theorem hexValue_hexDigit {n : Nat} (h : n < 16) : hexValue (hexDigit n) = some n := by
  have hall : ∀ n : Fin 16, hexValue (hexDigit n) = some n.val := by decide
  exact hall ⟨n, h⟩

/-- A character that is not `%` stands for itself. -/
theorem unquoteImpl_cons {c : Char} (h : c ≠ '%') (rest : Text) :
    unquoteImpl (c :: rest) = c.toNat :: unquoteImpl rest := by
  rw [unquoteImpl]
  rintro high low rest rfl
  exact absurd rfl h

theorem unquoteImpl_quoteByte (byte : UInt8) (rest : Text) :
    unquoteImpl (quoteByte byte ++ rest) = byte.toNat :: unquoteImpl rest := by
  have hbyte := byte.toNat_lt
  unfold quoteByte
  split
  · rename_i hsafe
    have hchar := toNat_ofNat (show byte.toNat < 0xd800 by omega)
    have hne : Char.ofNat byte.toNat ≠ '%' := by
      intro heq
      rw [heq] at hsafe
      exact absurd hsafe (by decide)
    rw [List.cons_append, List.nil_append, unquoteImpl_cons hne, hchar]
  · rw [List.cons_append, List.cons_append, List.cons_append, List.nil_append, unquoteImpl,
      hexValue_hexDigit (by omega), hexValue_hexDigit (by omega)]
    dsimp only
    have hvalue : 16 * (byte.toNat / 16) + byte.toNat % 16 = byte.toNat := by omega
    rw [hvalue]

theorem unquoteImpl_quote (text : Text) :
    unquoteImpl (quote text) = (utf8Encode text).map UInt8.toNat := by
  unfold quote
  induction utf8Encode text with
  | nil => rfl
  | cons byte bytes ih => rw [List.flatMap_cons, unquoteImpl_quoteByte, ih, List.map_cons]

/-- A character of a quoted text. -/
def isQuoted (c : Char) : Bool := isAlwaysSafe c || c == '%'

theorem hexDigit_isQuoted {n : Nat} (h : n < 16) : isQuoted (hexDigit n) = true := by
  have hall : ∀ n : Fin 16, isQuoted (hexDigit n) = true := by decide
  exact hall ⟨n, h⟩

theorem quote_isQuoted (text : Text) : ∀ c ∈ quote text, isQuoted c = true := by
  intro c hmem
  obtain ⟨byte, -, hbyte⟩ := List.mem_flatMap.mp hmem
  have hlt := byte.toNat_lt
  unfold quoteByte at hbyte
  split at hbyte
  · rename_i hsafe
    rw [List.mem_singleton.mp hbyte, isQuoted, hsafe, Bool.true_or]
  · rcases List.mem_cons.mp hbyte with rfl | hbyte
    · decide
    · rcases List.mem_cons.mp hbyte with rfl | hbyte
      · exact hexDigit_isQuoted (by omega)
      · rw [List.mem_singleton.mp hbyte]
        exact hexDigit_isQuoted (by omega)

theorem isQuoted_ascii {c : Char} (h : isQuoted c = true) : c.toNat < 0x80 := by
  unfold isQuoted isAlwaysSafe isAsciiAlphanumeric at h
  simp only [Bool.or_eq_true, Bool.and_eq_true, decide_eq_true_eq, beq_iff_eq] at h
  rcases h with (((((hchar | hchar) | rfl) | rfl) | rfl) | rfl) | rfl
  all_goals first | omega | decide

theorem quote_ascii (text : Text) : ∀ c ∈ quote text, c.toNat < 0x80 :=
  fun c hmem => isQuoted_ascii (quote_isQuoted text c hmem)

/-- A run of ASCII characters is one run. -/
theorem generateUnquotedParts_ascii {text : Text} (h : ∀ c ∈ text, c.toNat < 0x80) (run : Text) :
    generateUnquotedParts run text = utf8Decode none (unquoteImpl (run ++ text)) := by
  induction text generalizing run with
  | nil => rw [generateUnquotedParts, List.append_nil]
  | cons c text ih =>
      rw [List.forall_mem_cons] at h
      rw [generateUnquotedParts, if_pos h.1, ih h.2, List.append_assoc, List.singleton_append]

/-- A text without escapes and without bytes of a longer sequence. -/
theorem utf8Decode_unquoteImpl {text : Text} (h : ∀ c ∈ text, c.toNat < 0x80)
    (hplain : '%' ∉ text) : utf8Decode none (unquoteImpl text) = text := by
  induction text with
  | nil => rfl
  | cons c text ih =>
      rw [List.forall_mem_cons] at h
      rw [List.mem_cons, not_or] at hplain
      rw [unquoteImpl_cons (Ne.symm hplain.1), utf8Decode_ascii h.1, ih h.2 hplain.2,
        Char.ofNat_toNat]

/-- What was quoted is unquoted. -/
theorem unquote_quote (text : Text) : unquote (quote text) = text := by
  have hdecode : utf8Decode none (unquoteImpl (quote text)) = text := by
    rw [unquoteImpl_quote, utf8Decode_utf8Encode]
  unfold unquote
  split
  · rename_i hplain
    rw [← utf8Decode_unquoteImpl (quote_ascii text) hplain, hdecode]
  · rw [generateUnquotedParts_ascii (quote_ascii text), List.nil_append, hdecode]

end FogHttp.Redaction
