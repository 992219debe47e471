import FogHttp.Lib.Digits
import FogHttp.Policy.Cookies

/-!
# The arithmetic of `Max-Age`

`parse_max_age` reads its digits with a fold that clamps after every digit.  `MaxAge` is
the syntax that it accepts, and `MaxAge.expiry` what the value means: the digits are a
number of any size, and the clamp comes once, at the end.

A clamped prefix is a number in the clamped range, so no operation of the fold saturates
(`clamp_step`), and it is clamped again exactly when the prefix itself would be
(`foldl_clamp`).
-/

namespace FogHttp.Cookies

open Lib

/-- A value of `Max-Age`: an optional minus sign and decimal digits. -/
structure MaxAge where
  negative : Bool
  digits : Text
  nonempty : digits ≠ []
  areDigits : ∀ c ∈ digits, c.isDigit = true

namespace MaxAge

def text (age : MaxAge) : Text :=
  if age.negative then '-' :: age.digits else age.digits

/-- When a cookie with this `Max-Age` expires. -/
def expiry {τ : Type} (crates : CookieCrates τ) (now : τ) (age : MaxAge) : τ :=
  if age.negative = true ∨ digitsValue age.digits = 0 then now
  else crates.saturatingAdd now (min (digitsValue age.digits : Int) 34560000)

end MaxAge

/-! ## Digits -/

theorem digitValue_le {c : Char} (h : c.isDigit = true) : digitValue c ≤ 9 := by
  simp only [Char.isDigit, Bool.and_eq_true, decide_eq_true_eq, ge_iff_le,
    UInt32.le_iff_toNat_le] at h
  have hle : c.toNat ≤ 57 := h.2
  unfold digitValue
  omega

theorem digitValue_eq_zero_iff {c : Char} (h : c.isDigit = true) :
    digitValue c = 0 ↔ (c == '0') = true := by
  simp only [Char.isDigit, Bool.and_eq_true, decide_eq_true_eq, ge_iff_le,
    UInt32.le_iff_toNat_le] at h
  have hge : 48 ≤ c.toNat := h.1
  rw [beq_iff_eq]
  constructor
  · intro hzero
    have hval : c.toNat = 48 := by
      unfold digitValue at hzero
      omega
    exact Char.ext (UInt32.toNat_inj.mp hval)
  · rintro rfl
    rfl

/-- A text of digits writes zero exactly when all of them are zeros. -/
theorem digitsFrom_eq_zero_iff (value : Nat) {digits : Text}
    (h : ∀ c ∈ digits, c.isDigit = true) :
    digitsFrom value digits = 0 ↔ value = 0 ∧ digits.all (· == '0') = true := by
  induction digits generalizing value with
  | nil => simp [digitsFrom]
  | cons c rest ih =>
      have hc := digitValue_eq_zero_iff (h c List.mem_cons_self)
      have hrest := ih (value * 10 + digitValue c) fun d hd =>
        h d (List.mem_cons_of_mem c hd)
      show digitsFrom (value * 10 + digitValue c) rest = 0 ↔ _
      rw [hrest, List.all_cons, Bool.and_eq_true, ← hc]
      constructor
      · intro hzero
        exact ⟨by omega, by omega, hzero.2⟩
      · intro hzero
        exact ⟨by omega, hzero.2.2⟩

/-! ## The fold -/

/-- From a clamped number, a round of the fold neither overflows nor loses anything. -/
theorem clamp_step (seconds : Int) {digit : Nat} (hnonneg : 0 ≤ seconds)
    (hclamped : seconds ≤ maxCookieAgeSeconds) (hdigit : digit ≤ 9) :
    min (saturatingI64 (saturatingI64 (seconds * 10) + digit)) maxCookieAgeSeconds =
      min (seconds * 10 + digit) maxCookieAgeSeconds := by
  unfold saturatingI64 maxCookieAgeSeconds at *
  omega

/-- Clamping after every digit is clamping the number. -/
theorem foldl_clamp (value : Nat) {digits : Text} (h : ∀ c ∈ digits, c.isDigit = true) :
    digits.foldl (fun seconds digit =>
        min (saturatingI64 (saturatingI64 (seconds * 10) + (digit.toNat - '0'.toNat : Nat)))
          maxCookieAgeSeconds) (min (value : Int) maxCookieAgeSeconds) =
      min (digitsFrom value digits : Int) maxCookieAgeSeconds := by
  induction digits generalizing value with
  | nil => rfl
  | cons c rest ih =>
      have hdigit := digitValue_le (h c List.mem_cons_self)
      have hmax : (0 : Int) ≤ maxCookieAgeSeconds := by decide
      have hstep := clamp_step (min (value : Int) maxCookieAgeSeconds)
        (by omega) (by omega) hdigit
      have hnext : min (min (value : Int) maxCookieAgeSeconds * 10 + digitValue c)
          maxCookieAgeSeconds =
            min ((value * 10 + digitValue c : Nat) : Int) maxCookieAgeSeconds := by
        omega
      rw [List.foldl_cons]
      show List.foldl _ (min (saturatingI64 (saturatingI64 (_ * 10) + digitValue c)) _) rest = _
      rw [hstep, hnext]
      exact ih _ fun d hd => h d (List.mem_cons_of_mem c hd)

/-! ## The value -/

section Crates

variable {τ : Type} (crates : CookieCrates τ)

/-- The part of `parse_max_age` behind the sign. -/
def readMaxAge (negative : Bool) (digits : Text) (now : τ) : Option τ :=
  if digits.isEmpty || !digits.all Char.isDigit then none
  else if negative || digits.all (· == '0') then some now
  else
    some (crates.saturatingAdd now (digits.foldl (fun seconds digit =>
      min (saturatingI64 (saturatingI64 (seconds * 10) + (digit.toNat - '0'.toNat : Nat)))
        maxCookieAgeSeconds) 0))

theorem parseMaxAge_negative {value digits : Text} (h : stripPrefixChar '-' value = some digits)
    (now : τ) : parseMaxAge crates value now = readMaxAge crates true digits now := by
  unfold parseMaxAge
  rw [h]
  rfl

theorem parseMaxAge_unsigned {value : Text} (h : stripPrefixChar '-' value = none) (now : τ) :
    parseMaxAge crates value now = readMaxAge crates false value now := by
  unfold parseMaxAge
  rw [h]
  rfl

/-- The sign of a value is read off before its digits. -/
theorem parseMaxAge_eq_read (now : τ) (age : MaxAge) :
    parseMaxAge crates age.text now = readMaxAge crates age.negative age.digits now := by
  unfold MaxAge.text
  cases age.negative
  · obtain ⟨c, rest, hdigits⟩ := List.exists_cons_of_ne_nil age.nonempty
    have hc := age.areDigits c (by rw [hdigits]; exact List.mem_cons_self)
    have hminus : c ≠ '-' := by
      rintro rfl
      simp [Char.isDigit] at hc
    exact parseMaxAge_unsigned crates (by simp [hdigits, stripPrefixChar, hminus]) now
  · exact parseMaxAge_negative crates (by simp [stripPrefixChar]) now

/-- Only digits are read. -/
theorem digits_of_readMaxAge {negative : Bool} {digits : Text} {now expires : τ}
    (h : readMaxAge crates negative digits now = some expires) :
    digits ≠ [] ∧ ∀ c ∈ digits, c.isDigit = true := by
  unfold readMaxAge at h
  split at h
  · cases h
  · rename_i hdigits
    simpa using hdigits

/-- A value of the syntax is read as what it means. -/
theorem parseMaxAge_text (now : τ) (age : MaxAge) :
    parseMaxAge crates age.text now = some (age.expiry crates now) := by
  have hall : age.digits.all Char.isDigit = true := List.all_eq_true.mpr age.areDigits
  have hzero := digitsFrom_eq_zero_iff 0 age.areDigits
  have hfold := foldl_clamp 0 age.areDigits
  have hstart : min ((0 : Nat) : Int) maxCookieAgeSeconds = 0 := by decide
  have hempty : age.digits.isEmpty = false := by simpa using age.nonempty
  rw [hstart] at hfold
  rw [parseMaxAge_eq_read]
  unfold readMaxAge MaxAge.expiry digitsValue
  rw [hempty, hall, hfold]
  cases age.negative
  · by_cases hvalue : digitsFrom 0 age.digits = 0
    · rw [(hzero.mp hvalue).2]
      simp [hvalue]
    · have hnot : age.digits.all (· == '0') = false := by
        by_contra htrue
        exact hvalue (hzero.mpr ⟨rfl, by simpa using htrue⟩)
      rw [hnot]
      simp only [Bool.not_true, Bool.or_false, Bool.false_eq_true, if_false, hvalue, or_self]
      rfl
  · simp

/-- A value that is read is a value of the syntax. -/
theorem exists_maxAge_of_parse {value : Text} {now expires : τ}
    (h : parseMaxAge crates value now = some expires) : ∃ age : MaxAge, value = age.text := by
  cases hsign : stripPrefixChar '-' value with
  | none =>
      rw [parseMaxAge_unsigned crates hsign] at h
      obtain ⟨hne, hdigits⟩ := digits_of_readMaxAge crates h
      exact ⟨⟨false, value, hne, hdigits⟩, rfl⟩
  | some digits =>
      rw [parseMaxAge_negative crates hsign] at h
      obtain ⟨hne, hdigits⟩ := digits_of_readMaxAge crates h
      refine ⟨⟨true, digits, hne, hdigits⟩, ?_⟩
      cases value with
      | nil => cases hsign
      | cons c rest =>
          rw [stripPrefixChar] at hsign
          split at hsign
          · rename_i hc
            rw [hc, Option.some.inj hsign]
            rfl
          · cases hsign

/-- `parse_max_age` reads exactly the values of the syntax, and clamping after every digit
gives what clamping the number gives, whatever its size. -/
theorem parse_max_age_arithmetic (value : Text) (now : τ) :
    ((parseMaxAge crates value now).isSome = true ↔ ∃ age : MaxAge, value = age.text) ∧
      ∀ age : MaxAge, value = age.text →
        parseMaxAge crates value now = some (age.expiry crates now) := by
  have hread : ∀ age : MaxAge, value = age.text →
      parseMaxAge crates value now = some (age.expiry crates now) := by
    rintro age rfl
    exact parseMaxAge_text crates now age
  refine ⟨⟨?_, ?_⟩, hread⟩
  · intro hsome
    obtain ⟨expires, hexpires⟩ := Option.isSome_iff_exists.mp hsome
    exact exists_maxAge_of_parse crates hexpires
  · rintro ⟨age, htext⟩
    rw [hread age htext]
    rfl

end Crates

end FogHttp.Cookies
