import FogHttp.Lib.Net

/-!
# Reading unsigned integers

`parseUint bound` is `<uN as FromStr>::from_str` for a type of `bound` values:
an optional plus sign, then one or more ASCII digits.  The loop multiplies and
adds with `checked_mul` and `checked_add`, so it fails as soon as a value is
out of range.

`digitsValue` is the number that a text of digits writes, without a bound.
`parseUint_digits` connects the two: on digits alone, the checked loop fails
exactly when that number does not fit.  The early failure is no other than a
failure at the end, because a further digit never makes a value smaller
(`le_digitsFrom`).

Nothing here names a function of a particular program.
-/

namespace FogHttp.Lib

/-- The value of one ASCII digit. -/
def digitValue (c : Char) : Nat := c.toNat - 48

/-- The number that the digits write behind a number already read. -/
def digitsFrom (value : Nat) (digits : Text) : Nat :=
  digits.foldl (fun value c => value * 10 + digitValue c) value

/-- The number that a text of ASCII digits writes. -/
def digitsValue (digits : Text) : Nat := digitsFrom 0 digits

/-- `checked_mul` and `checked_add` in a type of `bound` values. -/
def checked (bound value : Nat) : Option Nat := if value < bound then some value else none

/-- The loop of `from_str_radix` for the radix 10. -/
def readUint (bound : Nat) : Nat → Text → Option Nat
  | value, [] => some value
  | value, c :: rest => do
      let shifted ← checked bound (value * 10)
      let digit ← toDigit 10 c
      let next ← checked bound (shifted + digit)
      readUint bound next rest

/-- `<uN as FromStr>::from_str`. -/
def parseUint (bound : Nat) : Text → Option Nat
  | [] => none
  | ['+'] => none
  | ['-'] => none
  | '+' :: digits => readUint bound 0 digits
  | digits => readUint bound 0 digits

theorem toDigit_of_isDigit {c : Char} (h : c.isDigit = true) :
    toDigit 10 c = some (digitValue c) := by
  have hrange : 48 ≤ c.toNat ∧ c.toNat ≤ 57 := by
    simp only [Char.isDigit, Bool.and_eq_true, decide_eq_true_eq, ge_iff_le,
      UInt32.le_iff_toNat_le] at h
    exact h
  have hbelow : c.toNat - 48 < 10 := by omega
  rw [toDigit, digitValue]
  simp only [hrange, and_self, if_true]
  simp [Option.filter, hbelow]

/-- A further digit never makes a number smaller. -/
theorem le_digitsFrom (value : Nat) (digits : Text) : value ≤ digitsFrom value digits := by
  induction digits generalizing value with
  | nil => exact Nat.le_refl value
  | cons c rest ih =>
      have hrest := ih (value * 10 + digitValue c)
      show value ≤ digitsFrom (value * 10 + digitValue c) rest
      omega

/-- The checked loop on digits alone. -/
theorem readUint_digits {bound value : Nat} {digits : Text} (hvalue : value < bound)
    (h : ∀ c ∈ digits, c.isDigit = true) :
    readUint bound value digits = checked bound (digitsFrom value digits) := by
  induction digits generalizing value with
  | nil => simp [readUint, checked, digitsFrom, hvalue]
  | cons c rest ih =>
      have hdigit := toDigit_of_isDigit (h c List.mem_cons_self)
      have hrest : ∀ d ∈ rest, d.isDigit = true := fun d hd => h d (List.mem_cons_of_mem c hd)
      have hgrows := le_digitsFrom (value * 10 + digitValue c) rest
      show _ = checked bound (digitsFrom (value * 10 + digitValue c) rest)
      rw [readUint, hdigit]
      by_cases hshifted : value * 10 < bound
      · by_cases hnext : value * 10 + digitValue c < bound
        · simp only [checked, hshifted, hnext, if_true, Option.bind_eq_bind, Option.bind_some]
          exact ih hnext hrest
        · have hover : ¬ digitsFrom (value * 10 + digitValue c) rest < bound := by omega
          simp [checked, hshifted, hnext, hover]
      · have hover : ¬ digitsFrom (value * 10 + digitValue c) rest < bound := by omega
        simp [checked, hshifted, hover]

/-- On digits alone, `from_str` fails exactly when the number does not fit. -/
theorem parseUint_digits {bound : Nat} {digits : Text} (hbound : 0 < bound)
    (hne : digits ≠ []) (h : ∀ c ∈ digits, c.isDigit = true) :
    parseUint bound digits = checked bound (digitsValue digits) := by
  have hread : readUint bound 0 digits = checked bound (digitsValue digits) :=
    readUint_digits hbound h
  cases digits with
  | nil => exact absurd rfl hne
  | cons c rest =>
      have hc := h c List.mem_cons_self
      have hplus : c ≠ '+' := by
        rintro rfl
        simp [Char.isDigit] at hc
      have hminus : c ≠ '-' := by
        rintro rfl
        simp [Char.isDigit] at hc
      rw [← hread]
      unfold parseUint
      split <;> simp_all

theorem toDigit_of_readUint {bound value result : Nat} {text : Text}
    (h : readUint bound value text = some result) : ∀ c ∈ text, (toDigit 10 c).isSome = true := by
  induction text generalizing value with
  | nil => simp
  | cons c rest ih =>
      simp only [readUint, Option.bind_eq_bind, Option.bind_eq_some_iff] at h
      obtain ⟨shifted, -, digit, hdigit, next, -, h⟩ := h
      intro d hd
      rcases List.mem_cons.mp hd with rfl | hd
      · simp [hdigit]
      · exact ih h d hd

/-- A text that reads as an integer has no character but a sign and digits. -/
theorem not_mem_of_parseUint {bound result : Nat} {text : Text} {c : Char}
    (h : parseUint bound text = some result) (hc : toDigit 10 c = none) (hsign : c ≠ '+') :
    c ∉ text := by
  intro hmem
  have hdigits : ∀ {digits : Text}, readUint bound 0 digits = some result → c ∉ digits := by
    intro digits hread hin
    have hsome := toDigit_of_readUint hread c hin
    simp [hc] at hsome
  unfold parseUint at h
  split at h
  · simp at h
  · simp at h
  · simp at h
  · rcases List.mem_cons.mp hmem with heq | hin
    · exact hsign heq
    · exact hdigits h hin
  · exact hdigits h hmem

example : parseUint (2 ^ 64) "00042" = some 42 := by decide

end FogHttp.Lib
