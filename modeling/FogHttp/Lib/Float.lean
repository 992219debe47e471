import Mathlib.Algebra.Order.Floor.Ring
import Mathlib.Data.Rat.Floor
import Mathlib.Tactic.Linarith
import Mathlib.Tactic.NormNum

/-!
# Floating-point numbers

An `F64` is a rational, an infinity or NaN.  An operation on rationals overflows to
an infinity where the exact result does not fit, and an operation on infinities
follows IEEE 754.  A rational result is exact here: its rounding to 53 bits and the
sign of zero are left out.

A duration is a number of nanoseconds.  Its conversion from seconds is the one place
that rounds, to the nearest and in a tie to the even one.

Nothing here names a function of a particular program.
-/

namespace FogHttp.Lib

/-! ## Rounding -/

/-- The nearest integer, and the even one of two that are equally near. -/
def roundHalfEven (value : ℚ) : ℤ :=
  if Int.fract value < 1 / 2 then ⌊value⌋
  else if 1 / 2 < Int.fract value then ⌊value⌋ + 1
  else if ⌊value⌋ % 2 = 0 then ⌊value⌋ else ⌊value⌋ + 1

theorem abs_roundHalfEven_sub_le (value : ℚ) : |(roundHalfEven value : ℚ) - value| ≤ 1 / 2 := by
  have hsplit := Int.floor_add_fract value
  have hnonneg := Int.fract_nonneg value
  have hlt := Int.fract_lt_one value
  unfold roundHalfEven
  rw [abs_le]
  split
  · constructor <;> linarith
  · split
    · push_cast
      constructor <;> linarith
    · split
      · constructor <;> linarith
      · push_cast
        constructor <;> linarith

theorem floor_le_roundHalfEven (value : ℚ) : ⌊value⌋ ≤ roundHalfEven value := by
  unfold roundHalfEven
  split_ifs <;> omega

theorem roundHalfEven_le (value : ℚ) : roundHalfEven value ≤ ⌊value⌋ + 1 := by
  unfold roundHalfEven
  split_ifs <;> omega

theorem roundHalfEven_mono {left right : ℚ} (h : left ≤ right) :
    roundHalfEven left ≤ roundHalfEven right := by
  rcases (Int.floor_le_floor h).lt_or_eq with hlt | hsame
  · calc
      roundHalfEven left ≤ ⌊left⌋ + 1 := roundHalfEven_le left
      _ ≤ ⌊right⌋ := hlt
      _ ≤ roundHalfEven right := floor_le_roundHalfEven right
  · have hfract : Int.fract left ≤ Int.fract right := by
      unfold Int.fract
      rw [hsame]
      linarith
    unfold roundHalfEven
    rw [hsame]
    split_ifs <;> first | omega | (exfalso; linarith)

theorem roundHalfEven_natCast (n : ℕ) : roundHalfEven n = n := by
  unfold roundHalfEven
  rw [Int.fract_natCast, if_pos (by norm_num), Int.floor_natCast]

theorem roundHalfEven_nonneg {value : ℚ} (h : 0 ≤ value) : 0 ≤ roundHalfEven value :=
  (Int.floor_nonneg.mpr h).trans (floor_le_roundHalfEven value)

theorem toNat_roundHalfEven {value : ℚ} (h : 0 ≤ value) :
    ((roundHalfEven value).toNat : ℚ) = roundHalfEven value := by
  exact_mod_cast Int.toNat_of_nonneg (roundHalfEven_nonneg h)

/-! ## Numbers -/

/-- `f64`. -/
inductive F64 where
  | nan
  | negInf
  | finite (value : ℚ)
  | posInf
deriving DecidableEq

namespace F64

/-- An exact result, which overflows from `2 ^ 1024` on. -/
def ofRat (value : ℚ) : F64 :=
  if 2 ^ 1024 ≤ value then .posInf else if value ≤ -2 ^ 1024 then .negInf else .finite value

/-- The product of a number and the positive infinity. -/
def timesInf (value : ℚ) : F64 :=
  if value = 0 then .nan else if 0 < value then .posInf else .negInf

/-- `left * right`. -/
protected def mul : F64 → F64 → F64
  | .nan, _ => .nan
  | _, .nan => .nan
  | .finite left, .finite right => ofRat (left * right)
  | .finite left, .posInf => timesInf left
  | .finite left, .negInf => timesInf (-left)
  | .posInf, .finite right => timesInf right
  | .negInf, .finite right => timesInf (-right)
  | .posInf, .posInf => .posInf
  | .posInf, .negInf => .negInf
  | .negInf, .posInf => .negInf
  | .negInf, .negInf => .posInf

/-- `left + right`. -/
protected def add : F64 → F64 → F64
  | .nan, _ => .nan
  | _, .nan => .nan
  | .finite left, .finite right => ofRat (left + right)
  | .posInf, .negInf => .nan
  | .negInf, .posInf => .nan
  | .posInf, _ => .posInf
  | _, .posInf => .posInf
  | .negInf, _ => .negInf
  | _, .negInf => .negInf

instance : Mul F64 := ⟨F64.mul⟩
instance : Add F64 := ⟨F64.add⟩

/-- `left < right`. -/
def lt : F64 → F64 → Bool
  | .finite left, .finite right => left < right
  | .negInf, .finite _ => true
  | .negInf, .posInf => true
  | .finite _, .posInf => true
  | _, _ => false

/-- `left <= right`. -/
def le (left right : F64) : Bool := left.lt right || (left != .nan && left == right)

/-- `f64::is_finite`. -/
def isFinite : F64 → Bool
  | .finite _ => true
  | _ => false

/-- `f64::min`, which is the other number for a NaN. -/
protected def min : F64 → F64 → F64
  | .nan, right => right
  | left, .nan => left
  | left, right => if right.lt left then right else left

/-- `f64::clamp`. -/
def clamp (value low high : F64) : F64 :=
  if value.lt low then low else if high.lt value then high else value

/-- `f64::powi` with an exponent that is not negative. -/
def powi (base : F64) : Nat → F64
  | 0 => .finite 1
  | exponent + 1 => powi base exponent * base

theorem ofRat_of_lt {value : ℚ} (hlow : -2 ^ 1024 < value) (hhigh : value < 2 ^ 1024) :
    ofRat value = .finite value := by
  unfold ofRat
  rw [if_neg hhigh.not_ge, if_neg hlow.not_ge]

theorem neg_lt_of_nonneg {value : ℚ} (h : 0 ≤ value) : -2 ^ 1024 < value :=
  (neg_lt_zero.mpr (pow_pos two_pos 1024)).trans_le h

theorem ofRat_of_ge {value : ℚ} (h : 2 ^ 1024 ≤ value) : ofRat value = .posInf := if_pos h

theorem finite_mul_finite (left right : ℚ) :
    F64.finite left * .finite right = ofRat (left * right) := rfl

theorem finite_add_finite (left right : ℚ) :
    F64.finite left + .finite right = ofRat (left + right) := rfl

theorem finite_le_finite {left right : ℚ} :
    (F64.finite left).le (.finite right) = true ↔ left ≤ right := by
  simp [le, lt, le_iff_lt_or_eq]

theorem posInf_add_finite (right : ℚ) : F64.posInf + .finite right = .posInf := rfl

theorem nan_add (right : F64) : F64.nan + right = .nan := by
  cases right <;> rfl

theorem zero_mul_posInf : F64.finite 0 * .posInf = .nan := rfl

theorem finite_mul_posInf {left : ℚ} (h : 0 < left) : F64.finite left * .posInf = .posInf := by
  show timesInf left = .posInf
  unfold timesInf
  rw [if_neg h.ne', if_pos h]

theorem clamp_of_mem {value low high : ℚ} (hlow : low ≤ value) (hhigh : value ≤ high) :
    (F64.finite value).clamp (.finite low) (.finite high) = .finite value := by
  simp [clamp, lt, hlow.not_gt, hhigh.not_gt]

/-- The minimum with a number forgets an overflow above it. -/
theorem ofRat_min_finite {value bound : ℚ} (hvalue : 0 ≤ value) (hbound : bound < 2 ^ 1024) :
    (ofRat value).min (.finite bound) = .finite (min value bound) := by
  rcases lt_or_ge value (2 ^ 1024) with hlt | hge
  · rw [ofRat_of_lt (neg_lt_of_nonneg hvalue) hlt]
    rcases lt_or_ge bound value with hless | hmore
    · simp [F64.min, lt, hless, min_eq_right hless.le]
    · simp [F64.min, lt, hmore.not_gt, min_eq_left hmore]
  · rw [ofRat_of_ge hge, min_eq_right (hbound.le.trans hge)]
    rfl

/-- A sum forgets an overflow of its first part in the same way. -/
theorem ofRat_add_min_finite {left right bound : ℚ} (hleft : 0 ≤ left) (hright : 0 ≤ right)
    (hbound : bound < 2 ^ 1024) :
    (ofRat left + .finite right).min (.finite bound) = .finite (min (left + right) bound) := by
  rcases lt_or_ge left (2 ^ 1024) with hlt | hge
  · rw [ofRat_of_lt (neg_lt_of_nonneg hleft) hlt, finite_add_finite]
    exact ofRat_min_finite (add_nonneg hleft hright) hbound
  · rw [ofRat_of_ge hge, posInf_add_finite, 
      min_eq_right (hbound.le.trans (hge.trans (le_add_of_nonneg_right hright)))]
    rfl

/-- The powers of two are exact until they overflow. -/
theorem powi_two (exponent : Nat) :
    powi (.finite 2) exponent = if exponent < 1024 then .finite (2 ^ exponent) else .posInf := by
  induction exponent with
  | zero => norm_num [powi]
  | succ exponent ih =>
      rw [powi, ih]
      rcases Nat.lt_or_ge exponent 1024 with hlt | hge
      · rw [if_pos hlt, finite_mul_finite, ← pow_succ]
        rcases Nat.lt_or_ge (exponent + 1) 1024 with hnext | hnext
        · have hhigh : (2 : ℚ) ^ (exponent + 1) < 2 ^ 1024 :=
            pow_lt_pow_right₀ (by norm_num) hnext
          rw [if_pos hnext, ofRat_of_lt (neg_lt_of_nonneg (by positivity)) hhigh]
        · rw [if_neg hnext.not_gt]
          exact ofRat_of_ge (pow_le_pow_right₀ (by norm_num) hnext)
      · rw [if_neg hge.not_gt, if_neg (by omega)]
        rfl

/-! ## Durations -/

/-- `Duration::from_secs_f64`, which panics when the duration does not fit. -/
def toDuration : F64 → Option Nat
  | .finite seconds =>
      if seconds < 0 ∨ 2 ^ 64 * 10 ^ 9 ≤ roundHalfEven (seconds * 10 ^ 9) then none
      else some (roundHalfEven (seconds * 10 ^ 9)).toNat
  | _ => none

/-- `Duration::as_secs_f64`. -/
def ofDuration (duration : Nat) : F64 := .finite (duration / 10 ^ 9)

theorem toDuration_of_le {seconds : ℚ} {bound : ℕ} (hnonneg : 0 ≤ seconds)
    (hle : seconds * 10 ^ 9 ≤ bound) (hbound : bound < 2 ^ 64 * 10 ^ 9) :
    toDuration (.finite seconds) = some (roundHalfEven (seconds * 10 ^ 9)).toNat := by
  have hround : roundHalfEven (seconds * 10 ^ 9) ≤ bound :=
    roundHalfEven_natCast bound ▸ roundHalfEven_mono hle
  refine if_neg ?_
  rintro (hnegative | hlarge)
  · exact hnonneg.not_gt hnegative
  · omega

end F64

end FogHttp.Lib
