import Mathlib.Algebra.Group.Nat.Defs
import Mathlib.Tactic.Common

/-!
# Address prefixes

Two words have the same first `bits` bits.  Programs test this with a mask of
ones on the left, `BitVec.allOnes w <<< (w - bits)`, and one comparison.
`and_allOnes_shiftLeft_eq_iff` says that the test is right, and
`SamePrefix` states it as an equality of quotients, which linear arithmetic can
use.

Nothing here names a function of a particular program.
-/

namespace FogHttp.Lib

variable {w : Nat} {left right : BitVec w}

/-- The words agree in their first `bits` bits. -/
def SamePrefix (bits : Nat) (left right : BitVec w) : Prop :=
  left.toNat / 2 ^ (w - bits) = right.toNat / 2 ^ (w - bits)

instance (bits : Nat) (left right : BitVec w) : Decidable (SamePrefix bits left right) :=
  inferInstanceAs (Decidable (_ = _))

/-- Two words agree above bit `k` exactly when their quotients are the same. -/
theorem and_allOnes_shiftLeft_eq_iff (k : Nat) :
    left &&& (BitVec.allOnes w <<< k) = right &&& (BitVec.allOnes w <<< k) ↔
      left.toNat / 2 ^ k = right.toNat / 2 ^ k := by
  rw [← Nat.shiftRight_eq_div_pow, ← Nat.shiftRight_eq_div_pow, ← BitVec.toNat_ushiftRight,
    ← BitVec.toNat_ushiftRight, BitVec.toNat_inj]
  have hbits : ∀ (word : BitVec w) (i : Nat), i < w →
      (word &&& (BitVec.allOnes w <<< k)).getLsbD i = (word.getLsbD i && decide (k ≤ i)) := by
    intro word i hi
    have hones : i - k < w := by omega
    simp only [BitVec.getLsbD_and, BitVec.getLsbD_shiftLeft, BitVec.getLsbD_allOnes, hi, hones,
      decide_true, Bool.and_true, Bool.true_and, ← Nat.not_lt, decide_not]
  constructor
  · intro h
    apply BitVec.eq_of_getLsbD_eq
    intro i _
    rw [BitVec.getLsbD_ushiftRight, BitVec.getLsbD_ushiftRight]
    by_cases hi : k + i < w
    · have hbit := congrArg (fun word => word.getLsbD (k + i)) h
      simpa only [hbits _ _ hi, Nat.le_add_right, decide_true, Bool.and_true] using hbit
    · rw [BitVec.getLsbD_of_ge _ _ (by omega), BitVec.getLsbD_of_ge _ _ (by omega)]
  · intro h
    apply BitVec.eq_of_getLsbD_eq
    intro i hi
    rw [hbits _ _ hi, hbits _ _ hi]
    by_cases hk : k ≤ i
    · have hbit := congrArg (fun word => word.getLsbD (i - k)) h
      have hsum : k + (i - k) = i := by omega
      simp only [BitVec.getLsbD_ushiftRight, hsum] at hbit
      rw [hbit]
    · simp [hk]

/-- The mask test of a prefix.  A shift by the whole width leaves no mask. -/
theorem mask_eq_iff_samePrefix {bits : Nat} :
    (left &&& (if w - bits < w then BitVec.allOnes w <<< (w - bits) else 0) ==
        right &&& (if w - bits < w then BitVec.allOnes w <<< (w - bits) else 0)) = true ↔
      SamePrefix bits left right := by
  rw [beq_iff_eq]
  split
  · exact and_allOnes_shiftLeft_eq_iff (w - bits)
  · rename_i hwide
    have hwhole : w - bits = w := by omega
    rw [SamePrefix, hwhole, Nat.div_eq_of_lt left.isLt, Nat.div_eq_of_lt right.isLt]
    simp

end FogHttp.Lib
