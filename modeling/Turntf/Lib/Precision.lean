/-
  Turntf.Lib.Precision — integers in a binary format with `p` bits of precision.

  `round p n` is the integer with at most `p` significant bits that is nearest to `n`, and of two
  that are equally near the one with an even significand. Nothing is said of exponents: a format
  that has the precision and can hold the magnitude converts an integer this way.

  - `round_exact`: an integer of at most `p` bits is itself.
  - `eq_of_round`: no other integer is rounded to one below `2 ^ p`.
-/

import Mathlib.Algebra.Group.Nat.Defs

namespace Precision

/-- How many of the low bits do not fit. -/
def excess (p n : Nat) : Nat := n.log2 + 1 - p

/-- The multiple of `2 ^ e` nearest to `n`. -/
def roundAt (e n : Nat) : Nat :=
  if 2 ^ e < 2 * (n % 2 ^ e) ∨ 2 ^ e = 2 * (n % 2 ^ e) ∧ n / 2 ^ e % 2 = 1 then (n / 2 ^ e + 1) * 2 ^ e
  else n / 2 ^ e * 2 ^ e

def roundNat (p n : Nat) : Nat := roundAt (excess p n) n

def round (p : Nat) (n : Int) : Int := if n < 0 then -roundNat p n.natAbs else roundNat p n.natAbs

theorem roundAt_zero (n : Nat) : roundAt 0 n = n := by
  simp [roundAt, Nat.mod_one]

theorem le_roundAt (e n : Nat) : n / 2 ^ e * 2 ^ e ≤ roundAt e n := by
  unfold roundAt
  split
  · exact Nat.mul_le_mul_right _ (Nat.le_succ _)
  · exact Nat.le_refl _

section

variable {p : Nat} (hp : 0 < p)

include hp

theorem excess_of_lt {n : Nat} (h : n < 2 ^ p) : excess p n = 0 := by
  unfold excess
  by_cases h0 : n = 0
  · simp only [h0, Nat.log2_zero]
    omega
  · have := (Nat.log2_lt h0).mpr h
    omega

theorem roundNat_exact {n : Nat} (h : n < 2 ^ p) : roundNat p n = n := by
  rw [roundNat, excess_of_lt hp h, roundAt_zero]

/-- The highest bit of a number that does not fit stays. -/
theorem le_roundNat {n : Nat} (h : 2 ^ p ≤ n) : 2 ^ p ≤ roundNat p n := by
  have h0 : n ≠ 0 := by
    have := Nat.two_pow_pos p
    omega
  have hlog : p ≤ n.log2 := (Nat.le_log2 h0).mpr h
  have hle : excess p n ≤ n.log2 := by
    unfold excess
    omega
  have hquot : 2 ^ (n.log2 - excess p n) ≤ n / 2 ^ excess p n := by
    rw [Nat.le_div_iff_mul_le (Nat.two_pow_pos _), ← Nat.pow_add, Nat.sub_add_cancel hle]
    exact Nat.log2_self_le h0
  calc 2 ^ p ≤ 2 ^ n.log2 := Nat.pow_le_pow_right Nat.two_pos hlog
    _ = 2 ^ (n.log2 - excess p n) * 2 ^ excess p n := by rw [← Nat.pow_add, Nat.sub_add_cancel hle]
    _ ≤ n / 2 ^ excess p n * 2 ^ excess p n := Nat.mul_le_mul_right _ hquot
    _ ≤ roundNat p n := le_roundAt _ _

theorem round_exact {n : Int} (h : n.natAbs < 2 ^ p) : round p n = n := by
  unfold round
  rw [roundNat_exact hp h]
  split <;> omega

theorem eq_of_round {m n : Int} (hn : n.natAbs < 2 ^ p) (h : round p m = n) : m = n := by
  by_cases hm : m.natAbs < 2 ^ p
  · rwa [round_exact hp hm] at h
  · have := le_roundNat hp (Nat.le_of_not_lt hm)
    unfold round at h
    split at h <;> omega

end

/-- The bound is sharp. -/
example : round 53 9007199254740993 = 9007199254740992 := by decide

end Precision
