import Mathlib.Data.Nat.Bitwise

/-!
# Rounding addresses up

`(x + m) & ~m`, for a mask `m` of the lowest `k` bits, is the first multiple of
`2 ^ k` that is not below `x`, when the sum does not wrap. Nothing is added to an
address that is a multiple already. To any other one at least `d` is added, when
`d` divides both the alignment and the address (`add_le_alignUp`).
-/

namespace Winspd.Lib

/-- `(x + m) & ~m`. -/
def alignUp {n : Nat} (x m : BitVec n) : BitVec n := (x + m) &&& ~~~m

variable {n k d : Nat} {x m : BitVec n}

/-- Without the lowest `k` bits. -/
theorem toNat_and_not_mask (hm : m.toNat = 2 ^ k - 1) :
    (x &&& ~~~m).toNat = x.toNat / 2 ^ k * 2 ^ k := by
  have hbit : ∀ i, m.getLsbD i = decide (i < k) := by
    intro i
    rw [← BitVec.testBit_toNat, hm, Nat.testBit_two_pow_sub_one]
  apply Nat.eq_of_testBit_eq
  intro i
  rw [BitVec.testBit_toNat, BitVec.getLsbD_and, BitVec.getLsbD_not, hbit,
    Nat.testBit_mul_two_pow]
  by_cases hi : k ≤ i
  · rw [Nat.testBit_div_two_pow, Nat.sub_add_cancel hi, BitVec.testBit_toNat]
    by_cases hn : i < n
    · simp [hi, hn]
    · simp [hi, hn, BitVec.getLsbD_of_ge x i (by omega)]
  · simp [hi]
    omega

section NoWrap

variable (hm : m.toNat = 2 ^ k - 1) (hsum : x.toNat + m.toNat < 2 ^ n)
include hm hsum

theorem toNat_alignUp : (alignUp x m).toNat = (x.toNat + (2 ^ k - 1)) / 2 ^ k * 2 ^ k := by
  rw [alignUp, toNat_and_not_mask hm, BitVec.toNat_add, Nat.mod_eq_of_lt hsum, hm]

theorem dvd_alignUp : 2 ^ k ∣ (alignUp x m).toNat := by
  rw [toNat_alignUp hm hsum]
  exact Nat.dvd_mul_left _ _

theorem alignUp_le : (alignUp x m).toNat ≤ x.toNat + m.toNat := by
  rw [toNat_alignUp hm hsum, hm]
  exact Nat.div_mul_le_self _ _

theorem le_alignUp : x.toNat ≤ (alignUp x m).toNat := by
  have hpos : 0 < 2 ^ k := Nat.two_pow_pos k
  have hlt := Nat.lt_div_mul_add (a := x.toNat + (2 ^ k - 1)) hpos
  rw [toNat_alignUp hm hsum]
  omega

theorem alignUp_of_dvd (hx : 2 ^ k ∣ x.toNat) : (alignUp x m).toNat = x.toNat := by
  obtain ⟨q, hq⟩ := hx
  have hpos : 0 < 2 ^ k := Nat.two_pow_pos k
  rw [toNat_alignUp hm hsum, hq, Nat.mul_add_div hpos, Nat.div_eq_of_lt (by omega), Nat.add_zero,
    Nat.mul_comm]

theorem add_le_alignUp (hx : ¬ 2 ^ k ∣ x.toNat) (hd : d ∣ 2 ^ k) (hdx : d ∣ x.toNat) :
    x.toNat + d ≤ (alignUp x m).toNat := by
  have hle := le_alignUp hm hsum
  have hdvd := dvd_alignUp hm hsum
  have hne : x.toNat ≠ (alignUp x m).toNat := by
    intro heq
    rw [← heq] at hdvd
    exact hx hdvd
  have hgap : d ∣ (alignUp x m).toNat - x.toNat :=
    Nat.dvd_sub (hd.trans hdvd) hdx
  have hd_le := Nat.le_of_dvd (by omega) hgap
  omega

end NoWrap

end Winspd.Lib
