import Winspd.Lib.Bytes

/-!
# Bits of a buffer

The bits of a buffer are numbered from its first byte on, and in each byte from
the highest one on. So many bits from a position on are a number, the first of
them its highest. A number can be put together from two parts at any place
(`bitsValue_add`), and the bits of a single byte are got by a division and a
remainder (`bitsValue_byte`).
-/

namespace Winspd.Lib

variable {buf : List UInt8} {pos n : Nat}

def bitAt (buf : List UInt8) (pos : Nat) : Nat :=
  (buf.getD (pos / 8) 0).toNat / 2 ^ (7 - pos % 8) % 2

def bitsValue (buf : List UInt8) (pos : Nat) : Nat → Nat
  | 0 => 0
  | n + 1 => 2 * bitsValue buf pos n + bitAt buf (pos + n)

theorem bitsValue_lt (buf : List UInt8) (pos n : Nat) : bitsValue buf pos n < 2 ^ n := by
  induction n with
  | zero => exact Nat.one_pos
  | succ n ih =>
      have hbit : bitAt buf (pos + n) < 2 := Nat.mod_lt _ (by decide)
      rw [bitsValue, Nat.pow_succ]
      omega

theorem bitsValue_add (buf : List UInt8) (pos n k : Nat) :
    bitsValue buf pos (n + k) = bitsValue buf pos n * 2 ^ k + bitsValue buf (pos + n) k := by
  induction k with
  | zero => rw [Nat.add_zero, Nat.pow_zero, Nat.mul_one, bitsValue, Nat.add_zero]
  | succ k ih =>
      have hpow : 2 ^ (k + 1) = 2 * 2 ^ k := Nat.pow_succ'
      rw [← Nat.add_assoc, bitsValue, ih, bitsValue, Nat.add_assoc pos, hpow,
        Nat.mul_left_comm (bitsValue buf pos n), Nat.mul_add, Nat.add_assoc]

theorem div_mod_succ (x k n : Nat) :
    2 * (x / 2 ^ (k + 1) % 2 ^ n) + x / 2 ^ k % 2 = x / 2 ^ k % 2 ^ (n + 1) := by
  have hdiv : x / 2 ^ (k + 1) = x / 2 ^ k / 2 := by rw [Nat.pow_succ, Nat.div_div_eq_div_mul]
  rw [hdiv, Nat.pow_succ', Nat.mod_mul, Nat.add_comm]

theorem bitsValue_byte (h : pos % 8 + n ≤ 8) :
    bitsValue buf pos n = (buf.getD (pos / 8) 0).toNat / 2 ^ (8 - pos % 8 - n) % 2 ^ n := by
  induction n with
  | zero => rw [bitsValue, Nat.pow_zero, Nat.mod_one]
  | succ n ih =>
      have hbyte : (pos + n) / 8 = pos / 8 := by omega
      have hlow : 7 - (pos + n) % 8 = 8 - pos % 8 - (n + 1) := by omega
      have hhigh : 8 - pos % 8 - n = 8 - pos % 8 - (n + 1) + 1 := by omega
      rw [bitsValue, ih (by omega), bitAt, hbyte, hlow, hhigh, div_mod_succ]

theorem shift_out (x : Nat) {off n : Nat} (h : off + n ≤ 8) :
    (x <<< off &&& 0xff) >>> (8 - n) = x / 2 ^ (8 - off - n) % 2 ^ n := by
  have hsplit : 2 ^ 8 = 2 ^ (8 - off) * 2 ^ off := by
    rw [← Nat.pow_add]
    exact congrArg _ (by omega)
  have hpow : 2 ^ (8 - n) = 2 ^ off * 2 ^ (8 - off - n) := by
    rw [← Nat.pow_add]
    exact congrArg _ (by omega)
  have hrest : 2 ^ (8 - off) = 2 ^ (8 - off - n) * 2 ^ n := by
    rw [← Nat.pow_add]
    exact congrArg _ (by omega)
  have hmask : x <<< off &&& 0xff = x % 2 ^ (8 - off) * 2 ^ off := by
    rw [show 0xff = 2 ^ 8 - 1 from rfl, Nat.and_two_pow_sub_one_eq_mod, Nat.shiftLeft_eq, hsplit,
      Nat.mul_mod_mul_right]
  rw [hmask, Nat.shiftRight_eq_div_pow, hpow, ← Nat.div_div_eq_div_mul,
    Nat.mul_div_cancel _ (Nat.two_pow_pos off), hrest, Nat.mod_mul_right_div_self]

end Winspd.Lib
