import Mathlib.Logic.Function.Basic

/-!
# Mixers

A word that is xored with itself, shifted right by at least half its length, is
got back by doing the same again. A product with an odd number is got back by a
product with the inverse of that number. What is made of such steps is
injective.
-/

namespace Winspd.Lib

variable {w s : Nat} {m m' : BitVec w}

def xorShift (s : Nat) (x : BitVec w) : BitVec w := x ^^^ x >>> s

theorem xorShift_xorShift (h : w ≤ 2 * s) (x : BitVec w) : xorShift s (xorShift s x) = x := by
  have hgone : x >>> s >>> s = 0#w := by
    rw [← BitVec.shiftRight_add, ← Nat.two_mul]
    exact BitVec.ushiftRight_eq_zero h
  have hshift : (x ^^^ x >>> s) >>> s = x >>> s := by
    rw [BitVec.ushiftRight_xor_distrib, hgone, BitVec.xor_zero]
  rw [xorShift, xorShift, hshift, BitVec.xor_assoc, BitVec.xor_self, BitVec.xor_zero]

theorem xorShift_injective (h : w ≤ 2 * s) : Function.Injective (xorShift (w := w) s) :=
  Function.LeftInverse.injective (xorShift_xorShift h)

theorem mul_injective (h : m * m' = 1#w) : Function.Injective fun x : BitVec w => x * m := by
  intro x y hxy
  have hback : x * m * m' = y * m * m' := congrArg (· * m') hxy
  rwa [BitVec.mul_assoc, BitVec.mul_assoc, h, BitVec.mul_one, BitVec.mul_one] at hback

end Winspd.Lib
