import Mathlib.Algebra.Order.Floor.Div
import Mathlib.Data.List.Range

/-!
# Cutting a range into pieces

`n` things are cut into pieces of `p`, the last one being what is left. There
are `n ⌈/⌉ p` of them, none is empty, and the first of them one after another are
the range up to where they end: no thing is missing and none is there twice
(`pieces_take`). Scaling things and pieces alike scales the pieces
(`pieceLength_mul`), so it does not matter whether blocks or their bytes are counted.
-/

namespace Winspd.Lib

variable {n p k b : Nat}

/-- The length of the piece that starts at `k * p`. -/
def pieceLength (n p k : Nat) : Nat := min p (n - k * p)

theorem pieceLength_le : pieceLength n p k ≤ p := Nat.min_le_left _ _

theorem pieceLength_pos (hp : 0 < p) (hk : k * p < n) : 0 < pieceLength n p k := by
  unfold pieceLength
  omega

/-- The piece after this one starts where this one ends, or there is none. -/
theorem add_pieceLength (hk : k * p ≤ n) :
    k * p + pieceLength n p k = min ((k + 1) * p) n := by
  rw [Nat.add_mul, Nat.one_mul, pieceLength]
  omega

theorem lt_ceilDiv_iff (hp : 0 < p) : k < n ⌈/⌉ p ↔ k * p < n := by
  rw [← Nat.not_le, ceilDiv_le_iff_le_smul hp, Nat.not_le, smul_eq_mul, Nat.mul_comm]

theorem ceilDiv_mul_mul (hb : 0 < b) (hp : 0 < p) : (n * b) ⌈/⌉ (p * b) = n ⌈/⌉ p := by
  refine eq_of_forall_lt_iff fun k => ?_
  rw [lt_ceilDiv_iff hp, lt_ceilDiv_iff (Nat.mul_pos hp hb), ← Nat.mul_assoc,
    Nat.mul_lt_mul_right hb]

theorem pieceLength_mul : pieceLength (n * b) (p * b) k = pieceLength n p k * b := by
  rw [pieceLength, pieceLength, ← Nat.mul_assoc, ← Nat.sub_mul, Nat.mul_min_mul_right]

/-- The first `j` pieces, one after another. -/
theorem pieces_take (a n p j : Nat) :
    ((List.range j).flatMap fun k => List.range' (a + k * p) (pieceLength n p k)) =
      List.range' a (min (j * p) n) := by
  induction j with
  | zero => simp
  | succ j ih =>
      rw [List.range_succ, List.flatMap_append, ih, List.flatMap_singleton]
      by_cases hj : j * p ≤ n
      · rw [Nat.min_eq_left hj, List.range'_append_1, add_pieceLength hj]
      · have hlen : pieceLength n p j = 0 := by
          rw [pieceLength]
          omega
        have hle : n ≤ (j + 1) * p := by
          rw [Nat.add_mul]
          omega
        rw [hlen, Nat.min_eq_right (by omega), Nat.min_eq_right hle, List.range'_zero,
          List.append_nil]

end Winspd.Lib
