import Mathlib.Data.List.Nodup
import Mathlib.Data.Nat.Bitwise

/-!
# Bitmaps

A list of bytes read as a set of numbers: bit `i` of the bitmap is bit
`i & 7` of byte `i >> 3`. `setFlag` is `|=` with the flag's mask and `flagOn`
the test with `&`. `flagsFrom` counts what a loop over the flags has still to
meet.
-/

namespace Winspd.Lib

/-- The mask of flag `i` in its byte. -/
def flagMask (i : Nat) : UInt8 := 1 <<< UInt8.ofNat (i &&& 7)

def setFlag (bitmap : List UInt8) (i : Nat) : List UInt8 :=
  bitmap.set (i >>> 3) (bitmap.getD (i >>> 3) 0 ||| flagMask i)

def flagOn (bitmap : List UInt8) (i : Nat) : Bool :=
  bitmap.getD (i >>> 3) 0 &&& flagMask i ≠ 0

variable {bitmap : List UInt8} {i j n k : Nat}

theorem length_setFlag : (setFlag bitmap i).length = bitmap.length := List.length_set ..

theorem toNat_flagMask (i : Nat) : (flagMask i).toNat = 2 ^ (i % 8) := by
  have hlt : i % 8 < 8 := Nat.mod_lt _ (by decide)
  have hand : i &&& 7 = i % 8 := Nat.and_two_pow_sub_one_eq_mod i 3
  have hpow : 2 ^ (i % 8) < 2 ^ 8 := Nat.pow_lt_pow_right (by decide) hlt
  have hshift : (UInt8.ofNat (i % 8)).toNat % 8 = i % 8 := by
    rw [UInt8.toNat_ofNat']
    omega
  have hone : (1 : UInt8).toNat = 1 := rfl
  rw [flagMask, hand, UInt8.toNat_shiftLeft, hshift, hone, Nat.shiftLeft_eq, Nat.one_mul,
    Nat.mod_eq_of_lt hpow]

theorem flagOn_eq : flagOn bitmap i = (bitmap.getD (i / 8) 0).toNat.testBit (i % 8) := by
  have hshift : i >>> 3 = i / 8 := Nat.shiftRight_eq_div_pow i 3
  rw [flagOn, hshift, Bool.eq_iff_iff, decide_eq_true_eq, ne_eq, ← UInt8.toNat_inj,
    UInt8.toNat_and, toNat_flagMask, Nat.and_two_pow, UInt8.toNat_zero]
  have hpos : 0 < 2 ^ (i % 8) := Nat.pow_pos (by decide)
  cases Nat.testBit (bitmap.getD (i / 8) 0).toNat (i % 8) with
  | true => simp
  | false => simp

theorem flagOn_setFlag (h : i / 8 < bitmap.length) :
    flagOn (setFlag bitmap i) j = (decide (j = i) || flagOn bitmap j) := by
  have hshift : i >>> 3 = i / 8 := Nat.shiftRight_eq_div_pow i 3
  rw [flagOn_eq, flagOn_eq, setFlag, hshift, List.getD_eq_getElem?_getD, List.getElem?_set]
  by_cases hbyte : i / 8 = j / 8
  · rw [if_pos hbyte, if_pos h, Option.getD_some, hbyte, UInt8.toNat_or, Nat.testBit_or,
      toNat_flagMask, Nat.testBit_two_pow, Bool.or_comm]
    have hiff : i % 8 = j % 8 ↔ j = i := by omega
    simp only [hiff]
  · have hne : j ≠ i := fun hji => hbyte (by rw [hji])
    rw [if_neg hbyte, ← List.getD_eq_getElem?_getD, decide_eq_false hne, Bool.false_or]

theorem flagOn_replicate : flagOn (List.replicate n 0) i = false := by
  have hzero : (List.replicate n (0 : UInt8)).getD (i / 8) 0 = 0 := by
    rw [List.getD_eq_getElem?_getD, List.getElem?_replicate]
    split <;> rfl
  rw [flagOn_eq, hzero]
  exact Nat.zero_testBit _

/-! ## The flags a loop has still to meet -/

/-- The number of flags that are on from `i` up to `n`. -/
def flagsFrom (bitmap : List UInt8) (n i : Nat) : Nat :=
  (List.range' i (n - i)).countP fun j => flagOn bitmap j

theorem flagsFrom_succ (h : i < n) :
    flagsFrom bitmap n i = flagsFrom bitmap n (i + 1) + if flagOn bitmap i then 1 else 0 := by
  have hlen : n - i = (n - (i + 1)) + 1 := by omega
  rw [flagsFrom, hlen, List.range'_succ, List.countP_cons, flagsFrom]

theorem flagsFrom_pos (hij : i ≤ j) (hjn : j < n) (h : flagOn bitmap j = true) :
    0 < flagsFrom bitmap n i := by
  rw [flagsFrom, List.countP_pos_iff]
  exact ⟨j, List.mem_range'_1.mpr ⟨hij, by omega⟩, h⟩

theorem flagsFrom_setFlag_le (h : j / 8 < bitmap.length) :
    flagsFrom (setFlag bitmap j) n i ≤ flagsFrom bitmap n i + 1 := by
  have hsplit : ∀ l : List Nat, l.countP (fun x => flagOn (setFlag bitmap j) x) ≤
      l.countP (fun x => flagOn bitmap x) + l.count j := by
    intro l
    induction l with
    | nil => exact Nat.le_refl _
    | cons x l ih =>
        rw [List.countP_cons, List.countP_cons, List.count_cons, flagOn_setFlag h]
        by_cases hx : x = j
        · subst hx
          simp only [decide_true, Bool.true_or, if_true, BEq.rfl]
          omega
        · simp only [decide_eq_false hx, Bool.false_or]
          omega
  have hone : (List.range' i (n - i)).count j ≤ 1 :=
    List.nodup_iff_count_le_one.mp List.nodup_range' j
  have hle := hsplit (List.range' i (n - i))
  rw [flagsFrom, flagsFrom]
  omega

theorem flagsFrom_replicate {m : Nat} : flagsFrom (List.replicate m 0) n i = 0 := by
  rw [flagsFrom, List.countP_eq_zero]
  intro j _
  rw [flagOn_replicate]
  exact Bool.false_ne_true

end Winspd.Lib
