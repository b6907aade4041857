import Mathlib.Data.UInt
import Winspd.Lib.Numeral
import Winspd.Shared.Strings

/-!
# Numbers that are read

The loop of `strtoint` knows the digits of a base by two bounds and a bit that
makes letters lower case (`intDigit_eq`). It goes on for as long as there are
digits, so what it reads is the longest numeral in front (`unsigned_longest`),
and a NUL is no digit in any base, so it never reads behind one.
-/

namespace Winspd.Proofs

open Winspd.Lib Winspd.Shared

/-- A base that callers pass, but for 0. -/
def Radix (base : UInt32) : Prop := 2 ≤ base.toNat ∧ base.toNat ≤ 36

variable {base : UInt32} {tail : List UInt16}

/-! ## Digits -/

theorem digitOf_letter : ∀ n < 0x7b, ¬ (0x30 ≤ n ∧ n ≤ 0x39) →
    digitOf n =
      if 0x61 ≤ n ||| 0x20 ∧ n ||| 0x20 ≤ 0x7a then
        some ((n ||| 0x20) - 0x61 + 10)
      else none := by
  decide

theorem digitOf_eq_none {n : Nat} (h : 0x7b ≤ n) : digitOf n = none := by
  rw [digitOf, if_neg (by omega), if_neg (by omega), if_neg (by omega)]

/-- `maxdig`. -/
theorem toNat_maxdig (hbase : Radix base) :
    (if 10 < base then 0x39 else base - 1 + 0x30 : UInt32).toNat = min
    (base.toNat + 0x2f) 0x39 := by
  obtain ⟨hlo, hhi⟩ := hbase
  split
  · next h =>
      have h' : 10 < base.toNat := UInt32.lt_iff_toNat_lt.mp h
      rw [Nat.min_eq_right (by omega)]
      rfl
  · next h =>
      have h' : ¬ 10 < base.toNat := fun hlt => h (UInt32.lt_iff_toNat_lt.mpr hlt)
      have hone : (1 : UInt32) ≤ base := UInt32.le_iff_toNat_le.mpr (by
        show 1 ≤ base.toNat
        omega)
      have hsub := UInt32.toNat_sub_of_le _ _ hone
      rw [UInt32.toNat_add, hsub, show (1 : UInt32).toNat = 1 from rfl,
        show (0x30 : UInt32).toNat = 0x30 from rfl, Nat.min_eq_left (by omega)]
      omega

/-- `maxalp`. -/
theorem toNat_maxalp (hbase : Radix base) :
    (if 10 < base then base - 1 - 10 + 0x61 else 0 : UInt32).toNat =
      if 10 < base.toNat then base.toNat + 0x56 else 0 := by
  obtain ⟨hlo, hhi⟩ := hbase
  split
  · next h =>
      have h' : 10 < base.toNat := UInt32.lt_iff_toNat_lt.mp h
      have hone : (1 : UInt32) ≤ base := UInt32.le_iff_toNat_le.mpr (by
        show 1 ≤ base.toNat
        omega)
      have hsub : (base - 1).toNat = base.toNat - 1 := UInt32.toNat_sub_of_le _ _ hone
      have hten : (10 : UInt32) ≤ base - 1 := UInt32.le_iff_toNat_le.mpr (by
        rw [hsub]
        show 10 ≤ base.toNat - 1
        omega)
      have hsub' := UInt32.toNat_sub_of_le _ _ hten
      rw [UInt32.toNat_add, hsub', hsub, show (10 : UInt32).toNat = 10 from rfl,
        show (0x61 : UInt32).toNat = 0x61 from rfl, if_pos h']
      omega
  · next h =>
      have h' : ¬ 10 < base.toNat := fun hlt => h (UInt32.lt_iff_toNat_lt.mpr hlt)
      rw [if_neg h']
      rfl

theorem sub_eq_ofNat {c k : UInt32} (h : k.toNat ≤ c.toNat) :
    c - k = UInt32.ofNat (c.toNat - k.toNat) := by
  rw [← UInt32.toNat_sub_of_le _ _ (UInt32.le_iff_toNat_le.mpr h), UInt32.ofNat_toNat]

/-- The bounds and the bit trick of the loop tell the digits of the base. -/
theorem intDigit_eq (hbase : Radix base) (c : UInt16) :
    intDigit base c = (digitIn base.toNat c.toNat).map UInt32.ofNat := by
  have hdig := toNat_maxdig hbase
  have halp := toNat_maxalp hbase
  obtain ⟨hlo, hhi⟩ := hbase
  have hc : c.toUInt32.toNat = c.toNat := UInt16.toNat_toUInt32 c
  have hfold : (c.toUInt32 ||| 0x20).toNat = c.toNat ||| 0x20 := by
    rw [UInt32.toNat_or, hc]
    rfl
  unfold intDigit
  dsimp only
  simp only [UInt32.le_iff_toNat_le, hdig, halp, hc, hfold,
    show (0x30 : UInt32).toNat = 0x30 from rfl, show (0x61 : UInt32).toNat = 0x61 from rfl]
  by_cases hdigit : 0x30 ≤ c.toNat ∧ c.toNat ≤ 0x39
  · have hvalue : digitOf c.toNat = some (c.toNat - 0x30) := if_pos hdigit
    rw [digitIn, hvalue]
    by_cases hin : c.toNat - 0x30 < base.toNat
    · have hbound : 0x30 ≤ c.toNat ∧ c.toNat ≤ min (base.toNat + 0x2f) 0x39 :=
        ⟨hdigit.1, le_min (by omega) hdigit.2⟩
      have hsub : c.toUInt32 - 0x30 = UInt32.ofNat (c.toUInt32.toNat - 0x30) :=
        sub_eq_ofNat (hc.symm ▸ hdigit.1)
      rw [if_pos hbound, Option.filter_some_pos (by simpa using hin), Option.map_some, hsub, hc]
    · have hbound : ¬ (0x30 ≤ c.toNat ∧ c.toNat ≤ min (base.toNat + 0x2f) 0x39) := by omega
      have hsmall : ¬ 10 < base.toNat := by omega
      have hnone : ¬ (0x61 ≤ c.toNat ||| 0x20 ∧ c.toNat ||| 0x20 ≤ 0) := by omega
      rw [if_neg hbound, if_neg hsmall, if_neg hnone, Option.filter_some_neg (by simpa using hin),
        Option.map_none]
  · have hbound : ¬ (0x30 ≤ c.toNat ∧ c.toNat ≤ min (base.toNat + 0x2f) 0x39) :=
      fun h => hdigit ⟨h.1, h.2.trans (min_le_right _ _)⟩
    rw [if_neg hbound, digitIn]
    by_cases hletter : 0x61 ≤ c.toNat ||| 0x20 ∧ c.toNat ||| 0x20 ≤ 0x7a
    · have hlt : c.toNat < 0x7b := Nat.lt_succ_of_le (Nat.left_le_or.trans hletter.2)
      rw [digitOf_letter _ hlt hdigit, if_pos hletter]
      by_cases hin : (c.toNat ||| 0x20) - 0x61 + 10 < base.toNat
      · have hsub : (c.toUInt32 ||| 0x20) - 0x61 =
            UInt32.ofNat ((c.toUInt32 ||| 0x20).toNat - 0x61) :=
          sub_eq_ofNat (hfold.symm ▸ hletter.1)
        rw [if_pos (show 10 < base.toNat by omega), if_pos ⟨hletter.1, by omega⟩,
          Option.filter_some_pos (by simpa using hin), Option.map_some, hsub, hfold,
          UInt32.ofNat_add]
        rfl
      · rw [if_neg, Option.filter_some_neg (by simpa using hin), Option.map_none]
        split <;> omega
    · have hnone : digitOf c.toNat = none := by
        by_cases hlt : c.toNat < 0x7b
        · rw [digitOf_letter _ hlt hdigit, if_neg hletter]
        · exact digitOf_eq_none (by omega)
      rw [hnone, if_neg]
      · rfl
      · refine fun h => hletter ⟨h.1, h.2.trans ?_⟩
        split <;> omega

/-! ## Numerals -/

theorem toInt64_eq (x : UInt32) : x.toUInt64.toInt64 = Int64.ofNat x.toNat := by
  rw [← UInt64.ofNat_uInt32ToNat, UInt64.toInt64_ofNat']

theorem digitIn_lt {n c d : Nat} (h : digitIn n c = some d) : d < n :=
  of_decide_eq_true (Option.filter_eq_some_iff.mp h).2

theorem zero_not_digit {n : Nat} : digitIn n 0 = none := rfl

/-- The loop reads all digits there are. It stops at the NUL, if not before. -/
theorem intDigits_reads (hbase : Radix base) (s : List UInt16) (htail : headChar tail = 0)
    (v : Nat) :
    ∃ cs rest n, s = cs ++ rest ∧ digitsFrom base.toNat v (cs.map UInt16.toNat) = some n ∧
      (∀ c, (rest.map UInt16.toNat).head? = some c → digitIn base.toNat c = none) ∧
      intDigits base (Int64.ofNat v) (s ++ tail) = (Int64.ofNat n, rest ++ tail) := by
  induction s generalizing v with
  | nil =>
      refine ⟨[], [], v, rfl, rfl, fun c hc => (by cases hc), ?_⟩
      rw [List.nil_append]
      cases tail with
      | nil => rfl
      | cons c tail =>
          have hnul : c.toNat = 0 := congrArg UInt16.toNat htail
          rw [intDigits, intDigit_eq hbase, hnul, zero_not_digit, Option.map_none]
  | cons c s ih =>
      cases hdigit : digitIn base.toNat c.toNat with
      | none =>
          refine ⟨[], c :: s, v, rfl, rfl, fun c' hc' => ?_, ?_⟩
          · cases hc'
            exact hdigit
          · rw [List.cons_append, intDigits, intDigit_eq hbase, hdigit, Option.map_none]
      | some d =>
          obtain ⟨cs, rest, n, rfl, hdigits, hstop, hread⟩ := ih (base.toNat * v + d)
          refine ⟨c :: cs, rest, n, rfl, ?_, hstop, ?_⟩
          · rw [List.map_cons, digitsFrom_cons, hdigit]
            exact hdigits
          · have hlt : d < 2 ^ 32 := (digitIn_lt hdigit).trans base.toNat_lt
            have hstep : base.toUInt64.toInt64 * Int64.ofNat v + (UInt32.ofNat d).toUInt64.toInt64 =
                Int64.ofNat (base.toNat * v + d) := by
              rw [toInt64_eq, toInt64_eq, UInt32.toNat_ofNat_of_lt' hlt, Int64.ofNat_add,
                Int64.ofNat_mul]
            rw [List.cons_append, intDigits, intDigit_eq hbase, hdigit, Option.map_some]
            dsimp only
            rw [hstep, hread]

theorem intBase_of_ne {p : List UInt16} (h : base ≠ 0) : intBase base p = (base, p) := by
  unfold intBase
  rw [if_pos h]

theorem intBase_hexadecimal {x : UInt16} {p : List UInt16} (hx : x = 0x78 ∨ x = 0x58) :
    intBase 0 (0x30 :: x :: p) = (16, p) := by
  show (if x = 0x78 ∨ x = 0x58 then _ else _) = _
  rw [if_pos hx]
  rfl

theorem intBase_octal {p : List UInt16} (hx : ¬ (headChar p = 0x78 ∨ headChar p = 0x58)) :
    intBase 0 (0x30 :: p) = (8, p) := by
  show (if headChar p = 0x78 ∨ headChar p = 0x58 then _ else _) = _
  rw [if_neg hx]

theorem intBase_decimal {p : List UInt16} (h : headChar p ≠ 0x30) : intBase 0 p = (10, p) := by
  unfold intBase
  rw [if_neg (by decide)]
  split
  · exact absurd rfl h
  · rfl

theorem headChar_terminated {s : List UInt16} {c : UInt16} (htail : headChar tail = 0)
    (hc : c ≠ 0) :
    headChar (s ++ tail) = c ↔ s.head? = some c := by
  cases s with
  | nil => exact iff_of_false (fun h => hc (h.symm.trans htail)) (by simp)
  | cons d s => exact (Option.some_inj (a := d)).symm

theorem toNat_head {s : List UInt16} {c : UInt16} (h : s.head? ≠ some c) :
    (s.map UInt16.toNat).head? ≠ some c.toNat := by
  intro hs
  rw [List.head?_map, Option.map_eq_some_iff] at hs
  obtain ⟨c', hc', hcode⟩ := hs
  exact h (UInt16.toNat_inj.mp hcode ▸ hc')

theorem unsigned_longest (hbase : base = 0 ∨ Radix base) (s : List UInt16)
    (htail : headChar tail = 0) :
    ∃ cs rest n, s = cs ++ rest ∧
      LongestUnsigned base.toNat (s.map UInt16.toNat) (cs.map UInt16.toNat)
        (rest.map UInt16.toNat) n ∧
      intDigits (intBase base (s ++ tail)).1 0 (intBase base (s ++ tail)).2 =
        (Int64.ofNat n, rest ++ tail) := by
  rcases hbase with rfl | hbase
  · by_cases hzero : s.head? = some 0x30
    · obtain ⟨s, rfl⟩ := List.head?_eq_some_iff.mp hzero
      by_cases hprefix : s.head? = some 0x78 ∨ s.head? = some 0x58
      · obtain ⟨x, s, rfl, hx⟩ : ∃ x s', s = x :: s' ∧ (x = 0x78 ∨ x = 0x58) := by
          rcases hprefix with hx | hx
          · obtain ⟨s', hs⟩ := List.head?_eq_some_iff.mp hx
            exact ⟨_, s', hs, .inl rfl⟩
          · obtain ⟨s', hs⟩ := List.head?_eq_some_iff.mp hx
            exact ⟨_, s', hs, .inr rfl⟩
        obtain ⟨cs, rest, n, rfl, hdigits, hstop, hread⟩ :=
          intDigits_reads (show Radix 16 from ⟨by decide, by decide⟩) s htail 0
        refine ⟨0x30 :: x :: cs, rest, n, rfl, ?_, ?_⟩
        · have hx' : x.toNat = 0x78 ∨ x.toNat = 0x58 := hx.imp (congrArg _) (congrArg _)
          rw [List.map_cons, List.map_cons, List.map_append]
          exact .hexadecimal hx' hdigits hstop
        · rw [List.cons_append, List.cons_append, intBase_hexadecimal hx]
          exact hread
      · obtain ⟨cs, rest, n, rfl, hdigits, hstop, hread⟩ :=
          intDigits_reads (show Radix 8 from ⟨by decide, by decide⟩) s htail 0
        rw [not_or] at hprefix
        refine ⟨0x30 :: cs, rest, n, rfl, ?_, ?_⟩
        · rw [List.map_cons, List.map_append]
          refine .octal (fun x hhead => ?_) hdigits hstop
          rw [← List.map_append] at hhead
          rintro (rfl | rfl)
          · exact toNat_head hprefix.1 hhead
          · exact toNat_head hprefix.2 hhead
        · have hhead : ¬ (headChar (cs ++ rest ++ tail) = 0x78 ∨
              headChar (cs ++ rest ++ tail) = 0x58) := by
            rw [headChar_terminated htail (by decide),
              headChar_terminated htail (by decide), not_or]
            exact hprefix
          rw [List.cons_append, intBase_octal hhead]
          exact hread
    · obtain ⟨cs, rest, n, rfl, hdigits, hstop, hread⟩ :=
        intDigits_reads (show Radix 10 from ⟨by decide, by decide⟩) s htail 0
      refine ⟨cs, rest, n, rfl, ?_, ?_⟩
      · have hhead := toNat_head hzero
        rw [List.map_append] at hhead ⊢
        exact .decimal hhead hdigits hstop
      · have hhead : headChar (cs ++ rest ++ tail) ≠ 0x30 := by
          rw [Ne, headChar_terminated htail (by decide)]
          exact hzero
        rw [intBase_decimal hhead]
        exact hread
  · obtain ⟨cs, rest, n, rfl, hdigits, hstop, hread⟩ := intDigits_reads hbase s htail 0
    have hne : base ≠ 0 := by
      rintro rfl
      exact absurd hbase.1 (by decide)
    have hne' : base.toNat ≠ 0 := fun h => absurd hbase.1 (by omega)
    refine ⟨cs, rest, n, rfl, ?_, ?_⟩
    · rw [List.map_append]
      exact .based hne' hdigits hstop
    · rw [intBase_of_ne hne]
      exact hread

/-! ## Signs -/

theorem intSign_none {isSigned : Bool} {p : List UInt16}
    (h : isSigned = true → headChar p ≠ 0x2b ∧ headChar p ≠ 0x2d) :
      intSign isSigned p = (1, p) := by
  unfold intSign
  split
  · next p =>
      split
      · next hsigned => exact absurd rfl (h hsigned).1
      · rfl
  · next p =>
      split
      · next hsigned => exact absurd rfl (h hsigned).2
      · rfl
  · rfl

theorem wcstoint_sign {isSigned : Bool} {p q rest : List UInt16} {sign : Int64} {n : Nat}
    (hsign : intSign isSigned p = (sign, q))
    (hread : intDigits (intBase base q).1 0 (intBase base q).2 = (Int64.ofNat n, rest)) :
    wcstoint p base isSigned = (sign * Int64.ofNat n, rest) := by
  unfold wcstoint
  rw [hsign]
  dsimp only
  rw [hread]

theorem wcstoint_longest (hbase : base = 0 ∨ Radix base) (isSigned : Bool) (s : List UInt16)
    (htail : headChar tail = 0) :
    ∃ cs rest v, s = cs ++ rest ∧
      LongestNumeral isSigned base.toNat (s.map UInt16.toNat) (cs.map UInt16.toNat)
        (rest.map UInt16.toNat) v ∧
      wcstoint (s ++ tail) base isSigned = (Int64.ofInt v, rest ++ tail) := by
  by_cases hplus : isSigned = true ∧ s.head? = some 0x2b
  · obtain ⟨rfl, hhead⟩ := hplus
    obtain ⟨s, rfl⟩ := List.head?_eq_some_iff.mp hhead
    obtain ⟨cs, rest, n, rfl, hlongest, hread⟩ := unsigned_longest hbase s htail
    have hsign : intSign true (0x2b :: (cs ++ rest ++ tail)) = (1, cs ++ rest ++ tail) :=
      rfl
    refine ⟨0x2b :: cs, rest, n, rfl, hlongest.plus, ?_⟩
    rw [List.cons_append, wcstoint_sign hsign hread, Int64.one_mul, Int64.ofInt_eq_ofNat]
  · by_cases hminus : isSigned = true ∧ s.head? = some 0x2d
    · obtain ⟨rfl, hhead⟩ := hminus
      obtain ⟨s, rfl⟩ := List.head?_eq_some_iff.mp hhead
      obtain ⟨cs, rest, n, rfl, hlongest, hread⟩ := unsigned_longest hbase s htail
      have hsign : intSign true (0x2d :: (cs ++ rest ++ tail)) =
          (-1, cs ++ rest ++ tail) := rfl
      refine ⟨0x2d :: cs, rest, -n, rfl, hlongest.minus, ?_⟩
      rw [List.cons_append, wcstoint_sign hsign hread, ← Int64.neg_eq_neg_one_mul,
        Int64.neg_ofNat]
    · obtain ⟨cs, rest, n, hs, hlongest, hread⟩ := unsigned_longest hbase s htail
      have hnone : isSigned = true →
          headChar (s ++ tail) ≠ 0x2b ∧ headChar (s ++ tail) ≠ 0x2d := by
        intro hsigned
        rw [Ne, Ne, headChar_terminated htail (by decide), headChar_terminated htail (by decide)]
        exact ⟨fun h => hplus ⟨hsigned, h⟩, fun h => hminus ⟨hsigned, h⟩⟩
      have hhead : isSigned = true → (s.map UInt16.toNat).head? ≠ some 0x2b ∧
          (s.map UInt16.toNat).head? ≠ some 0x2d := by
        intro hsigned
        exact ⟨toNat_head fun h => hplus ⟨hsigned, h⟩,
          toNat_head fun h => hminus ⟨hsigned, h⟩⟩
      refine ⟨cs, rest, n, hs, hlongest.plain hhead, ?_⟩
      rw [wcstoint_sign (intSign_none hnone) hread, Int64.one_mul, Int64.ofInt_eq_ofNat]

/-! ## Every text -/

/-- `read` reads the longest numeral in front of a NUL, whatever is behind that, and
leaves `*endp` behind the numeral. `code` is what a character is as a
number. -/
def ParsesLongest {α : Type} [Zero α] (code : α → Nat)
    (read : List α → UInt32 → Bool → Int64 × List α) : Prop :=
  ∀ (base : UInt32) (isSigned : Bool) (s junk : List α), base = 0 ∨ Radix base →
    ∃ cs rest v, s = cs ++ rest ∧
      LongestNumeral isSigned base.toNat (s.map code) (cs.map code) (rest.map code) v ∧
      read (s ++ 0 :: junk) base isSigned = (Int64.ofInt v, rest ++ 0 :: junk)

theorem wcstoint_parses : ParsesLongest UInt16.toNat wcstoint :=
  fun _ isSigned s _ hbase => wcstoint_longest hbase isSigned s rfl

/-- The loop of `strtoint` is the same, and so is what it reads. -/
theorem strtoint_parses : ParsesLongest (fun c => (charWide c).toNat) strtoint := by
  intro base isSigned s junk hbase
  obtain ⟨cs', rest', v, hs, hlongest, hread⟩ :=
    wcstoint_longest hbase isSigned (s.map charWide)
      (show headChar (0 :: junk.map charWide) = 0 from rfl)
  obtain ⟨cs, rest, rfl, rfl, rfl⟩ := List.map_eq_append_iff.mp hs
  refine ⟨cs, rest, v, rfl, ?_, ?_⟩
  · simpa only [List.map_map, Function.comp_def] using hlongest
  · have hmap : (cs ++ rest ++ 0 :: junk).map charWide =
        (cs ++ rest).map charWide ++ 0 :: junk.map charWide := List.map_append
    have hend : (cs ++ rest ++ 0 :: junk).length -
        (rest.map charWide ++ 0 :: junk.map charWide).length = cs.length := by
      simp only [List.length_append, List.length_cons, List.length_map]
      omega
    have hdrop : (cs ++ rest ++ 0 :: junk).drop cs.length = rest ++ 0 :: junk := by
      rw [List.append_assoc, List.drop_left]
    unfold strtoint
    rw [hmap, hread]
    dsimp only
    rw [hend, hdrop]

end Winspd.Proofs
