import Winspd.Lib.Decimal

/-!
# Numbers in text, in any base

The digits of a base go on to letters, which are digits in either case. Digits
are read from the left, and no digits are zero. A numeral of base 0 says its
base itself: `0x` or `0X` is in front of hexadecimal digits, `0` in front of
octal ones, and what begins with neither is decimal. A sign may be in front of a
numeral where signs are allowed.

The longest prefix of a text that is a numeral is what is read by going on as
long as there are digits, once the sign and the base are known
(`LongestUnsigned`, `LongestNumeral`).
-/

namespace Winspd.Lib

/-- What a digit or a letter is worth. -/
def digitOf (c : Nat) : Option Nat :=
  if 0x30 ≤ c ∧ c ≤ 0x39 then some (c - 0x30)
  else if 0x61 ≤ c ∧ c ≤ 0x7a then some (c - 0x61 + 10)
  else if 0x41 ≤ c ∧ c ≤ 0x5a then some (c - 0x41 + 10)
  else none

def digitIn (base c : Nat) : Option Nat := (digitOf c).filter (· < base)

/-- The number that digits are, with a number in front of them. -/
def digitsFrom (base : Nat) : Nat → List Nat → Option Nat
  | v, [] => some v
  | v, c :: cs => (digitIn base c).bind fun d => digitsFrom base (base * v + d) cs

inductive Unsigned : Nat → List Nat → Nat → Prop
  | based {base n : Nat} {cs : List Nat} (hbase : base ≠ 0) (h : digitsFrom base 0 cs = some n) :
      Unsigned base cs n
  | hexadecimal {x n : Nat} {cs : List Nat} (hx : x = 0x78 ∨ x = 0x58)
      (h : digitsFrom 16 0 cs = some n) : Unsigned 0 (0x30 :: x :: cs) n
  | octal {n : Nat} {cs : List Nat} (h : digitsFrom 8 0 cs = some n) : Unsigned 0 (0x30 :: cs) n
  | decimal {n : Nat} {cs : List Nat} (hzero : cs.head? ≠ some 0x30)
      (h : digitsFrom 10 0 cs = some n) : Unsigned 0 cs n

inductive Numeral (isSigned : Bool) (base : Nat) : List Nat → Int → Prop
  | plain {n : Nat} {cs : List Nat} (h : Unsigned base cs n) : Numeral isSigned base cs n
  | plus {n : Nat} {cs : List Nat} (hsigned : isSigned = true) (h : Unsigned base cs n) :
      Numeral isSigned base (0x2b :: cs) n
  | minus {n : Nat} {cs : List Nat} (hsigned : isSigned = true) (h : Unsigned base cs n) :
      Numeral isSigned base (0x2d :: cs) (-n)

/-- `cs` is a numeral, and no longer prefix of the text is one. -/
structure LongestUnsigned (base : Nat) (text cs rest : List Nat) (n : Nat) : Prop where
  split : text = cs ++ rest
  numeral : Unsigned base cs n
  longest : ∀ cs' rest' n', text = cs' ++ rest' → Unsigned base cs' n' →
    cs'.length ≤ cs.length

structure LongestNumeral (isSigned : Bool) (base : Nat) (text cs rest : List Nat) (v : Int) :
    Prop where
  split : text = cs ++ rest
  numeral : Numeral isSigned base cs v
  longest : ∀ cs' rest' v', text = cs' ++ rest' → Numeral isSigned base cs' v' →
    cs'.length ≤ cs.length

variable {base v n c : Nat} {cs rest : List Nat} {isSigned : Bool}

/-! ## Digits -/

theorem digitsFrom_cons : digitsFrom base v (c :: cs) =
    (digitIn base c).bind fun d => digitsFrom base (base * v + d) cs := rfl

/-- Decimal digits, which `Lib.Decimal` reads one by one, too. -/
theorem digitsFrom_decimal (h : ∀ c ∈ cs, IsDigit c) :
    digitsFrom 10 v cs = some (leadingValue v cs) := by
  induction cs generalizing v with
  | nil => rfl
  | cons c cs ih =>
      have hc : IsDigit c := h c (by simp)
      have hvalue : digitOf c = some (c - 0x30) := if_pos hc
      have hdigit : digitIn 10 c = some (c - 0x30) := by
        have hlt : c - 0x30 < 10 := by
          have hle := hc.2
          omega
        rw [digitIn, hvalue, Option.filter_some_pos (by simpa using hlt)]
      rw [digitsFrom_cons, hdigit, leadingValue_digit hc]
      exact ih fun c' hc' => h c' (by simp [hc'])

theorem digitsFrom_toDigits : digitsFrom 10 0 ((Nat.toDigits 10 n).map Char.toNat) = some n := by
  have hvalue : leadingValue 0 ((Nat.toDigits 10 n).map Char.toNat ++ []) = n :=
    leadingValue_toDigits (by simp)
  rw [List.append_nil] at hvalue
  rw [digitsFrom_decimal fun c hc => isDigit_of_mem_toDigits hc, hvalue]

/-- A longer prefix would have what stops the reader among its digits. -/
theorem length_digits_le {cs' rest' : List Nat} {v' n' : Nat}
    (hstop : ∀ c, rest.head? = some c → digitIn base c = none)
    (h' : digitsFrom base v' cs' = some n') (hsplit : cs ++ rest = cs' ++ rest') :
    cs'.length ≤ cs.length := by
  induction cs generalizing cs' v' with
  | nil =>
      cases cs' with
      | nil => exact Nat.le_refl _
      | cons c cs' =>
          have hnone : digitIn base c = none := hstop c (by
            rw [List.nil_append] at hsplit
            rw [hsplit]
            rfl)
          rw [digitsFrom_cons, hnone] at h'
          cases h'
  | cons c cs ih =>
      cases cs' with
      | nil => exact Nat.zero_le _
      | cons c' cs' =>
          obtain ⟨d, -, htail⟩ := Option.bind_eq_some_iff.mp h'
          rw [List.cons_append, List.cons_append] at hsplit
          exact Nat.succ_le_succ (ih htail (List.cons.inj hsplit).2)

/-! ## The base -/

theorem LongestUnsigned.based (hbase : base ≠ 0) (h : digitsFrom base 0 cs = some n)
    (hstop : ∀ c, rest.head? = some c → digitIn base c = none) :
    LongestUnsigned base (cs ++ rest) cs rest n := by
  refine ⟨rfl, .based hbase h, fun cs' rest' n' hsplit h' => ?_⟩
  cases h' with
  | based _ h' => exact length_digits_le hstop h' hsplit
  | hexadecimal => exact absurd rfl hbase
  | octal => exact absurd rfl hbase
  | decimal => exact absurd rfl hbase

/-- Only what begins with another character than `0` can be decimal. -/
theorem length_decimal {cs' rest' text : List Nat} (hzero : cs'.head? ≠ some 0x30)
    (hsplit : 0x30 :: text = cs' ++ rest') : cs'.length = 0 := by
  cases cs' with
  | nil => rfl
  | cons c cs' =>
      rw [List.cons_append] at hsplit
      exact absurd (congrArg some (List.cons.inj hsplit).1.symm) hzero

theorem digitIn_hexadecimal {x : Nat} (hx : x = 0x78 ∨ x = 0x58) : digitIn 8 x = none := by
  rcases hx with rfl | rfl <;> rfl

theorem LongestUnsigned.hexadecimal {x : Nat} (hx : x = 0x78 ∨ x = 0x58)
    (h : digitsFrom 16 0 cs = some n) (hstop : ∀ c, rest.head? = some c → digitIn 16 c = none) :
    LongestUnsigned 0 (0x30 :: x :: (cs ++ rest)) (0x30 :: x :: cs) rest n := by
  refine ⟨rfl, .hexadecimal hx h, fun cs' rest' n' hsplit h' => ?_⟩
  cases h' with
  | based hbase _ => exact absurd rfl hbase
  | hexadecimal _ h' =>
      simp only [List.cons_append, List.cons.injEq] at hsplit
      have hle := length_digits_le hstop h' hsplit.2.2
      simp only [List.length_cons]
      omega
  | @octal _ cs' h' =>
      -- the `x` is no octal digit
      have hstop' : ∀ c, (x :: (cs ++ rest)).head? = some c → digitIn 8 c = none := by
        intro c hc
        cases hc
        exact digitIn_hexadecimal hx
      rw [List.cons_append] at hsplit
      have hle := length_digits_le hstop' h' ((List.nil_append _).trans (List.cons.inj hsplit).2)
      rw [List.length_nil] at hle
      simp only [List.length_cons]
      omega
  | decimal hzero _ =>
      rw [length_decimal hzero hsplit]
      exact Nat.zero_le _

theorem LongestUnsigned.octal
    (hx : ∀ x, (cs ++ rest).head? = some x → ¬ (x = 0x78 ∨ x = 0x58))
    (h : digitsFrom 8 0 cs = some n) (hstop : ∀ c, rest.head? = some c → digitIn 8 c = none) :
    LongestUnsigned 0 (0x30 :: (cs ++ rest)) (0x30 :: cs) rest n := by
  refine ⟨rfl, .octal h, fun cs' rest' n' hsplit h' => ?_⟩
  cases h' with
  | based hbase _ => exact absurd rfl hbase
  | hexadecimal hx' _ =>
      rw [List.cons_append, List.cons_append] at hsplit
      refine absurd hx' (hx _ ?_)
      rw [(List.cons.inj hsplit).2]
      rfl
  | octal h' =>
      rw [List.cons_append] at hsplit
      exact Nat.succ_le_succ (length_digits_le hstop h' (List.cons.inj hsplit).2)
  | decimal hzero _ =>
      rw [length_decimal hzero hsplit]
      exact Nat.zero_le _

theorem LongestUnsigned.decimal (hzero : (cs ++ rest).head? ≠ some 0x30)
    (h : digitsFrom 10 0 cs = some n) (hstop : ∀ c, rest.head? = some c → digitIn 10 c = none) :
    LongestUnsigned 0 (cs ++ rest) cs rest n := by
  have hhead : cs.head? ≠ some 0x30 := by
    intro hcs
    rw [List.head?_append, hcs] at hzero
    exact hzero rfl
  refine ⟨rfl, .decimal hhead h, fun cs' rest' n' hsplit h' => ?_⟩
  cases h' with
  | based hbase _ => exact absurd rfl hbase
  | hexadecimal => exact absurd (by rw [hsplit]; rfl) hzero
  | octal => exact absurd (by rw [hsplit]; rfl) hzero
  | decimal _ h' => exact length_digits_le hstop h' hsplit

/-! ## The sign -/

/-- A numeral with no sign in front does not begin with a sign. -/
theorem Unsigned.head_ne_sign (h : Unsigned base (c :: cs) n) : c ≠ 0x2b ∧ c ≠ 0x2d := by
  have hdigits : ∀ {b m}, digitsFrom b 0 (c :: cs) = some m → c ≠ 0x2b ∧ c ≠ 0x2d := by
    intro b m hd
    constructor
    · rintro rfl
      cases hd
    · rintro rfl
      cases hd
  cases h with
  | based _ h => exact hdigits h
  | hexadecimal => exact ⟨by decide, by decide⟩
  | octal => exact ⟨by decide, by decide⟩
  | decimal _ h => exact hdigits h

theorem LongestUnsigned.plain {text : List Nat} (h : LongestUnsigned base text cs rest n)
    (hsign : isSigned = true → text.head? ≠ some 0x2b ∧ text.head? ≠ some 0x2d) :
    LongestNumeral isSigned base text cs rest n := by
  refine ⟨h.split, .plain h.numeral, fun cs' rest' v' hsplit h' => ?_⟩
  cases h' with
  | plain h' => exact h.longest _ _ _ hsplit h'
  | plus hsigned _ => exact absurd (by rw [hsplit]; rfl) (hsign hsigned).1
  | minus hsigned _ => exact absurd (by rw [hsplit]; rfl) (hsign hsigned).2

theorem LongestUnsigned.length_le {text : List Nat} {sign : Nat}
    (h : LongestUnsigned base text cs rest n) (hsign : sign = 0x2b ∨ sign = 0x2d)
    {cs' rest' : List Nat} {v' : Int} (hsplit : sign :: text = cs' ++ rest')
    (h' : Numeral isSigned base cs' v') : cs'.length ≤ cs.length + 1 := by
  cases h' with
  | plain h' =>
      cases cs' with
      | nil => exact Nat.zero_le _
      | cons c cs' =>
          rw [List.cons_append] at hsplit
          have hne := h'.head_ne_sign
          rw [← (List.cons.inj hsplit).1] at hne
          rcases hsign with hsign | hsign
          · exact absurd hsign hne.1
          · exact absurd hsign hne.2
  | plus _ h' =>
      rw [List.cons_append] at hsplit
      exact Nat.succ_le_succ (h.longest _ _ _ (List.cons.inj hsplit).2 h')
  | minus _ h' =>
      rw [List.cons_append] at hsplit
      exact Nat.succ_le_succ (h.longest _ _ _ (List.cons.inj hsplit).2 h')

theorem LongestUnsigned.plus {text : List Nat} (h : LongestUnsigned base text cs rest n) :
    LongestNumeral true base (0x2b :: text) (0x2b :: cs) rest n :=
  ⟨congrArg _ h.split, .plus rfl h.numeral, fun _ _ _ => h.length_le (.inl rfl)⟩

theorem LongestUnsigned.minus {text : List Nat} (h : LongestUnsigned base text cs rest n) :
    LongestNumeral true base (0x2d :: text) (0x2d :: cs) rest (-n) :=
  ⟨congrArg _ h.split, .minus rfl h.numeral, fun _ _ _ => h.length_le (.inr rfl)⟩

end Winspd.Lib
