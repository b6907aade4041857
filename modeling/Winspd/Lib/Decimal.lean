import Mathlib.Data.Int.ModEq
import Mathlib.Data.List.Basic

/-!
# Decimal numbers in text

A reader of decimal text goes on for as long as there are digits and adds each
to ten times what it has. `leadingValue` is the number it has when it stops.
What the digits of a number read as, with anything but a digit behind them, is
the number (`leadingValue_toDigits`).
-/

namespace Winspd.Lib

/-- The character codes of `0` to `9`. -/
def IsDigit (c : Nat) : Prop := 0x30 ≤ c ∧ c ≤ 0x39

instance : DecidablePred IsDigit := fun _ => inferInstanceAs (Decidable (_ ∧ _))

/-- What the digits at the front of a text add to a number in front of them. -/
def leadingValue : Nat → List Nat → Nat
  | v, [] => v
  | v, c :: cs => if IsDigit c then leadingValue (10 * v + (c - 0x30)) cs else v

variable {v n : Nat} {c : Nat} {cs rest : List Nat}

@[simp] theorem leadingValue_nil : leadingValue v [] = v := rfl

theorem leadingValue_digit (h : IsDigit c) :
    leadingValue v (c :: cs) = leadingValue (10 * v + (c - 0x30)) cs := by
  rw [leadingValue, if_pos h]

theorem leadingValue_stop (h : ∀ c, rest.head? = some c → ¬ IsDigit c) :
    leadingValue v rest = v := by
  cases rest with
  | nil => rfl
  | cons c cs => rw [leadingValue, if_neg (h c rfl)]

theorem leadingValue_append (h : ∀ c ∈ cs, IsDigit c) :
    leadingValue v (cs ++ rest) = leadingValue (leadingValue v cs) rest := by
  induction cs generalizing v with
  | nil => rfl
  | cons c cs ih =>
      have hc : IsDigit c := h c (by simp)
      rw [List.cons_append, leadingValue_digit hc, leadingValue_digit hc]
      exact ih fun c' hc' => h c' (by simp [hc'])

/-- A reader that computes modulo a number has the number modulo that. -/
theorem leadingValue_modEq {m v' : Nat} (h : v ≡ v' [MOD m]) :
    leadingValue v cs ≡ leadingValue v' cs [MOD m] := by
  induction cs generalizing v v' with
  | nil => exact h
  | cons c cs ih =>
      by_cases hc : IsDigit c
      · rw [leadingValue_digit hc, leadingValue_digit hc]
        exact ih ((h.mul_left 10).add_right _)
      · rw [leadingValue, if_neg hc, leadingValue, if_neg hc]
        exact h

theorem isDigit_toNat {d : Char} (h : d.isDigit) : IsDigit d.toNat := by
  have hd := h
  simp only [Char.isDigit, Bool.and_eq_true, decide_eq_true_eq, ge_iff_le] at hd
  exact ⟨UInt32.le_iff_toNat_le.mp hd.1, UInt32.le_iff_toNat_le.mp hd.2⟩

theorem leadingValue_ofDigitChars {ds : List Char} (h : ∀ d ∈ ds, d.isDigit) :
    leadingValue v (ds.map Char.toNat) = Nat.ofDigitChars 10 ds v := by
  induction ds generalizing v with
  | nil => simp
  | cons d ds ih =>
      have hd : IsDigit d.toNat := isDigit_toNat (h d (by simp))
      rw [List.map_cons, leadingValue_digit hd, ih fun d' hd' => h d' (by simp [hd'])]
      rfl

theorem isDigit_of_mem_toDigits (h : c ∈ (Nat.toDigits 10 n).map Char.toNat) : IsDigit c := by
  rw [List.mem_map] at h
  obtain ⟨d, hd, rfl⟩ := h
  exact isDigit_toNat (Nat.isDigit_of_mem_toDigits (by decide) (by decide) hd)

theorem leadingValue_toDigits (h : ∀ c, rest.head? = some c → ¬ IsDigit c) :
    leadingValue 0 ((Nat.toDigits 10 n).map Char.toNat ++ rest) = n := by
  rw [leadingValue_append fun c hc => isDigit_of_mem_toDigits hc, leadingValue_stop h,
    leadingValue_ofDigitChars fun d hd => Nat.isDigit_of_mem_toDigits (by decide) (by decide) hd,
    Nat.ofDigitChars_ten_toDigits]

theorem head_toDigits_ne_zero (h : n ≠ 0) : (Nat.toDigits 10 n).head? ≠ some '0' := by
  induction n using Nat.strongRecOn with
  | ind n ih =>
      rcases Nat.lt_or_ge n 10 with hlt | hge
      · rw [Nat.toDigits_of_lt_base hlt]
        have hdigit : ∀ n < 10, n ≠ 0 → [n.digitChar].head? ≠ some '0' := by decide
        exact hdigit n hlt h
      · rw [Nat.toDigits_of_base_le (by decide) hge,
          List.head?_append_of_ne_nil _ Nat.toDigits_ne_nil]
        exact ih (n / 10) (by omega) (by omega)

end Winspd.Lib
