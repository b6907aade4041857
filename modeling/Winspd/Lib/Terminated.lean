import Mathlib.Data.List.GetD

/-!
# Memory, and what a terminator ends in it

A memory has an entry at every address; what is kept inside a range is a fact
about addresses. `HoldsAt` says that a list is stored from an address on.

`scanTo` looks for a terminator, one entry after the other, and stops in front
of a bound. It says which entries it has read. Where it stops before the bound,
it stands on a terminator, and what is in front is what a list that was stored
with a terminator was (`scanTo_terminated`).
-/

namespace Winspd.Lib

variable {α : Type*}

/-- The memory holds the list from `p` on. -/
def HoldsAt (mem : Nat → α) : Nat → List α → Prop
  | _, [] => True
  | p, x :: xs => mem p = x ∧ HoldsAt mem (p + 1) xs

/-- The list is stored from `p` on. -/
def store (mem : Nat → α) (p : Nat) (xs : List α) (i : Nat) : α :=
  if p ≤ i then xs.getD (i - p) (mem i) else mem i

section Memory

variable {mem mem' : Nat → α} {p : Nat} {xs ys : List α}

theorem holdsAt_append :
    HoldsAt mem p (xs ++ ys) ↔ HoldsAt mem p xs ∧ HoldsAt mem (p + xs.length) ys := by
  induction xs generalizing p with
  | nil => simp [HoldsAt]
  | cons x xs ih =>
      have hlen : p + (x :: xs).length = p + 1 + xs.length := by
        rw [List.length_cons]
        omega
      rw [List.cons_append, HoldsAt, HoldsAt, ih, hlen, and_assoc]

theorem HoldsAt.congr (h : HoldsAt mem p xs)
    (hmem : ∀ i, p ≤ i → i < p + xs.length → mem' i = mem i) : HoldsAt mem' p xs := by
  induction xs generalizing p with
  | nil => trivial
  | cons x xs ih =>
      simp only [List.length_cons] at hmem
      refine ⟨?_, ih h.2 fun i hle hlt => hmem i (by omega) (by omega)⟩
      rw [hmem p (Nat.le_refl p) (by omega)]
      exact h.1

theorem HoldsAt.map_range (h : HoldsAt mem p xs) :
    ((List.range xs.length).map fun i => mem (p + i)) = xs := by
  induction xs generalizing p with
  | nil => rfl
  | cons x xs ih =>
      have htail : ∀ i, mem (p + (i + 1)) = mem (p + 1 + i) := by
        intro i
        rw [Nat.add_assoc, Nat.add_comm 1 i]
      rw [List.length_cons, List.range_succ_eq_map, List.map_cons, List.map_map]
      simp only [Function.comp_def, Nat.succ_eq_add_one, htail]
      rw [ih h.2, Nat.add_zero, h.1]

theorem store_of_le {i : Nat} (h : p + xs.length ≤ i) : store mem p xs i = mem i := by
  unfold store
  split
  · exact List.getD_eq_default _ _ (by omega)
  · rfl

theorem holdsAt_store : HoldsAt (store mem p xs) p xs := by
  induction xs generalizing p with
  | nil => trivial
  | cons x xs ih =>
      have htail : ∀ i, p + 1 ≤ i → store mem p (x :: xs) i = store mem (p + 1) xs i := by
        intro i hi
        rw [store, store, if_pos (by omega), if_pos hi, show i - p = i - (p + 1) + 1 by omega,
          List.getD_cons_succ]
      refine ⟨?_, ih.congr fun i hle _ => htail i hle⟩
      rw [store, if_pos (Nat.le_refl p), Nat.sub_self, List.getD_cons_zero]

end Memory

/-! ## The scan -/

variable [DecidableEq α]

/-- The entries from `p` on that are in front of a terminator, of at most `n`,
and the addresses that are read to find them. -/
def scanTo (sep : α) (mem : Nat → α) : Nat → Nat → List α × List Nat
  | 0, _ => ([], [])
  | n + 1, p =>
      if mem p = sep then ([], [p])
      else
        let rest := scanTo sep mem n (p + 1)
        (mem p :: rest.1, p :: rest.2)

variable {sep : α} {mem : Nat → α} {n p : Nat} {xs : List α}

theorem sep_not_mem_scanTo : sep ∉ (scanTo sep mem n p).1 := by
  induction n generalizing p with
  | zero => exact List.not_mem_nil
  | succ n ih =>
      rw [scanTo]
      split
      · exact List.not_mem_nil
      · next hp =>
          rw [List.mem_cons, not_or]
          exact ⟨Ne.symm hp, ih⟩

theorem length_scanTo : (scanTo sep mem n p).1.length ≤ n := by
  induction n generalizing p with
  | zero => exact Nat.le_refl 0
  | succ n ih =>
      rw [scanTo]
      split
      · exact Nat.zero_le _
      · exact Nat.succ_le_succ ih

theorem mem_reads_scanTo {i : Nat} (h : i ∈ (scanTo sep mem n p).2) : i < p + n := by
  induction n generalizing p with
  | zero => cases h
  | succ n ih =>
      rw [scanTo] at h
      split at h
      · have hi : i = p := List.mem_singleton.mp h
        omega
      · rcases List.mem_cons.mp h with hi | hi
        · omega
        · have hlt := ih hi
          omega

/-- The terminator that ends the scan is behind what is in front of it. -/
theorem holdsAt_scanTo (h : (scanTo sep mem n p).1.length < n) :
    HoldsAt mem p ((scanTo sep mem n p).1 ++ [sep]) := by
  induction n generalizing p with
  | zero => cases h
  | succ n ih =>
      rw [scanTo] at h ⊢
      split
      · next hp => exact ⟨hp, trivial⟩
      · next hp =>
          rw [if_neg hp] at h
          exact ⟨rfl, ih (Nat.lt_of_succ_lt_succ h)⟩

theorem scanTo_terminated (h : HoldsAt mem p (xs ++ [sep])) (hxs : sep ∉ xs)
    (hlt : xs.length < n) : (scanTo sep mem n p).1 = xs := by
  induction xs generalizing n p with
  | nil =>
      cases n with
      | zero => cases hlt
      | succ n => rw [scanTo, if_pos h.1]
  | cons x xs ih =>
      cases n with
      | zero => cases hlt
      | succ n =>
          rw [List.mem_cons, not_or] at hxs
          obtain ⟨hx, hxs⟩ := hxs
          have hp : mem p = x := h.1
          rw [scanTo, if_neg (by rw [hp]; exact Ne.symm hx), hp]
          exact congrArg (x :: ·) (ih h.2 hxs (Nat.lt_of_succ_lt_succ hlt))

end Winspd.Lib
