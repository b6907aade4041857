import Mathlib.Data.Nat.Init
import Winspd.Lib.Bytes

/-!
# Master boot records, as they are read

A reader of a master boot record takes four entries of sixteen bytes behind the
first 446 bytes, and the signature that ends the record. An entry says where its
partition is twice: by the address of its first block and by the number of
blocks, and by the cylinder, head and sector of its first block and of its last
one.

A geometry is a number of heads and of sectors. Cylinders, heads and sectors
address every block (`Chs.toLba_ofLba`), but three bytes hold cylinders to 1023
only. A block on a later cylinder has the last address there is
(`Chs.ofLbaClamped`), which it shares with all blocks behind it and with one in
front of them.
-/

namespace Winspd.Lib

/-! ## Cylinders, heads and sectors -/

structure Chs where
  cylinder : Nat
  head : Nat
  sector : Nat
  deriving DecidableEq, Repr

namespace Chs

def ofLba (heads sectors lba : Nat) : Chs :=
  ⟨lba / (heads * sectors), lba / sectors % heads, lba % sectors + 1⟩

def toLba (heads sectors : Nat) (x : Chs) : Nat :=
  (x.cylinder * heads + x.head) * sectors + x.sector - 1

def last (heads sectors : Nat) : Chs := ⟨1023, heads - 1, sectors⟩

def ofLbaClamped (heads sectors lba : Nat) : Chs :=
  if 1023 < lba / (heads * sectors) then last heads sectors else ofLba heads sectors lba

/-- Three bytes: the head, the sector with the high bits of the cylinder, and the
low bits of the cylinder. -/
def unpack (bytes : List UInt8) : Chs :=
  ⟨(bytes.getD 1 0).toNat / 64 * 256 + (bytes.getD 2 0).toNat, (bytes.getD 0 0).toNat,
    (bytes.getD 1 0).toNat % 64⟩

variable {heads sectors lba lba' : Nat}

theorem toLba_ofLba : toLba heads sectors (ofLba heads sectors lba) = lba := by
  have hhead := Nat.div_add_mod (lba / sectors) heads
  have hsector := Nat.div_add_mod lba sectors
  rw [Nat.div_div_eq_div_mul, Nat.mul_comm sectors heads] at hhead
  rw [toLba, ofLba]
  dsimp only
  rw [Nat.mul_comm _ heads, hhead, Nat.mul_comm _ sectors]
  omega

theorem ofLba_inj : ofLba heads sectors lba = ofLba heads sectors lba' ↔ lba = lba' := by
  constructor
  · intro h
    have hback : toLba heads sectors (ofLba heads sectors lba) = lba := toLba_ofLba
    rw [← hback, h, toLba_ofLba]
  · rintro rfl
    rfl

theorem ofLba_toLba {x : Chs} (hhead : x.head < heads) (hpos : 0 < x.sector)
    (hsector : x.sector ≤ sectors) : ofLba heads sectors (toLba heads sectors x) = x := by
  have hsectors : 0 < sectors := by omega
  have hheads : 0 < heads := by omega
  have hlba : toLba heads sectors x =
      sectors * (heads * x.cylinder + x.head) + (x.sector - 1) := by
    rw [toLba, Nat.mul_comm sectors, Nat.mul_comm heads]
    omega
  have htrack : toLba heads sectors x / sectors = heads * x.cylinder + x.head := by
    rw [hlba, Nat.mul_add_div hsectors, Nat.div_eq_of_lt (by omega), Nat.add_zero]
  have hoffset : toLba heads sectors x % sectors = x.sector - 1 := by
    rw [hlba, Nat.mul_add_mod, Nat.mod_eq_of_lt (by omega)]
  rw [ofLba, Nat.mul_comm heads sectors, ← Nat.div_div_eq_div_mul, htrack, hoffset,
    Nat.mul_add_div hheads, Nat.mul_add_mod, Nat.div_eq_of_lt hhead, Nat.mod_eq_of_lt hhead,
    Nat.add_zero, Nat.sub_add_cancel hpos]

theorem ofLba_last (hheads : 0 < heads) (hsectors : 0 < sectors) :
    ofLba heads sectors (1024 * (heads * sectors) - 1) = last heads sectors := by
  have hlba : toLba heads sectors (last heads sectors) = 1024 * (heads * sectors) - 1 := by
    have htracks : 1023 * heads + (heads - 1) + 1 = 1024 * heads := by omega
    rw [toLba, last]
    dsimp only
    rw [← Nat.succ_mul, Nat.succ_eq_add_one, htracks, Nat.mul_assoc]
  rw [← hlba]
  exact ofLba_toLba (Nat.sub_lt hheads Nat.one_pos) hsectors (Nat.le_refl _)

/-- The block behind another one has its address where both are last. -/
theorem ofLbaClamped_succ (hheads : 0 < heads) (hsectors : 0 < sectors) :
    ofLbaClamped heads sectors (lba + 1) = ofLbaClamped heads sectors lba ↔
      1024 * (heads * sectors) ≤ lba + 1 := by
  have hcylinder : 0 < heads * sectors := Nat.mul_pos hheads hsectors
  have hlarge : ∀ n, 1023 < n / (heads * sectors) ↔ 1024 * (heads * sectors) ≤ n :=
    fun n => Nat.le_div_iff_mul_le hcylinder
  unfold ofLbaClamped
  by_cases hsucc : 1024 * (heads * sectors) ≤ lba + 1
  · rw [if_pos ((hlarge _).mpr hsucc)]
    by_cases hlba : 1024 * (heads * sectors) ≤ lba
    · rw [if_pos ((hlarge _).mpr hlba)]
      exact iff_of_true rfl hsucc
    · have heq : lba = 1024 * (heads * sectors) - 1 := by omega
      rw [if_neg (fun h => hlba ((hlarge _).mp h)), heq, ofLba_last hheads hsectors, ← heq]
      exact iff_of_true rfl hsucc
  · rw [if_neg (fun h => hsucc ((hlarge _).mp h)),
      if_neg (fun h => hsucc (Nat.le_succ_of_le ((hlarge _).mp h))), ofLba_inj]
    exact iff_of_false (by omega) hsucc

end Chs

/-! ## Entries -/

structure MbrEntry where
  active : UInt8
  first : Chs
  type : UInt8
  last : Chs
  blockAddress : Nat
  blockCount : Nat
  deriving DecidableEq, Repr

def mbrEntryBytes (mbr : List UInt8) (i : Nat) : List UInt8 := (mbr.drop (446 + 16 * i)).take 16

def mbrEntry (mbr : List UInt8) (i : Nat) : MbrEntry :=
  let entry := mbrEntryBytes mbr i
  { active := entry.getD 0 0
    first := .unpack ((entry.drop 1).take 3)
    type := entry.getD 4 0
    last := .unpack ((entry.drop 5).take 3)
    blockAddress := ofLe ((entry.drop 8).take 4)
    blockCount := ofLe ((entry.drop 12).take 4) }

theorem drop_take_flatMap {α : Type*} {f : α → List UInt8} {n i : Nat} {xs : List α} {x : α}
    (hlen : ∀ x ∈ xs, (f x).length = n) (hx : xs[i]? = some x) :
    ((xs.flatMap f).drop (n * i)).take n = f x := by
  induction xs generalizing i with
  | nil => cases hx
  | cons y xs ih =>
      obtain ⟨hy, hxs⟩ := List.forall_mem_cons.mp hlen
      rw [List.flatMap_cons]
      cases i with
      | zero =>
          rw [List.getElem?_cons_zero, Option.some.injEq] at hx
          rw [Nat.mul_zero, List.drop_zero, List.take_left' hy, hx]
      | succ i =>
          rw [Nat.mul_succ, Nat.add_comm, ← List.drop_drop, List.drop_left' hy]
          exact ih hxs (by rwa [List.getElem?_cons_succ] at hx)

end Winspd.Lib
