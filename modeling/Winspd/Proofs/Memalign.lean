import Winspd.Shared.Memalign

/-!
# Aligned blocks

The block that is taken from the heap has room for the bytes and for whatever
alignment can add. The address of the block is saved in front of the bytes, and
the room for it is what alignment has added: at least a pointer, since addresses
from the heap are multiples of the size of a pointer, but nothing when the
block is aligned as it is.

That is the only thing that can go wrong. `spdIoctlMemAlignAlloc_inside` is the
equivalence.
-/

namespace Winspd.Proofs

open Winspd.Lib Winspd.Shared

variable {platform : Platform} {memAlloc : UInt32 → platform.UintPtr} {mem : Nat → UInt8}
  {size alignmentMask : UInt32} {p pp : platform.UintPtr} {k : Nat}

/-- What the heap says of a block: it is aligned for pointers, and the address
behind it is one. -/
structure HeapBlock (p : platform.UintPtr) (length : Nat) : Prop where
  notNull : p ≠ 0
  aligned : platform.sizeofPvoid ∣ p.toNat
  inside : p.toNat + length < 2 ^ (8 * platform.sizeofPvoid)

/-- The block at `p` is used as it should: `*PP` is aligned, the bytes and what is
in front of them are inside, and `p` is freed, whatever is written to the bytes. -/
structure AlignedInside (p : platform.UintPtr) (length size alignment : Nat)
    (r : MemAligned platform) : Prop where
  aligned : alignment ∣ r.pp.toNat
  data : p.toNat ≤ r.pp.toNat ∧ r.pp.toNat + size ≤ p.toNat + length
  saved : p.toNat ≤ (savedAt r.pp).toNat ∧
    (savedAt r.pp).toNat + platform.sizeofPvoid ≤ p.toNat + length
  frees : ∀ mem', (∀ i, ¬ (r.pp.toNat ≤ i ∧ i < r.pp.toNat + size) →
    mem' i = r.memory i) →
    spdIoctlMemAlignFree mem' r.pp = some p

/-! ## The mask -/

theorem sizeofPvoid_pos (platform : Platform) :
    0 < platform.sizeofPvoid := by cases platform <;> decide

theorem two_pow_dvd_addresses (platform : Platform) (hk : k ≤ 32) :
    2 ^ k ∣ 2 ^ (8 * platform.sizeofPvoid) := by
  apply Nat.pow_dvd_pow
  cases platform <;> simp only [Platform.sizeofPvoid] <;> omega

/-- The mask that is used is that of an alignment for pointers. It is the one that
was asked for, or that of pointers. -/
theorem memAlignMask_spec (platform : Platform) (hmask : alignmentMask.toNat = 2 ^ k - 1) :
    ∃ j ≤ 32, (memAlignMask platform alignmentMask).toNat = 2 ^ j - 1 ∧
      platform.sizeofPvoid ∣ 2 ^ j ∧
      (memAlignMask platform alignmentMask = alignmentMask ∨ 2 ^ j = platform.sizeofPvoid) := by
  have hlt := alignmentMask.toNat_lt
  have hpos : 0 < 2 ^ k := Nat.two_pow_pos k
  unfold memAlignMask
  split
  · cases platform with
    | win32 => exact ⟨2, by decide, by decide, by decide, .inr (by decide)⟩
    | x64 => exact ⟨3, by decide, by decide, by decide, .inr (by decide)⟩
  · next hlarge =>
      have hk : k ≤ 32 := (Nat.pow_le_pow_iff_right (by decide)).mp (by omega : 2 ^ k ≤ 2 ^ 32)
      refine ⟨k, hk, hmask, ?_, .inl rfl⟩
      have hsum : (alignmentMask + 1).toNat = 2 ^ k % 2 ^ 32 := by
        rw [UInt32.toNat_add, UInt32.toNat_one]
        omega
      have hle : platform.sizeofPvoid ≤ 2 ^ k := by
        rw [hsum] at hlarge
        have hmod := Nat.mod_le (2 ^ k) (2 ^ 32)
        omega
      cases platform with
      | win32 =>
          exact Nat.pow_dvd_pow 2 ((Nat.pow_le_pow_iff_right Nat.one_lt_two).mp hle : 2 ≤ k)
      | x64 => exact Nat.pow_dvd_pow 2 ((Nat.pow_le_pow_iff_right Nat.one_lt_two).mp hle : 3 ≤ k)

theorem toNat_memAlignMask (platform : Platform) (alignmentMask : UInt32) :
    (BitVec.ofNat (8 * platform.sizeofPvoid) (memAlignMask platform alignmentMask).toNat).toNat =
      (memAlignMask platform alignmentMask).toNat := by
  have hlt := (memAlignMask platform alignmentMask).toNat_lt
  have hle : 2 ^ 32 ≤ 2 ^ (8 * platform.sizeofPvoid) := by
    apply Nat.pow_le_pow_right (by decide)
    cases platform <;> decide
  rw [BitVec.toNat_ofNat, Nat.mod_eq_of_lt (by omega)]

/-! ## The saved pointer -/

theorem toNat_savedAt (pp : platform.UintPtr) (h : platform.sizeofPvoid ≤ pp.toNat) :
    (savedAt pp).toNat = pp.toNat - platform.sizeofPvoid := by
  have hlt := pp.isLt
  have hsize : (BitVec.ofNat (8 * platform.sizeofPvoid) platform.sizeofPvoid).toNat =
      platform.sizeofPvoid := by cases platform <;> rfl
  rw [savedAt, BitVec.toNat_sub_of_le (by rw [BitVec.le_def, hsize]; exact h), hsize]

/-- What was stored is loaded again from a memory that agrees there. -/
theorem loadPvoid_storePvoid {mem' : Nat → UInt8}
    (h : ∀ i, p.toNat ≤ i → i < p.toNat + platform.sizeofPvoid →
      mem' i = storePvoid mem p pp i) : loadPvoid mem' p = pp := by
  have hlen : (toLe platform.sizeofPvoid pp.toNat).length = platform.sizeofPvoid :=
    length_toLe _ _
  have hholds : HoldsAt mem' p.toNat (toLe platform.sizeofPvoid pp.toNat) :=
    holdsAt_store.congr fun i hle hlt => h i hle (by rwa [hlen] at hlt)
  have hbytes := hholds.map_range
  rw [hlen] at hbytes
  have hlt : pp.toNat < 256 ^ platform.sizeofPvoid := by
    have hpow : 256 ^ platform.sizeofPvoid = 2 ^ (8 * platform.sizeofPvoid) := by
      rw [Nat.pow_mul]
    rw [hpow]
    exact pp.isLt
  rw [loadPvoid, hbytes, ofLe_toLe, Nat.mod_eq_of_lt hlt]
  exact BitVec.eq_of_toNat_eq (by rw [BitVec.toNat_ofNat, Nat.mod_eq_of_lt pp.isLt])

theorem spdIoctlMemAlignAlloc_block {used : UInt32}
    (hused : memAlignMask platform alignmentMask = used) (hp : memAlloc (size + used) = p)
    (hne : p ≠ 0) :
    spdIoctlMemAlignAlloc memAlloc mem size alignmentMask =
      ⟨0, alignUp p (.ofNat _ used.toNat),
        storePvoid mem (savedAt (alignUp p (.ofNat _ used.toNat))) p⟩ := by
  simp only [spdIoctlMemAlignAlloc, hused, hp, if_neg hne]

/-! ## The block -/

/-- With an address in front of which there is room for a pointer, everything is
as it should be. -/
theorem alignedInside_of_room (mem : Nat → UInt8) {j : Nat} {mask : platform.UintPtr}
    (hmask : mask.toNat = 2 ^ j - 1)
    (hblock : p.toNat + (size.toNat + mask.toNat) < 2 ^ (8 * platform.sizeofPvoid))
    (hroom : p.toNat + platform.sizeofPvoid ≤ (alignUp p mask).toNat) :
    AlignedInside p (size.toNat + mask.toNat) size.toNat (2 ^ j)
      ⟨0, alignUp p mask, storePvoid mem (savedAt (alignUp p mask)) p⟩ := by
  have hsum : p.toNat + mask.toNat < 2 ^ (8 * platform.sizeofPvoid) := by omega
  have hle := alignUp_le hmask hsum
  have hsaved := toNat_savedAt (alignUp p mask) (by omega)
  have hpos : 0 < (alignUp p mask).toNat := by
    have hsize := sizeofPvoid_pos platform
    omega
  refine ⟨dvd_alignUp hmask hsum, ?_, ?_, ?_⟩
  · show p.toNat ≤ (alignUp p mask).toNat ∧ (alignUp p mask).toNat + size.toNat ≤ _
    omega
  · show p.toNat ≤ (savedAt (alignUp p mask)).toNat ∧
        (savedAt (alignUp p mask)).toNat + _ ≤ _
    omega
  · intro mem' hmem
    have hne : alignUp p mask ≠ 0 := by
      intro heq
      rw [heq] at hpos
      exact absurd hpos (by simp)
    rw [spdIoctlMemAlignFree, if_neg hne]
    have hbefore : ∀ i, (savedAt (alignUp p mask)).toNat ≤ i →
        i < (savedAt (alignUp p mask)).toNat + platform.sizeofPvoid →
        mem' i = storePvoid mem (savedAt (alignUp p mask)) p i := by
      intro i _ hlt
      apply hmem i
      show ¬ ((alignUp p mask).toNat ≤ i ∧ i < (alignUp p mask).toNat + size.toNat)
      omega
    exact congrArg some (loadPvoid_storePvoid hbefore)

/-- The block is used as it should if and only if its address is not aligned yet. -/
theorem spdIoctlMemAlignAlloc_inside (hmask : alignmentMask.toNat = 2 ^ k - 1)
    (hsize : size.toNat + alignmentMask.toNat < 2 ^ 32)
    (hblock : HeapBlock (memAlloc (size + memAlignMask platform alignmentMask))
      (size + memAlignMask platform alignmentMask).toNat) :
    AlignedInside (memAlloc (size + memAlignMask platform alignmentMask))
        (size + memAlignMask platform alignmentMask).toNat size.toNat
        ((memAlignMask platform alignmentMask).toNat + 1)
        (spdIoctlMemAlignAlloc memAlloc mem size alignmentMask) ↔
      ¬ (memAlignMask platform alignmentMask).toNat + 1 ∣
        (memAlloc (size + memAlignMask platform alignmentMask)).toNat := by
  obtain ⟨j, hj, hused, hdvd, hcase⟩ := memAlignMask_spec platform hmask
  have hwide := toNat_memAlignMask platform alignmentMask
  generalize heq : memAlignMask platform alignmentMask = used at *
  generalize hp : memAlloc (size + used) = p at *
  have hpow : 0 < 2 ^ j := Nat.two_pow_pos j
  have halign : used.toNat + 1 = 2 ^ j := by omega
  have hmask' : (BitVec.ofNat (8 * platform.sizeofPvoid) used.toNat).toNat = 2 ^ j - 1 :=
    hwide.trans hused
  rw [halign, spdIoctlMemAlignAlloc_block heq hp hblock.notNull]
  constructor
  · intro hinside haligned
    -- nothing was added, so the pointer is saved in front of the block
    obtain ⟨q, hq⟩ := haligned
    obtain ⟨a, ha⟩ := two_pow_dvd_addresses platform hj
    have hlt := p.isLt
    have hqa : q < a := by
      rw [ha, hq] at hlt
      exact Nat.lt_of_mul_lt_mul_left hlt
    have hroom : 2 ^ j * (q + 1) ≤ 2 ^ j * a := Nat.mul_le_mul_left _ hqa
    rw [Nat.mul_add, Nat.mul_one] at hroom
    have hsum : p.toNat + (BitVec.ofNat (8 * platform.sizeofPvoid) used.toNat).toNat <
        2 ^ (8 * platform.sizeofPvoid) := by
      rw [hmask']
      omega
    have hsame := alignUp_of_dvd hmask' hsum ⟨q, hq⟩
    have hpos : 0 < p.toNat := by
      apply Nat.pos_of_ne_zero
      intro hzero
      exact hblock.notNull (BitVec.eq_of_toNat_eq hzero)
    have hle := Nat.le_of_dvd hpos hblock.aligned
    have hsize := sizeofPvoid_pos platform
    have hsaved := toNat_savedAt (alignUp p (BitVec.ofNat _ used.toNat)) (by omega)
    have hfront : p.toNat ≤ (savedAt (alignUp p (BitVec.ofNat _ used.toNat))).toNat :=
      hinside.saved.1
    omega
  · intro hnot
    have hsame : used = alignmentMask := by
      apply hcase.resolve_right
      intro heq
      rw [heq] at hnot
      exact hnot hblock.aligned
    have hlen : (size + used).toNat = size.toNat + used.toNat := by
      rw [UInt32.toNat_add, Nat.mod_eq_of_lt (by rw [hsame]; exact hsize)]
    have hfits := hblock.inside
    rw [hlen, ← hwide] at hfits
    have hroom := add_le_alignUp hmask' (by omega) hnot hdvd hblock.aligned
    have hinside := alignedInside_of_room mem hmask' hfits hroom
    rwa [hwide, ← hlen] at hinside

/-- Sixteen bytes for a sector, in a block at an address that is no multiple of
its size. -/
theorem spdIoctlMemAlignAlloc_inside_sector :
    AlignedInside (0x1010 : Platform.x64.UintPtr) (16 + 511) 16 (511 + 1)
      (spdIoctlMemAlignAlloc (fun _ => 0x1010) (fun _ => 0) 16 511) :=
  (@spdIoctlMemAlignAlloc_inside .x64 (fun _ => 0x1010) (fun _ => 0) 16 511 9 (by decide)
    (by decide) ⟨by decide, by decide, by decide⟩).mpr (by decide)

/-- The same bytes in a block that is aligned: its address is saved in front of
the block. -/
theorem spdIoctlMemAlignAlloc_before :
    ¬∀ (platform : Platform) (memAlloc : UInt32 → platform.UintPtr) (mem : Nat → UInt8)
        (size alignmentMask : UInt32) (k : Nat),
      alignmentMask.toNat = 2 ^ k - 1 → size.toNat + alignmentMask.toNat < 2 ^ 32 →
      HeapBlock (memAlloc (size + memAlignMask platform alignmentMask))
        (size + memAlignMask platform alignmentMask).toNat →
      AlignedInside (memAlloc (size + memAlignMask platform alignmentMask))
        (size + memAlignMask platform alignmentMask).toNat size.toNat
        ((memAlignMask platform alignmentMask).toNat + 1)
        (spdIoctlMemAlignAlloc memAlloc mem size alignmentMask) := by
  intro hall
  have hinside := hall .x64 (fun _ => 0x1000) (fun _ => 0) 16 511 9 (by decide) (by decide)
    ⟨by decide, by decide, by decide⟩
  exact absurd hinside.saved.1 (by decide)

end Winspd.Proofs
