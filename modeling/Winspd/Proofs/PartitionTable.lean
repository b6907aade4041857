import Winspd.Lib.Align
import Winspd.Shared.Mbr

/-!
# Partition tables

What `SpdDefinePartitionTable` puts in the buffer, seen by a reader of master
boot records. The first loop lets exactly those partitions pass that a record can
hold, and the second one writes the entries of these and of no others, so the
table is the one that was asked for, or the buffer is what it was.

The exception are the cylinders, heads and sectors. The last block of a partition
is the one in front of its end, but what is written is the address of the end
itself: the block behind the last one. A reader does not see the difference
where both are on a cylinder that three bytes cannot hold
(`Chs.ofLbaClamped_succ`).
-/

namespace Winspd.Proofs

open Winspd.Lib Winspd.Shared

variable {partitions : Nat → SpdPartition} {count : UInt32} {buffer : List UInt8}
  {p : SpdPartition}
  {mbr : SpdMbr} {i n : Nat}

/-! ## Partitions that are refused -/

def SpdPartition.Unrepresentable (p : SpdPartition) : Prop :=
  p.blockCount = 0 ∨ 2 ^ 64 ≤ p.blockAddress.toNat + p.blockCount.toNat ∨
    2 ^ 32 - 1 < p.blockAddress.toNat + p.blockCount.toNat

/-- The sum of the source is the end, unless it wraps around. -/
theorem invalid_iff : p.invalid = true ↔ SpdPartition.Unrepresentable p := by
  have haddress := p.blockAddress.toNat_lt
  have hcount := p.blockCount.toNat_lt
  have hzero : p.blockCount = 0 ↔ p.blockCount.toNat = 0 := by
    rw [← UInt64.toNat_inj, UInt64.toNat_zero]
  have hmax : (0xffffffff : UInt64).toNat = 2 ^ 32 - 1 := by decide
  rw [SpdPartition.invalid, decide_eq_true_eq, SpdPartition.Unrepresentable, hzero,
    UInt64.le_iff_toNat_le, gt_iff_lt, UInt64.lt_iff_toNat_lt, SpdPartition.endBlockAddress,
    UInt64.toNat_add, hmax]
  by_cases hwrap : p.blockAddress.toNat + p.blockCount.toNat < 2 ^ 64
  · rw [Nat.mod_eq_of_lt hwrap]
    omega
  · rw [Nat.mod_eq_sub_mod (by omega), Nat.mod_eq_of_lt (by omega)]
    omega

theorem spdDefinePartitionTable_cases :
    ((4 < count.toNat ∨ ∃ i < count.toNat, SpdPartition.Unrepresentable (partitions i)) ∧
        spdDefinePartitionTable partitions count buffer = (mbrInvalidParameter, buffer)) ∨
      (count.toNat ≤ 4 ∧
        (∀ i < count.toNat, ¬ SpdPartition.Unrepresentable (partitions i)) ∧
        spdDefinePartitionTable partitions count buffer =
          (mbrSuccess, (spdMbrFill partitions count.toNat spdMbr).bytes)) := by
  have hfour : 4 < count ↔ 4 < count.toNat := UInt32.lt_iff_toNat_lt
  unfold spdDefinePartitionTable
  split
  · next hlarge => exact .inl ⟨.inl (hfour.mp hlarge), rfl⟩
  · next hsmall =>
      have hle : count.toNat ≤ 4 := Nat.not_lt.mp fun h => hsmall (hfour.mpr h)
      split
      · next hany =>
          obtain ⟨i, hi, hinvalid⟩ := List.any_eq_true.mp hany
          exact .inl ⟨.inr ⟨i, List.mem_range.mp hi, invalid_iff.mp hinvalid⟩, rfl⟩
      · next hany =>
          refine .inr ⟨hle, fun i hi hno => hany ?_, rfl⟩
          exact List.any_eq_true.mpr ⟨i, List.mem_range.mpr hi, invalid_iff.mpr hno⟩

/-! ## The record -/

theorem spdMbrFill_eq : spdMbrFill partitions n mbr =
    { mbr with partitions := (spdMbrFill partitions n mbr).partitions } := by
  induction n with
  | zero => rfl
  | succ n ih =>
      rw [spdMbrFill]
      conv => lhs; rw [ih]

theorem length_spdMbrFill : (spdMbrFill partitions n mbr).partitions.length =
    mbr.partitions.length := by
  induction n with
  | zero => rfl
  | succ n ih => rw [spdMbrFill, List.length_set, ih]

theorem getElem?_spdMbrFill (hi : i < mbr.partitions.length) :
    (spdMbrFill partitions n mbr).partitions[i]? =
      if i < n then some (partitions i).entry else mbr.partitions[i]? := by
  induction n with
  | zero => simp [spdMbrFill]
  | succ n ih =>
      rw [spdMbrFill, List.getElem?_set, length_spdMbrFill, ih]
      by_cases heq : n = i
      · subst heq
        simp [hi]
      · rw [if_neg heq]
        by_cases hlt : i < n
        · rw [if_pos hlt, if_pos (by omega)]
        · rw [if_neg hlt, if_neg (by omega)]

theorem length_lbaToMbr (lba : UInt32) : (lbaToMbr lba).length = 3 := by
  unfold lbaToMbr
  dsimp only
  split <;> rfl

theorem length_entry_bytes : p.entry.bytes.length = 16 := by
  simp [SpdMbrPartition.bytes, SpdPartition.entry, length_lbaToMbr, mbrNumber]

theorem length_bytes_of_mem {entry : SpdMbrPartition}
    (h : entry ∈ (spdMbrFill partitions n spdMbr).partitions) : entry.bytes.length = 16 := by
  obtain ⟨i, hi⟩ := List.getElem?_of_mem h
  have hlt : i < spdMbr.partitions.length := by
    have hlen : (spdMbrFill partitions n spdMbr).partitions.length = spdMbr.partitions.length :=
      length_spdMbrFill
    rw [← hlen]
    exact (List.getElem?_eq_some_iff.mp hi).1
  rw [getElem?_spdMbrFill hlt] at hi
  split at hi
  · rw [Option.some.injEq] at hi
    rw [← hi, length_entry_bytes]
  · have hmem := List.mem_of_getElem? hi
    rw [List.eq_of_mem_replicate hmem]
    rfl

theorem length_spdMbrFront : (spdMbrBoot ++ List.replicate 6 (0 : UInt8)).length = 446 := by
  rw [spdMbrBoot, List.length_append, List.length_append, List.length_replicate,
    List.length_replicate]
  rfl

/-- What is in front of the entries, they, and what is behind them. -/
theorem spdMbrFill_bytes :
    (spdMbrFill partitions n spdMbr).bytes =
      (spdMbrBoot ++ List.replicate 6 0) ++
        ((spdMbrFill partitions n spdMbr).partitions.flatMap SpdMbrPartition.bytes ++
          [0x55, 0xaa]) := by
  rw [SpdMbr.bytes, spdMbrFill_eq]
  simp only [spdMbr, List.append_assoc]
  rfl

theorem length_flatMap_bytes :
    ((spdMbrFill partitions n spdMbr).partitions.flatMap SpdMbrPartition.bytes).length = 64 := by
  have hlen : (spdMbrFill partitions n spdMbr).partitions.length = 4 := length_spdMbrFill
  have hsum : ((spdMbrFill partitions n spdMbr).partitions.map fun entry => entry.bytes.length) =
      List.replicate 4 16 := by
    rw [List.eq_replicate_iff, List.length_map, hlen]
    refine ⟨rfl, fun b hb => ?_⟩
    obtain ⟨entry, hmem, rfl⟩ := List.mem_map.mp hb
    exact length_bytes_of_mem hmem
  rw [List.length_flatMap, hsum]
  rfl

theorem mbrEntryBytes_fill {entry : SpdMbrPartition}
    (h : (spdMbrFill partitions n spdMbr).partitions[i]? = some entry) :
    mbrEntryBytes (spdMbrFill partitions n spdMbr).bytes i = entry.bytes := by
  have hlt : i < 4 := by
    have hi := (List.getElem?_eq_some_iff.mp h).1
    rwa [length_spdMbrFill] at hi
  have hentry := drop_take_flatMap (fun _ hmem => length_bytes_of_mem hmem) h
  rw [mbrEntryBytes, spdMbrFill_bytes, ← List.drop_drop, List.drop_left' length_spdMbrFront,
    List.drop_append_of_le_length (by rw [length_flatMap_bytes]; omega),
    List.take_append_of_le_length (by rw [List.length_drop, length_flatMap_bytes]; omega), hentry]

/-! ## Numbers -/

theorem ofLe_mbrNumber (x : UInt64) : ofLe (mbrNumber x) = x.toNat % 2 ^ 32 := by
  have hbyte : ∀ y : UInt64, (y &&& 0xff).toUInt8.toNat = y.toNat % 256 := by
    intro y
    rw [UInt64.toNat_toUInt8, UInt64.toNat_and]
    show (y.toNat &&& (2 ^ 8 - 1)) % 2 ^ 8 = _
    rw [Nat.and_two_pow_sub_one_eq_mod]
    omega
  simp only [mbrNumber, ofLe, hbyte, UInt64.toNat_shiftRight, UInt64.reduceToNat, Nat.reduceMod,
    Nat.shiftRight_eq_div_pow, Nat.reducePow]
  omega

/-! ## Cylinders, heads and sectors -/

theorem unpack_chsToMbr {c h s : UInt32} (hc : c.toNat < 1024) (hh : h.toNat < 256)
    (hs : s.toNat < 64) : Chs.unpack (chsToMbr c h s) = ⟨c.toNat, h.toNat, s.toNat⟩ := by
  have hhigh : ((c >>> 2) &&& (0xc0 : UInt32)).toNat = 2 ^ 6 * (c.toNat / 256) := by
    have hmask := @toNat_and_not_mask 8 6 (BitVec.ofNat 8 (c.toNat / 4)) 0x3f rfl
    have hnot : (~~~(0x3f : BitVec 8)).toNat = 0xc0 := by decide
    rw [BitVec.toNat_and, BitVec.toNat_ofNat, Nat.mod_eq_of_lt (by omega), hnot] at hmask
    rw [UInt32.toNat_and, UInt32.toNat_shiftRight, Nat.shiftRight_eq_div_pow]
    simp only [UInt32.reduceToNat, Nat.reduceMod, Nat.reducePow] at hmask ⊢
    omega
  have hlow : (s &&& (0x3f : UInt32)).toNat = s.toNat := by
    rw [UInt32.toNat_and]
    show s.toNat &&& (2 ^ 6 - 1) = _
    rw [Nat.and_two_pow_sub_one_eq_mod, Nat.mod_eq_of_lt (by omega)]
  have hsector : ((s &&& (0x3f : UInt32)) ||| ((c >>> 2) &&& (0xc0 : UInt32))).toUInt8.toNat =
      2 ^ 6 * (c.toNat / 256) + s.toNat := by
    rw [UInt32.toNat_toUInt8, UInt32.toNat_or, hhigh, hlow, Nat.or_comm,
      ← Nat.two_pow_add_eq_or_of_lt (by omega : s.toNat < 2 ^ 6)]
    omega
  have hcylinder : (c &&& (0xff : UInt32)).toUInt8.toNat = c.toNat % 256 := by
    rw [UInt32.toNat_toUInt8, UInt32.toNat_and]
    show (c.toNat &&& (2 ^ 8 - 1)) % 2 ^ 8 = _
    rw [Nat.and_two_pow_sub_one_eq_mod]
    omega
  have hhead : h.toUInt8.toNat = h.toNat := by
    rw [UInt32.toNat_toUInt8]
    omega
  rw [Chs.unpack, chsToMbr]
  simp only [List.getD_cons_succ, List.getD_cons_zero]
  rw [hsector, hcylinder, hhead, Chs.mk.injEq]
  omega

/-- What is written for a block is what a reader takes for its address. -/
theorem unpack_lbaToMbr (lba : UInt32) :
    Chs.unpack (lbaToMbr lba) = Chs.ofLbaClamped 255 63 lba.toNat := by
  have hcylinder : (lba / (hpc * spt)).toNat = lba.toNat / (255 * 63) := UInt32.toNat_div ..
  have hhead : (lba / spt % hpc).toNat = lba.toNat / 63 % 255 := by
    rw [UInt32.toNat_mod, UInt32.toNat_div]
    rfl
  have hsector : (lba % spt + 1).toNat = lba.toNat % 63 + 1 := by
    have hmod : (lba % spt).toNat = lba.toNat % 63 := UInt32.toNat_mod ..
    rw [UInt32.toNat_add, hmod, UInt32.toNat_one]
    omega
  have hclamp : (1023 : UInt32) < lba / (hpc * spt) ↔ 1023 < lba.toNat / (255 * 63) := by
    rw [UInt32.lt_iff_toNat_lt, hcylinder]
    rfl
  unfold lbaToMbr Chs.ofLbaClamped
  dsimp only
  by_cases hlarge : 1023 < lba.toNat / (255 * 63)
  · rw [if_pos (hclamp.mpr hlarge), if_pos hlarge]
    exact unpack_chsToMbr (by decide) (by decide) (by decide)
  · rw [if_neg (fun h => hlarge (hclamp.mp h)), if_neg hlarge,
      unpack_chsToMbr (by omega) (by omega) (by omega), hcylinder, hhead, hsector]
    rfl

/-! ## The table -/

/-- A reader finds the partitions, and nothing else. -/
structure TableOf (partitions : Nat → SpdPartition) (count : Nat) (mbr : List UInt8) : Prop where
  length : mbr.length = 512
  boot : mbr.take 446 = [0xcd, 0x18, 0xf4, 0xeb, 0xfd] ++ List.replicate 441 0
  entries : ∀ i < count, (mbrEntry mbr i).type = (partitions i).type ∧
    (mbrEntry mbr i).active = (partitions i).active ∧
    (mbrEntry mbr i).blockAddress = (partitions i).blockAddress.toNat ∧
    (mbrEntry mbr i).blockCount = (partitions i).blockCount.toNat
  unused : ∀ i, count ≤ i → i < 4 → mbrEntryBytes mbr i = List.replicate 16 0
  signature : mbr.drop 510 = [0x55, 0xaa]

theorem mbrEntry_fill (hi : i < n) (hn : n ≤ 4) :
    mbrEntry (spdMbrFill partitions n spdMbr).bytes i =
      { active := (partitions i).active
        first := Chs.unpack (lbaToMbr (partitions i).blockAddress.toUInt32)
        type := (partitions i).type
        last := Chs.unpack (lbaToMbr (partitions i).endBlockAddress.toUInt32)
        blockAddress := ofLe (mbrNumber (partitions i).blockAddress)
        blockCount := ofLe (mbrNumber (partitions i).blockCount) } := by
  have hentry : (spdMbrFill partitions n spdMbr).partitions[i]? = some (partitions i).entry := by
    have hlt : i < spdMbr.partitions.length := Nat.lt_of_lt_of_le hi hn
    rw [getElem?_spdMbrFill hlt, if_pos hi]
  have hfirst := List.length_eq_three.mp (length_lbaToMbr (partitions i).blockAddress.toUInt32)
  have hlast := List.length_eq_three.mp (length_lbaToMbr (partitions i).endBlockAddress.toUInt32)
  obtain ⟨a₀, a₁, a₂, ha⟩ := hfirst
  obtain ⟨b₀, b₁, b₂, hb⟩ := hlast
  rw [mbrEntry, mbrEntryBytes_fill hentry, SpdPartition.entry, SpdMbrPartition.bytes, ha, hb]
  rfl

theorem tableOf_fill (hn : n ≤ 4)
    (hfits : ∀ i < n, ¬ SpdPartition.Unrepresentable (partitions i)) :
    TableOf partitions n (spdMbrFill partitions n spdMbr).bytes := by
  have hentries : ((spdMbrFill partitions n spdMbr).partitions.flatMap
      SpdMbrPartition.bytes).length = 64 := length_flatMap_bytes
  refine ⟨?_, ?_, ?_, ?_, ?_⟩
  · rw [spdMbrFill_bytes, List.length_append, length_spdMbrFront, List.length_append, hentries]
    rfl
  · rw [spdMbrFill_bytes, List.take_left' length_spdMbrFront, spdMbrBoot, List.append_assoc,
      List.replicate_append_replicate]
  · intro i hi
    have hno := hfits i hi
    rw [SpdPartition.Unrepresentable] at hno
    rw [mbrEntry_fill hi hn, ofLe_mbrNumber, ofLe_mbrNumber, Nat.mod_eq_of_lt (by omega),
      Nat.mod_eq_of_lt (by omega)]
    exact ⟨rfl, rfl, rfl, rfl⟩
  · intro i hle hlt
    have hentry : (spdMbrFill partitions n spdMbr).partitions[i]? = some spdMbrNoPartition := by
      rw [getElem?_spdMbrFill hlt, if_neg (by omega)]
      exact List.getElem?_replicate_of_lt hlt
    rw [mbrEntryBytes_fill hentry]
    rfl
  · rw [spdMbrFill_bytes, ← List.append_assoc, List.drop_left' (by
      rw [List.length_append, length_spdMbrFront, hentries])]

/-- The call fails for the partitions that a record cannot hold, and then the buffer
is what it was. Otherwise it is the table of the partitions. -/
theorem partition_table (partitions : Nat → SpdPartition) (count : UInt32) (buffer : List UInt8) :
    ((spdDefinePartitionTable partitions count buffer).1 ≠ mbrSuccess ↔
        4 < count.toNat ∨ ∃ i < count.toNat, SpdPartition.Unrepresentable (partitions i)) ∧
      ((spdDefinePartitionTable partitions count buffer).1 ≠ mbrSuccess →
        (spdDefinePartitionTable partitions count buffer).2 = buffer) ∧
      ((spdDefinePartitionTable partitions count buffer).1 = mbrSuccess →
        TableOf partitions count.toNat (spdDefinePartitionTable partitions count buffer).2) := by
  rcases @spdDefinePartitionTable_cases partitions count buffer with
    ⟨hno, heq⟩ | ⟨hle, hfits, heq⟩
  · rw [heq]
    have hfail : mbrInvalidParameter ≠ mbrSuccess := by decide
    exact ⟨iff_of_true hfail hno, fun _ => rfl, fun h => absurd h hfail⟩
  · rw [heq]
    refine ⟨iff_of_false (fun h => h rfl) ?_, fun h => absurd rfl h,
      fun _ => tableOf_fill hle hfits⟩
    rintro (hlarge | ⟨i, hi, hno⟩)
    · omega
    · exact hfits i hi hno

/-- The addresses of an entry by cylinder, head and sector are those of the first
and of the last block. -/
structure ChsOf (p : SpdPartition) (entry : MbrEntry) : Prop where
  first : entry.first = Chs.ofLbaClamped 255 63 p.blockAddress.toNat
  last : entry.last = Chs.ofLbaClamped 255 63 (p.blockAddress.toNat + p.blockCount.toNat - 1)

theorem chsOf_fill (hi : i < n) (hn : n ≤ 4)
    (hfits : ¬ SpdPartition.Unrepresentable (partitions i)) :
    (mbrEntry (spdMbrFill partitions n spdMbr).bytes i).first =
        Chs.ofLbaClamped 255 63 (partitions i).blockAddress.toNat ∧
      (ChsOf (partitions i) (mbrEntry (spdMbrFill partitions n spdMbr).bytes i) ↔
        1024 * (255 * 63) ≤
          (partitions i).blockAddress.toNat + (partitions i).blockCount.toNat) := by
  rw [SpdPartition.Unrepresentable, not_or, ← UInt64.toNat_inj, UInt64.toNat_zero] at hfits
  obtain ⟨hpos, hfits⟩ := hfits
  have hfirst : (partitions i).blockAddress.toUInt32.toNat = (partitions i).blockAddress.toNat := by
    rw [UInt64.toNat_toUInt32]
    omega
  have hend : (partitions i).endBlockAddress.toUInt32.toNat =
      (partitions i).blockAddress.toNat + (partitions i).blockCount.toNat - 1 + 1 := by
    rw [UInt64.toNat_toUInt32, SpdPartition.endBlockAddress, UInt64.toNat_add]
    omega
  have hlast := @Chs.ofLbaClamped_succ 255 63
    ((partitions i).blockAddress.toNat + (partitions i).blockCount.toNat - 1) (by decide)
    (by decide)
  rw [mbrEntry_fill hi hn, unpack_lbaToMbr, unpack_lbaToMbr, hfirst, hend]
  refine ⟨rfl, fun hchs => ?_, fun hlarge => ⟨rfl, hlast.mpr (by omega)⟩⟩
  have hle := hlast.mp hchs.last
  omega

/-- The address of the first block is right, and that of the last one if and only
if the end of the partition is not in front of what the last cylinder ends with.
The numbers of an address never share a bit. -/
theorem partition_chs (h : (spdDefinePartitionTable partitions count buffer).1 = mbrSuccess)
    (hi : i < count.toNat) :
    (ChsOf (partitions i) (mbrEntry (spdDefinePartitionTable partitions count buffer).2 i) ↔
        1024 * (255 * 63) ≤ (partitions i).blockAddress.toNat +
          (partitions i).blockCount.toNat) ∧
      (mbrEntry (spdDefinePartitionTable partitions count buffer).2 i).first =
        Chs.ofLbaClamped 255 63 (partitions i).blockAddress.toNat ∧
      ∀ c h s : UInt32, c.toNat < 1024 → h.toNat < 256 → s.toNat < 64 →
        Chs.unpack (chsToMbr c h s) = ⟨c.toNat, h.toNat, s.toNat⟩ := by
  rcases @spdDefinePartitionTable_cases partitions count buffer with
    ⟨-, heq⟩ | ⟨hle, hfits, heq⟩
  · have hfail : mbrInvalidParameter ≠ mbrSuccess := by decide
    rw [heq] at h
    exact absurd h hfail
  · obtain ⟨hfirst, hlast⟩ := chsOf_fill hi hle (hfits i hi)
    rw [heq]
    exact ⟨hlast, hfirst, fun c h s hc hh hs => unpack_chsToMbr hc hh hs⟩

/-- A partition that ends where the cylinders end. -/
def largePartition : SpdPartition := ⟨7, 0, 63, 1024 * (255 * 63) - 63⟩

theorem partition_chs_large :
    ChsOf largePartition
      (mbrEntry (spdDefinePartitionTable (fun _ => largePartition) 1 []).2 0) :=
  (@partition_chs (fun _ => largePartition) 1 [] 0 (by decide) (by decide)).1.mpr (by decide)

/-- One track: its last block is said to be the first one of the next track. -/
def trackPartition : SpdPartition := ⟨7, 0, 63, 63⟩

theorem partition_chs_track :
    ¬∀ (partitions : Nat → SpdPartition) (count : UInt32) (buffer : List UInt8) (i : Nat),
      (spdDefinePartitionTable partitions count buffer).1 = mbrSuccess → i < count.toNat →
      ChsOf (partitions i) (mbrEntry (spdDefinePartitionTable partitions count buffer).2 i) := by
  intro hall
  have hchs := hall (fun _ => trackPartition) 1 [] 0 (by decide) (by decide)
  have hfits : ¬ SpdPartition.Unrepresentable trackPartition := by
    unfold SpdPartition.Unrepresentable
    decide
  exact absurd ((@chsOf_fill (fun _ => trackPartition) 0 1 (by decide) (by decide) hfits).2.mp hchs)
    (by decide)

end Winspd.Proofs
