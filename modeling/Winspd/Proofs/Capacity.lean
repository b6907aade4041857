import Winspd.Proofs.Pages

/-!
# Capacity

What READ CAPACITY reports and what the posting functions accept are computed
in different places from the same number of blocks. `RangeChecked` and
`UnmapChecked` are the checks that come before the range check; an SRB that
passed them is refused as an illegal block exactly when a range of it runs past
the last block, although the end address is computed modulo `2 ^ 64`.
-/

namespace Winspd.Proofs

open Winspd.Lib Winspd.Sys

variable {storResult : StorStatus} {unit : StorageUnitParams} {a : Addr} {m : ScsiMem}
  {ioq : SpdIoq} {range : CdbRange} {dataLength : UInt32} {buf : List UInt8} {srb : Srb}

/-! ## Refused and accepted -/

/-- The SRB at `a` failed with ILLEGAL REQUEST, ILLEGAL BLOCK, and nothing else
changed. -/
def IllegalBlock (a : Addr) (m : ScsiMem) (ioq : SpdIoq) (r : Option ScsiResult) : Prop :=
  ∃ status srb', spdScsiError (m.srb a) scsiSenseIllegalRequest scsiAdsenseIllegalBlock =
      some (status, srb') ∧
    srbStatus status = srbStatusError ∧ r = some (status, m.setSrb a srb', ioq)

theorem illegalBlock_error (hmap : Mapped storResult (m.srb a)) :
    IllegalBlock a m ioq ((spdScsiError (m.srb a) scsiSenseIllegalRequest
      scsiAdsenseIllegalBlock).map (srbResult a m ioq)) := by
  obtain ⟨⟨status, srb'⟩, herr⟩ := exists_spdScsiErrorEx scsiSenseIllegalRequest
    scsiAdsenseIllegalBlock 0 none hmap.sense
  refine ⟨status, srb', herr, spdScsiErrorEx_status herr, ?_⟩
  rw [spdScsiError, herr]
  rfl

theorem legal_of_status {r : ScsiResult} (hstatus : srbStatus r.1 ≠ srbStatusError) :
    ¬ IllegalBlock a m ioq (some r) := by
  intro hill
  obtain ⟨status, srb', -, herr, h⟩ := hill
  rw [Option.some.inj h] at hstatus
  exact hstatus herr

theorem legal_none : ¬ IllegalBlock a m ioq none := by
  intro hill
  obtain ⟨status, srb', -, herr, h⟩ := hill
  cases h

/-- What `SpdScsiPostSrb` returns is not an error with sense data. -/
theorem spdScsiPostSrb_legal :
    ¬ IllegalBlock a m ioq (spdScsiPostSrb storResult unit a dataLength m ioq) := by
  cases hpost : spdScsiPostSrb storResult unit a dataLength m ioq with
  | none => exact legal_none
  | some r =>
      refine legal_of_status ?_
      rcases spdScsiPostSrb_status hpost with h | h | h <;> rw [h] <;> decide

/-! ## Ranges -/

/-- The checks of a READ, WRITE or SYNCHRONIZE CACHE before its range is looked
at, with the data length they come to. -/
inductive RangeChecked (unit : StorageUnitParams) (srb : Srb) (range : CdbRange) : UInt32 → Prop
  | read (hop : scsiOp srb.cdb = .read)
      (hlen : ¬ srb.dataTransferLength < range.blockCount * unit.blockLength) :
      RangeChecked unit srb range (range.blockCount * unit.blockLength)
  | write (hop : scsiOp srb.cdb = .write) (hwp : unit.writeProtected = false)
      (hlen : ¬ srb.dataTransferLength < range.blockCount * unit.blockLength) :
      RangeChecked unit srb range (range.blockCount * unit.blockLength)
  | synchronizeCache (hop : scsiOp srb.cdb = .synchronizeCache)
      (hcache : unit.cacheSupported = true) (hwp : unit.writeProtected = false) :
      RangeChecked unit srb range 0

theorem RangeChecked.postRange (h : RangeChecked unit (m.srb a) range dataLength)
    (hrange : spdCdbGetRange (m.srb a).cdb = some range) :
    spdScsiPostRangeSrb storResult unit a m ioq =
      spdScsiPostRange storResult unit a range dataLength m ioq := by
  cases h with
  | read hop hlen =>
      simp only [spdScsiPostRangeSrb, hop, hrange, Option.bind_eq_bind, Option.bind_some,
        if_neg hlen]
  | write hop hwp hlen =>
      simp only [spdScsiPostRangeSrb, hop, hwp, hrange, Option.bind_eq_bind, Option.bind_some,
        if_neg hlen, Bool.false_eq_true, if_false]
  | synchronizeCache hop hcache hwp =>
      simp only [spdScsiPostRangeSrb, hop, hcache, hwp, hrange, Option.bind_eq_bind,
        Option.bind_some, Bool.not_true, Bool.false_eq_true, if_false]

theorem spdScsiPostRange_outside (hcount : range.blockCount ≠ 0)
    (hout : ¬ InUnit unit range.blockAddress range.blockCount) :
    spdScsiPostRange storResult unit a range dataLength m ioq =
      (spdScsiError (m.srb a) scsiSenseIllegalRequest scsiAdsenseIllegalBlock).map
        (srbResult a m ioq) := by
  rw [inUnit_iff, not_not] at hout
  simp only [spdScsiPostRange, if_neg hcount, if_pos hout]

theorem spdScsiPostRange_inside (hcount : range.blockCount ≠ 0)
    (hin : InUnit unit range.blockAddress range.blockCount) :
    spdScsiPostRange storResult unit a range dataLength m ioq =
      spdScsiPostSrb storResult unit a dataLength m ioq := by
  rw [inUnit_iff] at hin
  simp only [spdScsiPostRange, if_neg hcount, if_neg hin]

/-! ## UNMAP lists -/

/-- Descriptor `i` of the list runs past the last block. -/
def DescriptorOutside (unit : StorageUnitParams) (buf : List UInt8) (i : Nat) : Prop :=
  ∃ d, unmapBlockDescriptor buf i = some d ∧
    unit.blockCount.toNat < (startingLba d).toNat + (lbaCount d).toNat

theorem unmapOutside_spec (unit : StorageUnitParams) {i n : Nat}
    (hlen : 8 + 16 * (i + n) ≤ buf.length) :
    ∃ outside, unmapOutside unit buf i n = some outside ∧
      (outside = true ↔ ∃ j, i ≤ j ∧ j < i + n ∧ DescriptorOutside unit buf j) := by
  induction n generalizing i with
  | zero =>
      refine ⟨false, rfl, ?_⟩
      constructor
      · intro h
        cases h
      · intro h
        obtain ⟨j, hlo, hhi, -⟩ := h
        omega
  | succ n ih =>
      have hd : unmapBlockDescriptor buf i = some ((buf.drop (8 + 16 * i)).take 16) :=
        if_pos (by unfold sizeofUnmapListHeader sizeofUnmapBlockDescriptor; omega)
      rw [unmapOutside, hd]
      by_cases hin : InUnit unit (startingLba ((buf.drop (8 + 16 * i)).take 16))
          (lbaCount ((buf.drop (8 + 16 * i)).take 16))
      · obtain ⟨outside, hscan, hiff⟩ := ih (i := i + 1) (by omega)
        refine ⟨outside, ?_, hiff.trans ?_⟩
        · simp only [Option.bind_eq_bind, Option.bind_some, if_neg (inUnit_iff.mp hin), hscan]
        · constructor
          · intro h
            obtain ⟨j, hlo, hhi, hj⟩ := h
            exact ⟨j, by omega, by omega, hj⟩
          · intro h
            obtain ⟨j, hlo, hhi, hj⟩ := h
            refine ⟨j, ?_, by omega, hj⟩
            rcases Nat.eq_or_lt_of_le hlo with rfl | hlt
            · obtain ⟨d, hd', hgt⟩ := hj
              rw [hd, Option.some.injEq] at hd'
              subst hd'
              exact absurd hin (Nat.not_le.mpr hgt)
            · exact hlt
      · refine ⟨true, ?_, ?_⟩
        · have hout := not_not.mp (fun h => hin (inUnit_iff.mpr h))
          simp only [Option.bind_eq_bind, Option.bind_some, if_pos hout]
        · constructor
          · intro _
            exact ⟨i, Nat.le_refl i, by omega, _, hd, Nat.not_le.mp hin⟩
          · intro _
            rfl

/-- The checks of an UNMAP before its descriptors are looked at. -/
structure UnmapChecked (unit : StorageUnitParams) (srb : Srb) (buf : List UInt8)
    (dataLength : UInt32) : Prop where
  unmapSupported : unit.unmapSupported = true
  writeProtected : unit.writeProtected = false
  dataBuffer : srb.dataBuffer = some buf
  header : ¬ srb.dataTransferLength < 8
  length : dataLength.toNat = ofBe ((buf.drop 2).take 2)
  room : ¬ srb.dataTransferLength < 8 + dataLength
  max : ¬ dataLength > unit.maxTransferLength
  anchor : srb.cdb.asByte 1 &&& 0x01 = 0

theorem UnmapChecked.descriptors_le (h : UnmapChecked unit srb buf dataLength)
    (hmap : Mapped storResult srb) :
    8 + 16 * (0 + (dataLength / 16).toNat) ≤ buf.length := by
  have hdata := hmap.data buf h.dataBuffer
  have hroom := h.room
  have hlt : dataLength.toNat < 256 ^ 2 := by
    rw [h.length]
    refine Nat.lt_of_lt_of_le (ofBe_lt _) (Nat.pow_le_pow_right (by decide) ?_)
    rw [List.length_take]
    exact Nat.min_le_left _ _
  have height : (8 : UInt32).toNat = 8 := rfl
  have hsixteen : (16 : UInt32).toNat = 16 := rfl
  rw [UInt32.lt_iff_toNat_lt, Nat.not_lt, UInt32.toNat_add] at hroom
  rw [UInt32.toNat_div, hsixteen]
  omega

theorem UnmapChecked.postUnmap (h : UnmapChecked unit (m.srb a) buf dataLength)
    (hmap : Mapped storResult (m.srb a)) :
    spdScsiPostUnmapSrb storResult unit a m ioq =
      if dataLength = 0 then some (srbStatusSuccess, m, ioq)
      else (unmapOutside unit buf 0 (dataLength / 16).toNat).bind fun outside =>
        if outside then
          (spdScsiError (m.srb a) scsiSenseIllegalRequest scsiAdsenseIllegalBlock).map
            (srbResult a m ioq)
        else spdScsiPostSrb storResult unit a dataLength m ioq := by
  have hdata := hmap.data buf h.dataBuffer
  have height := h.header
  have h8 : (8 : UInt32).toNat = 8 := rfl
  rw [UInt32.lt_iff_toNat_lt, Nat.not_lt, h8] at height
  have hread : readAt buf 2 2 = some ((buf.drop 2).take 2) := if_pos (by omega)
  have hsize : ((buf.drop 2).take 2).length = 2 := length_readAt hread
  have hlength := h.length
  obtain ⟨b₀, b₁, hbytes⟩ := List.length_eq_two.mp hsize
  rw [hbytes] at hread hlength
  have hdl : (b₀.toUInt32 <<< 8 ||| b₁.toUInt32) = dataLength := by
    rw [← UInt32.toNat_inj, toNat_or_two32, hlength]
  simp only [spdScsiPostUnmapSrb, h.unmapSupported, h.writeProtected, h.dataBuffer, Bool.not_true,
    Bool.false_eq_true, if_false, if_neg h.header, hread, Option.bind_eq_bind, Option.bind_some,
    List.getD_cons_zero, List.getD_cons_succ, hdl, if_neg h.room, if_neg h.max, h.anchor,
    ne_eq, not_true_eq_false]

/-! ## READ CAPACITY -/

/-- The command succeeds and `last` is the number in the first `width` bytes of
its data. -/
def Reports (unit : SpdStorageUnit) (srb : Srb) (width last : Nat) : Prop :=
  ∃ srb' data, spdScsiReadCapacity unit srb = some (srbStatusSuccess, srb') ∧
    srb'.dataBuffer = some data ∧ ofBe (data.take width) = last

theorem reports_page {unit : SpdStorageUnit} (kind : DataIn) {front rest : List UInt8}
    (hbuild : kind.build unit = spdScsiReadCapacity unit)
    (hblock : unit.storageUnitParams.blockLength ≠ 0) (hsel : kind.Selects srb.cdb)
    (hbuf : srb.dataBuffer = some buf) (hlen : srb.dataTransferLength.toNat ≤ buf.length)
    (hroom : kind.needed ≤ srb.dataTransferLength.toNat)
    (hpage : kind.page unit srb.dataTransferLength.toNat = front ++ rest) :
    Reports unit srb front.length (ofBe front) := by
  have hneeded := @DataIn.needed_le_iff unit kind srb.dataTransferLength.toNat
  have hbuilt := kind.build_eq (fun _ => hblock) hsel hbuf hlen
  rw [hbuild, putPage_eq, if_pos (hneeded.mp hroom), hpage] at hbuilt
  refine ⟨_, _, hbuilt, rfl, ?_⟩
  rw [List.append_assoc, List.append_assoc, List.take_left' rfl]

/-- The address that READ CAPACITY (10) has room for. -/
def lastBlock10 (unit : StorageUnitParams) : Nat :=
  if unit.blockCount.toNat - 1 < 0xffffffff then unit.blockCount.toNat - 1 else 0xffffffff

theorem readCapacityData_last (h : unit.blockCount ≠ 0) :
    ofBe (be32 (if 0x100000000 > unit.blockCount then unit.blockCount.toUInt32 - 1
      else 0xffffffff)) = lastBlock10 unit := by
  rw [Ne, ← UInt64.toNat_inj] at h
  have hzero : (0 : UInt64).toNat = 0 := rfl
  have hone : (1 : UInt32).toNat = 1 := rfl
  have hlimit : (0x100000000 : UInt64).toNat = 0x100000000 := rfl
  rw [ofBe_be32, lastBlock10]
  by_cases hlt : 0x100000000 > unit.blockCount
  · rw [if_pos hlt]
    rw [gt_iff_lt, UInt64.lt_iff_toNat_lt, hlimit] at hlt
    have hcut : unit.blockCount.toUInt32.toNat = unit.blockCount.toNat := by
      rw [UInt64.toNat_toUInt32, Nat.mod_eq_of_lt hlt]
    rw [UInt32.toNat_sub_of_le _ _ (UInt32.le_iff_toNat_le.mpr (by omega)), hcut, hone]
    split <;> omega
  · rw [if_neg hlt, if_neg]
    · rfl
    · rw [gt_iff_lt, UInt64.lt_iff_toNat_lt, hlimit] at hlt
      omega

theorem readCapacityDataEx_last (h : unit.blockCount ≠ 0) :
    ofBe (be64 (unit.blockCount - 1)) = unit.blockCount.toNat - 1 := by
  have hzero : (0 : UInt64).toNat = 0 := rfl
  have hone : (1 : UInt64).toNat = 1 := rfl
  rw [Ne, ← UInt64.toNat_inj] at h
  rw [ofBe_be64, UInt64.toNat_sub_of_le _ _ (UInt64.le_iff_toNat_le.mpr (by omega)), hone]

/-! ## They agree -/

/-- What is reported and what is accepted. -/
structure CapacityAgrees (unit : SpdStorageUnit) : Prop where
  range : ∀ {storResult a m ioq range dataLength}, Mapped storResult (m.srb a) →
    spdCdbGetRange (m.srb a).cdb = some range →
    RangeChecked unit.storageUnitParams (m.srb a) range dataLength → range.blockCount ≠ 0 →
    (IllegalBlock a m ioq
        (spdScsiPostRangeSrb storResult unit.storageUnitParams a m ioq) ↔
      unit.storageUnitParams.blockCount.toNat <
        range.blockAddress.toNat + range.blockCount.toNat)
  unmap : ∀ {storResult a m ioq buf dataLength}, Mapped storResult (m.srb a) →
    UnmapChecked unit.storageUnitParams (m.srb a) buf dataLength →
    (IllegalBlock a m ioq
        (spdScsiPostUnmapSrb storResult unit.storageUnitParams a m ioq) ↔
      ∃ i < dataLength.toNat / 16, DescriptorOutside unit.storageUnitParams buf i)
  readCapacity16 : ∀ {srb buf}, srb.cdb.asByte 0 ≠ scsiopReadCapacity →
    srb.dataBuffer = some buf →
    srb.dataTransferLength.toNat ≤ buf.length → 12 ≤ srb.dataTransferLength.toNat →
    Reports unit srb 8 (unit.storageUnitParams.blockCount.toNat - 1)
  readCapacity10 : ∀ {srb buf}, srb.cdb.asByte 0 = scsiopReadCapacity →
    srb.dataBuffer = some buf →
    srb.dataTransferLength.toNat ≤ buf.length → 8 ≤ srb.dataTransferLength.toNat →
    Reports unit srb 4 (lastBlock10 unit.storageUnitParams)
  accepted : ∀ {storResult a m ioq range dataLength},
    spdCdbGetRange (m.srb a).cdb = some range →
    RangeChecked unit.storageUnitParams (m.srb a) range dataLength → range.blockCount = 1 →
    range.blockAddress.toNat ≤ unit.storageUnitParams.blockCount.toNat - 1 ∨
      range.blockAddress.toNat ≤ lastBlock10 unit.storageUnitParams →
    spdScsiPostRangeSrb storResult unit.storageUnitParams a m ioq =
      spdScsiPostSrb storResult unit.storageUnitParams a dataLength m ioq
  rejected : ∀ {storResult a m ioq range dataLength}, Mapped storResult (m.srb a) →
    spdCdbGetRange (m.srb a).cdb = some range →
    RangeChecked unit.storageUnitParams (m.srb a) range dataLength → range.blockCount = 1 →
    range.blockAddress.toNat = unit.storageUnitParams.blockCount.toNat - 1 + 1 →
    IllegalBlock a m ioq (spdScsiPostRangeSrb storResult unit.storageUnitParams a m ioq)

theorem range_illegal_iff (hmap : Mapped storResult (m.srb a))
    (hrange : spdCdbGetRange (m.srb a).cdb = some range)
    (hchecked : RangeChecked unit (m.srb a) range dataLength) (hcount : range.blockCount ≠ 0) :
    IllegalBlock a m ioq (spdScsiPostRangeSrb storResult unit a m ioq) ↔
      unit.blockCount.toNat < range.blockAddress.toNat + range.blockCount.toNat := by
  rw [hchecked.postRange hrange]
  by_cases hin : InUnit unit range.blockAddress range.blockCount
  · rw [spdScsiPostRange_inside hcount hin]
    constructor
    · intro hill
      exact absurd hill spdScsiPostSrb_legal
    · intro hlt
      exact absurd hin (Nat.not_le.mpr hlt)
  · rw [spdScsiPostRange_outside hcount hin]
    constructor
    · intro _
      exact Nat.not_le.mp hin
    · intro _
      exact illegalBlock_error hmap

theorem unmap_illegal_iff (hmap : Mapped storResult (m.srb a))
    (hchecked : UnmapChecked unit (m.srb a) buf dataLength) :
    IllegalBlock a m ioq (spdScsiPostUnmapSrb storResult unit a m ioq) ↔
      ∃ i < dataLength.toNat / 16, DescriptorOutside unit buf i := by
  have hcount : (dataLength / 16).toNat = dataLength.toNat / 16 := UInt32.toNat_div ..
  rw [hchecked.postUnmap hmap]
  by_cases hzero : dataLength = 0
  · rw [if_pos hzero]
    constructor
    · intro hill
      exact absurd hill
        (legal_of_status (show srbStatus srbStatusSuccess ≠ srbStatusError by decide))
    · intro hout
      obtain ⟨i, hi, -⟩ := hout
      have hno : dataLength.toNat = 0 := by
        rw [hzero]
        rfl
      omega
  · rw [if_neg hzero]
    obtain ⟨outside, hscan, hiff⟩ := unmapOutside_spec unit (hchecked.descriptors_le hmap)
    rw [hscan, Option.bind_some]
    cases outside with
    | true =>
        rw [if_pos rfl]
        constructor
        · intro _
          obtain ⟨j, -, hlt, hj⟩ := hiff.mp rfl
          exact ⟨j, by omega, hj⟩
        · intro _
          exact illegalBlock_error hmap
    | false =>
        rw [if_neg Bool.false_ne_true]
        constructor
        · intro hill
          exact absurd hill spdScsiPostSrb_legal
        · intro hout
          obtain ⟨j, hlt, hj⟩ := hout
          exact absurd (hiff.mpr ⟨j, Nat.zero_le j, by omega, hj⟩) Bool.false_ne_true

/-- Both capacity commands report the last block of the unit, and a range is refused exactly
when it goes beyond this block. -/
theorem capacity_agrees {unit : SpdStorageUnit} (hvalid : ¬ unit.storageUnitParams.Invalid) :
    CapacityAgrees unit := by
  have hblock := (unitOk_of_valid hvalid).blockLength_ne
  have hblocks : unit.storageUnitParams.blockCount ≠ 0 := fun h => hvalid (.inr (.inl h))
  have hpos : 0 < unit.storageUnitParams.blockCount.toNat :=
    Nat.pos_of_ne_zero fun h => hblocks (UInt64.toNat_inj.mp h)
  have hone : (1 : UInt32).toNat = 1 := rfl
  constructor
  case range => exact range_illegal_iff
  case unmap => exact unmap_illegal_iff
  case readCapacity16 =>
    intro srb buf hsel hbuf hlen hroom
    have hreports := reports_page .readCapacity16 rfl hblock hsel hbuf hlen hroom
      (List.append_assoc ..)
    rwa [readCapacityDataEx_last hblocks] at hreports
  case readCapacity10 =>
    intro srb buf hsel hbuf hlen hroom
    have hreports := reports_page .readCapacity rfl hblock hsel hbuf hlen hroom rfl
    rwa [readCapacityData_last hblocks] at hreports
  case accepted =>
    intro storResult a m ioq range dataLength hrange hchecked hsingle hle
    have hlast : lastBlock10 unit.storageUnitParams ≤
        unit.storageUnitParams.blockCount.toNat - 1 := by
      unfold lastBlock10
      split <;> omega
    rw [hchecked.postRange hrange]
    refine spdScsiPostRange_inside (by rw [hsingle]; decide) ?_
    rw [InUnit, hsingle, hone]
    omega
  case rejected =>
    intro storResult a m ioq range dataLength hmap hrange hchecked hsingle hnext
    refine (range_illegal_iff hmap hrange hchecked (by rw [hsingle]; decide)).mpr ?_
    rw [hsingle, hone]
    omega

theorem capacity_agrees_sampleUnit : CapacityAgrees (newStorageUnit sampleUnit 7) :=
  capacity_agrees (show ¬ sampleUnit.Invalid by decide)

end Winspd.Proofs
