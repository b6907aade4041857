import Winspd.Lib.Pieces
import Winspd.Proofs.UnitRun

/-!
# The transfer of one SRB

`Transfer` is what a queued SRB and its extension satisfy between the calls
that work on them: the SRB still passes the checks it was posted with, the
extension is the one the post filled in, and `ChunkOffset` is at the start of
a chunk that is still to do. `Prepare` and `Complete` recompute the length of
that chunk on their own and agree on it (`Transfer.chunk`), so an answer that
leaves something to do leaves a transfer again (`Transfer.repost`).

`AllowedRequest` is what the unit's parameters ask of a request, and
`Transfer.prepare` is that every request meets it.
-/

namespace Winspd.Proofs

open Winspd.Lib Winspd.Sys Winspd.Spec

variable {unit : StorageUnitParams} {m m' : ScsiMem} {i : Item} {dataLength : UInt32}
  {rsp : TransactRsp} {buf : Option (List UInt8)} {status : UInt8} {ext : SrbExtension}

/-! ## Units -/

/-- What the transfers rely on of the unit's parameters. -/
structure UnitOk (unit : StorageUnitParams) : Prop where
  blockLength : 16 ≤ unit.blockLength.toNat
  maxTransferLength : 0 < unit.maxTransferLength.toNat
  dvd : unit.blockLength.toNat ∣ unit.maxTransferLength.toNat

theorem unitOk_of_valid (h : ¬ unit.Invalid) : UnitOk unit := by
  unfold StorageUnitParams.Invalid at h
  simp only [not_or, not_not] at h
  obtain ⟨-, -, hblock, -, hmax, hmod⟩ := h
  refine ⟨?_, ?_, ?_⟩
  · rw [gt_iff_lt, UInt32.lt_iff_toNat_lt, Nat.not_lt] at hblock
    exact hblock
  · rw [← UInt32.toNat_inj] at hmax
    exact Nat.pos_of_ne_zero hmax
  · rw [← UInt32.toNat_inj, UInt32.toNat_mod] at hmod
    exact Nat.dvd_of_mod_eq_zero hmod

/-! ## The invariant -/

/-- The SRB and the extension of a queued item. -/
structure Transfer (unit : StorageUnitParams) (m : ScsiMem) (i : Item) (dataLength : UInt32) :
    Prop where
  srb_ne : i.srb ≠ 0
  miniportContext : (m.srb i.srb).miniportContext = i.ext
  ok : PostOk unit (m.srb i.srb) dataLength
  ext : m.ext i.ext =
    { postedExt unit i.srb dataLength with chunkOffset := (m.ext i.ext).chunkOffset }
  mapped : dataLength ≠ 0 → ∃ data, (m.srb i.srb).dataBuffer = some data ∧
    (m.srb i.srb).dataTransferLength.toNat ≤ data.length
  sense : ∀ data, (m.srb i.srb).senseInfoBuffer = some data →
    (m.srb i.srb).senseInfoBufferLength.toNat ≤ data.length
  aligned : unit.maxTransferLength.toNat ∣ (m.ext i.ext).chunkOffset.toNat
  inside : (m.ext i.ext).chunkOffset.toNat < dataLength.toNat ∨ (m.ext i.ext).chunkOffset = 0

theorem Transfer.congr (ht : Transfer unit m i dataLength) (hs : m'.srb i.srb = m.srb i.srb)
    (he : m'.ext i.ext = m.ext i.ext) : Transfer unit m' i dataLength := by
  obtain ⟨h₁, h₂, h₃, h₄, h₅, h₆, h₇, h₈⟩ := ht
  rw [← hs] at h₂ h₃ h₅ h₆
  rw [← he] at h₄ h₇ h₈
  exact ⟨h₁, h₂, h₃, h₄, h₅, h₆, h₇, h₈⟩

theorem postedExt_storageUnit {a : Addr} : (postedExt unit a dataLength).storageUnit = unit := by
  unfold postedExt
  split <;> rfl

theorem postedExt_systemDataBuffer {a : Addr} (h : dataLength ≠ 0) :
    (postedExt unit a dataLength).systemDataBuffer = a := by
  rw [postedExt, if_pos h]

theorem postedExt_chunkOffset {a : Addr} : (postedExt unit a dataLength).chunkOffset = 0 := by
  unfold postedExt
  split <;> rfl

theorem PostOk.length_le {srb : Srb} (h : PostOk unit srb dataLength)
    (hop : scsiOp srb.cdb = .read ∨ scsiOp srb.cdb = .write) :
    dataLength.toNat ≤ srb.dataTransferLength.toNat := by
  cases h with
  | read _ _ hlen => rwa [UInt32.lt_iff_toNat_lt, Nat.not_lt] at hlen
  | write _ _ _ hlen => rwa [UInt32.lt_iff_toNat_lt, Nat.not_lt] at hlen
  | synchronizeCache hop' => simp [hop'] at hop
  | unmap hop' => simp [hop'] at hop

theorem transfer_posted {a : Addr} {srb : Srb} {storResult : StorStatus}
    (ha : a ≠ 0) (hmap : Mapped storResult srb) (hok : PostOk unit srb dataLength)
    (hstor : dataLength ≠ 0 → storResult = .success) :
    Transfer unit ((m.setSrb a srb).setExt srb.miniportContext (postedExt unit a dataLength))
      ⟨srb.miniportContext, a⟩ dataLength := by
  have hsrb : ((m.setSrb a srb).setExt srb.miniportContext
      (postedExt unit a dataLength)).srb a = srb := Function.update_self _ _ _
  have hext : ((m.setSrb a srb).setExt srb.miniportContext
      (postedExt unit a dataLength)).ext srb.miniportContext = postedExt unit a dataLength :=
    Function.update_self _ _ _
  refine ⟨ha, by rw [hsrb], by rwa [hsrb], ?_, ?_, by rw [hsrb]; exact hmap.sense, ?_, ?_⟩
  · rw [hext]
  · rw [hsrb]
    intro hne
    have hsome : ∃ data, srb.dataBuffer = some data := by
      cases hok with
      | unmap _ _ _ hbuf => exact ⟨_, hbuf⟩
      | synchronizeCache => exact absurd rfl hne
      | read _ _ hlen =>
          refine Option.ne_none_iff_exists'.mp (hmap.mapped (hstor hne) fun h => hlen ?_)
          rw [h, UInt32.lt_iff_toNat_lt]
          exact Nat.pos_of_ne_zero fun h0 => hne (UInt32.toNat_inj.mp h0)
      | write _ _ _ hlen =>
          refine Option.ne_none_iff_exists'.mp (hmap.mapped (hstor hne) fun h => hlen ?_)
          rw [h, UInt32.lt_iff_toNat_lt]
          exact Nat.pos_of_ne_zero fun h0 => hne (UInt32.toNat_inj.mp h0)
    obtain ⟨data, hdata⟩ := hsome
    exact ⟨data, hdata, hmap.data data hdata⟩
  · rw [hext, postedExt_chunkOffset]
    exact Nat.dvd_zero _
  · rw [hext, postedExt_chunkOffset]
    exact .inr rfl

section Chunk

variable (ht : Transfer unit m i dataLength)
include ht

theorem Transfer.storageUnit : (m.ext i.ext).storageUnit = unit := by
  rw [ht.ext]
  exact postedExt_storageUnit

theorem Transfer.systemDataLength : (m.ext i.ext).systemDataLength = dataLength := by
  rw [ht.ext]
  exact postedExt_length

theorem Transfer.systemDataBuffer (h : dataLength ≠ 0) :
    (m.ext i.ext).systemDataBuffer = i.srb := by
  rw [ht.ext]
  exact postedExt_systemDataBuffer h

theorem Transfer.chunkOffset_le : (m.ext i.ext).chunkOffset.toNat ≤ dataLength.toNat := by
  rcases ht.inside with h | h
  · exact Nat.le_of_lt h
  · rw [h]
    exact Nat.zero_le _

/-- The chunk both `Prepare` and `Complete` compute. -/
theorem Transfer.chunk : (chunkLength unit (m.ext i.ext)).toNat =
    min unit.maxTransferLength.toNat
      (dataLength.toNat - (m.ext i.ext).chunkOffset.toNat) := by
  have hsub : (dataLength - (m.ext i.ext).chunkOffset).toNat =
      dataLength.toNat - (m.ext i.ext).chunkOffset.toNat :=
    UInt32.toNat_sub_of_le _ _ (UInt32.le_iff_toNat_le.mpr ht.chunkOffset_le)
  rw [chunkLength, ht.systemDataLength]
  simp only [gt_iff_lt, UInt32.lt_iff_toNat_lt, hsub]
  split <;> omega

theorem Transfer.chunkOffset_add : ((m.ext i.ext).chunkOffset +
    chunkLength unit (m.ext i.ext)).toNat =
      (m.ext i.ext).chunkOffset.toNat + (chunkLength unit (m.ext i.ext)).toNat := by
  have hc := ht.chunk
  have hle := ht.chunkOffset_le
  have hlt := dataLength.toNat_lt
  rw [UInt32.toNat_add]
  omega

theorem Transfer.chunkOffset_add_le : (m.ext i.ext).chunkOffset.toNat +
    (chunkLength unit (m.ext i.ext)).toNat ≤ dataLength.toNat := by
  have hc := ht.chunk
  have hle := ht.chunkOffset_le
  omega

end Chunk

/-! ## Requests -/

/-- The block address and the block count of a `SPD_IOCTL_UNMAP_DESCRIPTOR`. -/
def descriptorBlockAddress (d : List UInt8) : Nat := ofLe (d.take 8)
def descriptorBlockCount (d : List UInt8) : Nat := ofLe ((d.drop 8).take 4)

/-- A request the unit allows, with the data buffer that goes with it. -/
def AllowedRequest (unit : StorageUnitParams) (r : Request) : Prop :=
  match r.1.op with
  | .reserved => False
  | .read blockAddress blockCount forceUnitAccess =>
      InUnit unit blockAddress blockCount ∧
        blockCount.toNat ≤ unit.maxTransferLength.toNat / unit.blockLength.toNat ∧
        (unit.cacheSupported = false → forceUnitAccess = true)
  | .write blockAddress blockCount forceUnitAccess =>
      unit.writeProtected = false ∧ InUnit unit blockAddress blockCount ∧
        blockCount.toNat ≤ unit.maxTransferLength.toNat / unit.blockLength.toNat ∧
        (unit.cacheSupported = false → forceUnitAccess = true)
  | .flush blockAddress blockCount =>
      unit.writeProtected = false ∧ unit.cacheSupported = true ∧
        InUnit unit blockAddress blockCount
  | .unmap count =>
      unit.writeProtected = false ∧ unit.unmapSupported = true ∧
        count.toNat ≤ unit.maxTransferLength.toNat / 16 ∧
        ∀ j < count.toNat, ∃ d, readAt r.2 (16 * j) 16 = some d ∧
          descriptorBlockAddress d + descriptorBlockCount d ≤ unit.blockCount.toNat

theorem div_add_div_le {c l n b : Nat} (h : c + l ≤ n * b) : c / b + l / b ≤ n :=
  (Nat.div_add_div_le_add_div).trans (Nat.div_le_of_le_mul (by rwa [Nat.mul_comm]))

/-- The blocks of a chunk are blocks of the range it is cut from. -/
theorem inUnit_chunk {range : CdbRange} {c l : UInt32}
    (hunit : InUnit unit range.blockAddress range.blockCount)
    (hle : c.toNat + l.toNat ≤ (range.blockCount * unit.blockLength).toNat) :
    (range.blockAddress + (c / unit.blockLength).toUInt64).toNat =
        range.blockAddress.toNat + c.toNat / unit.blockLength.toNat ∧
      InUnit unit (range.blockAddress + (c / unit.blockLength).toUInt64)
        (l / unit.blockLength) := by
  rw [UInt32.toNat_mul] at hle
  have hblocks := div_add_div_le (hle.trans (Nat.mod_le _ _))
  have hlt := unit.blockCount.toNat_lt
  rw [InUnit] at hunit
  have haddr : (range.blockAddress + (c / unit.blockLength).toUInt64).toNat =
      range.blockAddress.toNat + c.toNat / unit.blockLength.toNat := by
    rw [UInt64.toNat_add, UInt32.toNat_toUInt64, UInt32.toNat_div]
    have hstart := (Nat.le_add_right _ _).trans hblocks
    exact Nat.mod_eq_of_lt (by omega)
  refine ⟨haddr, ?_⟩
  rw [InUnit, haddr, UInt32.toNat_div]
  omega

/-- The request `Prepare` makes of a chunk of a READ or WRITE. -/
def chunkReq (op : UInt64 → UInt32 → Bool → TransactOp) (unit : StorageUnitParams)
    (range : CdbRange) (e : Addr) (ext : SrbExtension) : TransactReq :=
  ⟨e, op (range.blockAddress + (ext.chunkOffset / unit.blockLength).toUInt64)
    (chunkLength unit ext / unit.blockLength)
    (if unit.cacheSupported then range.forceUnitAccess else true)⟩

section Prepare

variable (ht : Transfer unit m i dataLength) (hu : UnitOk unit) {dataBuffer : List UInt8}
  {range : CdbRange}
include ht hu

omit ht in
theorem UnitOk.blockLength_ne : unit.blockLength ≠ 0 := by
  intro h
  have hle := hu.blockLength
  rw [h] at hle
  exact absurd hle (by decide)

theorem Transfer.prepare_read (hop : scsiOp (m.srb i.srb).cdb = .read)
    (hrange : spdCdbGetRange (m.srb i.srb).cdb = some range) :
    spdSrbExecuteScsiPrepare i.ext i.srb ⟨m, .zero, dataBuffer⟩ =
      some ⟨m, chunkReq .read unit range i.ext (m.ext i.ext), dataBuffer⟩ := by
  simp only [spdSrbExecuteScsiPrepare, hop, hrange, ht.storageUnit, if_neg hu.blockLength_ne,
    Option.bind_eq_bind, Option.bind_some]
  rfl

omit hu in
theorem Transfer.readSystem {data : List UInt8}
    (hop : scsiOp (m.srb i.srb).cdb = .read ∨ scsiOp (m.srb i.srb).cdb = .write)
    (hdata : dataLength ≠ 0 → (m.srb i.srb).dataBuffer = some data) :
    m.readSystem (m.ext i.ext) (m.ext i.ext).chunkOffset.toNat
        (chunkLength unit (m.ext i.ext)).toNat =
      some ((data.drop (m.ext i.ext).chunkOffset.toNat).take
        (chunkLength unit (m.ext i.ext)).toNat) := by
  have hle := ht.chunkOffset_add_le
  unfold ScsiMem.readSystem
  split
  · next h0 => rw [h0, List.take_zero]
  · next h0 =>
      have hne : dataLength ≠ 0 := by
        intro h
        rw [h] at hle
        exact h0 (Nat.le_zero.mp ((Nat.le_add_left _ _).trans hle))
      obtain ⟨data', hdata', hlen⟩ := ht.mapped hne
      rw [hdata hne, Option.some.injEq] at hdata'
      subst hdata'
      rw [ht.systemDataBuffer hne, if_neg ht.srb_ne, hdata hne]
      exact if_pos (hle.trans ((ht.ok.length_le hop).trans hlen))

omit hu in
theorem Transfer.chunk_le_length {data : List UInt8}
    (hop : scsiOp (m.srb i.srb).cdb = .read ∨ scsiOp (m.srb i.srb).cdb = .write)
    (hdata : (m.srb i.srb).dataBuffer = some data) :
    (m.ext i.ext).chunkOffset.toNat + (chunkLength unit (m.ext i.ext)).toNat ≤ data.length := by
  have hle := ht.chunkOffset_add_le
  by_cases h0 : dataLength = 0
  · rw [h0] at hle
    exact (Nat.le_zero.mp hle).le.trans (Nat.zero_le _)
  · obtain ⟨data', hdata', hroom⟩ := ht.mapped h0
    rw [hdata, Option.some.injEq] at hdata'
    subst hdata'
    exact hle.trans ((ht.ok.length_le hop).trans hroom)

omit hu in
theorem Transfer.length_chunkBytes
    (hop : scsiOp (m.srb i.srb).cdb = .read ∨ scsiOp (m.srb i.srb).cdb = .write) :
    ((((m.srb i.srb).dataBuffer.getD []).drop (m.ext i.ext).chunkOffset.toNat).take
      (chunkLength unit (m.ext i.ext)).toNat).length =
        (chunkLength unit (m.ext i.ext)).toNat := by
  rw [List.length_take, List.length_drop]
  cases hdata : (m.srb i.srb).dataBuffer with
  | some data =>
      have hle := ht.chunk_le_length hop hdata
      rw [Option.getD_some]
      omega
  | none =>
      have hle := ht.chunkOffset_add_le
      have h0 : dataLength = 0 := by
        by_contra hne
        obtain ⟨data, hdata', -⟩ := ht.mapped hne
        rw [hdata] at hdata'
        cases hdata'
      have hzero : dataLength.toNat = 0 := by
        rw [h0]
        rfl
      omega

/-- A WRITE's chunk is copied to the front of user mode's buffer. -/
theorem Transfer.prepare_write_eq (hop : scsiOp (m.srb i.srb).cdb = .write)
    (hrange : spdCdbGetRange (m.srb i.srb).cdb = some range)
    (hlen : dataBuffer.length = unit.maxTransferLength.toNat) :
    spdSrbExecuteScsiPrepare i.ext i.srb ⟨m, .zero, dataBuffer⟩ =
        some ⟨m, chunkReq .write unit range i.ext (m.ext i.ext),
          (((m.srb i.srb).dataBuffer.getD []).drop (m.ext i.ext).chunkOffset.toNat).take
              (chunkLength unit (m.ext i.ext)).toNat ++
            dataBuffer.drop (chunkLength unit (m.ext i.ext)).toNat⟩ := by
  have hchunk := ht.chunk
  have hsome : dataLength ≠ 0 → (m.srb i.srb).dataBuffer =
      some ((m.srb i.srb).dataBuffer.getD []) := by
    intro hne
    obtain ⟨data, hdata, -⟩ := ht.mapped hne
    rw [hdata, Option.getD_some]
  have hread := ht.readSystem (.inr hop) hsome
  have hsize := ht.length_chunkBytes (.inr hop)
  have hwrite : writeAt dataBuffer 0
      ((((m.srb i.srb).dataBuffer.getD []).drop (m.ext i.ext).chunkOffset.toNat).take
        (chunkLength unit (m.ext i.ext)).toNat) = some
      ((((m.srb i.srb).dataBuffer.getD []).drop (m.ext i.ext).chunkOffset.toNat).take
          (chunkLength unit (m.ext i.ext)).toNat ++
        dataBuffer.drop (chunkLength unit (m.ext i.ext)).toNat) := by
    rw [writeAt_eq_some, hsize]
    exact ⟨by omega, by rw [List.take_zero, List.nil_append, Nat.zero_add]⟩
  simp only [spdSrbExecuteScsiPrepare, hop, hrange, ht.storageUnit, if_neg hu.blockLength_ne,
    hread, hwrite, Option.bind_eq_bind, Option.bind_some]
  rfl

theorem Transfer.prepare_write (hop : scsiOp (m.srb i.srb).cdb = .write)
    (hrange : spdCdbGetRange (m.srb i.srb).cdb = some range)
    (hlen : dataBuffer.length = unit.maxTransferLength.toNat) :
    ∃ dataBuffer', spdSrbExecuteScsiPrepare i.ext i.srb ⟨m, .zero, dataBuffer⟩ =
        some ⟨m, chunkReq .write unit range i.ext (m.ext i.ext), dataBuffer'⟩ ∧
      ∀ data, (m.srb i.srb).dataBuffer = some data →
        dataBuffer'.take (chunkLength unit (m.ext i.ext)).toNat =
          (data.drop (m.ext i.ext).chunkOffset.toNat).take
            (chunkLength unit (m.ext i.ext)).toNat := by
  refine ⟨_, ht.prepare_write_eq hu hop hrange hlen, fun data hdata => ?_⟩
  have hsize := ht.length_chunkBytes (.inr hop)
  rw [hdata, Option.getD_some] at hsize ⊢
  exact List.take_left' hsize

omit ht hu in
theorem prepare_flush (hop : scsiOp (m.srb i.srb).cdb = .synchronizeCache)
    (hrange : spdCdbGetRange (m.srb i.srb).cdb = some range) :
    spdSrbExecuteScsiPrepare i.ext i.srb ⟨m, .zero, dataBuffer⟩ =
      some ⟨m, ⟨i.ext, .flush range.blockAddress range.blockCount⟩, dataBuffer⟩ := by
  simp only [spdSrbExecuteScsiPrepare, hop, hrange, Option.bind_eq_bind, Option.bind_some]

end Prepare

/-! ## UNMAP -/

theorem unmapOutside_eq_false {buf : List UInt8} {j₀ n : Nat}
    (h : unmapOutside unit buf j₀ n = some false) (j : Nat) (hlo : j₀ ≤ j)
    (hhi : j < j₀ + n) :
    ∃ d, unmapBlockDescriptor buf j = some d ∧ InUnit unit (startingLba d) (lbaCount d) := by
  induction n generalizing j₀ with
  | zero => omega
  | succ n ih =>
      unfold unmapOutside at h
      simp only [Option.bind_eq_bind, Option.bind_eq_some_iff] at h
      obtain ⟨d, hd, h⟩ := h
      split at h
      · cases h
      · next hin =>
          rcases Nat.eq_or_lt_of_le hlo with rfl | hlt
          · exact ⟨d, hd, inUnit_iff.mpr hin⟩
          · exact ih h hlt (by omega)

/-- The copied descriptors are the ones of the list, one after another. -/
theorem copyUnmapDescriptors_eq {P : List UInt8 → Prop} {dataBuffer : List UInt8} {j₀ n : Nat}
    (hread : ∀ j, j₀ ≤ j → j < j₀ + n →
      ∃ d, m.readSystem ext (8 + 16 * j) 16 = some d ∧ P d)
    (hlen : 16 * (j₀ + n) ≤ dataBuffer.length) :
    ∃ dataBuffer', copyUnmapDescriptors m ext j₀ n dataBuffer = some dataBuffer' ∧
      (∀ j < j₀, readAt dataBuffer' (16 * j) 16 = readAt dataBuffer (16 * j) 16) ∧
      ∀ j, j₀ ≤ j → j < j₀ + n → ∃ d, readAt dataBuffer' (16 * j) 16 =
        some (unmapDescriptor d) ∧ P d := by
  induction n generalizing j₀ dataBuffer with
  | zero => exact ⟨dataBuffer, rfl, fun _ _ => rfl, fun j hlo hhi => by omega⟩
  | succ n ih =>
      obtain ⟨d, hd, hP⟩ := hread j₀ (Nat.le_refl _) (by omega)
      have hsize : (unmapDescriptor d).length = 16 := by
        simp [unmapDescriptor, length_toLe]
      obtain ⟨dataBuffer₁, hwrite⟩ : ∃ dataBuffer₁,
          writeAt dataBuffer (16 * j₀) (unmapDescriptor d) = some dataBuffer₁ :=
        exists_writeAt _ _ _ (by omega)
      have hself := readAt_writeAt hwrite
      rw [hsize] at hself
      obtain ⟨dataBuffer', hcopy, hbefore, hafter⟩ := ih
        (fun j hlo hhi => hread j (show j₀ ≤ j by omega) (by omega))
        (show 16 * (j₀ + 1 + n) ≤ dataBuffer₁.length by rw [length_writeAt hwrite]; omega)
      refine ⟨dataBuffer', ?_, ?_, ?_⟩
      · rw [copyUnmapDescriptors]
        simp only [sizeofUnmapListHeader, sizeofUnmapBlockDescriptor, hd, hwrite,
          Option.bind_eq_bind, Option.bind_some, hcopy]
      · intro j hj
        rw [hbefore j (by omega), readAt_writeAt_before hwrite (by omega)]
      · intro j hlo hhi
        rcases Nat.eq_or_lt_of_le hlo with rfl | hlt
        · exact ⟨d, by rw [hbefore j₀ (Nat.lt_succ_self _), hself], hP⟩
        · exact hafter j hlt (by omega)

theorem descriptorBlockAddress_unmapDescriptor (d : List UInt8) :
    descriptorBlockAddress (unmapDescriptor d) = (startingLba d).toNat := by
  have hlt := (startingLba d).toNat_lt
  rw [descriptorBlockAddress, unmapDescriptor, List.append_assoc,
    List.take_left' (length_toLe 8 _), ofLe_toLe]
  exact Nat.mod_eq_of_lt (by omega)

theorem descriptorBlockCount_unmapDescriptor (d : List UInt8) :
    descriptorBlockCount (unmapDescriptor d) = (lbaCount d).toNat := by
  have hlt := (lbaCount d).toNat_lt
  rw [descriptorBlockCount, unmapDescriptor, List.append_assoc,
    List.drop_left' (length_toLe 8 _), List.take_left' (length_toLe 4 _), ofLe_toLe]
  exact Nat.mod_eq_of_lt (by omega)

theorem Transfer.prepare_unmap {dataBuffer data : List UInt8}
    (ht : Transfer unit m i dataLength)
    (hop : scsiOp (m.srb i.srb).cdb = .unmap) (hdata : (m.srb i.srb).dataBuffer = some data)
    (hzero : dataLength ≠ 0) (hmax : dataLength.toNat ≤ unit.maxTransferLength.toNat)
    (hinside : unmapOutside unit data 0 (dataLength / 16).toNat = some false)
    (hlen : dataBuffer.length = unit.maxTransferLength.toNat) :
    ∃ dataBuffer', spdSrbExecuteScsiPrepare i.ext i.srb ⟨m, .zero, dataBuffer⟩ =
        some ⟨m, ⟨i.ext, .unmap (dataLength / 16)⟩, dataBuffer'⟩ ∧
      ∀ j < (dataLength / 16).toNat, ∃ d, readAt dataBuffer' (16 * j) 16 = some d ∧
        descriptorBlockAddress d + descriptorBlockCount d ≤ unit.blockCount.toNat := by
  have hcount : (dataLength / 16).toNat = dataLength.toNat / 16 := UInt32.toNat_div _ _
  have hread : ∀ j, 0 ≤ j → j < 0 + (dataLength / 16).toNat →
      ∃ d, m.readSystem (m.ext i.ext) (8 + 16 * j) 16 = some d ∧
        InUnit unit (startingLba d) (lbaCount d) := by
    intro j hlo hhi
    obtain ⟨d, hd, hin⟩ := unmapOutside_eq_false hinside j hlo hhi
    refine ⟨d, ?_, hin⟩
    rw [ScsiMem.readSystem, ht.systemDataBuffer hzero, if_neg (by decide), if_neg ht.srb_ne, hdata]
    exact hd
  obtain ⟨dataBuffer', hcopy, -, hall⟩ := copyUnmapDescriptors_eq hread
    (show 16 * (0 + (dataLength / 16).toNat) ≤ dataBuffer.length by omega)
  refine ⟨dataBuffer', ?_, ?_⟩
  · simp only [spdSrbExecuteScsiPrepare, hop, ht.systemDataLength, hcopy, Option.bind_eq_bind,
      Option.bind_some]
  · intro j hj
    obtain ⟨d, hd, hin⟩ := hall j (Nat.zero_le _) (by omega)
    refine ⟨unmapDescriptor d, hd, ?_⟩
    rw [descriptorBlockAddress_unmapDescriptor, descriptorBlockCount_unmapDescriptor]
    exact hin

/-! ## What Prepare makes -/

theorem Transfer.blocks_le (ht : Transfer unit m i dataLength) :
    (chunkLength unit (m.ext i.ext) / unit.blockLength).toNat ≤
      unit.maxTransferLength.toNat / unit.blockLength.toNat := by
  have hchunk := ht.chunk
  rw [UInt32.toNat_div]
  exact Nat.div_le_div_right (by omega)

/-- Every queued SRB can be made a request, and the unit allows it. -/
theorem Transfer.prepare {dataBuffer : List UInt8} (ht : Transfer unit m i dataLength)
    (hu : UnitOk unit) (hlen : dataBuffer.length = unit.maxTransferLength.toNat) :
    ∃ t, spdSrbExecuteScsiPrepare i.ext i.srb ⟨m, .zero, dataBuffer⟩ = some t ∧
      t.req.hint = i.ext ∧ AllowedRequest unit (t.req, t.dataBuffer) := by
  have hcount := ht.blocks_le
  have hle := ht.chunkOffset_add_le
  have hfua : ∀ b : Bool, unit.cacheSupported = false →
      (if unit.cacheSupported then b else true) = true := by
    intro b hcache
    rw [hcache]
    rfl
  cases hok : ht.ok with
  | read hop hrange _ _ hunit =>
      exact ⟨_, ht.prepare_read hu hop hrange, rfl,
        (inUnit_chunk hunit hle).2, hcount, hfua _⟩
  | write hop hwp hrange _ _ hunit =>
      obtain ⟨dataBuffer', hprep, -⟩ := ht.prepare_write hu hop hrange hlen
      exact ⟨_, hprep, rfl, hwp, (inUnit_chunk hunit hle).2, hcount, hfua _⟩
  | synchronizeCache hop hcache hwp hrange _ hunit =>
      exact ⟨_, prepare_flush hop hrange, rfl, hwp, hcache, hunit⟩
  | unmap hop hunmap hwp hbuf _ hmax hzero hinside =>
      rw [gt_iff_lt, UInt32.lt_iff_toNat_lt, Nat.not_lt] at hmax
      obtain ⟨dataBuffer', hprep, hall⟩ :=
        ht.prepare_unmap hop hbuf hzero hmax hinside hlen
      refine ⟨_, hprep, rfl, hwp, hunmap, ?_, hall⟩
      rw [UInt32.toNat_div]
      exact Nat.div_le_div_right hmax

/-! ## Answers -/

def nextChunk (unit : StorageUnitParams) (ext : SrbExtension) : SrbExtension :=
  { ext with chunkOffset := ext.chunkOffset + chunkLength unit ext }

/-- The status of a transfer after a chunk was answered. -/
def chunkStatus (unit : StorageUnitParams) (ext : SrbExtension) : UInt8 :=
  if ext.chunkOffset + chunkLength unit ext ≥ ext.systemDataLength then srbStatusSuccess
  else srbStatusPending

/-- What the answer to a READ puts into the SRB: zeros, if it came without a
buffer. -/
def answeredBytes (buf : Option (List UInt8)) (len : Nat) : List UInt8 :=
  match buf with
  | some data => data.take len
  | none => List.replicate len 0

theorem length_answeredBytes {len : Nat} (h : ∀ data, buf = some data → len ≤ data.length) :
    (answeredBytes buf len).length = len := by
  cases buf with
  | none => exact List.length_replicate
  | some data =>
      rw [answeredBytes, List.length_take]
      exact Nat.min_eq_left (h data rfl)

theorem chunkStatus_cases (unit : StorageUnitParams) (ext : SrbExtension) :
    (chunkStatus unit ext = srbStatusSuccess ∧
        ext.systemDataLength.toNat ≤ (ext.chunkOffset + chunkLength unit ext).toNat) ∨
      (chunkStatus unit ext = srbStatusPending ∧
        (ext.chunkOffset + chunkLength unit ext).toNat < ext.systemDataLength.toNat) := by
  unfold chunkStatus
  split
  · next h => exact .inl ⟨rfl, UInt32.le_iff_toNat_le.mp h⟩
  · next h => exact .inr ⟨rfl, by rwa [ge_iff_le, UInt32.le_iff_toNat_le, Nat.not_le] at h⟩

theorem exists_spdScsiErrorEx {srb : Srb} (senseKey asc ascq : UInt8)
    (information : Option UInt64)
    (hsense : ∀ data, srb.senseInfoBuffer = some data →
      srb.senseInfoBufferLength.toNat ≤ data.length) :
    ∃ r, spdScsiErrorEx srb senseKey asc ascq information = some r := by
  unfold spdScsiErrorEx
  split
  · exact ⟨_, rfl⟩
  · next data hdata =>
      split
      · next hroom =>
          have hle := hsense data hdata
          have hsize : (senseData senseKey asc ascq information).length = sizeofSenseData := rfl
          obtain ⟨data₁, h₁⟩ := exists_writeAt data 0
            (List.replicate srb.senseInfoBufferLength.toNat 0) (by simpa using hle)
          obtain ⟨data₂, h₂⟩ := exists_writeAt data₁ 0
            (senseData senseKey asc ascq information) (by rw [length_writeAt h₁, hsize]; omega)
          simp only [h₁, h₂, Option.bind_eq_bind, Option.bind_some]
          exact ⟨_, rfl⟩
      · exact ⟨_, rfl⟩

section Complete

variable (ht : Transfer unit m i dataLength)
include ht

theorem Transfer.complete_error (buf : Option (List UInt8))
    (hbad : rsp.status.scsiStatus ≠ scsistatGood) :
    ∃ status srb', spdSrbExecuteScsiComplete rsp buf i.ext i.srb m =
        some (status, m.setSrb i.srb srb') ∧ srbStatus status = srbStatusError := by
  obtain ⟨⟨status, srb'⟩, herr⟩ := exists_spdScsiErrorEx rsp.status.senseKey rsp.status.asc
    rsp.status.ascq
    (if rsp.status.informationValid then some rsp.status.information else none) ht.sense
  refine ⟨status, srb', ?_, spdScsiErrorEx_status herr⟩
  simp only [spdSrbExecuteScsiComplete, if_pos hbad, herr, Option.bind_eq_bind, Option.bind_some]

theorem Transfer.complete_write (hgood : rsp.status.scsiStatus = scsistatGood)
    (hop : scsiOp (m.srb i.srb).cdb = .write) :
    spdSrbExecuteScsiComplete rsp buf i.ext i.srb m =
      some (chunkStatus unit (m.ext i.ext), m.setExt i.ext (nextChunk unit (m.ext i.ext))) := by
  obtain rfl := ht.storageUnit
  simp only [spdSrbExecuteScsiComplete, if_neg (not_not.mpr hgood), hop]
  rfl

omit ht in
theorem complete_other (hgood : rsp.status.scsiStatus = scsistatGood)
    (hop : scsiOp (m.srb i.srb).cdb = .synchronizeCache ∨ scsiOp (m.srb i.srb).cdb = .unmap) :
    spdSrbExecuteScsiComplete rsp buf i.ext i.srb m = some (srbStatusSuccess, m) := by
  rcases hop with hop | hop <;>
    simp only [spdSrbExecuteScsiComplete, if_neg (not_not.mpr hgood), hop]

/-- The answer to a READ is copied to where the transfer got. -/
theorem Transfer.complete_read_eq (hgood : rsp.status.scsiStatus = scsistatGood)
    (hop : scsiOp (m.srb i.srb).cdb = .read)
    (hlen : ∀ data, buf = some data → data.length = unit.maxTransferLength.toNat) :
    spdSrbExecuteScsiComplete rsp buf i.ext i.srb m =
      some (chunkStatus unit (m.ext i.ext),
        (m.setSrb i.srb
          { m.srb i.srb with
            dataBuffer := (m.srb i.srb).dataBuffer.map fun data =>
              data.take (m.ext i.ext).chunkOffset.toNat ++
                answeredBytes buf (chunkLength unit (m.ext i.ext)).toNat ++
                data.drop ((m.ext i.ext).chunkOffset.toNat +
                  (chunkLength unit (m.ext i.ext)).toNat) }).setExt i.ext
          (nextChunk unit (m.ext i.ext))) := by
  have hchunk := ht.chunk
  have hle := ht.chunkOffset_add_le
  have hsize := length_answeredBytes (show
    ∀ data, buf = some data → (chunkLength unit (m.ext i.ext)).toNat ≤ data.length from
      fun data hdata => by rw [hlen data hdata]; omega)
  have hcomplete : ∀ srb', m.writeSystem (m.ext i.ext) (m.ext i.ext).chunkOffset.toNat
      (answeredBytes buf (chunkLength unit (m.ext i.ext)).toNat) = some (m.setSrb i.srb srb') →
      spdSrbExecuteScsiComplete rsp buf i.ext i.srb m =
        some (chunkStatus unit (m.ext i.ext),
          (m.setSrb i.srb srb').setExt i.ext (nextChunk unit (m.ext i.ext))) := by
    intro srb' hwrite
    obtain rfl := ht.storageUnit
    cases buf with
    | none =>
        simp only [answeredBytes] at hwrite
        simp only [spdSrbExecuteScsiComplete, if_neg (not_not.mpr hgood), hop, hwrite,
          Option.bind_eq_bind, Option.bind_some]
        rfl
    | some data =>
        have hdata := hlen data rfl
        have hread : readAt data 0 (chunkLength (m.ext i.ext).storageUnit (m.ext i.ext)).toNat =
            some (data.take (chunkLength (m.ext i.ext).storageUnit (m.ext i.ext)).toNat) :=
          if_pos (by omega)
        simp only [answeredBytes] at hwrite
        simp only [spdSrbExecuteScsiComplete, if_neg (not_not.mpr hgood), hop, hread, hwrite,
          Option.bind_eq_bind, Option.bind_some]
        rfl
  refine hcomplete _ ?_
  by_cases h0 : (chunkLength unit (m.ext i.ext)).toNat = 0
  · -- a transfer of no bytes
    have hnil := List.eq_nil_of_length_eq_zero (hsize.trans h0)
    have hkeep : ((m.srb i.srb).dataBuffer.map fun data =>
        data.take (m.ext i.ext).chunkOffset.toNat ++
          answeredBytes buf (chunkLength unit (m.ext i.ext)).toNat ++
          data.drop ((m.ext i.ext).chunkOffset.toNat +
            (chunkLength unit (m.ext i.ext)).toNat)) = (m.srb i.srb).dataBuffer := by
      cases hdata : (m.srb i.srb).dataBuffer with
      | none => rfl
      | some data =>
          rw [Option.map_some, hnil, h0, Nat.add_zero, List.append_nil, List.take_append_drop]
    rw [hkeep, ScsiMem.writeSystem, if_pos hnil, ScsiMem.setSrb, Function.update_eq_self]
  · have hne : dataLength ≠ 0 := by
      intro h
      rw [h] at hle
      exact h0 (Nat.le_zero.mp ((Nat.le_add_left _ _).trans hle))
    obtain ⟨data, hdata, hroom⟩ := ht.mapped hne
    have hfit := ht.ok.length_le (.inl hop)
    have hnil : answeredBytes buf (chunkLength unit (m.ext i.ext)).toNat ≠ [] := by
      intro h
      rw [h] at hsize
      exact h0 hsize.symm
    have hwrite : writeAt data (m.ext i.ext).chunkOffset.toNat
        (answeredBytes buf (chunkLength unit (m.ext i.ext)).toNat) =
          some (data.take (m.ext i.ext).chunkOffset.toNat ++
            answeredBytes buf (chunkLength unit (m.ext i.ext)).toNat ++
            data.drop ((m.ext i.ext).chunkOffset.toNat +
              (chunkLength unit (m.ext i.ext)).toNat)) := by
      rw [writeAt_eq_some, hsize]
      exact ⟨by omega, rfl⟩
    rw [ScsiMem.writeSystem, if_neg hnil, ht.systemDataBuffer hne, if_neg ht.srb_ne]
    simp only [hdata, hwrite, Option.bind_eq_bind, Option.bind_some, Option.map_some]

theorem Transfer.complete_read (hgood : rsp.status.scsiStatus = scsistatGood)
    (hop : scsiOp (m.srb i.srb).cdb = .read)
    (hlen : ∀ data, buf = some data → data.length = unit.maxTransferLength.toNat) :
    ∃ srb', spdSrbExecuteScsiComplete rsp buf i.ext i.srb m =
        some (chunkStatus unit (m.ext i.ext),
          (m.setSrb i.srb srb').setExt i.ext (nextChunk unit (m.ext i.ext))) ∧
      srb' = { m.srb i.srb with dataBuffer := srb'.dataBuffer } ∧
      ∀ data, (m.srb i.srb).dataBuffer = some data → ∃ data', srb'.dataBuffer = some data' ∧
        data'.length = data.length ∧
        data'.take ((m.ext i.ext).chunkOffset.toNat + (chunkLength unit (m.ext i.ext)).toNat) =
          data.take (m.ext i.ext).chunkOffset.toNat ++
            answeredBytes buf (chunkLength unit (m.ext i.ext)).toNat := by
  refine ⟨_, ht.complete_read_eq hgood hop hlen, rfl, fun data hdata => ?_⟩
  have hchunk := ht.chunk
  have hle := ht.chunk_le_length (.inl hop) hdata
  have hsize := length_answeredBytes (show
    ∀ data, buf = some data → (chunkLength unit (m.ext i.ext)).toNat ≤ data.length from
      fun data hdata => by rw [hlen data hdata]; omega)
  have hfront : (data.take (m.ext i.ext).chunkOffset.toNat ++
      answeredBytes buf (chunkLength unit (m.ext i.ext)).toNat).length =
        (m.ext i.ext).chunkOffset.toNat + (chunkLength unit (m.ext i.ext)).toNat := by
    rw [List.length_append, List.length_take, hsize]
    omega
  refine ⟨_, by rw [hdata, Option.map_some], ?_, List.take_left' hfront⟩
  rw [List.length_append, hfront, List.length_drop]
  omega

theorem Transfer.chunk_eq (hlt : (m.ext i.ext).chunkOffset.toNat +
    (chunkLength unit (m.ext i.ext)).toNat < dataLength.toNat) :
    (chunkLength unit (m.ext i.ext)).toNat = unit.maxTransferLength.toNat := by
  have hchunk := ht.chunk
  omega

theorem Transfer.advance (srb' : Srb)
    (hsrb : srb' = { m.srb i.srb with dataBuffer := srb'.dataBuffer })
    (hok : PostOk unit srb' dataLength)
    (hdata : ∀ data, (m.srb i.srb).dataBuffer = some data →
      ∃ data', srb'.dataBuffer = some data' ∧ data'.length = data.length)
    (hlt : (m.ext i.ext).chunkOffset.toNat + (chunkLength unit (m.ext i.ext)).toNat <
      dataLength.toNat) :
    Transfer unit ((m.setSrb i.srb srb').setExt i.ext (nextChunk unit (m.ext i.ext))) i
      dataLength := by
  have hs : ((m.setSrb i.srb srb').setExt i.ext (nextChunk unit (m.ext i.ext))).srb i.srb =
      srb' := Function.update_self _ _ _
  have he : ((m.setSrb i.srb srb').setExt i.ext (nextChunk unit (m.ext i.ext))).ext i.ext =
      nextChunk unit (m.ext i.ext) := Function.update_self _ _ _
  have hadd := ht.chunkOffset_add
  refine ⟨ht.srb_ne, ?_, by rwa [hs], ?_, ?_, ?_, ?_, ?_⟩
  · rw [hs, hsrb]
    exact ht.miniportContext
  · rw [he, nextChunk]
    rw [ht.ext]
  · intro hne
    obtain ⟨data, hsome, hlen⟩ := ht.mapped hne
    obtain ⟨data', hsome', hlength⟩ := hdata data hsome
    rw [hs]
    refine ⟨data', hsome', ?_⟩
    rw [hlength, hsrb]
    exact hlen
  · rw [hs, hsrb]
    exact ht.sense
  · rw [he, nextChunk, hadd, ht.chunk_eq hlt]
    exact Nat.dvd_add ht.aligned (Nat.dvd_refl _)
  · rw [he, nextChunk, hadd]
    exact .inl hlt

/-- An answer is taken in, touches no other SRB, and leaves a transfer if it
leaves the SRB pending. -/
theorem Transfer.complete (rsp : TransactRsp)
    (hlen : ∀ data, buf = some data → data.length = unit.maxTransferLength.toNat) :
    ∃ status m', spdSrbExecuteScsiComplete rsp buf i.ext i.srb m = some (status, m') ∧
      Frame i.srb i.ext m m' ∧ (status = srbStatusPending → Transfer unit m' i dataLength) := by
  have hadd := ht.chunkOffset_add
  by_cases hgood : rsp.status.scsiStatus = scsistatGood
  · have hlt : chunkStatus unit (m.ext i.ext) = srbStatusPending →
        (m.ext i.ext).chunkOffset.toNat + (chunkLength unit (m.ext i.ext)).toNat <
          dataLength.toNat := by
      intro hpend
      obtain ⟨hst, -⟩ | ⟨-, hlt⟩ := chunkStatus_cases unit (m.ext i.ext)
      · rw [hst] at hpend
        exact absurd hpend (by decide)
      · rwa [hadd, ht.systemDataLength] at hlt
    cases hok : ht.ok with
    | read hop hrange hfit hcount hunit =>
        obtain ⟨srb', hcomplete, hsrb, hdata⟩ := ht.complete_read hgood hop hlen
        refine ⟨_, _, hcomplete, Frame.setSrb.trans Frame.setExt, fun hpend => ?_⟩
        refine ht.advance srb' hsrb ?_ (fun data hd => ?_) (hlt hpend)
        · rw [hsrb]
          exact .read hop hrange hfit hcount hunit
        · obtain ⟨data', hd', hlength, -⟩ := hdata data hd
          exact ⟨data', hd', hlength⟩
    | write hop hwp hrange hfit hcount hunit =>
        refine ⟨_, _, ht.complete_write hgood hop, Frame.setExt, fun hpend => ?_⟩
        have htransfer := ht.advance (m.srb i.srb) rfl
          (.write hop hwp hrange hfit hcount hunit) (fun data hd => ⟨data, hd, rfl⟩) (hlt hpend)
        rwa [ScsiMem.setSrb, Function.update_eq_self] at htransfer
    | synchronizeCache hop =>
        exact ⟨_, _, complete_other hgood (.inl hop), Frame.refl, fun h => absurd h (by decide)⟩
    | unmap hop =>
        exact ⟨_, _, complete_other hgood (.inr hop), Frame.refl, fun h => absurd h (by decide)⟩
  · obtain ⟨status, srb', hcomplete, hst⟩ := ht.complete_error buf hgood
    refine ⟨status, _, hcomplete, Frame.setSrb, fun hpend => ?_⟩
    rw [hpend] at hst
    exact absurd hst (by decide)

end Complete

end Winspd.Proofs
