import Winspd.Proofs.Requests

/-!
# Copies

Between the buffer of an SRB and user mode's buffer `Prepare` and `Complete`
copy a chunk of a READ or WRITE, or the descriptors of an UNMAP. Their lengths
come from the extension, where they were put when the SRB was posted, and from
`ChunkOffset`, which each answer moves on. `CopyBounds` is what these numbers
satisfy as long as the SRB is queued; `PrepareCopied` and `CompleteCopied` say
byte for byte what a call copies, so that no other byte is touched.
-/

namespace Winspd.Proofs

open Winspd.Lib Winspd.Sys Winspd.Spec

variable {disk : Disk} {s s' : UnitSys} {ev : UnitEvent} {ls : List UnitEvent} {mem m m' : ScsiMem}
  {ioqMem : SpdIoq} {unit : StorageUnitParams} {i : Item} {dataLength : UInt32}
  {rsp : TransactRsp} {ext : SrbExtension}

/-! ## The lengths -/

/-- The lengths of a queued SRB: nothing wraps, a chunk fits user mode's buffer,
and it is inside the SRB's. -/
structure CopyBounds (unit : StorageUnitParams) (m : ScsiMem) (i : Item) : Prop where
  offset_le : (m.ext i.ext).chunkOffset.toNat ≤ (m.ext i.ext).systemDataLength.toNat
  rest : ((m.ext i.ext).systemDataLength - (m.ext i.ext).chunkOffset).toNat =
    (m.ext i.ext).systemDataLength.toNat - (m.ext i.ext).chunkOffset.toNat
  next : ((m.ext i.ext).chunkOffset + chunkLength unit (m.ext i.ext)).toNat =
    (m.ext i.ext).chunkOffset.toNat + (chunkLength unit (m.ext i.ext)).toNat
  chunk_le : (chunkLength unit (m.ext i.ext)).toNat ≤ unit.maxTransferLength.toNat
  transfer : scsiOp (m.srb i.srb).cdb = .read ∨ scsiOp (m.srb i.srb).cdb = .write →
    (m.ext i.ext).chunkOffset.toNat + (chunkLength unit (m.ext i.ext)).toNat ≤
      (m.srb i.srb).dataTransferLength.toNat
  unmap : scsiOp (m.srb i.srb).cdb = .unmap →
    8 + (m.ext i.ext).systemDataLength.toNat ≤ (m.srb i.srb).dataTransferLength.toNat ∧
      (m.ext i.ext).systemDataLength.toNat ≤ unit.maxTransferLength.toNat

theorem PostOk.unmap_le {srb : Srb} (h : PostOk unit srb dataLength)
    (hop : scsiOp srb.cdb = .unmap) :
    8 + dataLength.toNat ≤ srb.dataTransferLength.toNat ∧
      dataLength.toNat ≤ unit.maxTransferLength.toNat ∧ dataLength ≠ 0 := by
  cases h with
  | read hop' => simp [hop'] at hop
  | write hop' => simp [hop'] at hop
  | synchronizeCache hop' => simp [hop'] at hop
  | unmap _ _ _ _ hlen hmax hzero _ hshort =>
      have height : (8 : UInt32).toNat = 8 := rfl
      rw [UInt32.lt_iff_toNat_lt, Nat.not_lt, UInt32.toNat_add] at hlen
      rw [gt_iff_lt, UInt32.lt_iff_toNat_lt, Nat.not_lt] at hmax
      exact ⟨by omega, hmax, hzero⟩

theorem Transfer.copyBounds (ht : Transfer unit m i dataLength) : CopyBounds unit m i := by
  have hchunk := ht.chunk
  have hlen := ht.systemDataLength
  have hle := ht.chunkOffset_add_le
  constructor
  case offset_le =>
    rw [hlen]
    exact ht.chunkOffset_le
  case rest =>
    refine UInt32.toNat_sub_of_le _ _ (UInt32.le_iff_toNat_le.mpr ?_)
    rw [hlen]
    exact ht.chunkOffset_le
  case next => exact ht.chunkOffset_add
  case chunk_le => omega
  case transfer =>
    intro hop
    exact hle.trans (ht.ok.length_le hop)
  case unmap =>
    intro hop
    obtain ⟨hroom, hmax, -⟩ := ht.ok.unmap_le hop
    rw [hlen]
    exact ⟨hroom, hmax⟩

/-! ## What a call copies -/

/-- The buffer of the SRB, of which nothing is read where there is none. -/
def srbBytes (m : ScsiMem) (a : Addr) : List UInt8 := (m.srb a).dataBuffer.getD []

/-- `Prepare` changes user mode's buffer from `buf` to `buf'`: the chunk of a
WRITE or the descriptors of an UNMAP come to its front. -/
structure PrepareCopied (m : ScsiMem) (i : Item) (unit : StorageUnitParams)
    (buf buf' : List UInt8) : Prop where
  write : scsiOp (m.srb i.srb).cdb = .write →
    buf' = ((srbBytes m i.srb).drop (m.ext i.ext).chunkOffset.toNat).take
        (chunkLength unit (m.ext i.ext)).toNat ++
      buf.drop (chunkLength unit (m.ext i.ext)).toNat
  unmap : scsiOp (m.srb i.srb).cdb = .unmap →
    buf' = ((List.range' 0 ((m.ext i.ext).systemDataLength.toNat / 16)).flatMap fun j =>
        unmapDescriptor (((srbBytes m i.srb).drop (8 + 16 * j)).take 16)) ++
      buf.drop (16 * ((m.ext i.ext).systemDataLength.toNat / 16))
  other : scsiOp (m.srb i.srb).cdb ≠ .write → scsiOp (m.srb i.srb).cdb ≠ .unmap → buf' = buf

/-- `Complete` changes the buffer of the SRB: the answer to a READ comes to
where the transfer got. -/
structure CompleteCopied (m : ScsiMem) (i : Item) (unit : StorageUnitParams) (rsp : TransactRsp)
    (buf : Option (List UInt8)) (m' : ScsiMem) : Prop where
  read : scsiOp (m.srb i.srb).cdb = .read → rsp.status.scsiStatus = scsistatGood →
    (m'.srb i.srb).dataBuffer = (m.srb i.srb).dataBuffer.map fun data =>
      data.take (m.ext i.ext).chunkOffset.toNat ++
        answeredBytes buf (chunkLength unit (m.ext i.ext)).toNat ++
        data.drop ((m.ext i.ext).chunkOffset.toNat + (chunkLength unit (m.ext i.ext)).toNat)
  other : ¬ (scsiOp (m.srb i.srb).cdb = .read ∧ rsp.status.scsiStatus = scsistatGood) →
    (m'.srb i.srb).dataBuffer = (m.srb i.srb).dataBuffer
  srbs : ∀ a ≠ i.srb, m'.srb a = m.srb a

theorem copyUnmapDescriptors_bytes {d : Nat → List UInt8} {buf : List UInt8} {j n : Nat}
    (hread : ∀ k, j ≤ k → k < j + n → m.readSystem ext (8 + 16 * k) 16 = some (d k))
    (hlen : 16 * (j + n) ≤ buf.length) :
    copyUnmapDescriptors m ext j n buf = some (buf.take (16 * j) ++
      ((List.range' j n).flatMap fun k => unmapDescriptor (d k)) ++ buf.drop (16 * (j + n))) := by
  induction n generalizing j buf with
  | zero =>
      rw [copyUnmapDescriptors, List.range'_zero, List.flatMap_nil, List.append_nil, Nat.add_zero,
        List.take_append_drop]
  | succ n ih =>
      have hd := hread j (Nat.le_refl j) (by omega)
      have hsize : (unmapDescriptor (d j)).length = 16 := by
        simp [unmapDescriptor, length_toLe]
      obtain ⟨buf₁, hwrite⟩ := exists_writeAt buf (16 * j) (unmapDescriptor (d j)) (by omega)
      have hfront := take_add_writeAt hwrite
      have hback := drop_writeAt hwrite (show 16 * j + (unmapDescriptor (d j)).length ≤
        16 * (j + 1 + n) by omega)
      have hlength := length_writeAt hwrite
      rw [hsize, show 16 * j + 16 = 16 * (j + 1) by omega] at hfront
      have hrest := ih (fun k hlo hhi => hread k (show j ≤ k by omega) (by omega))
        (show 16 * (j + 1 + n) ≤ buf₁.length by omega)
      rw [copyUnmapDescriptors]
      simp only [sizeofUnmapListHeader, sizeofUnmapBlockDescriptor, hd, hwrite,
        Option.bind_eq_bind, Option.bind_some, hrest]
      rw [hfront, hback, List.range'_succ, List.flatMap_cons, List.append_assoc (buf.take (16 * j)),
        show j + 1 + n = j + (n + 1) by omega]

theorem Transfer.readDescriptor {data : List UInt8} {j : Nat}
    (ht : Transfer unit m i dataLength) (hdata : (m.srb i.srb).dataBuffer = some data)
    (hzero : dataLength ≠ 0)
    (hinside : unmapOutside unit data 0 (dataLength / 16).toNat = some false)
    (hj : j < (dataLength / 16).toNat) :
    m.readSystem (m.ext i.ext) (8 + 16 * j) 16 =
      some (((srbBytes m i.srb).drop (8 + 16 * j)).take 16) := by
  obtain ⟨d, hd, -⟩ := unmapOutside_eq_false hinside j (Nat.zero_le j) (by omega)
  rw [ScsiMem.readSystem, if_neg (by decide), ht.systemDataBuffer hzero, if_neg ht.srb_ne, hdata,
    srbBytes, hdata, Option.getD_some]
  exact if_pos (readAt_eq_some.mp hd).1

theorem Transfer.prepareCopied {buf : List UInt8} {t : Transact}
    (ht : Transfer unit m i dataLength) (hu : UnitOk unit)
    (hlen : buf.length = unit.maxTransferLength.toNat)
    (h : spdSrbExecuteScsiPrepare i.ext i.srb ⟨m, .zero, buf⟩ = some t) :
    PrepareCopied m i unit buf t.dataBuffer := by
  cases hok : ht.ok with
  | read hop hrange =>
      rw [ht.prepare_read hu hop hrange, Option.some.injEq] at h
      subst h
      exact ⟨fun hw => by simp [hop] at hw, fun hm => by simp [hop] at hm, fun _ _ => rfl⟩
  | write hop _ hrange =>
      rw [ht.prepare_write_eq hu hop hrange hlen, Option.some.injEq] at h
      subst h
      exact ⟨fun _ => rfl, fun hm => by simp [hop] at hm, fun hw _ => absurd hop hw⟩
  | synchronizeCache hop _ _ hrange =>
      rw [prepare_flush hop hrange, Option.some.injEq] at h
      subst h
      exact ⟨fun hw => by simp [hop] at hw, fun hm => by simp [hop] at hm, fun _ _ => rfl⟩
  | unmap hop _ _ hbuf _ hmax hzero hinside =>
      have hcount : (dataLength / 16).toNat = dataLength.toNat / 16 := UInt32.toNat_div ..
      rw [gt_iff_lt, UInt32.lt_iff_toNat_lt, Nat.not_lt] at hmax
      have hcopy := copyUnmapDescriptors_bytes
        (fun k _ hk => ht.readDescriptor hbuf hzero hinside (by omega))
        (show 16 * (0 + (dataLength / 16).toNat) ≤ buf.length by omega)
      simp only [spdSrbExecuteScsiPrepare, hop, ht.systemDataLength, hcopy, Option.bind_eq_bind,
        Option.bind_some, Option.some.injEq] at h
      subst h
      refine ⟨fun hw => by simp [hop] at hw, fun _ => ?_, fun _ hm => absurd hop hm⟩
      rw [ht.systemDataLength, ← hcount, Nat.mul_zero, List.take_zero, List.nil_append,
        Nat.zero_add]

theorem Transfer.completeCopied {buf : Option (List UInt8)} {status : UInt8}
    (ht : Transfer unit m i dataLength)
    (hlen : ∀ data, buf = some data → data.length = unit.maxTransferLength.toNat)
    (h : spdSrbExecuteScsiComplete rsp buf i.ext i.srb m = some (status, m')) :
    CompleteCopied m i unit rsp buf m' := by
  obtain ⟨status', m₁, hcomplete, hframe, -⟩ := ht.complete rsp hlen
  rw [h, Option.some.injEq, Prod.mk.injEq] at hcomplete
  obtain ⟨rfl, rfl⟩ := hcomplete
  by_cases hgood : rsp.status.scsiStatus = scsistatGood
  · by_cases hread : scsiOp (m.srb i.srb).cdb = .read
    · rw [ht.complete_read_eq hgood hread hlen, Option.some.injEq, Prod.mk.injEq] at h
      obtain ⟨-, rfl⟩ := h
      refine ⟨fun _ _ => ?_, fun hno => absurd ⟨hread, hgood⟩ hno, hframe.srb⟩
      rw [ScsiMem.setExt_srb, ScsiMem.setSrb_srb, Function.update_self]
    · refine ⟨fun hr => absurd hr hread, fun _ => ?_, hframe.srb⟩
      cases ht.ok with
      | read hop => exact absurd hop hread
      | write hop =>
          rw [ht.complete_write hgood hop, Option.some.injEq, Prod.mk.injEq] at h
          obtain ⟨-, rfl⟩ := h
          rfl
      | synchronizeCache hop =>
          rw [complete_other hgood (.inl hop), Option.some.injEq, Prod.mk.injEq] at h
          obtain ⟨-, rfl⟩ := h
          rfl
      | unmap hop =>
          rw [complete_other hgood (.inr hop), Option.some.injEq, Prod.mk.injEq] at h
          obtain ⟨-, rfl⟩ := h
          rfl
  · refine ⟨fun _ hg => absurd hg hgood, fun _ => ?_, hframe.srb⟩
    simp only [spdSrbExecuteScsiComplete, if_pos hgood, Option.bind_eq_bind,
      Option.bind_eq_some_iff] at h
    obtain ⟨⟨_, srb'⟩, herr, h⟩ := h
    cases h
    rw [ScsiMem.setSrb_srb, Function.update_self, spdScsiErrorEx_srb herr]

/-! ## Every copy -/

/-- What every queued SRB and every call of `Prepare` and `Complete` satisfies in
the state `s`. -/
structure CopiesInside (disk : Disk) (s : UnitSys) : Prop where
  bounds : ∀ i ∈ s.live, CopyBounds disk.unit.storageUnitParams s.mem i
  prepare : ∀ {ev s' e a}, UnitStep disk s ev s' → .prepare e a ∈ ev.calls →
    ⟨e, a⟩ ∈ s.live ∧ ∃ buf req buf', ev.op = .transactReq buf ∧
      buf.length = disk.unit.storageUnitParams.maxTransferLength.toNat ∧
      ev.handed = some (req, buf') ∧ s'.mem = s.mem ∧
      PrepareCopied s.mem ⟨e, a⟩ disk.unit.storageUnitParams buf buf'
  complete : ∀ {ev s' e a status}, UnitStep disk s ev s' → .complete e a status ∈ ev.calls →
    ⟨e, a⟩ ∈ s.live ∧ ∃ rsp buf, ev.op = .transactRsp rsp buf ∧
      (∀ data, buf = some data →
        data.length = disk.unit.storageUnitParams.maxTransferLength.toNat) ∧
      CompleteCopied s.mem ⟨e, a⟩ disk.unit.storageUnitParams rsp buf s'.mem

/-- In every reachable state the copies to and from an SRB's data stay inside its buffer
and user mode's, and copy each byte to its place. -/
theorem unit_copies_inside (hvalid : ¬ disk.unit.storageUnitParams.Invalid)
    (hrun : Run (UnitStep disk) (.create mem ioqMem) ls s) : CopiesInside disk s := by
  obtain ⟨q, hinv⟩ := unitRun_inv hrun
  have hitems : ∀ {i}, i ∈ s.live ↔ i ∈ q.items := hinv.good.items.mem_iff.symm
  constructor
  case bounds =>
    intro i hi
    obtain ⟨dataLength, ht⟩ := hinv.transfers i (hitems.mp hi)
    exact ht.copyBounds
  case prepare =>
    intro ev s' e a h hcall
    have hallowed := h.allowed
    obtain ⟨q', -, hc⟩ := hinv.step h
    obtain ⟨buf, t, hop, hi, hprep, hhanded, hmem⟩ := hc.prepare_mem hcall
    rw [hop] at hallowed
    have hq : ⟨e, a⟩ ∈ q.items := List.mem_append_left _ hi
    obtain ⟨dataLength, ht⟩ := hinv.transfers _ hq
    exact ⟨hitems.mpr hq, buf, t.req, t.dataBuffer, hop, hallowed, hhanded, hmem,
      ht.prepareCopied (unitOk_of_valid hvalid) hallowed hprep⟩
  case complete =>
    intro ev s' e a status h hcall
    have hallowed := h.allowed
    obtain ⟨q', -, hc⟩ := hinv.step h
    obtain ⟨rsp, buf, hop, hi, hcomplete, -⟩ := hc.complete_mem hcall
    rw [hop] at hallowed
    have hq : ⟨e, a⟩ ∈ q.items := List.mem_append_right _ hi
    obtain ⟨dataLength, ht⟩ := hinv.transfers _ hq
    exact ⟨hitems.mpr hq, rsp, buf, hop, hallowed, ht.completeCopied hallowed hcomplete⟩

/-- A READ of three blocks that was just posted. -/
theorem unit_copies_inside_read : ∃ s,
    Run (UnitStep sampleDisk) (.create (sampleMem sampleRead) zeroedIoq)
      [⟨.startIo 0x2000 sampleRead .success, [], none⟩] s ∧
    s.live = [⟨0x1000, 0x2000⟩] ∧ CopiesInside sampleDisk s := by
  obtain ⟨r, h, hr⟩ :
      ∃ r, UnitOp.exec sampleDisk (sampleMem sampleRead) (spdIoqCreate zeroedIoq)
      (.startIo 0x2000 sampleRead .success) = some r ∧ r.2.2 = ([], none) := ⟨_, rfl, rfl⟩
  obtain ⟨m, ioq, calls, handed⟩ := r
  cases hr
  have hstep : UnitStep sampleDisk (.create (sampleMem sampleRead) zeroedIoq)
      ⟨.startIo 0x2000 sampleRead .success, [], none⟩ ⟨m, ioq, [⟨0x1000, 0x2000⟩]⟩ :=
    ⟨⟨by decide, by decide, fun j hj => (by cases hj), sampleRead_mapped⟩, h, rfl⟩
  exact ⟨_, .single hstep, rfl, unit_copies_inside sampleDisk_valid (.single hstep)⟩

end Winspd.Proofs
