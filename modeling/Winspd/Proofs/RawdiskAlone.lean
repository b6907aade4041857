import Winspd.Proofs.RawdiskOperations

/-!
# An operation of the raw disk, alone

When nothing comes between the accesses of an operation, and no access and no flush
fails, it does what a disk does: `diskData` is what it leaves in the data buffer, and
`diskAfter` are the bytes of the disk after it. Here the account of the program is what
is in the view.

`FSCTL_SET_ZERO_DATA` may fail. The zeros are copied then.
-/

namespace Winspd.Proofs

open Winspd.Lib Winspd.Sys Winspd.Shared Winspd.Rawdisk

variable {unit : StorageUnitParams} {rawDisk : RawDisk} {size : Nat} {dataBuffer : List UInt8}
  {blockAddress : UInt64} {blockCount : UInt32} {bytes : Nat → UInt8}

/-! ## A disk -/

instance (unit : StorageUnitParams) (dataBuffer : List UInt8) (j p : Nat) :
    Decidable (InDescriptor unit dataBuffer j p) := inferInstanceAs (Decidable (_ ∧ _))

def InBlocks (unit : StorageUnitParams) (blockAddress : UInt64) (blockCount : UInt32) (p : Nat) :
    Prop :=
  blockAddress.toNat * unit.blockLength.toNat ≤ p ∧
    p < (blockAddress.toNat + blockCount.toNat) * unit.blockLength.toNat

instance (unit : StorageUnitParams) (blockAddress : UInt64) (blockCount : UInt32) (p : Nat) :
    Decidable (InBlocks unit blockAddress blockCount p) := inferInstanceAs (Decidable (_ ∧ _))

/-- The bytes of a disk after an operation. -/
def diskAfter (unit : StorageUnitParams) (call : OperationCall) (dataBuffer : List UInt8)
    (bytes : Nat → UInt8) (p : Nat) : UInt8 :=
  match call with
  | .write blockAddress blockCount _ =>
      if InBlocks unit blockAddress blockCount p then
        dataBuffer.getD (p - blockAddress.toNat * unit.blockLength.toNat) 0
      else bytes p
  | .unmap count => if ∃ j < count.toNat, InDescriptor unit dataBuffer j p then 0 else bytes p
  | _ => bytes p

/-- What an operation leaves in the data buffer. -/
def diskData (unit : StorageUnitParams) (call : OperationCall) (dataBuffer : List UInt8)
    (bytes : Nat → UInt8) : List UInt8 :=
  match call with
  | .read blockAddress blockCount _ =>
      let n := blockCount.toNat * unit.blockLength.toNat
      (List.range n).map (fun k => bytes (blockAddress.toNat * unit.blockLength.toNat + k)) ++
        dataBuffer.drop n
  | _ => dataBuffer

/-- The blocks are blocks of the disk, and their bytes can be counted in 32 bits. -/
structure BlocksOk (unit : StorageUnitParams) (blockAddress : UInt64) (blockCount : UInt32) :
    Prop where
  inUnit : InUnit unit blockAddress blockCount
  lt : blockCount.toNat * unit.blockLength.toNat < 2 ^ 32

/-- The disk has the blocks, and the data buffer has room for them. -/
def CallOk (unit : StorageUnitParams) (call : OperationCall) (dataBuffer : List UInt8) : Prop :=
  match call with
  | .read blockAddress blockCount _ | .write blockAddress blockCount _ =>
      BlocksOk unit blockAddress blockCount ∧
        blockCount.toNat * unit.blockLength.toNat ≤ dataBuffer.length
  | .flush _ _ => True
  | .unmap count => ∀ j < count.toNat,
      BlocksOk unit (RawDisk.descriptor dataBuffer j).1 (RawDisk.descriptor dataBuffer j).2

/-! ## Accesses -/

/-- The access has not raised an exception, and the call has not failed. -/
def FileGood : (a : FileAction) → a.Answer → Prop
  | .load _, answer => ∃ byte, answer = .ok byte
  | .store .., answer => answer = .ok ()
  | .flushViewOfFile .., flushed => flushed = true
  | .flushFileBuffers, flushed => flushed = true
  | .setZeroData .., _ => True

/-- The account of a program is what is in the view. -/
def bytesRules : Rules FileAction FileAction.Answer (Nat → UInt8) where
  start := fun _ => 0
  track a answer bytes :=
    match a, answer with
    | .store offset byte, .ok () => Function.update bytes offset.toNat byte
    | .setZeroData fileOffset beyondFinalZero, true => fun p =>
        if fileOffset.toNat ≤ p ∧ p < beyondFinalZero.toNat then 0 else bytes p
    | _, _ => bytes
  May _ _ := True
  Answers bytes a answer :=
    match a, answer with
    | .load offset, answer => answer = .ok (bytes offset.toNat)
    | .store .., answer => answer = .ok ()
    | .flushViewOfFile .., flushed => flushed = true
    | .flushFileBuffers, flushed => flushed = true
    | .setZeroData .., _ => True
  Settled _ := True

variable {fileBuffer : UInt64} {start : Nat} {ks : List Nat} {dst : List UInt8}

/-- The bytes of `ks` are what is in the view. -/
theorem loadBytes_bytes (hoffset : ∀ k ∈ ks, (fileBuffer + UInt64.ofNat k).toNat = start + k) :
    bytesRules.Safe
      (fun x after => after = bytes ∧ x.2 = none ∧
        ∀ k, x.1[k]? = if k ∈ ks ∧ k < dst.length then some (bytes (start + k)) else dst[k]?)
      bytes (loadBytes fileBuffer ks dst) := by
  induction ks generalizing dst with
  | nil => exact ⟨rfl, rfl, fun k => (if_neg fun h => List.not_mem_nil h.1).symm⟩
  | cons k ks ih =>
      rw [List.forall_mem_cons] at hoffset
      refine Rules.Safe.perform_bind trivial fun answer hanswer => ?_
      have hbyte : answer = .ok (bytes (start + k)) := by
        rw [← hoffset.1]
        exact hanswer
      subst hbyte
      refine (ih hoffset.2).mono fun x after hx => ?_
      obtain ⟨rfl, hnone, hall⟩ := hx
      refine ⟨rfl, hnone, fun j => ?_⟩
      rw [hall j, List.length_set]
      by_cases hj : j ∈ ks
      · simp only [hj, List.mem_cons, or_true]
        by_cases hlt : j < dst.length
        · rw [if_pos ⟨trivial, hlt⟩, if_pos ⟨trivial, hlt⟩]
        · rw [if_neg fun h => hlt h.2, if_neg fun h => hlt h.2,
            List.getElem?_eq_none (by simpa using hlt), List.getElem?_eq_none (by omega)]
      · rw [if_neg fun h => hj h.1]
        by_cases hjk : j = k
        · subst hjk
          by_cases hlt : j < dst.length
          · rw [List.getElem?_set_self hlt, if_pos ⟨List.mem_cons_self, hlt⟩]
          · rw [if_neg fun h => hlt h.2, List.getElem?_eq_none (by simpa using hlt),
              List.getElem?_eq_none (by omega)]
        · rw [List.getElem?_set_ne (Ne.symm hjk), if_neg fun h => ?_]
          rcases List.mem_cons.mp h.1 with rfl | hmem
          · exact hjk rfl
          · exact hj hmem

/-- The bytes of `ks` are stored, and the others stay. -/
theorem storeBytes_bytes {src : Nat → UInt8}
    (hoffset : ∀ k ∈ ks, (fileBuffer + UInt64.ofNat k).toNat = start + k) :
    bytesRules.Safe
      (fun exception after => exception = none ∧
        ∀ p, after p = if start ≤ p ∧ p - start ∈ ks then src (p - start) else bytes p)
      bytes (storeBytes fileBuffer src ks) := by
  induction ks generalizing bytes with
  | nil => exact ⟨rfl, fun p => (if_neg fun h => List.not_mem_nil h.2).symm⟩
  | cons k ks ih =>
      rw [List.forall_mem_cons] at hoffset
      refine Rules.Safe.perform_bind trivial fun answer hanswer => ?_
      obtain rfl : answer = .ok () := hanswer
      refine (ih hoffset.2).mono fun exception after hx => ?_
      obtain ⟨hnone, hall⟩ := hx
      refine ⟨hnone, fun p => ?_⟩
      rw [hall p]
      show (if _ then _ else Function.update bytes (fileBuffer + UInt64.ofNat k).toNat (src k) p) =
          _
      rw [hoffset.1]
      by_cases hp : start ≤ p ∧ p - start ∈ ks
      · rw [if_pos hp, if_pos ⟨hp.1, List.mem_cons_of_mem _ hp.2⟩]
      · rw [if_neg hp]
        by_cases hk : p = start + k
        · have hsub : p - start = k := by omega
          rw [hk, Function.update_self, ← hk, hsub, if_pos ⟨by omega, List.mem_cons_self⟩]
        · rw [Function.update_of_ne hk, if_neg fun h => ?_]
          rcases List.mem_cons.mp h.2 with heq | hmem
          · exact hk (by omega)
          · exact hp ⟨h.1, hmem⟩

/-! ## The operations -/

variable {status : StorageUnitStatus} {order : MemcpyOrder} {flushFlag : Bool}

theorem flushInternal_bytes :
    bytesRules.Safe (fun status' after => status' = status ∧ after = bytes) bytes
      (rawDisk.flushInternal blockAddress blockCount status) := by
  refine Rules.Safe.perform_bind trivial fun flushedView hview => ?_
  obtain rfl : flushedView = true := hview
  refine Rules.Safe.perform_bind trivial fun flushedFile hfile => ?_
  obtain rfl : flushedFile = true := hfile
  exact ⟨rfl, rfl⟩

section Blocks

variable (hb : Backed unit rawDisk size) (hok : BlocksOk unit blockAddress blockCount)
include hb hok

theorem BlocksOk.toNat_length :
    (blockCount * rawDisk.blockLength).toNat = blockCount.toNat * unit.blockLength.toNat := by
  rw [hb.blockLength, UInt32.toNat_mul]
  exact Nat.mod_eq_of_lt hok.lt

theorem BlocksOk.mem_order {k : Nat} :
    k ∈ order.order (blockCount * rawDisk.blockLength).toNat ↔
      k < blockCount.toNat * unit.blockLength.toNat := by
  rw [(order.perm _).mem_iff, List.mem_range, hok.toNat_length hb]

theorem BlocksOk.offset {k : Nat}
    (hk : k ∈ order.order (blockCount * rawDisk.blockLength).toNat) :
    (rawDisk.fileBuffer blockAddress + UInt64.ofNat k).toNat =
      blockAddress.toNat * unit.blockLength.toNat + k :=
  hb.toNat_offset hok.inUnit ((hok.mem_order hb).mp hk)

theorem BlocksOk.inBlocks_iff {p : Nat} :
    InBlocks unit blockAddress blockCount p ↔
      blockAddress.toNat * unit.blockLength.toNat ≤ p ∧
        p - blockAddress.toNat * unit.blockLength.toNat ∈
          order.order (blockCount * rawDisk.blockLength).toNat := by
  rw [hok.mem_order hb, InBlocks, Nat.add_mul]
  omega

theorem readCopy_bytes (hroom : blockCount.toNat * unit.blockLength.toNat ≤ dataBuffer.length) :
    bytesRules.Safe
      (fun x after =>
        x = (true, status, diskData unit (.read blockAddress blockCount flushFlag)
          dataBuffer bytes) ∧
          after = bytes)
      bytes (rawDisk.readCopy order dataBuffer blockAddress blockCount status) := by
  refine Rules.Safe.bind (loadBytes_bytes fun k hk => hok.offset hb hk) fun x after hx => ?_
  obtain ⟨dst, exception⟩ := x
  obtain ⟨rfl, rfl, hall⟩ := hx
  refine ⟨?_, rfl⟩
  have hdst : dst = diskData unit (.read blockAddress blockCount flushFlag) dataBuffer after := by
    refine List.ext_getElem? fun k => ?_
    have hmem := @BlocksOk.mem_order unit rawDisk size blockAddress blockCount order hb hok k
    rw [hall k, diskData]
    by_cases hk : k < blockCount.toNat * unit.blockLength.toNat
    · rw [if_pos ⟨hmem.mpr hk, by omega⟩, List.getElem?_append_left (by simpa using hk),
        List.getElem?_map, List.getElem?_range hk]
      rfl
    · rw [if_neg fun h => hk (hmem.mp h.1), List.getElem?_append_right (by simpa using hk),
        List.length_map,
        List.length_range, List.getElem?_drop]
      congr 1
      omega
  rw [← hdst]
  rfl

theorem read_bytes (hgood : status.scsiStatus = scsistatGood)
    (hroom : blockCount.toNat * unit.blockLength.toNat ≤ dataBuffer.length) :
    bytesRules.Safe
      (fun x after =>
        x = (true, status, diskData unit (.read blockAddress blockCount flushFlag)
          dataBuffer bytes) ∧
          after = bytes)
      bytes (rawDisk.read order dataBuffer blockAddress blockCount flushFlag status) := by
  unfold RawDisk.read
  split
  · refine Rules.Safe.bind flushInternal_bytes fun status' after hx => ?_
    obtain ⟨rfl, rfl⟩ := hx
    rw [if_neg (not_not.mpr hgood)]
    exact readCopy_bytes hb hok hroom
  · exact readCopy_bytes hb hok hroom

theorem write_bytes (hgood : status.scsiStatus = scsistatGood) :
    bytesRules.Safe
      (fun x after => x = (true, status, dataBuffer) ∧
        after = diskAfter unit (.write blockAddress blockCount flushFlag) dataBuffer bytes)
      bytes (rawDisk.write order dataBuffer blockAddress blockCount flushFlag status) := by
  refine Rules.Safe.bind (storeBytes_bytes fun k hk => hok.offset hb hk)
    fun exception after hx => ?_
  obtain ⟨rfl, hall⟩ := hx
  have hafter :
      after = diskAfter unit (.write blockAddress blockCount flushFlag) dataBuffer bytes := by
    funext p
    rw [hall p, diskAfter]
    exact if_congr (hok.inBlocks_iff hb).symm rfl rfl
  dsimp only
  split
  · refine Rules.Safe.bind flushInternal_bytes fun status' after' hx => ?_
    obtain ⟨rfl, rfl⟩ := hx
    exact ⟨rfl, hafter⟩
  · exact ⟨rfl, hafter⟩

theorem zeroCopy_bytes :
    bytesRules.Safe
      (fun _ after => ∀ p, after p = if InBlocks unit blockAddress blockCount p then 0
        else bytes p)
      bytes (rawDisk.zeroCopy order blockAddress blockCount) := by
  refine Rules.Safe.bind (storeBytes_bytes fun k hk => hok.offset hb hk)
    fun exception after hx => ?_
  intro p
  rw [hx.2 p]
  exact if_congr (hok.inBlocks_iff hb).symm rfl rfl

theorem unmapBlocks_bytes :
    bytesRules.Safe
      (fun _ after => ∀ p, after p = if InBlocks unit blockAddress blockCount p then 0
        else bytes p)
      bytes (rawDisk.unmapBlocks order blockAddress blockCount) := by
  have hunit := hok.inUnit
  rw [InUnit] at hunit
  have hend : (blockAddress + blockCount.toUInt64).toNat =
      blockAddress.toNat + blockCount.toNat := by
    have hlt := unit.blockCount.toNat_lt
    rw [UInt64.toNat_add, UInt32.toNat_toUInt64]
    exact Nat.mod_eq_of_lt (by omega)
  unfold RawDisk.unmapBlocks
  split
  · refine Rules.Safe.perform_bind trivial fun setZero _ => ?_
    cases setZero with
    | false =>
        rw [if_pos rfl]
        exact zeroCopy_bytes hb hok
    | true =>
        rw [if_neg (fun h => by cases h)]
        intro p
        show (if (rawDisk.fileBuffer blockAddress).toNat ≤ p ∧ _ then _ else _) = _
        rw [hb.toNat_fileBuffer (by omega), hb.toNat_fileBuffer (by rw [hend]; exact hunit), hend]
        rfl
  · exact zeroCopy_bytes hb hok

end Blocks

theorem unmapDescriptors_bytes {i n : Nat} (hb : Backed unit rawDisk size)
    (hok : ∀ j < i + n, BlocksOk unit (RawDisk.descriptor dataBuffer j).1
      (RawDisk.descriptor dataBuffer j).2) :
    bytesRules.Safe
      (fun _ after => ∀ p, after p =
        if ∃ j < i + n, i ≤ j ∧ InDescriptor unit dataBuffer j p then 0 else bytes p)
      bytes (rawDisk.unmapDescriptors order dataBuffer i n) := by
  induction n generalizing i bytes with
  | zero =>
      intro p
      rw [if_neg]
      rintro ⟨j, hlt, hle, -⟩
      omega
  | succ n ih =>
      refine Rules.Safe.bind (unmapBlocks_bytes hb (hok i (by omega))) fun _ after hafter => ?_
      refine (ih fun j hj => hok j (by omega)).mono fun _ after' hx p => ?_
      rw [hx p, hafter p]
      by_cases hlater : ∃ j < i + 1 + n, i + 1 ≤ j ∧ InDescriptor unit dataBuffer j p
      · rw [if_pos hlater, if_pos]
        obtain ⟨j, hlt, hle, hin⟩ := hlater
        exact ⟨j, by omega, by omega, hin⟩
      · rw [if_neg hlater]
        refine if_congr ⟨fun hin => ⟨i, by omega, Nat.le_refl i, hin⟩, ?_⟩ rfl rfl
        rintro ⟨j, hlt, hle, hin⟩
        rcases Nat.eq_or_lt_of_le hle with rfl | hlt'
        · exact hin
        · exact absurd ⟨j, by omega, hlt', hin⟩ hlater

/-- Alone, and when nothing fails, an operation is the operation of a disk. -/
theorem operation_bytes {call : OperationCall} (hb : Backed unit rawDisk size)
    (hok : CallOk unit call dataBuffer) (hgood : status.scsiStatus = scsistatGood) :
    bytesRules.Safe
      (fun x after => x = (true, status, diskData unit call dataBuffer bytes) ∧
        after = diskAfter unit call dataBuffer bytes)
      bytes (rawDisk.operation order call status dataBuffer) := by
  cases call with
  | read blockAddress blockCount flushFlag => exact read_bytes hb hok.1 hgood hok.2
  | write blockAddress blockCount flushFlag => exact write_bytes hb hok.1 hgood
  | flush blockAddress blockCount =>
      refine Rules.Safe.bind flushInternal_bytes fun status' after hx => ?_
      obtain ⟨rfl, rfl⟩ := hx
      exact ⟨rfl, rfl⟩
  | unmap count =>
      refine Rules.Safe.bind (unmapDescriptors_bytes hb fun j hj => hok j (by omega))
        fun _ after hx => ⟨rfl, funext fun p => ?_⟩
      rw [hx p, diskAfter]
      refine if_congr ⟨?_, ?_⟩ rfl rfl
      · rintro ⟨j, hlt, -, hin⟩
        exact ⟨j, by omega, hin⟩
      · rintro ⟨j, hlt, hin⟩
        exact ⟨j, by omega, Nat.zero_le j, hin⟩

theorem length_diskData {call : OperationCall} (hok : CallOk unit call dataBuffer) :
    (diskData unit call dataBuffer bytes).length = dataBuffer.length := by
  cases call with
  | read blockAddress blockCount flushFlag =>
      have hroom := hok.2
      rw [diskData, List.length_append, List.length_map, List.length_range, List.length_drop]
      omega
  | write _ _ _ | flush _ _ | unmap _ => rfl

/-! ## Executions -/

/-- An action of an operation, when it does not fail. -/
def DiskExec (f : RawDiskFile) (a : FileAction) (answer : a.Answer) (f' : RawDiskFile) : Prop :=
  (∃ c, a.exec f c = some (f', answer)) ∧ FileGood a answer

theorem DiskExec.account {f f' : RawDiskFile} {a : FileAction} {answer : a.Answer}
    (h : DiskExec f a answer f') (hview : f.view = bytes) :
    bytesRules.Answers bytes a answer ∧ f'.view = bytesRules.track a answer bytes ∧
      f'.size = f.size := by
  obtain ⟨⟨c, hexec⟩, hgood⟩ := h
  subst hview
  cases a with
  | load offset =>
      obtain ⟨byte, rfl⟩ := hgood
      cases c <;> simp only [FileAction.exec, reduceCtorEq] at hexec
      · split at hexec
        · cases hexec
          exact ⟨rfl, rfl, rfl⟩
        · cases hexec
      · split at hexec <;> cases hexec
  | store offset byte =>
      obtain rfl : answer = .ok () := hgood
      cases c <;> simp only [FileAction.exec, reduceCtorEq] at hexec
      · split at hexec
        · cases hexec
          exact ⟨rfl, rfl, rfl⟩
        · cases hexec
      · split at hexec <;> cases hexec
  | flushViewOfFile offset length =>
      obtain rfl : answer = true := hgood
      cases c <;> simp only [FileAction.exec, reduceCtorEq] at hexec <;> cases hexec
      exact ⟨rfl, rfl, rfl⟩
  | flushFileBuffers =>
      obtain rfl : answer = true := hgood
      cases c <;> simp only [FileAction.exec, reduceCtorEq] at hexec <;> cases hexec
      exact ⟨rfl, rfl, rfl⟩
  | setZeroData fileOffset beyondFinalZero =>
      cases c <;> simp only [FileAction.exec, reduceCtorEq] at hexec <;> cases hexec <;>
        exact ⟨trivial, rfl, rfl⟩

theorem operation_runs {file file' : RawDiskFile} {call : OperationCall}
    {x : Bool × StorageUnitStatus × List UInt8} (hb : Backed unit rawDisk file.size)
    (hok : CallOk unit call dataBuffer) (hgood : status.scsiStatus = scsistatGood)
    (hrun : (rawDisk.operation order call status dataBuffer).Runs DiskExec file x file') :
    x = (true, status, diskData unit call dataBuffer file.view) ∧
      file'.view = diskAfter unit call dataBuffer file.view ∧ file'.size = file.size := by
  obtain ⟨after, ⟨hview, hsize⟩, hx, hafter⟩ := (operation_bytes hb hok hgood).runs
    (I := fun f bytes => f.view = bytes ∧ f.size = file.size) (fun hI _ hexec => by
      obtain ⟨hanswers, hview, hsize⟩ := DiskExec.account hexec hI.1
      exact ⟨hanswers, hview, hsize.trans hI.2⟩) hrun ⟨rfl, rfl⟩
  exact ⟨hx, hview.trans hafter, hsize⟩

end Winspd.Proofs
