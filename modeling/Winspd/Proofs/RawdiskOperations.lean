import Winspd.Proofs.Transfer
import Winspd.Rawdisk.Rawdisk

/-!
# What the raw disk does for a request

The operations, one thread at a time. An operation that works for a request
touches no byte of the file but those the request is about (`Request.Reads`,
`Request.Writes`), whatever the file system answers, so it stays in the view. And
with the status GOOD it has done what was asked of it (`Fulfilled`): every byte of a
read was loaded at the offset of its block and put into its place, every byte of a
write was stored, and a flush came after.

`Fulfilled` is about the accesses and the system calls that were made for the request,
in order, because other threads make theirs between them.
-/

namespace Winspd.Proofs

open Winspd.Lib Winspd.Sys Winspd.Shared Winspd.Rawdisk

/-! ## Requests -/

/-- The file has the blocks of the unit. -/
structure Backed (unit : StorageUnitParams) (rawDisk : RawDisk) (size : Nat) : Prop where
  unitOk : UnitOk unit
  blockLength : rawDisk.blockLength = unit.blockLength
  size_eq : size = unit.blockCount.toNat * unit.blockLength.toNat
  size_lt : size < 2 ^ 63

/-- The request is to read the byte at `p`, for the `k`-th byte of the buffer. -/
def ReadsAt (unit : StorageUnitParams) (r : Proofs.Request) (p k : Nat) : Prop :=
  match r.1.op with
  | .read blockAddress blockCount _ =>
      k < blockCount.toNat * unit.blockLength.toNat ∧
        p = blockAddress.toNat * unit.blockLength.toNat + k
  | _ => False

/-- The offset is in the blocks of the `j`-th descriptor. -/
def InDescriptor (unit : StorageUnitParams) (dataBuffer : List UInt8) (j p : Nat) : Prop :=
  let d := RawDisk.descriptor dataBuffer j
  d.1.toNat * unit.blockLength.toNat ≤ p ∧ p < (d.1.toNat + d.2.toNat) * unit.blockLength.toNat

/-- The request asks for `byte` at `p`. -/
def WritesAt (unit : StorageUnitParams) (r : Proofs.Request) (p : Nat) (byte : UInt8) : Prop :=
  match r.1.op with
  | .write blockAddress blockCount _ =>
      ∃ k < blockCount.toNat * unit.blockLength.toNat,
        p = blockAddress.toNat * unit.blockLength.toNat + k ∧ r.2[k]? = some byte
  | .unmap count => byte = 0 ∧ ∃ j < count.toNat, InDescriptor unit r.2 j p
  | _ => False

/-- What may be done to the file for the request. -/
def FileMay (unit : StorageUnitParams) (r : Proofs.Request) : FileAction → Prop
  | .load offset => ∃ k, ReadsAt unit r offset.toNat k
  | .store offset byte => WritesAt unit r offset.toNat byte
  | .setZeroData fileOffset beyondFinalZero =>
      ∀ p, fileOffset.toNat ≤ p → p < beyondFinalZero.toNat → WritesAt unit r p 0
  | _ => True

/-- An access or a system call, with its answer. -/
abbrev FileEvent := (a : FileAction) × a.Answer

def loaded (p : UInt64) (byte : UInt8) : FileEvent := ⟨.load p, .ok byte⟩
def stored (p : UInt64) (byte : UInt8) : FileEvent := ⟨.store p byte, .ok ()⟩

/-- `FlushViewOfFile` and `FlushFileBuffers` of these blocks. -/
def flushed (rawDisk : RawDisk) (blockAddress : UInt64) (blockCount : UInt32) : List FileEvent :=
  [⟨.flushViewOfFile (rawDisk.fileBuffer blockAddress)
      (blockCount * rawDisk.blockLength), true⟩,
    ⟨.flushFileBuffers, true⟩]

/-- What was done for the request is what it asks for, and what is in `dataBuffer`. -/
def Fulfilled (unit : StorageUnitParams) (rawDisk : RawDisk) (r : Proofs.Request)
    (dataBuffer : List UInt8) (events : List FileEvent) : Prop :=
  match r.1.op with
  | .read blockAddress blockCount _ =>
      ∀ k < blockCount.toNat * unit.blockLength.toNat, ∃ byte, dataBuffer[k]? = some byte ∧
        loaded (rawDisk.fileBuffer blockAddress + UInt64.ofNat k) byte ∈ events
  | .write blockAddress blockCount forceUnitAccess => ∃ before after, events = before ++ after ∧
      (∀ k < blockCount.toNat * unit.blockLength.toNat, ∃ byte, r.2[k]? = some byte ∧
        stored (rawDisk.fileBuffer blockAddress + UInt64.ofNat k) byte ∈ before) ∧
      (forceUnitAccess = true → after = flushed rawDisk blockAddress blockCount)
  | .flush blockAddress blockCount => events = flushed rawDisk blockAddress blockCount
  | _ => True

variable {unit : StorageUnitParams} {rawDisk : RawDisk} {size : Nat} {r : Proofs.Request}
  {blockAddress : UInt64} {blockCount : UInt32} {k p : Nat} {byte : UInt8}

section Offsets

variable (hb : Backed unit rawDisk size)
include hb

theorem Backed.bytes_le {a c : Nat} (h : a + c ≤ unit.blockCount.toNat) :
    a * unit.blockLength.toNat + c * unit.blockLength.toNat ≤ size := by
  rw [← Nat.add_mul, hb.size_eq]
  exact Nat.mul_le_mul_right _ h

theorem Backed.toNat_fileBuffer (h : blockAddress.toNat ≤ unit.blockCount.toNat) :
    (rawDisk.fileBuffer blockAddress).toNat =
      blockAddress.toNat * unit.blockLength.toNat := by
  have hle := hb.bytes_le (a := blockAddress.toNat) (c := 0) (by omega)
  have hlt := hb.size_lt
  rw [RawDisk.fileBuffer, hb.blockLength, UInt64.toNat_mul, UInt32.toNat_toUInt64]
  exact Nat.mod_eq_of_lt (by omega)

theorem Backed.toNat_offset (h : InUnit unit blockAddress blockCount)
    (hk : k < blockCount.toNat * unit.blockLength.toNat) :
    (rawDisk.fileBuffer blockAddress + UInt64.ofNat k).toNat =
      blockAddress.toNat * unit.blockLength.toNat + k := by
  have hle := hb.bytes_le h
  have hlt := hb.size_lt
  rw [UInt64.toNat_add, hb.toNat_fileBuffer ((Nat.le_add_right _ _).trans h),
    UInt64.toNat_ofNat_of_lt' (show k < 2 ^ 64 by omega)]
  exact Nat.mod_eq_of_lt (by omega)

omit hb in
/-- The bytes of a chunk are no more than `MaxTransferLength`. -/
theorem chunkBytes_le
    (hcount : blockCount.toNat ≤ unit.maxTransferLength.toNat / unit.blockLength.toNat) :
    blockCount.toNat * unit.blockLength.toNat ≤ unit.maxTransferLength.toNat :=
  calc
    blockCount.toNat * unit.blockLength.toNat ≤
        unit.maxTransferLength.toNat / unit.blockLength.toNat * unit.blockLength.toNat :=
      Nat.mul_le_mul_right _ hcount
    _ ≤ unit.maxTransferLength.toNat := Nat.div_mul_le_self _ _

theorem Backed.toNat_length
    (hcount : blockCount.toNat ≤ unit.maxTransferLength.toNat / unit.blockLength.toNat) :
    (blockCount * rawDisk.blockLength).toNat =
      blockCount.toNat * unit.blockLength.toNat := by
  have hle := chunkBytes_le hcount
  have hlt := unit.maxTransferLength.toNat_lt
  rw [hb.blockLength, UInt32.toNat_mul]
  exact Nat.mod_eq_of_lt (by omega)

end Offsets

theorem AllowedRequest.reads_lt (hb : Backed unit rawDisk size) (h : AllowedRequest unit r)
    (hr : ReadsAt unit r p k) : p < size := by
  unfold ReadsAt at hr
  split at hr
  · next blockAddress blockCount _ heq =>
      rw [AllowedRequest, heq] at h
      have hle := hb.bytes_le h.1
      omega
  · exact hr.elim

theorem descriptor_of_readAt {dataBuffer d : List UInt8} {j : Nat}
    (h : readAt dataBuffer (16 * j) 16 = some d) :
    (RawDisk.descriptor dataBuffer j).1.toNat = descriptorBlockAddress d ∧
      (RawDisk.descriptor dataBuffer j).2.toNat = descriptorBlockCount d := by
  obtain ⟨-, rfl⟩ := readAt_eq_some.mp h
  have haddress : ofLe ((List.take 16 (dataBuffer.drop (16 * j))).take 8) < 256 ^ 8 :=
    (ofLe_lt _).trans_le (Nat.pow_le_pow_right (by decide) (List.length_take_le _ _))
  have hcount : ofLe (((List.take 16 (dataBuffer.drop (16 * j))).drop 8).take 4) < 256 ^ 4 :=
    (ofLe_lt _).trans_le (Nat.pow_le_pow_right (by decide) (List.length_take_le _ _))
  exact ⟨UInt64.toNat_ofNat_of_lt' haddress, UInt32.toNat_ofNat_of_lt' hcount⟩

theorem AllowedRequest.descriptor {count : UInt32} {j : Nat} (h : AllowedRequest unit r)
    (hop : r.1.op = .unmap count) (hj : j < count.toNat) :
    InUnit unit (RawDisk.descriptor r.2 j).1 (RawDisk.descriptor r.2 j).2 := by
  rw [AllowedRequest, hop] at h
  obtain ⟨-, -, -, hall⟩ := h
  obtain ⟨d, hd, hle⟩ := hall j hj
  obtain ⟨haddress, hcount⟩ := descriptor_of_readAt hd
  rwa [InUnit, haddress, hcount]

theorem AllowedRequest.writes_lt (hb : Backed unit rawDisk size) (h : AllowedRequest unit r)
    (hw : WritesAt unit r p byte) : p < size := by
  unfold WritesAt at hw
  split at hw
  · next blockAddress blockCount _ heq =>
      rw [AllowedRequest, heq] at h
      obtain ⟨k, hk, rfl, -⟩ := hw
      have hle := hb.bytes_le h.2.1
      omega
  · next count heq =>
      obtain ⟨-, j, hj, -, hlt⟩ := hw
      have hle := hb.bytes_le (h.descriptor heq hj)
      rw [← Nat.add_mul] at hle
      omega
  · exact hw.elim

/-! ## The copies -/

/-- The account of an operation: what it has done, for the request. -/
def fileRules (unit : StorageUnitParams) (r : Proofs.Request) :
    Rules FileAction FileAction.Answer (List FileEvent) where
  start := []
  track a answer events := events ++ [⟨a, answer⟩]
  May _ a := FileMay unit r a
  Answers _ _ _ := True
  Settled _ := True

variable {fileBuffer : UInt64} {ks : List Nat} {dst : List UInt8} {events : List FileEvent}

/-- The bytes of `ks` are loaded into their places, and the others are left. -/
theorem loadBytes_safe (hnodup : ks.Nodup)
    (hmay : ∀ k ∈ ks, FileMay unit r (.load (fileBuffer + UInt64.ofNat k))) :
    (fileRules unit r).Safe
      (fun x after => x.1.length = dst.length ∧ events <+: after ∧
        (∀ k, k ∉ ks → x.1[k]? = dst[k]?) ∧
        (x.2 = none → ∀ k ∈ ks, k < dst.length → ∃ byte, x.1[k]? = some byte ∧
          loaded (fileBuffer + UInt64.ofNat k) byte ∈ after))
      events (loadBytes fileBuffer ks dst) := by
  induction ks generalizing dst events with
  | nil => exact ⟨rfl, List.prefix_refl _, fun k _ => rfl, fun _ k hk => (by cases hk)⟩
  | cons k ks ih =>
      rw [List.nodup_cons] at hnodup
      rw [List.forall_mem_cons] at hmay
      refine Rules.Safe.perform_bind hmay.1 fun answer _ => ?_
      cases answer with
      | error exception =>
          exact ⟨rfl, List.prefix_append _ _, fun k _ => rfl, fun h => (by cases h)⟩
      | ok byte =>
          refine (ih hnodup.2 hmay.2).mono fun x after hx => ?_
          obtain ⟨hlength, hbegun, hothers, hall⟩ := hx
          have hbefore :=
            (List.prefix_append events [loaded (fileBuffer + UInt64.ofNat k) byte]).trans
            hbegun
          rw [List.length_set] at hlength
          refine ⟨hlength, hbefore, fun j hj => ?_, fun hnone j hj hlt => ?_⟩
          · rw [List.mem_cons, not_or] at hj
            rw [hothers j hj.2, List.getElem?_set_ne (Ne.symm hj.1)]
          · rcases List.mem_cons.mp hj with rfl | hj
            · refine ⟨byte, ?_, hbegun.subset
                (List.mem_append_right _ (List.mem_singleton_self _))⟩
              rw [hothers j hnodup.1, List.getElem?_set_self hlt]
            · exact hall hnone j hj (by rwa [List.length_set])

theorem storeBytes_safe {src : Nat → UInt8}
    (hmay : ∀ k ∈ ks, FileMay unit r (.store (fileBuffer + UInt64.ofNat k) (src k))) :
    (fileRules unit r).Safe
      (fun exception after => events <+: after ∧
        (exception = none → ∀ k ∈ ks, stored (fileBuffer + UInt64.ofNat k) (src k) ∈ after))
      events (storeBytes fileBuffer src ks) := by
  induction ks generalizing events with
  | nil => exact ⟨List.prefix_refl _, fun _ k hk => (by cases hk)⟩
  | cons k ks ih =>
      rw [List.forall_mem_cons] at hmay
      refine Rules.Safe.perform_bind hmay.1 fun answer _ => ?_
      cases answer with
      | error exception => exact ⟨List.prefix_append _ _, fun h => (by cases h)⟩
      | ok u =>
          refine (ih hmay.2).mono fun exception after hx => ?_
          obtain ⟨hbegun, hall⟩ := hx
          refine ⟨(List.prefix_append _ _).trans hbegun, fun hnone j hj => ?_⟩
          rcases List.mem_cons.mp hj with rfl | hj
          · exact hbegun.subset (List.mem_append_right _ (List.mem_singleton_self _))
          · exact hall hnone j hj

/-! ## The operations -/

variable {status : StorageUnitStatus} {order : MemcpyOrder} {dataBuffer : List UInt8}
  {flushFlag : Bool}

theorem setSense_scsiStatus {senseKey asc : UInt8} {information : Option UInt64} :
    (spdStorageUnitStatusSetSense status senseKey asc information).scsiStatus =
      scsistatCheckCondition := by
  cases information <;> rfl

theorem setSense_bad {senseKey asc : UInt8} {information : Option UInt64} :
    (spdStorageUnitStatusSetSense status senseKey asc information).scsiStatus ≠ scsistatGood := by
  rw [setSense_scsiStatus]
  decide

theorem copyStatus_good {exception : Option FileException} {asc : UInt8}
    (h : (rawDisk.copyStatus exception asc status).scsiStatus = scsistatGood) :
    exception = none := by
  cases exception with
  | none => rfl
  | some dataAddress => exact absurd h setSense_bad

theorem flushInternal_safe :
    (fileRules unit r).Safe
      (fun status' after => events <+: after ∧ (status'.scsiStatus = scsistatGood →
        after = events ++ flushed rawDisk blockAddress blockCount))
      events (rawDisk.flushInternal blockAddress blockCount status) := by
  refine Rules.Safe.perform_bind trivial fun flushedView _ => ?_
  cases flushedView with
  | false => exact ⟨List.prefix_append _ _, fun h => absurd h setSense_bad⟩
  | true =>
      refine Rules.Safe.perform_bind trivial fun flushedFile _ => ?_
      cases flushedFile with
      | false =>
          refine ⟨(List.prefix_append _ _).trans (List.prefix_append _ _), fun h => ?_⟩
          rw [if_pos rfl] at h
          exact absurd h setSense_bad
      | true =>
          refine ⟨(List.prefix_append _ _).trans (List.prefix_append _ _), fun _ => ?_⟩
          exact List.append_assoc _ _ _

def Operated (unit : StorageUnitParams) (rawDisk : RawDisk) (r : Proofs.Request)
    (x : Bool × StorageUnitStatus × List UInt8) (events : List FileEvent) : Prop :=
  x.1 = true ∧ x.2.2.length = unit.maxTransferLength.toNat ∧
    (x.2.1.scsiStatus = scsistatGood → Fulfilled unit rawDisk r x.2.2 events)

section Operations

variable (hb : Backed unit rawDisk size) (hallowed : AllowedRequest unit r)
  (hlength : dataBuffer.length = unit.maxTransferLength.toNat)
include hb hallowed hlength

theorem readCopy_safe (hop : r.1.op = .read blockAddress blockCount flushFlag) :
    (fileRules unit r).Safe (Operated unit rawDisk r) events
      (rawDisk.readCopy order dataBuffer blockAddress blockCount status) := by
  have hreq := hallowed
  rw [AllowedRequest, hop] at hreq
  obtain ⟨hunit, hcount, -⟩ := hreq
  have hbytes := hb.toNat_length hcount
  have hmem : ∀ k, k ∈ order.order (blockCount * rawDisk.blockLength).toNat ↔
      k < blockCount.toNat * unit.blockLength.toNat := by
    intro k
    rw [(order.perm _).mem_iff, List.mem_range, hbytes]
  refine Rules.Safe.bind (loadBytes_safe ((order.perm _).nodup_iff.mpr List.nodup_range)
    fun k hk => ⟨k, ?_⟩) fun x after hx => ?_
  · rw [hmem] at hk
    rw [hb.toNat_offset hunit hk, ReadsAt, hop]
    exact ⟨hk, rfl⟩
  · obtain ⟨dst, exception⟩ := x
    obtain ⟨hlen, -, -, hall⟩ := hx
    refine ⟨rfl, hlen.trans hlength, fun hgood => ?_⟩
    rw [Fulfilled, hop]
    intro k hk
    refine hall (copyStatus_good hgood) k ((hmem k).mpr hk) ?_
    rw [hlength]
    exact hk.trans_le (chunkBytes_le hcount)

theorem read_safe (hop : r.1.op = .read blockAddress blockCount flushFlag) :
    (fileRules unit r).Safe (Operated unit rawDisk r) events
      (rawDisk.read order dataBuffer blockAddress blockCount flushFlag status) := by
  unfold RawDisk.read
  split
  · refine Rules.Safe.bind flushInternal_safe fun status' after _ => ?_
    split
    · next hbad => exact ⟨rfl, hlength, fun hgood => absurd hgood hbad⟩
    · exact readCopy_safe hb hallowed hlength hop
  · exact readCopy_safe hb hallowed hlength hop

theorem write_safe (hop : r.1.op = .write blockAddress blockCount flushFlag)
    (hbuf : dataBuffer = r.2) :
    (fileRules unit r).Safe (Operated unit rawDisk r) []
      (rawDisk.write order dataBuffer blockAddress blockCount flushFlag status) := by
  have hreq := hallowed
  rw [AllowedRequest, hop] at hreq
  obtain ⟨-, hunit, hcount, -⟩ := hreq
  have hle := chunkBytes_le hcount
  have hmem : ∀ k, k ∈ order.order (blockCount * rawDisk.blockLength).toNat ↔
      k < blockCount.toNat * unit.blockLength.toNat := by
    intro k
    rw [(order.perm _).mem_iff, List.mem_range, hb.toNat_length hcount]
  have hget : ∀ k < blockCount.toNat * unit.blockLength.toNat,
      r.2[k]? = some (dataBuffer.getD k 0) := by
    intro k hk
    have hlt : k < dataBuffer.length := by omega
    rw [← hbuf, List.getD_eq_getElem _ _ hlt, List.getElem?_eq_getElem hlt]
  refine Rules.Safe.bind (storeBytes_safe fun k hk => ?_) fun exception after hx => ?_
  · rw [hmem] at hk
    rw [FileMay, hb.toNat_offset hunit hk, WritesAt, hop]
    exact ⟨k, hk, rfl, hget k hk⟩
  · have hserved :
        ∀ after', (flushFlag = true → after' = flushed rawDisk blockAddress blockCount) →
        exception = none → Fulfilled unit rawDisk r dataBuffer (after ++ after') := by
      intro after' hflushed hnone
      rw [Fulfilled, hop]
      exact ⟨after, after', rfl,
        fun k hk => ⟨_, hget k hk, hx.2 hnone k ((hmem k).mpr hk)⟩, hflushed⟩
    dsimp only
    split
    · next hgood =>
        refine Rules.Safe.bind flushInternal_safe fun status' after' hx' => ?_
        refine ⟨rfl, hlength, fun hgood' => ?_⟩
        rw [hx'.2 hgood']
        exact hserved _ (fun _ => rfl) (copyStatus_good hgood.1)
    · next hnot =>
        refine ⟨rfl, hlength, fun hgood => ?_⟩
        have h := hserved [] (fun hflag => absurd ⟨hgood, hflag⟩ hnot) (copyStatus_good hgood)
        rwa [List.append_nil] at h

end Operations

theorem flush_safe (hlength : dataBuffer.length = unit.maxTransferLength.toNat)
    (hop : r.1.op = .flush blockAddress blockCount) :
    (fileRules unit r).Safe (Operated unit rawDisk r) []
      (rawDisk.flush dataBuffer blockAddress blockCount status) := by
  refine Rules.Safe.bind flushInternal_safe fun status' after hx =>
    ⟨rfl, hlength, fun hgood => ?_⟩
  rw [Fulfilled, hop]
  exact hx.2 hgood

/-- Zeros into blocks of the unit; the length may have wrapped, and is then less. -/
theorem zeroCopy_safe (hb : Backed unit rawDisk size) (hunit : InUnit unit blockAddress blockCount)
    (hwrites : ∀ p, blockAddress.toNat * unit.blockLength.toNat ≤ p →
      p < (blockAddress.toNat + blockCount.toNat) * unit.blockLength.toNat →
      WritesAt unit r p 0) :
    (fileRules unit r).Safe (fun _ _ => True) events
      (rawDisk.zeroCopy order blockAddress blockCount) := by
  refine Rules.Safe.bind (storeBytes_safe fun k hk => ?_) fun _ _ _ => trivial
  have hk' : k < blockCount.toNat * unit.blockLength.toNat := by
    rw [(order.perm _).mem_iff, List.mem_range, hb.blockLength, UInt32.toNat_mul] at hk
    exact hk.trans_le (Nat.mod_le _ _)
  rw [FileMay, hb.toNat_offset hunit hk']
  refine hwrites _ (Nat.le_add_right _ _) ?_
  rw [Nat.add_mul]
  exact Nat.add_lt_add_left hk' _

theorem unmapBlocks_safe (hb : Backed unit rawDisk size)
    (hunit : InUnit unit blockAddress blockCount)
    (hwrites : ∀ p, blockAddress.toNat * unit.blockLength.toNat ≤ p →
      p < (blockAddress.toNat + blockCount.toNat) * unit.blockLength.toNat →
      WritesAt unit r p 0) :
    (fileRules unit r).Safe (fun _ _ => True) events
      (rawDisk.unmapBlocks order blockAddress blockCount) := by
  unfold RawDisk.unmapBlocks
  split
  · refine Rules.Safe.perform_bind (fun p hlo hhi => ?_) fun setZero _ => ?_
    · have hend : (blockAddress + blockCount.toUInt64).toNat =
          blockAddress.toNat + blockCount.toNat := by
        have hlt := unit.blockCount.toNat_lt
        rw [InUnit] at hunit
        rw [UInt64.toNat_add, UInt32.toNat_toUInt64]
        exact Nat.mod_eq_of_lt (by omega)
      rw [hb.toNat_fileBuffer ((Nat.le_add_right _ _).trans hunit)] at hlo
      rw [hb.toNat_fileBuffer (by rw [hend]; exact hunit), hend] at hhi
      exact hwrites p hlo hhi
    · split
      · exact zeroCopy_safe hb hunit hwrites
      · trivial
  · exact zeroCopy_safe hb hunit hwrites

theorem unmapDescriptors_safe {count : UInt32} {i n : Nat} (hb : Backed unit rawDisk size)
    (hallowed : AllowedRequest unit r) (hop : r.1.op = .unmap count)
    (hle : i + n ≤ count.toNat) :
    (fileRules unit r).Safe (fun _ _ => True) events
      (rawDisk.unmapDescriptors order r.2 i n) := by
  induction n generalizing i events with
  | zero => trivial
  | succ n ih =>
      have hi : i < count.toNat := by omega
      refine Rules.Safe.bind (P := fun _ _ => True)
        (unmapBlocks_safe hb (hallowed.descriptor hop hi) fun p hlo hhi => ?_) fun _ _ _ =>
          ih (by omega)
      rw [WritesAt, hop]
      exact ⟨rfl, i, hi, hlo, hhi⟩

theorem operation_safe {call : OperationCall} (hb : Backed unit rawDisk size)
    (hallowed : AllowedRequest unit r) (hlength : r.2.length = unit.maxTransferLength.toNat)
    (hcall : match call with
      | .read blockAddress blockCount flushFlag =>
          r.1.op = .read blockAddress blockCount flushFlag
      | .write blockAddress blockCount flushFlag =>
          r.1.op = .write blockAddress blockCount flushFlag
      | .flush blockAddress blockCount => r.1.op = .flush blockAddress blockCount
      | .unmap count => r.1.op = .unmap count) :
    (fileRules unit r).Safe (Operated unit rawDisk r) []
      (rawDisk.operation order call status r.2) := by
  cases call with
  | read blockAddress blockCount flushFlag => exact read_safe hb hallowed hlength hcall
  | write blockAddress blockCount flushFlag => exact write_safe hb hallowed hlength hcall rfl
  | flush blockAddress blockCount => exact flush_safe hlength hcall
  | unmap count =>
      refine Rules.Safe.bind (unmapDescriptors_safe hb hallowed hcall (by omega))
        fun _ _ _ => ⟨rfl, hlength, fun _ => ?_⟩
      rw [Fulfilled, hcall]
      trivial

end Winspd.Proofs
