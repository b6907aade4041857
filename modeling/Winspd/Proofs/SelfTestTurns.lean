import Winspd.Proofs.RawdiskAlone
import Winspd.Proofs.StressTest
import Winspd.Proofs.Transparent

/-!
# A turn of the stress test, and a disk

What a round has written to the disk, or has unmapped, is what the disk has at the
range of the round (`TestHolds`). A request that is issued keeps this, when it is
carried out by a disk (`Issued.done`), and a read that returns what the disk has
passes its test (`Issued.completes`).
-/

namespace Winspd.Proofs

open Winspd.Lib Winspd.Sys Winspd.Shared Winspd.Stgtest Winspd.Rawdisk

variable {a : Stress} {s s₀ s₁ : StressState} {req : SpdIoctlTransactReq}
  {bytes : Nat → UInt8}
  {data : List UInt8} {i : Nat}

/-! ## Blocks of a disk -/

/-- What of a block of the disk is filled and tested. -/
def diskBlock (unit : StorageUnitParams) (bytes : Nat → UInt8) (block : Nat) : List UInt8 :=
  (List.range (8 * (unit.blockLength.toNat / 8))).map fun k =>
    bytes (block * unit.blockLength.toNat + k)

theorem blockBytes_eq_diskBlock {unit : StorageUnitParams} {first n : Nat}
    (h : ∀ k < n * unit.blockLength.toNat,
      data[k]? = some (bytes (first * unit.blockLength.toNat + k))) (hi : i < n) :
    blockBytes unit.blockLength i data = diskBlock unit bytes (first + i) := by
  have hwords := Nat.mul_div_le unit.blockLength.toNat 8
  refine List.ext_getElem? fun k => ?_
  rw [blockBytes, diskBlock, List.getElem?_map]
  by_cases hk : k < 8 * (unit.blockLength.toNat / 8)
  · have hle : (i + 1) * unit.blockLength.toNat ≤ n * unit.blockLength.toNat :=
      Nat.mul_le_mul_right _ hi
    rw [Nat.add_one_mul] at hle
    rw [List.getElem?_take_of_lt hk, List.getElem?_drop, h _ (by omega), List.getElem?_range hk,
      Option.map_some, Nat.add_mul, Nat.add_assoc]
  · rw [List.getElem?_take_eq_none (Nat.le_of_not_lt hk),
      List.getElem?_eq_none (by simpa using Nat.le_of_not_lt hk)]
    rfl

/-- The disk has what was written or unmapped in the round. -/
def TestHolds (a : Stress) (s : StressState) (bytes : Nat → UInt8) : Prop :=
  ∀ kind, kind = transactWriteKind ∨ kind = transactUnmapKind → s.testOpKind = kind →
    ∀ i < s.opBlockCount.toNat, diskBlock a.params bytes (s.blockAddress.toNat + i) =
      blockTest kind a.params.blockLength (s.blockAddress + UInt64.ofNat i)

/-! ## What is issued -/

/-- `Req.Hint`. -/
def turnHint (a : Stress) (s : StressState) : UInt64 :=
  a.threadId.toUInt64 <<< 32 ||| s.i.toUInt64

theorem turnHint_ne_zero (h : a.threadId ≠ 0) : turnHint a s ≠ 0 := by
  intro hzero
  have hnat := congrArg UInt64.toNat hzero
  rw [turnHint, UInt64.toNat_or, UInt64.toNat_zero, Nat.or_eq_zero_iff, UInt64.toNat_shiftLeft,
    UInt32.toNat_toUInt64] at hnat
  have hlt := a.threadId.toNat_lt
  have hshift : a.threadId.toNat <<< ((32 : UInt64).toNat % 64) = a.threadId.toNat * 2 ^ 32 :=
    Nat.shiftLeft_eq _ _
  rw [hshift, Nat.mod_eq_of_lt (by omega)] at hnat
  exact h (UInt32.toNat_inj.mp (by have := hnat.1; rw [UInt32.toNat_zero]; omega))

/-- What the loop has done for a request, since the round was drawn. -/
inductive Issued (a : Stress) (s₀ s₁ : StressState) (req : SpdIoctlTransactReq) : Prop
  | read (state : s₁ = s₀)
      (request : req = ⟨turnHint a s₀, transactReadKind, s₀.blockAddress, s₀.opBlockCount,
        !a.params.cacheSupported⟩)
  | write {dataBuffer : List UInt8}
      (state : s₁ = { s₀ with dataBuffer := dataBuffer, testOpKind := transactWriteKind })
      (request : req = ⟨turnHint a s₀, transactWriteKind, s₀.blockAddress, s₀.opBlockCount,
        !a.params.cacheSupported⟩)
      (filled : ∀ i < s₀.opBlockCount.toNat, blockBytes a.params.blockLength i dataBuffer =
        blockFill a.params.blockLength (s₀.blockAddress + UInt64.ofNat i))
  | flush (state : s₁ = s₀)
      (request : req = ⟨turnHint a s₀, transactFlushKind, s₀.blockAddress,
        s₀.opBlockCount, false⟩)
  | unmap {dataBuffer : List UInt8}
      (state : s₁ = { s₀ with dataBuffer := dataBuffer, testOpKind := transactUnmapKind })
      (request : req = ⟨turnHint a s₀, transactUnmapKind, 1, 0, false⟩)
      (descriptor : readAt dataBuffer 0 16 =
        some (stgUnmapDescriptor s₀.blockAddress s₀.opBlockCount))

theorem prepare_issued (hkinds : KindsOk a.opKinds) (haccept : UnitAccepted a.params)
    (hround : RoundInv a s₀) (hbuffer : s₀.dataBuffer.length = a.params.maxTransferLength.toNat)
    (h : a.prepare s₀ = some (s₁, req)) : Issued a s₀ s₁ req := by
  have hlen : 0 < a.opKinds.length := List.length_pos_iff.mpr hkinds.1
  have hlt : s₀.i.toNat % a.opKinds.length < a.opKinds.length := Nat.mod_lt _ hlen
  obtain ⟨kind, hkind, hmem⟩ : ∃ kind, a.kind s₀ = some kind ∧ kind ∈ a.opKinds :=
    ⟨_, List.getElem?_eq_getElem hlt, List.getElem_mem hlt⟩
  rw [Stress.prepare, hkind] at h
  dsimp only [Option.bind_eq_bind, Option.bind_some] at h
  rcases hkinds.2 kind hmem with rfl | rfl | rfl | rfl
  · rw [if_pos rfl] at h
    cases h
    exact .read rfl rfl
  · obtain ⟨buffer', hfill, -, hfilled⟩ := fillOrTest_fill (hround.fits haccept hbuffer)
    rw [if_neg (by decide), if_pos rfl, hfill] at h
    cases h
    exact .write rfl rfl hfilled
  · rw [if_neg (by decide), if_neg (by decide), if_pos rfl] at h
    cases h
    exact .flush rfl rfl
  · have hsize : (stgUnmapDescriptor s₀.blockAddress s₀.opBlockCount).length = 16 := by
      simp [stgUnmapDescriptor, length_toLe]
    rw [if_neg (by decide), if_neg (by decide), if_neg (by decide), if_pos rfl] at h
    obtain ⟨buffer', hwrite, h⟩ := Option.bind_eq_some_iff.mp h
    cases h
    refine .unmap rfl rfl ?_
    rw [← hsize]
    exact readAt_writeAt hwrite

theorem beginRound_testOpKind (h : a.beginRound s = some s₀) :
    s₀.testOpKind = transactReservedKind := by
  simp only [Stress.beginRound, Option.bind_eq_bind, Option.bind_eq_some_iff] at h
  obtain ⟨s', -, s'', -, h⟩ := h
  cases h
  rfl

/-- A turn up to its request. What is tested is of this round. -/
theorem StressInv.issued (h : StressInv a s) (hkinds : KindsOk a.opKinds)
    (haccept : UnitAccepted a.params) (hissue : a.issue s = some (s₁, req)) :
    ∃ s₀, Issued a s₀ s₁ req ∧
      (∀ bytes, (s.j ≠ 0 → TestHolds a s bytes) → TestHolds a s₀ bytes) ∧
      RoundInv a s₁ ∧
      s₁.dataBuffer.length = a.params.maxTransferLength.toNat := by
  obtain ⟨s₀, hround, hinv, hbuffer, -⟩ := round_some haccept h.round
  have hlen : s₀.dataBuffer.length = a.params.maxTransferLength.toNat :=
    (congrArg List.length hbuffer).trans h.buffer
  have hprepare := hissue
  rw [issue_eq, hround] at hprepare
  obtain ⟨s₁', req', hissue', hround', hlen', -⟩ := h.issue hkinds haccept
  cases hissue.symm.trans hissue'
  refine ⟨s₀, prepare_issued hkinds haccept hinv hlen hprepare, fun bytes htest => ?_, hround',
    hlen'⟩
  by_cases hj : s.j = 0
  · rw [if_pos hj] at hround
    intro kind hkind hsame
    rw [beginRound_testOpKind hround] at hsame
    subst hsame
    exact absurd hkind (by decide)
  · rw [if_neg hj] at hround
    cases hround
    exact htest hj

/-! ## The request, carried out -/

variable {rawDisk : RawDisk} {size : Nat} {call : OperationCall} {d : List UInt8}

theorem Issued.range (h : Issued a s₀ s₁ req) :
    s₁.blockAddress = s₀.blockAddress ∧ s₁.opBlockCount = s₀.opBlockCount := by
  cases h with
  | read state request | write state request | flush state request | unmap state request =>
      subst state
      exact ⟨rfl, rfl⟩

theorem RoundInv.blocksOk (h : RoundInv a s) (haccept : UnitAccepted a.params)
    (hb : Backed a.params rawDisk size) :
    BlocksOk a.params s.blockAddress s.opBlockCount ∧
      s.opBlockCount.toNat * a.params.blockLength.toNat ≤ a.params.maxTransferLength.toNat := by
  have hlength := haccept.length
  have hmax := a.params.maxTransferLength.toNat_lt
  have hsize := hb.size_lt
  rw [hb.size_eq] at hsize
  have hunit : a.params.blockCount.toNat ≤
      a.params.blockCount.toNat * a.params.blockLength.toNat :=
    Nat.le_mul_of_pos_right _ (by omega)
  have hcount : s.blockCount.toNat ≤ s.blockCount.toNat * a.params.blockLength.toNat :=
    Nat.le_mul_of_pos_right _ (by omega)
  have hfit := h.fit
  have haddress := h.address
  have hle : s.opBlockCount.toNat * a.params.blockLength.toNat ≤
      a.params.maxTransferLength.toNat :=
    Nat.le_trans (Nat.mul_le_mul_right _ h.op_bounds.2) hfit
  exact ⟨⟨h.inside_iff.mpr (by omega), by omega⟩, hle⟩

theorem take_of_prefix {n : Nat} (h : data.take n <+: d) (hn : n ≤ data.length) :
    d.take n = data.take n := by
  have heq := List.prefix_iff_eq_take.mp h
  rw [List.length_take, Nat.min_eq_left hn] at heq
  exact heq.symm

theorem descriptor_stgUnmapDescriptor {blockAddress : UInt64} {blockCount : UInt32}
    (h : d.take 16 = stgUnmapDescriptor blockAddress blockCount) :
    RawDisk.descriptor d 0 = (blockAddress, blockCount) := by
  have haddress : ((stgUnmapDescriptor blockAddress blockCount).take 8) =
      toLe 8 blockAddress.toNat := by
    rw [stgUnmapDescriptor, List.append_assoc, List.take_left' (length_toLe _ _)]
  have hcount : (((stgUnmapDescriptor blockAddress blockCount).drop 8).take 4) =
      toLe 4 blockCount.toNat := by
    rw [stgUnmapDescriptor, List.append_assoc, List.drop_left' (length_toLe _ _),
      List.take_left' (length_toLe _ _)]
  rw [RawDisk.descriptor, Nat.mul_zero, List.drop_zero, h, haddress,
    hcount, ofLe_toLe, ofLe_toLe,
    Nat.mod_eq_of_lt (show blockAddress.toNat < 256 ^ 8 from blockAddress.toNat_lt),
    Nat.mod_eq_of_lt (show blockCount.toNat < 256 ^ 4 from blockCount.toNat_lt),
    UInt64.ofNat_toNat, UInt32.ofNat_toNat]

section CarriedOut

variable (h : Issued a s₀ s₁ req) (hround : RoundInv a s₁) (haccept : UnitAccepted a.params)
  (hb : Backed a.params rawDisk size)
  (hbuffer : s₁.dataBuffer.length = a.params.maxTransferLength.toNat)
  (hcall : rawDiskInterface.call req = some call)
  (hd : directData a.params ⟨req, some s₁.dataBuffer⟩ <+: d)
  (hlen : d.length = a.params.maxTransferLength.toNat)
include h hround haccept hb hbuffer hcall hd hlen

theorem Issued.callOk : CallOk a.params call d := by
  obtain ⟨hok, hle⟩ := hround.blocksOk haccept hb
  cases h with
  | read state request | write state request =>
      subst state request
      cases hcall
      exact ⟨hok, by rw [hlen]; exact hle⟩
  | flush state request =>
      subst state request
      cases hcall
      trivial
  | unmap state request descriptor =>
      subst state request
      cases hcall
      intro j hj
      obtain rfl : j = 0 := Nat.lt_one_iff.mp hj
      have htake := take_of_prefix (n := 16) hd (by
        rw [hbuffer]
        exact Nat.le_trans haccept.length (Nat.le_of_dvd haccept.max haccept.multiple))
      have hdesc := (readAt_eq_some.mp descriptor).2
      rw [List.drop_zero] at hdesc
      rw [descriptor_stgUnmapDescriptor (htake.trans hdesc)]
      exact hok

theorem Issued.done (htest : TestHolds a s₀ bytes) :
    TestHolds a s₁ (diskAfter a.params call d bytes) := by
  obtain ⟨hok, hle⟩ := hround.blocksOk haccept hb
  cases h with
  | read state request | flush state request =>
      subst state request
      cases hcall
      exact htest
  | @write dataBuffer state request filled =>
      subst state request
      cases hcall
      intro kind hkind hsame i hi
      obtain rfl : transactWriteKind = kind := hsame
      have htake : d.take (s₀.opBlockCount.toNat * a.params.blockLength.toNat) =
          dataBuffer.take (s₀.opBlockCount.toNat * a.params.blockLength.toNat) :=
        take_of_prefix hd (by rw [hbuffer]; exact hle)
      have hwords := Nat.mul_div_le a.params.blockLength.toNat 8
      have hlast : (i + 1) * a.params.blockLength.toNat ≤
          s₀.opBlockCount.toNat * a.params.blockLength.toNat := Nat.mul_le_mul_right _ hi
      have hsame : blockBytes a.params.blockLength i d =
          blockBytes a.params.blockLength i dataBuffer := by
        have hfront := congrArg (List.take ((i + 1) * a.params.blockLength.toNat)) htake
        rw [List.take_take, List.take_take, Nat.min_eq_left hlast] at hfront
        rw [blockBytes_take hwords, hfront, ← blockBytes_take hwords]
      have hblock : blockBytes a.params.blockLength i d = diskBlock a.params
          (diskAfter a.params
            (.write s₀.blockAddress s₀.opBlockCount (!a.params.cacheSupported)) d
            bytes) (s₀.blockAddress.toNat + i) := by
        refine blockBytes_eq_diskBlock (fun k hk => ?_) hi
        have hin : InBlocks a.params s₀.blockAddress s₀.opBlockCount
            (s₀.blockAddress.toNat * a.params.blockLength.toNat + k) := by
          rw [InBlocks, Nat.add_mul]
          exact ⟨Nat.le_add_right _ _, Nat.add_lt_add_left hk _⟩
        have hlt : k < d.length := by rw [hlen]; exact Nat.lt_of_lt_of_le hk hle
        rw [diskAfter, if_pos hin, Nat.add_sub_cancel_left, List.getD_eq_getElem _ _ hlt,
          List.getElem?_eq_getElem hlt]
      have htested : blockTest transactWriteKind a.params.blockLength
          (s₀.blockAddress + UInt64.ofNat i) =
            blockFill a.params.blockLength (s₀.blockAddress + UInt64.ofNat i) := rfl
      exact hblock.symm.trans (hsame.trans ((filled i hi).trans htested.symm))
  | @unmap dataBuffer state request descriptor =>
      subst state request
      cases hcall
      intro kind hkind hsame i hi
      obtain rfl : transactUnmapKind = kind := hsame
      have htake := take_of_prefix (n := 16) hd (by
        rw [hbuffer]
        exact Nat.le_trans haccept.length (Nat.le_of_dvd haccept.max haccept.multiple))
      have hdesc := (readAt_eq_some.mp descriptor).2
      rw [List.drop_zero] at hdesc
      have hone := descriptor_stgUnmapDescriptor (htake.trans hdesc)
      have hwords := Nat.mul_div_le a.params.blockLength.toNat 8
      have hi' : i < s₀.opBlockCount.toNat := hi
      have hlast : (i + 1) * a.params.blockLength.toNat ≤
          s₀.opBlockCount.toNat * a.params.blockLength.toNat := Nat.mul_le_mul_right _ hi'
      rw [Nat.add_one_mul] at hlast
      rw [blockTest_unmap, diskBlock]
      refine List.ext_getElem (by simp) fun k hk _ => ?_
      have hk' : k < 8 * (a.params.blockLength.toNat / 8) := by simpa using hk
      rw [List.getElem_map, List.getElem_range, List.getElem_replicate]
      have hin : ∃ j < (1 : UInt32).toNat, InDescriptor a.params d j
          ((s₀.blockAddress.toNat + i) * a.params.blockLength.toNat + k) := by
        refine ⟨0, by decide, ?_⟩
        rw [InDescriptor, hone]
        dsimp only
        rw [Nat.add_mul, Nat.add_mul]
        omega
      exact if_pos hin

end CarriedOut

/-! ## How the turn ends -/

theorem testRead_holds (hfits : BlocksFit a.params.blockLength s.opBlockCount.toNat s.dataBuffer)
    (h : ∀ kind, kind = transactWriteKind ∨ kind = transactUnmapKind → s.testOpKind = kind →
      ∀ i < s.opBlockCount.toNat, blockBytes a.params.blockLength i s.dataBuffer =
        blockTest kind a.params.blockLength (s.blockAddress + UInt64.ofNat i)) :
    a.testRead s = some true := by
  unfold Stress.testRead
  split
  · next hwrite =>
      rw [fillOrTest_test (.inl rfl) hfits, decide_eq_true (h _ (.inl rfl) hwrite.symm)]
      rfl
  · split
    · next hunmap =>
        rw [fillOrTest_test (.inr rfl) hfits, decide_eq_true (h _ (.inr rfl) hunmap.symm)]
        rfl
    · rfl

/-- The response is to this request, and a read passes its test. -/
theorem complete_ok {message : Message} {rsp : TransactRsp} {status : StorageUnitStatus}
    {dataBuffer : List UInt8}
    (hmessage : stgMessage a.params ⟨req, some s.dataBuffer⟩ = some message)
    (hresponse : stgResponse a.params ⟨req, some s.dataBuffer⟩ rsp data =
      some (.ok (⟨req.hint, req.kind, status⟩, some dataBuffer)))
    (hgood : status.scsiStatus = scsistatGood)
    (htest : req.kind = transactReadKind →
      a.testRead { s with dataBuffer := dataBuffer } = some true) :
    a.complete s req (.responds rsp data) = some (.ok { s with
      dataBuffer := dataBuffer, i := s.i + 1, j := (s.j + 1) % a.opKinds.length }) := by
  rw [Stress.complete, stgTransactPipe, hmessage]
  dsimp only [Option.bind_eq_bind, Option.bind_some]
  rw [hresponse]
  dsimp only [Option.bind_some, Option.map_some]
  rw [if_neg (not_not.mpr ⟨rfl, rfl, hgood.symm⟩)]
  by_cases hread : req.kind = transactReadKind
  · rw [if_pos hread, htest hread]
    rfl
  · rw [if_neg hread]
    rfl

/-- The turn goes on to the next, if the response says what the disk has done. -/
theorem Issued.completes {message : Message} {rsp : TransactRsp} (h : Issued a s₀ s₁ req)
    (hround : RoundInv a s₁) (haccept : UnitAccepted a.params)
    (hbuffer : s₁.dataBuffer.length = a.params.maxTransferLength.toNat)
    (hcall : rawDiskInterface.call req = some call) (htest : TestHolds a s₀ bytes)
    (hmessage : stgMessage a.params ⟨req, some s₁.dataBuffer⟩ = some message)
    (hresponse : stgResponse a.params ⟨req, some s₁.dataBuffer⟩ rsp data =
      some (.ok (directResult a.params ⟨req, some s₁.dataBuffer⟩
        (zeroStatus, some (diskData a.params call d bytes))))) :
    ∃ dataBuffer, a.complete s₁ req (.responds rsp data) = some (.ok { s₁ with
      dataBuffer := dataBuffer, i := s₁.i + 1, j := (s₁.j + 1) % a.opKinds.length }) := by
  have hfits := hround.fits haccept hbuffer
  by_cases hread : req.kind = transactReadKind
  · cases h with
    | read state request =>
        subst state request
        cases hcall
        let n := s₁.opBlockCount.toNat * a.params.blockLength.toNat
        let first := s₁.blockAddress.toNat * a.params.blockLength.toNat
        let read := (List.range n).map fun k => bytes (first + k)
        have hlen : read.length = n := by simp [read]
        have hresult :
            directResult a.params ⟨⟨turnHint a s₁, transactReadKind, s₁.blockAddress,
            s₁.opBlockCount, !a.params.cacheSupported⟩, some s₁.dataBuffer⟩
            (zeroStatus, some (diskData a.params (.read s₁.blockAddress s₁.opBlockCount
              (!a.params.cacheSupported)) d bytes)) =
            (⟨turnHint a s₁, transactReadKind, zeroStatus⟩,
              some (read ++ s₁.dataBuffer.drop n)) := by
          have htake : (read ++ d.drop n).take n = read := List.take_left' hlen
          exact congrArg
            (fun front => ((⟨turnHint a s₁, transactReadKind, zeroStatus⟩ : TransactRsp),
            some (front ++ s₁.dataBuffer.drop n))) htake
        rw [hresult] at hresponse
        refine ⟨_, complete_ok hmessage hresponse rfl fun _ => testRead_holds ?_ ?_⟩
        · refine ⟨hfits.pos, ?_, ?_⟩
          · rw [List.length_append, hlen]
            exact Nat.le_add_right _ _
          · have hle := hfits.fit
            have hlt := hfits.lt
            rw [List.length_append, hlen, List.length_drop]
            omega
        · intro kind hkind hsame i hi
          refine (blockBytes_eq_diskBlock (fun k hk => ?_) hi).trans (htest kind hkind hsame i hi)
          have hk' : k < n := hk
          rw [List.getElem?_append_left (by rw [hlen]; exact hk'), List.getElem?_map,
            List.getElem?_range hk']
          rfl
    | write state request =>
        subst request
        exact absurd (show transactWriteKind = transactReadKind from hread) (by decide)
    | flush state request =>
        subst request
        exact absurd (show transactFlushKind = transactReadKind from hread) (by decide)
    | unmap state request =>
        subst request
        exact absurd (show transactUnmapKind = transactReadKind from hread) (by decide)
  · rw [directResult, if_neg fun hboth => hread hboth.1] at hresponse
    exact ⟨_, complete_ok hmessage hresponse rfl fun h => absurd h hread⟩

/-! ## The request is well formed -/

theorem Issued.wellFormed (h : Issued a s₀ s₁ req) (hround : RoundInv a s₁)
    (haccept : UnitAccepted a.params)
    (hbuffer : s₁.dataBuffer.length = a.params.maxTransferLength.toNat)
    (hthread : a.threadId ≠ 0) :
    WellFormed a.params rawDiskInterface ⟨req, some s₁.dataBuffer⟩ := by
  have hle : s₁.opBlockCount.toNat * a.params.blockLength.toNat ≤
      a.params.maxTransferLength.toNat :=
    Nat.le_trans (Nat.mul_le_mul_right _ hround.op_bounds.2) hround.fit
  have hroom : 16 ≤ a.params.maxTransferLength.toNat :=
    Nat.le_trans haccept.length (Nat.le_of_dvd haccept.max haccept.multiple)
  obtain ⟨haddress, hcount⟩ := h.range
  have hlength : Transfers req →
      operationLength a.params req ≤ a.params.maxTransferLength.toNat := by
    intro htransfers
    cases h with
    | read state request | write state request =>
        subst request
        rw [hcount] at hle
        exact hle
    | flush state request =>
        subst request
        have hnone :
            ¬(transactFlushKind = transactReadKind ∨ transactFlushKind = transactWriteKind ∨
            transactFlushKind = transactUnmapKind) := by decide
        exact absurd htransfers hnone
    | unmap state request =>
        subst request
        exact hroom
  have hhint : req.hint = turnHint a s₀ := by
    cases h with
    | read state request | write state request | flush state request | unmap state request =>
        subst request
        rfl
  refine ⟨by rw [hhint]; exact turnHint_ne_zero hthread, ?_, hlength, fun htransfers _ => ?_⟩
  · cases h with
    | read state request | write state request | flush state request | unmap state request =>
        subst request
        exact Option.some_ne_none _
  · show operationLength a.params req ≤ s₁.dataBuffer.length
    rw [hbuffer]
    exact hlength htransfers

end Winspd.Proofs
