import Winspd.Proofs.ItemStep

/-!
# A transfer in chunks is the transfer

A READ or WRITE goes to user mode in chunks of at most `MaxTransferLength`
bytes, and between two chunks its SRB is a pending SRB like any other: other
SRBs are posted, handed out and answered in between, in any order. Along such a
run `Chunking` keeps the account of one SRB. The `k`-th request made of it is
its `k`-th piece (`IsPiece`), as many answers have been taken in as
`ChunkOffset` has pieces, and there is at most one request more than answers,
which is when user mode has the SRB.

`unit_transfer_chunks` reads off the account what the SRB's issuer may rely
on: the requests are the transfer's blocks in order, the SRB is completed by
the last answer, and the data is what was answered.

Runs in which the SRB is cancelled or reset are left out (`UnitOp.Spares`).
That is the only thing asked of the other SRBs.
-/

namespace Winspd.Proofs

open Winspd.Lib Winspd.Sys Winspd.Spec

/-! ## The pieces of a transfer -/

def requestBlocks (r : TransactReq) : List Nat :=
  match r.op with
  | .read blockAddress blockCount _ | .write blockAddress blockCount _
  | .flush blockAddress blockCount => List.range' blockAddress.toNat blockCount.toNat
  | _ => []

def requestLength (unit : StorageUnitParams) (r : TransactReq) : Nat :=
  (requestBlocks r).length * unit.blockLength.toNat

/-- The operation of the requests a READ or WRITE is made into. -/
def transferOp (cdb : Cdb) : UInt64 → UInt32 → Bool → TransactOp :=
  if scsiOp cdb = .write then .write else .read

def chunkBlocks (unit : StorageUnitParams) : Nat :=
  unit.maxTransferLength.toNat / unit.blockLength.toNat

/-- Chunks in a transfer of `blockCount` blocks. -/
def chunkCount (unit : StorageUnitParams) (blockCount : UInt32) : Nat :=
  (blockCount.toNat * unit.blockLength.toNat) ⌈/⌉ unit.maxTransferLength.toNat

/-- The request is the `k`-th piece of the transfer that `srb` asks for. -/
def IsPieceReq (unit : StorageUnitParams) (srb : Srb) (range : CdbRange) (k : Nat)
    (r : TransactReq) : Prop :=
  ∃ blockAddress blockCount,
    r = ⟨srb.miniportContext, transferOp srb.cdb blockAddress blockCount
      (if unit.cacheSupported then range.forceUnitAccess else true)⟩ ∧
    blockAddress.toNat = range.blockAddress.toNat + k * chunkBlocks unit ∧
    blockCount.toNat = pieceLength range.blockCount.toNat (chunkBlocks unit) k

/-- And a piece of a WRITE comes with its bytes. -/
structure IsPiece (unit : StorageUnitParams) (srb : Srb) (range : CdbRange) (k : Nat)
    (r : Request) : Prop where
  req : IsPieceReq unit srb range k r.1
  bytes : scsiOp srb.cdb = .write → ∀ data, srb.dataBuffer = some data →
    r.2.take (requestLength unit r.1) =
      (data.drop (k * unit.maxTransferLength.toNat)).take (requestLength unit r.1)

variable {unit : StorageUnitParams} {srb : Srb} {range : CdbRange} {k : Nat} {r : Request}
  {requests : List Request}

theorem requestBlocks_transferOp {e : Addr} {cdb : Cdb} {blockAddress : UInt64}
    {blockCount : UInt32} {fua : Bool} :
    requestBlocks ⟨e, transferOp cdb blockAddress blockCount fua⟩ =
      List.range' blockAddress.toNat blockCount.toNat := by
  unfold transferOp
  split <;> rfl

theorem IsPieceReq.blocks {r : TransactReq} (h : IsPieceReq unit srb range k r) :
    requestBlocks r = List.range' (range.blockAddress.toNat + k * chunkBlocks unit)
      (pieceLength range.blockCount.toNat (chunkBlocks unit) k) := by
  obtain ⟨blockAddress, blockCount, rfl, haddr, hcount⟩ := h
  rw [requestBlocks_transferOp, haddr, hcount]

theorem blocks_of_pieces (h : ∀ k r, requests[k]? = some r → IsPiece unit srb range k r) :
    (requests.flatMap fun r => requestBlocks r.1) =
      List.range' range.blockAddress.toNat
        (min (requests.length * chunkBlocks unit) range.blockCount.toNat) := by
  rw [← pieces_take, List.flatMap_def, List.flatMap_def]
  congr 1
  refine List.ext_getElem (by simp) fun k h₁ h₂ => ?_
  rw [List.length_map] at h₁
  rw [List.getElem_map, List.getElem_map, List.getElem_range]
  exact (h k _ (List.getElem?_eq_getElem h₁)).req.blocks

/-! ## The account of one SRB -/

/-- What the answers put into the data buffer of a READ. -/
def answered (unit : StorageUnitParams) (requests : List Request)
    (answers : List (Option (List UInt8))) : List UInt8 :=
  (List.zipWith (fun r dataBuffer => answeredBytes dataBuffer (requestLength unit r.1))
    requests answers).flatten

/-- The state, after `requests` were handed out for the item and `answers` were
taken in for it. -/
structure Chunking (unit : StorageUnitParams) (srb : Srb) (range : CdbRange) (i : Item)
    (requests : List Request) (answers : List (Option (List UInt8))) (s : UnitSys) (q : Queue) :
    Prop where
  inv : UnitInv unit s q
  transfer : Transfer unit s.mem i (range.blockCount * unit.blockLength)
  srb_eq : s.mem.srb i.srb = { srb with dataBuffer := (s.mem.srb i.srb).dataBuffer }
  offset : (s.mem.ext i.ext).chunkOffset.toNat = answers.length * unit.maxTransferLength.toNat
  queued : (i ∈ q.pending ∧ requests.length = answers.length) ∨
    (i ∈ q.process ∧ requests.length = answers.length + 1)
  pieces : ∀ k r, requests[k]? = some r → IsPiece unit srb range k r
  write : scsiOp srb.cdb = .write → (s.mem.srb i.srb).dataBuffer = srb.dataBuffer
  read : scsiOp srb.cdb = .read → ∀ data, (s.mem.srb i.srb).dataBuffer = some data →
    data.take (answers.length * unit.maxTransferLength.toNat) = answered unit requests answers

/-- What is fixed along the run: the unit, and the SRB's range, whose length
fits its 32 bits. -/
structure ReadOrWrite (unit : StorageUnitParams) (srb : Srb) (range : CdbRange) : Prop where
  unitOk : UnitOk unit
  op : scsiOp srb.cdb = .read ∨ scsiOp srb.cdb = .write
  decoded : spdCdbGetRange srb.cdb = some range
  length_lt : range.blockCount.toNat * unit.blockLength.toNat < 2 ^ 32

section Account

variable {s s' : UnitSys} {q q' : Queue} {i : Item} {answers : List (Option (List UInt8))}
  (hrw : ReadOrWrite unit srb range) (hch : Chunking unit srb range i requests answers s q)

theorem UnitOk.chunkBlocks_mul (hu : UnitOk unit) :
    chunkBlocks unit * unit.blockLength.toNat = unit.maxTransferLength.toNat :=
  Nat.div_mul_cancel hu.dvd

theorem UnitOk.chunkBlocks_pos (hu : UnitOk unit) : 0 < chunkBlocks unit := by
  have hmul := hu.chunkBlocks_mul
  have hpos := hu.maxTransferLength
  by_contra h
  rw [Nat.eq_zero_of_not_pos h, Nat.zero_mul] at hmul
  omega

theorem UnitOk.chunkCount_eq (hu : UnitOk unit) :
    chunkCount unit range.blockCount = range.blockCount.toNat ⌈/⌉ chunkBlocks unit := by
  have hblock := hu.blockLength
  rw [chunkCount, ← hu.chunkBlocks_mul, ceilDiv_mul_mul (by omega) hu.chunkBlocks_pos]

theorem UnitOk.lt_chunkCount (hu : UnitOk unit) : k < chunkCount unit range.blockCount ↔
    k * unit.maxTransferLength.toNat < range.blockCount.toNat * unit.blockLength.toNat :=
  lt_ceilDiv_iff hu.maxTransferLength

include hrw

theorem ReadOrWrite.length : (range.blockCount * unit.blockLength).toNat =
    range.blockCount.toNat * unit.blockLength.toNat := by
  rw [UInt32.toNat_mul]
  exact Nat.mod_eq_of_lt hrw.length_lt

omit hrw in
theorem IsPieceReq.length {r : TransactReq} (hu : UnitOk unit)
    (h : IsPieceReq unit srb range k r) : requestLength unit r =
      pieceLength (range.blockCount.toNat * unit.blockLength.toNat)
        unit.maxTransferLength.toNat k := by
  rw [requestLength, h.blocks, List.length_range', ← hu.chunkBlocks_mul, pieceLength_mul]

include hch

theorem Chunking.chunk : (chunkLength unit (s.mem.ext i.ext)).toNat =
    pieceLength (range.blockCount.toNat * unit.blockLength.toNat)
      unit.maxTransferLength.toNat answers.length := by
  rw [hch.transfer.chunk, hch.offset, hrw.length]
  rfl

theorem Chunking.answered_lt : answers.length < chunkCount unit range.blockCount := by
  rw [hrw.unitOk.lt_chunkCount, ← hch.offset, ← hrw.length]
  have hne : range.blockCount * unit.blockLength ≠ 0 := by
    have hblock := hrw.unitOk.blockLength
    intro h
    have hlen := hrw.length
    rw [h] at hlen
    have hcount : range.blockCount = 0 := by
      rw [← UInt32.toNat_inj]
      rcases Nat.mul_eq_zero.mp hlen.symm with h0 | h0
      · exact h0
      · omega
    have hcdb : (s.mem.srb i.srb).cdb = srb.cdb := by rw [hch.srb_eq]
    have hok := hch.transfer.ok.of_range (by rw [hcdb]; exact hrw.op)
      (by rw [hcdb]; exact hrw.decoded)
    exact hok.2.2.2.2 hcount
  rcases hch.transfer.inside with h | h
  · exact h
  · rw [h]
    exact Nat.pos_of_ne_zero fun h0 => hne (UInt32.toNat_inj.mp h0)

omit hrw in
theorem Chunking.cdb : (s.mem.srb i.srb).cdb = srb.cdb := by rw [hch.srb_eq]

theorem Chunking.inUnit : InUnit unit range.blockAddress range.blockCount := by
  have hcdb := hch.cdb
  have hok := hch.transfer.ok.of_range (by rw [hcdb]; exact hrw.op)
    (by rw [hcdb]; exact hrw.decoded)
  exact hok.2.2.2.1

omit hrw in
theorem Chunking.ext_eq : i.ext = srb.miniportContext := by
  rw [← hch.transfer.miniportContext, hch.srb_eq]

theorem Chunking.chunkReq_piece : IsPieceReq unit srb range answers.length
    (chunkReq (transferOp srb.cdb) unit range i.ext (s.mem.ext i.ext)) := by
  have hblock := hrw.unitOk.blockLength
  have hmax := hrw.unitOk.chunkBlocks_mul
  refine ⟨_, _, congrArg (TransactReq.mk · _) hch.ext_eq, ?_, ?_⟩
  · rw [(inUnit_chunk (hch.inUnit hrw) hch.transfer.chunkOffset_add_le).1, hch.offset, ← hmax,
      ← Nat.mul_assoc, Nat.mul_div_cancel _ (by omega)]
  · rw [UInt32.toNat_div, hch.chunk hrw, ← hmax, pieceLength_mul,
      Nat.mul_div_cancel _ (by omega)]

theorem Chunking.request {buf : List UInt8} {t : Transact}
    (hlen : buf.length = unit.maxTransferLength.toNat)
    (hprep : spdSrbExecuteScsiPrepare i.ext i.srb ⟨s.mem, .zero, buf⟩ = some t) :
    IsPiece unit srb range answers.length (t.req, t.dataBuffer) := by
  have hcdb := hch.cdb
  have hpiece := hch.chunkReq_piece hrw
  have hdecoded := hrw.decoded
  rw [← hcdb] at hdecoded
  rcases hrw.op with hop | hop
  · have hop' := hop
    rw [← hcdb] at hop'
    rw [hch.transfer.prepare_read hrw.unitOk hop' hdecoded, Option.some.injEq] at hprep
    subst hprep
    rw [transferOp, if_neg (by simp [hop])] at hpiece
    exact ⟨hpiece, fun hw => by simp [hop] at hw⟩
  · have hop' := hop
    rw [← hcdb] at hop'
    obtain ⟨buf', hprep', hbytes⟩ :=
      hch.transfer.prepare_write hrw.unitOk hop' hdecoded hlen
    rw [hprep', Option.some.injEq] at hprep
    subst hprep
    rw [transferOp, if_pos hop] at hpiece
    refine ⟨hpiece, fun _ data hdata => ?_⟩
    have hlength := hpiece.length hrw.unitOk
    rw [← hch.chunk hrw] at hlength
    show buf'.take (requestLength unit (chunkReq .write unit range i.ext (s.mem.ext i.ext))) = _
    rw [hlength, ← hch.offset]
    exact hbytes data ((hch.write hop).trans hdata)

omit hrw hch in
theorem answered_append {init rest : List Request} (h : init.length = answers.length) :
    answered unit (init ++ rest) answers = answered unit init answers := by
  rw [answered, answered, ← List.append_nil answers, List.zipWith_append h,
    List.zipWith_nil_right,
    List.append_nil, List.append_nil]

omit hrw hch in
theorem answered_snoc {init : List Request} {buf : Option (List UInt8)}
    (h : init.length = answers.length) :
    answered unit (init ++ [r]) (answers ++ [buf]) =
      answered unit init answers ++ answeredBytes buf (requestLength unit r.1) := by
  rw [answered, answered, List.zipWith_append h, List.flatten_append]
  simp

/-- What a GOOD answer to the outstanding request leaves. -/
structure Answer (unit : StorageUnitParams) (srb : Srb) (range : CdbRange) (i : Item)
    (requests : List Request) (answers : List (Option (List UInt8))) (status : UInt8)
    (m : ScsiMem) : Prop where
  srb_eq : m.srb i.srb = { srb with dataBuffer := (m.srb i.srb).dataBuffer }
  offset : (m.ext i.ext).chunkOffset.toNat = min (answers.length * unit.maxTransferLength.toNat)
    (range.blockCount.toNat * unit.blockLength.toNat)
  status_eq : status = if answers.length < chunkCount unit range.blockCount then srbStatusPending
    else srbStatusSuccess
  write : scsiOp srb.cdb = .write → (m.srb i.srb).dataBuffer = srb.dataBuffer
  read : scsiOp srb.cdb = .read → ∃ data, (m.srb i.srb).dataBuffer = some data ∧
    data.take (min (answers.length * unit.maxTransferLength.toNat)
      (range.blockCount.toNat * unit.blockLength.toNat)) = answered unit requests answers

theorem Chunking.answer {rsp : TransactRsp} {buf : Option (List UInt8)} {status : UInt8}
    {m : ScsiMem} (hgood : rsp.status.scsiStatus = scsistatGood)
    (hlen : ∀ data, buf = some data → data.length = unit.maxTransferLength.toNat)
    (hreq : requests.length = answers.length + 1)
    (hcomplete : spdSrbExecuteScsiComplete rsp buf i.ext i.srb s.mem = some (status, m)) :
    Answer unit srb range i requests (answers ++ [buf]) status m := by
  have hcdb := hch.cdb
  have hlt := (hrw.unitOk.lt_chunkCount).mp (hch.answered_lt hrw)
  have hchunk := hch.chunk hrw
  have hnext : (s.mem.ext i.ext).chunkOffset.toNat + (chunkLength unit (s.mem.ext i.ext)).toNat =
      min ((answers ++ [buf]).length * unit.maxTransferLength.toNat)
        (range.blockCount.toNat * unit.blockLength.toNat) := by
    rw [hchunk, hch.offset, add_pieceLength (Nat.le_of_lt hlt), List.length_append]
    rfl
  have hstatus : chunkStatus unit (s.mem.ext i.ext) =
      if (answers ++ [buf]).length < chunkCount unit range.blockCount then srbStatusPending
      else srbStatusSuccess := by
    have hcases := chunkStatus_cases unit (s.mem.ext i.ext)
    rw [hch.transfer.chunkOffset_add, hch.transfer.systemDataLength, hrw.length, hnext] at hcases
    obtain ⟨hst, hle⟩ | ⟨hst, hlt'⟩ := hcases
    · rw [if_neg (by rw [hrw.unitOk.lt_chunkCount]; omega), hst]
    · rw [if_pos (by rw [hrw.unitOk.lt_chunkCount]; omega), hst]
  have hoffset : (nextChunk unit (s.mem.ext i.ext)).chunkOffset.toNat =
      min ((answers ++ [buf]).length * unit.maxTransferLength.toNat)
        (range.blockCount.toNat * unit.blockLength.toNat) := by
    rw [nextChunk, hch.transfer.chunkOffset_add, hnext]
  rcases hrw.op with hop | hop
  · obtain ⟨srb', hcomplete', hsrb, hdata⟩ :=
      hch.transfer.complete_read hgood (by rw [hcdb]; exact hop) hlen
    rw [hcomplete, Option.some.injEq, Prod.mk.injEq] at hcomplete'
    obtain ⟨rfl, rfl⟩ := hcomplete'
    have hs : ((s.mem.setSrb i.srb srb').setExt i.ext (nextChunk unit (s.mem.ext i.ext))).srb
        i.srb = srb' := Function.update_self _ _ _
    have he : ((s.mem.setSrb i.srb srb').setExt i.ext (nextChunk unit (s.mem.ext i.ext))).ext
        i.ext = nextChunk unit (s.mem.ext i.ext) := Function.update_self _ _ _
    refine ⟨?_, by rw [he, hoffset], hstatus, fun hw => by simp [hop] at hw, fun _ => ?_⟩
    · rw [hs, hsrb, hch.srb_eq]
    · have hne : range.blockCount * unit.blockLength ≠ 0 := by
        intro h
        rw [← hrw.length, h] at hlt
        exact absurd hlt (Nat.not_lt_zero _)
      obtain ⟨data, hsome, -⟩ := hch.transfer.mapped hne
      obtain ⟨data', hsome', -, htake⟩ := hdata data hsome
      obtain rfl | ⟨init, r, rfl⟩ := List.eq_nil_or_concat' requests
      · simp at hreq
      · rw [List.length_append, List.length_singleton, Nat.add_right_cancel_iff] at hreq
        have hr := hch.pieces answers.length r (by rw [← hreq]; exact List.getElem?_concat_length)
        have hread := hch.read hop data hsome
        rw [answered_append hreq] at hread
        refine ⟨data', by rw [hs, hsome'], ?_⟩
        rw [← hnext, htake, hch.offset, hread, answered_snoc hreq,
          hr.req.length hrw.unitOk, hchunk]
  · rw [hch.transfer.complete_write hgood (by rw [hcdb]; exact hop), Option.some.injEq,
      Prod.mk.injEq] at hcomplete
    obtain ⟨rfl, rfl⟩ := hcomplete
    have he : (s.mem.setExt i.ext (nextChunk unit (s.mem.ext i.ext))).ext i.ext =
        nextChunk unit (s.mem.ext i.ext) := Function.update_self _ _ _
    exact ⟨hch.srb_eq, by rw [he, hoffset], hstatus, hch.write, fun hr => by simp [hop] at hr⟩

end Account

/-! ## The steps -/

variable {disk : Disk} {s s' : UnitSys} {q q' : Queue} {i j : Item} {ev : UnitEvent}
  {answers : List (Option (List UInt8))} {ls : List UnitEvent}

theorem Chunking.keep (hch : Chunking unit srb range i requests answers s q)
    (hinv' : UnitInv unit s' q') (hs : s'.mem.srb i.srb = s.mem.srb i.srb)
    (he : s'.mem.ext i.ext = s.mem.ext i.ext) (hp : i ∈ q.pending → i ∈ q'.pending)
    (hr : i ∈ q.process → i ∈ q'.process) :
    Chunking unit srb range i requests answers s' q' := by
  obtain ⟨-, htransfer, hsrb, hoffset, hqueued, hpieces, hwrite, hread⟩ := hch
  refine ⟨hinv', htransfer.congr hs he, by rwa [hs], by rwa [he], ?_, hpieces, by rwa [hs],
    by rwa [hs]⟩
  exact hqueued.imp (And.imp_left hp) (And.imp_left hr)

/-- The last answer: it completes the SRB, and it answers the last piece. -/
structure Finished (unit : StorageUnitParams) (srb : Srb) (range : CdbRange) (i : Item)
    (requests : List Request) (answers : List (Option (List UInt8))) (ev : UnitEvent)
    (s' : UnitSys) : Prop where
  calls : ev.calls =
    [.complete i.ext i.srb srbStatusSuccess, .srbComplete i.srb srbStatusSuccess]
  handed : requests.length = chunkCount unit range.blockCount
  answered : answers.length + 1 = chunkCount unit range.blockCount
  answer : ∃ rsp buf, ev.op = .transactRsp rsp buf ∧
    Answer unit srb range i requests (answers ++ [buf]) srbStatusSuccess s'.mem

/-- While user mode has the SRB, there is one request more than answers. -/
theorem Chunking.length_of_process (hch : Chunking unit srb range i requests answers s q)
    (hi : i ∈ q.process) : requests.length = answers.length + 1 := by
  rcases hch.queued with ⟨hp, -⟩ | ⟨-, hlen⟩
  · have hnd := List.nodup_append.mp hch.inv.good.refines.wf.items_nodup
    exact absurd rfl (hnd.2.2 i hp i hi)
  · exact hlen

theorem Chunking.length_of_pending (hch : Chunking unit srb range i requests answers s q)
    (hi : i ∈ q.pending) : requests.length = answers.length := by
  rcases hch.queued with ⟨-, hlen⟩ | ⟨hr, -⟩
  · exact hlen
  · have hnd := List.nodup_append.mp hch.inv.good.refines.wf.items_nodup
    exact absurd rfl (hnd.2.2 i hi i hr)

theorem Chunking.handed {buf : List UInt8} {t : Transact}
    (hrw : ReadOrWrite disk.unit.storageUnitParams srb range)
    (hch : Chunking disk.unit.storageUnitParams srb range i requests answers s q)
    (hinv' : UnitInv disk.unit.storageUnitParams s' q')
    (hlen : buf.length = disk.unit.storageUnitParams.maxTransferLength.toNat)
    (hprep : spdSrbExecuteScsiPrepare i.ext i.srb ⟨s.mem, .zero, buf⟩ = some t)
    (hmem : s'.mem = s.mem) (hp : i ∈ q.pending) (hr : i ∈ q'.process) :
    Chunking disk.unit.storageUnitParams srb range i (requests ++ [(t.req, t.dataBuffer)]) answers
      s' q' := by
  have hcount := hch.length_of_pending hp
  refine ⟨hinv', ?_, ?_, ?_, ?_, ?_, ?_, ?_⟩
  · rw [hmem]
    exact hch.transfer
  · rw [hmem]
    exact hch.srb_eq
  · rw [hmem]
    exact hch.offset
  · exact .inr ⟨hr, by rw [List.length_append, hcount]; rfl⟩
  · intro k r hr
    rw [List.getElem?_append] at hr
    split at hr
    · exact hch.pieces k r hr
    · next hk =>
        have hk' : k = answers.length := by
          by_contra hne
          rw [List.getElem?_eq_none (by simp; omega)] at hr
          cases hr
        subst hk'
        rw [hcount, Nat.sub_self, List.getElem?_cons_zero, Option.some.injEq] at hr
        subst hr
        exact hch.request hrw hlen hprep
  · rw [hmem]
    exact hch.write
  · rw [hmem]
    intro hop data hdata
    rw [answered_append hcount]
    exact hch.read hop data hdata

theorem Chunking.reposted {buf : Option (List UInt8)}
    (hrw : ReadOrWrite disk.unit.storageUnitParams srb range)
    (hch : Chunking disk.unit.storageUnitParams srb range i requests answers s q)
    (hinv' : UnitInv disk.unit.storageUnitParams s' q')
    (htransfer : Transfer disk.unit.storageUnitParams s'.mem i
      (range.blockCount * disk.unit.storageUnitParams.blockLength))
    (hanswer : Answer disk.unit.storageUnitParams srb range i requests (answers ++ [buf])
      srbStatusPending s'.mem)
    (hr : i ∈ q.process) (hp : i ∈ q'.pending) :
    Chunking disk.unit.storageUnitParams srb range i requests (answers ++ [buf]) s' q' := by
  have hlt : (answers ++ [buf]).length <
      chunkCount disk.unit.storageUnitParams range.blockCount := by
    have hst := hanswer.status_eq
    split at hst
    · assumption
    · exact absurd hst (by decide)
  have hmin := Nat.min_eq_left (Nat.le_of_lt (hrw.unitOk.lt_chunkCount.mp hlt))
  refine ⟨hinv', htransfer, hanswer.srb_eq, ?_, .inl ⟨hp, ?_⟩, hch.pieces,
    hanswer.write, ?_⟩
  · rw [hanswer.offset, hmin]
  · rw [hch.length_of_process hr, List.length_append]
    rfl
  · intro hop data hdata
    obtain ⟨data', hdata', htake⟩ := hanswer.read hop
    rw [hdata, Option.some.injEq] at hdata'
    rw [← hmin, hdata']
    exact htake

theorem Chunking.step (hrw : ReadOrWrite disk.unit.storageUnitParams srb range)
    (hch : Chunking disk.unit.storageUnitParams srb range i requests answers s q)
    (h : UnitStep disk s ev s') (hspares : ev.op.Spares i) (hgood : ev.op.Good i.ext) :
    (i.srb ∉ ev.completed ∧ ∃ q', Chunking disk.unit.storageUnitParams srb range i
      (requests ++ (ev.requestFor i.ext).toList) (answers ++ (ev.answerFor i.ext).toList) s' q') ∨
    Finished disk.unit.storageUnitParams srb range i requests answers ev s' := by
  have hallowed := h.allowed
  have hi : i ∈ q.items := by
    rcases hch.queued with ⟨hi, -⟩ | ⟨hi, -⟩
    · exact List.mem_append_left _ hi
    · exact List.mem_append_right _ hi
  obtain ⟨q', hinv', hitem, htransfer⟩ := hch.inv.itemStep hrw.unitOk h hi
  have hqueued : i ∈ q'.items → i.srb ∉ ev.completed := hinv'.good.notMem_completed h
  cases hitem with
  | untouched requestFor answerFor hsrb hext pending process =>
      refine .inl ⟨hqueued (mem_items_of_untouched hi pending process), q', ?_⟩
      simp only [requestFor, answerFor, Option.toList_none, List.append_nil]
      exact hch.keep hinv' hsrb hext pending process
  | aborted mem takes => exact absurd mem (hspares.notMem takes)
  | handed op requestFor answerFor prepare mem pending process =>
      rw [op] at hallowed
      refine .inl ⟨hqueued (List.mem_append_right _ process), q', ?_⟩
      simp only [requestFor, answerFor, Option.toList_some, Option.toList_none, List.append_nil]
      exact hch.handed hrw hinv' hallowed prepare mem pending process
  | reposted op hint requestFor answerFor complete process pending =>
      rw [op] at hallowed hgood
      have hi' : i ∈ q'.items := List.mem_append_left _ pending
      have hanswer := hch.answer hrw (hgood hint) hallowed (hch.length_of_process process) complete
      refine .inl ⟨hqueued hi', q', ?_⟩
      simp only [requestFor, answerFor, Option.toList_some, Option.toList_none, List.append_nil]
      exact hch.reposted hrw hinv' (htransfer _ hch.transfer hi') hanswer process pending
  | @finished rsp buf status op hint calls complete status_ne process =>
      rw [op] at hallowed hgood
      have hlen := hch.length_of_process process
      have hanswer := hch.answer hrw (hgood hint) hallowed hlen complete
      have hlt := hch.answered_lt hrw
      have hst := hanswer.status_eq
      split at hst
      · exact absurd hst status_ne
      · next hge =>
          subst hst
          rw [List.length_append, List.length_singleton] at hge
          exact .inr ⟨calls, by omega, by omega, rsp, buf, op, hanswer⟩

/-! ## The run -/

variable {mem : ScsiMem} {ioqMem : SpdIoq} {s₀ s₁ : UnitSys} {q₀ : Queue} {ev₀ : UnitEvent}
  {ls₀ : List UnitEvent} {a : Addr} {storResult : StorStatus}

theorem chunking_posted (hrw : ReadOrWrite disk.unit.storageUnitParams srb range)
    (hinv : UnitInv disk.unit.storageUnitParams s₀ q₀) (h : UnitStep disk s₀ ev₀ s₁)
    (hop : ev₀.op = .startIo a srb storResult) (hposted : a ∉ ev₀.completed) :
    ∃ q₁, Chunking disk.unit.storageUnitParams srb range ⟨srb.miniportContext, a⟩ [] []
      s₁ q₁ := by
  obtain ⟨q₁, hinv', hc⟩ := hinv.step h
  have hallowed := h.allowed
  rw [hop] at hallowed
  obtain ⟨dataLength, ok, stor, mem, pending⟩ := hc.posted_of_owed hop hposted
  obtain ⟨rfl, -⟩ := ok.of_range hrw.op hrw.decoded
  have hs : s₁.mem.srb a = srb := by
    rw [mem]
    exact Function.update_self _ _ _
  have he : (s₁.mem.ext srb.miniportContext).chunkOffset = 0 := by
    rw [mem, ScsiMem.setExt_ext, Function.update_self, postedExt_chunkOffset]
  refine ⟨q₁, hinv', ?_, by rw [hs], by rw [he]; simp, .inl ⟨?_, rfl⟩, by simp,
    fun _ => by rw [hs], fun _ data _ => by simp [answered]⟩
  · rw [mem]
    exact transfer_posted hallowed.1 hallowed.2.2.2 ok stor
  · rw [pending]
    exact List.mem_append_right _ (List.mem_singleton_self _)

theorem Chunking.run (hrw : ReadOrWrite disk.unit.storageUnitParams srb range)
    (hch : Chunking disk.unit.storageUnitParams srb range i [] [] s₁ q)
    (hrun : Run (UnitStep disk) s₁ ls s) (hlive : ∀ ev ∈ ls, i.srb ∉ ev.completed)
    (hspares : ∀ ev ∈ ls, ev.op.Spares i) (hgood : ∀ ev ∈ ls, ev.op.Good i.ext) :
    ∃ q, Chunking disk.unit.storageUnitParams srb range i (requestsFor i.ext ls)
      (answersFor i.ext ls) s q := by
  refine hrun.history (I := fun ls s => (∀ ev ∈ ls, i.srb ∉ ev.completed) →
    (∀ ev ∈ ls, ev.op.Spares i) → (∀ ev ∈ ls, ev.op.Good i.ext) →
    ∃ q, Chunking disk.unit.storageUnitParams srb range i (requestsFor i.ext ls)
      (answersFor i.ext ls) s q) (fun _ _ _ => ⟨q, hch⟩) ?_ hlive hspares hgood
  intro ls s ev s' _ ih h hlive hspares hgood
  simp only [List.forall_mem_append, List.forall_mem_singleton] at hlive hspares hgood
  obtain ⟨q, hch⟩ := ih hlive.1 hspares.1 hgood.1
  rcases hch.step hrw h hspares.2 hgood.2 with ⟨-, q', hch'⟩ | hfin
  · exact ⟨q', by rwa [requestsFor_snoc, answersFor_snoc]⟩
  · refine absurd ?_ hlive.2
    simp [UnitEvent.completed, hfin.calls, completedSrb]

/-! ## The transfer -/

/-- A request for some of the blocks of a READ or WRITE: of its kind, with its
force unit access, for at least one block and at most a chunk, and with the
bytes of the blocks it names if it writes them. -/
structure IsChunk (unit : StorageUnitParams) (srb : Srb) (range : CdbRange) (r : Request) :
    Prop where
  hint : r.1.hint = srb.miniportContext
  op : ∃ blockAddress blockCount, r.1.op = transferOp srb.cdb blockAddress blockCount
      (if unit.cacheSupported then range.forceUnitAccess else true) ∧
    1 ≤ blockCount.toNat ∧ blockCount.toNat ≤ chunkBlocks unit ∧
    (scsiOp srb.cdb = .write → ∀ data, srb.dataBuffer = some data →
      r.2.take (blockCount.toNat * unit.blockLength.toNat) =
        (data.drop ((blockAddress.toNat - range.blockAddress.toNat) *
          unit.blockLength.toNat)).take (blockCount.toNat * unit.blockLength.toNat))

theorem IsPiece.isChunk (hu : UnitOk unit) (h : IsPiece unit srb range k r)
    (hk : k < chunkCount unit range.blockCount) : IsChunk unit srb range r := by
  have hmax := hu.chunkBlocks_mul
  rw [hu.chunkCount_eq, lt_ceilDiv_iff hu.chunkBlocks_pos] at hk
  obtain ⟨blockAddress, blockCount, heq, haddr, hcount⟩ := h.req
  refine ⟨by rw [heq], blockAddress, blockCount, by rw [heq], ?_, ?_, fun hw data hdata => ?_⟩
  · rw [hcount]
    exact pieceLength_pos hu.chunkBlocks_pos hk
  · rw [hcount]
    exact pieceLength_le
  · have hbytes := h.bytes hw data hdata
    rw [heq, requestLength, requestBlocks_transferOp, List.length_range'] at hbytes
    rw [hbytes, haddr, Nat.add_sub_cancel_left, ← hmax, Nat.mul_assoc]

/-- As far as the transfer got: not all requests are answered, at most one of
those handed out is outstanding, and they are for the first blocks. -/
structure TransferSoFar (unit : StorageUnitParams) (srb : Srb) (range : CdbRange)
    (requests : List Request) (answers : List (Option (List UInt8))) : Prop where
  answered_lt : answers.length < chunkCount unit range.blockCount
  answered_le : answers.length ≤ requests.length
  handed_le : requests.length ≤ answers.length + 1
  blocks : (requests.flatMap fun r => requestBlocks r.1) =
    List.range' range.blockAddress.toNat
      (min (requests.length * chunkBlocks unit) range.blockCount.toNat)
  chunks : ∀ r ∈ requests, IsChunk unit srb range r

/-- The transfer is done: `ev` took in the last of the answers and completed
the SRB with success, the requests are for all the blocks, in order and each
once, and the data of a READ is what was answered. -/
structure TransferDone (unit : StorageUnitParams) (a : Addr) (srb : Srb) (range : CdbRange)
    (requests : List Request) (answers : List (Option (List UInt8))) (ev : UnitEvent)
    (s' : UnitSys) : Prop where
  calls : ev.calls =
    [.complete srb.miniportContext a srbStatusSuccess, .srbComplete a srbStatusSuccess]
  handed : requests.length = chunkCount unit range.blockCount
  answered : answers.length + 1 = chunkCount unit range.blockCount
  blocks : (requests.flatMap fun r => requestBlocks r.1) =
    List.range' range.blockAddress.toNat range.blockCount.toNat
  read : scsiOp srb.cdb = .read → ∃ rsp buf data, ev.op = .transactRsp rsp buf ∧
    (s'.mem.srb a).dataBuffer = some data ∧
    data.take (range.blockCount.toNat * unit.blockLength.toNat) =
      Proofs.answered unit requests (answers ++ [buf])

theorem Chunking.soFar (hrw : ReadOrWrite unit srb range)
    (hch : Chunking unit srb range i requests answers s q) :
    TransferSoFar unit srb range requests answers := by
  have hlt := hch.answered_lt hrw
  have hle : answers.length ≤ requests.length ∧ requests.length ≤ answers.length + 1 := by
    rcases hch.queued with ⟨-, h⟩ | ⟨-, h⟩ <;> omega
  refine ⟨hlt, hle.1, hle.2, blocks_of_pieces hch.pieces, fun r hr => ?_⟩
  obtain ⟨k, hk, rfl⟩ := List.mem_iff_getElem.mp hr
  exact (hch.pieces k _ (List.getElem?_eq_getElem hk)).isChunk hrw.unitOk (by omega)

theorem Chunking.done (hrw : ReadOrWrite unit srb range)
    (hch : Chunking unit srb range ⟨srb.miniportContext, a⟩ requests answers s q)
    (hfin : Finished unit srb range ⟨srb.miniportContext, a⟩ requests answers ev s') :
    TransferDone unit a srb range requests answers ev s' := by
  obtain ⟨rsp, buf, hop, hanswer⟩ := hfin.answer
  have hall : range.blockCount.toNat ≤ requests.length * chunkBlocks unit := by
    by_contra hlt
    rw [Nat.not_le, ← lt_ceilDiv_iff hrw.unitOk.chunkBlocks_pos, ← hrw.unitOk.chunkCount_eq,
      hfin.handed] at hlt
    exact Nat.lt_irrefl _ hlt
  have hbytes : range.blockCount.toNat * unit.blockLength.toNat ≤
      (answers ++ [buf]).length * unit.maxTransferLength.toNat := by
    rw [← Nat.not_lt, ← hrw.unitOk.lt_chunkCount, List.length_append, List.length_singleton,
      hfin.answered]
    exact Nat.lt_irrefl _
  refine ⟨hfin.calls, hfin.handed, hfin.answered, ?_, fun hread => ?_⟩
  · rw [blocks_of_pieces hch.pieces, Nat.min_eq_right hall]
  · obtain ⟨data, hdata, htake⟩ := hanswer.read hread
    rw [Nat.min_eq_right hbytes] at htake
    exact ⟨rsp, buf, data, hop, hdata, htake⟩

/-- What holds of the transfer after the history `ls` of its SRB. -/
structure Transferring (disk : Disk) (a : Addr) (srb : Srb) (range : CdbRange)
    (ls : List UnitEvent) (s : UnitSys) : Prop where
  soFar : TransferSoFar disk.unit.storageUnitParams srb range
    (requestsFor srb.miniportContext ls) (answersFor srb.miniportContext ls)
  /-- Whatever completes the SRB next is the last answer. -/
  done : ∀ ev s', UnitStep disk s ev s' → ev.op.Spares ⟨srb.miniportContext, a⟩ →
    ev.op.Good srb.miniportContext → a ∈ ev.completed →
    TransferDone disk.unit.storageUnitParams a srb range (requestsFor srb.miniportContext ls)
      (answersFor srb.miniportContext ls) ev s'
  /-- An answer to the outstanding request completes the SRB if it is the last. -/
  last : ∀ ev s' rsp buf, UnitStep disk s ev s' → ev.op = .transactRsp rsp buf →
    rsp.hint = srb.miniportContext → rsp.status.scsiStatus = scsistatGood →
    (requestsFor srb.miniportContext ls).length =
      (answersFor srb.miniportContext ls).length + 1 →
    (a ∈ ev.completed ↔ (requestsFor srb.miniportContext ls).length =
      chunkCount disk.unit.storageUnitParams range.blockCount)
  /-- User mode is always served. -/
  served : ∀ op : UnitOp, op.Transacts → op.Allowed disk.unit.storageUnitParams s.live →
    ∃ ev s', ev.op = op ∧ UnitStep disk s ev s'

/-- A READ or WRITE that was posted, in any run that spares it and answers it
GOOD, up to the step that completes it. -/
theorem unit_transfer_chunks (hvalid : ¬ disk.unit.storageUnitParams.Invalid)
    (h₀ : Run (UnitStep disk) (.create mem ioqMem) ls₀ s₀)
    (hpost : UnitStep disk s₀ ev₀ s₁)
    (hstart : ev₀.op = .startIo a srb storResult) (hposted : a ∉ ev₀.completed)
    (hop : scsiOp srb.cdb = .read ∨ scsiOp srb.cdb = .write)
    (hrange : spdCdbGetRange srb.cdb = some range)
    (hlen : range.blockCount.toNat * disk.unit.storageUnitParams.blockLength.toNat < 2 ^ 32)
    (hrun : Run (UnitStep disk) s₁ ls s) (hlive : ∀ ev ∈ ls, a ∉ ev.completed)
    (hspares : ∀ ev ∈ ls, ev.op.Spares ⟨srb.miniportContext, a⟩)
    (hgood : ∀ ev ∈ ls, ev.op.Good srb.miniportContext) :
    Transferring disk a srb range ls s := by
  have hrw : ReadOrWrite disk.unit.storageUnitParams srb range :=
    ⟨unitOk_of_valid hvalid, hop, hrange, hlen⟩
  obtain ⟨q₀, hinv⟩ := unitRun_inv h₀
  obtain ⟨q₁, hch₁⟩ := chunking_posted hrw hinv hpost hstart hposted
  obtain ⟨q, hch⟩ := hch₁.run hrw hrun hlive hspares hgood
  refine ⟨hch.soFar hrw, ?_, ?_, fun op hop ha => hch.inv.transacts hrw.unitOk hop ha⟩
  · intro ev s' h hspares hgood hdone
    exact hch.done hrw ((hch.step hrw h hspares hgood).resolve_left fun hno => hno.1 hdone)
  · intro ev s' rsp buf h hrsp hhint hok hout
    have hstep := hch.step hrw h (by rw [hrsp]; trivial) (by rw [hrsp]; exact fun _ => hok)
    constructor
    · intro hdone
      exact (hstep.resolve_left fun hno => hno.1 hdone).handed
    · intro hall
      by_contra hno
      rcases hstep with ⟨-, q', hch'⟩ | hfin
      · have hproc : (⟨srb.miniportContext, a⟩ : Item) ∈ q.process := by
          rcases hch.queued with ⟨-, hlen⟩ | ⟨hproc, -⟩
          · simp only at hlen
            omega
          · exact hproc
        have hlt := hch'.answered_lt hrw
        rw [hch.inv.answerFor h hrsp hproc hhint, Option.toList_some, List.length_append,
          List.length_singleton] at hlt
        simp only at hlt
        omega
      · refine hno ?_
        simp [UnitEvent.completed, hfin.calls, completedSrb]

def sampleRsp : TransactRsp := ⟨0x1000, 1, ⟨scsistatGood, 0, 0, 0, 0, false⟩⟩

/-- The READ of three blocks, after one of its two answers. -/
theorem unit_transfer_chunks_read :
    ∃ s₁ ls s, UnitStep sampleDisk (.create (sampleMem sampleRead) zeroedIoq)
        ⟨.startIo 0x2000 sampleRead .success, [], none⟩ s₁ ∧
      Run (UnitStep sampleDisk) s₁ ls s ∧
      (requestsFor 0x1000 ls).map Prod.fst =
        [⟨0x1000, .read 0 2 false⟩, ⟨0x1000, .read 2 1 false⟩] ∧
      (answersFor 0x1000 ls).length = 1 ∧
      Transferring sampleDisk 0x2000 sampleRead ⟨0, 3, false⟩ ls s := by
  obtain ⟨r₁, r₂, r₃, r₄, h₁, h₂, h₃, h₄, hr₁, hr₂, hr₃, hr₄⟩ :
      ∃ r₁ r₂ r₃ r₄,
      UnitOp.exec sampleDisk (sampleMem sampleRead) (spdIoqCreate zeroedIoq)
        (.startIo 0x2000 sampleRead .success) = some r₁ ∧
      UnitOp.exec sampleDisk r₁.1 r₁.2.1 (.transactReq (List.replicate 32 0)) = some r₂ ∧
      UnitOp.exec sampleDisk r₂.1 r₂.2.1 (.transactRsp sampleRsp none) = some r₃ ∧
      UnitOp.exec sampleDisk r₃.1 r₃.2.1 (.transactReq (List.replicate 32 0)) = some r₄ ∧
      r₁.2.2 = ([], none) ∧
      r₂.2.2 = ([.prepare 0x1000 0x2000],
        some (⟨0x1000, .read 0 2 false⟩, List.replicate 32 0)) ∧
      r₃.2.2 = ([.complete 0x1000 0x2000 srbStatusPending], none) ∧
      r₄.2.2 = ([.prepare 0x1000 0x2000],
        some (⟨0x1000, .read 2 1 false⟩, List.replicate 32 0)) :=
    ⟨_, _, _, _, rfl, rfl, rfl, rfl, rfl, rfl, rfl, rfl⟩
  obtain ⟨m₁, ioq₁, c₁, n₁⟩ := r₁
  obtain ⟨m₂, ioq₂, c₂, n₂⟩ := r₂
  obtain ⟨m₃, ioq₃, c₃, n₃⟩ := r₃
  obtain ⟨m₄, ioq₄, c₄, n₄⟩ := r₄
  cases hr₁
  cases hr₂
  cases hr₃
  cases hr₄
  have hstep₁ : UnitStep sampleDisk (.create (sampleMem sampleRead) zeroedIoq)
      ⟨.startIo 0x2000 sampleRead .success, [], none⟩
        ⟨m₁, ioq₁, [⟨0x1000, 0x2000⟩]⟩ :=
    ⟨⟨by decide, by decide, fun j hj => (by cases hj), sampleRead_mapped⟩, h₁, rfl⟩
  have hstep₂ : UnitStep sampleDisk ⟨m₁, ioq₁, [⟨0x1000, 0x2000⟩]⟩
      ⟨.transactReq (List.replicate 32 0), _, _⟩ ⟨m₂, ioq₂, [⟨0x1000, 0x2000⟩]⟩ :=
        ⟨rfl, h₂, rfl⟩
  have hstep₃ : UnitStep sampleDisk ⟨m₂, ioq₂, [⟨0x1000, 0x2000⟩]⟩
      ⟨.transactRsp sampleRsp none, _, _⟩ ⟨m₃, ioq₃, [⟨0x1000, 0x2000⟩]⟩ :=
    ⟨fun buf hbuf => (by cases hbuf), h₃, rfl⟩
  have hstep₄ : UnitStep sampleDisk ⟨m₃, ioq₃, [⟨0x1000, 0x2000⟩]⟩
      ⟨.transactReq (List.replicate 32 0), _, _⟩ ⟨m₄, ioq₄, [⟨0x1000, 0x2000⟩]⟩ :=
        ⟨rfl, h₄, rfl⟩
  have hrun := ((Run.single hstep₂).snoc hstep₃).snoc hstep₄
  refine ⟨_, _, _, hstep₁, hrun, rfl, rfl,
    unit_transfer_chunks sampleDisk_valid .nil hstep₁ rfl (by decide)
    (.inl (by decide)) (by decide) (by decide) hrun ?_ ?_ ?_⟩
  · simp [UnitEvent.completed, completedSrb]
  · simp [UnitOp.Spares]
  · simp [UnitOp.Good, sampleRsp]

end Winspd.Proofs
