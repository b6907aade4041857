import Winspd.Proofs.RawdiskRun

/-!
# A transfer, on the way to the file

The account of a READ or WRITE along a run of the whole system. `Chunking` says which
requests are made of it and what the answers put together. `DiskTransfer` adds what
was done to the file for the answers: every byte of a READ that was answered was
loaded, and every byte of a WRITE that was answered was stored and, with force unit
access, flushed.

The requests of an SRB are known by the address of its extension. While the SRB is
owed, at most one thread has a request with this hint, and it is the outstanding one
(`DiskTransfer.held`); this needs that no thread had one when the SRB came. So the
response that is taken in is the one of the thread that has served the request.
-/

namespace Winspd.Proofs

open Winspd.Lib Winspd.Sys Winspd.Shared Winspd.Spec Winspd.Rawdisk

/-! ## An SRB that is completed with success -/

section Unit

variable {disk : Disk} {srb : Srb} {range : CdbRange} {i : Item} {requests : List Request}
  {answers : List (Option (List UInt8))} {s s' : UnitSys} {q : Queue} {ev : UnitEvent}
  {rsp : TransactRsp} {buf : Option (List UInt8)} {e a : Addr} {m m' : ScsiMem} {status : UInt8}

theorem complete_good (h : spdSrbExecuteScsiComplete rsp buf e a m = some (status, m'))
    (hstatus : srbStatus status ≠ srbStatusError) : rsp.status.scsiStatus = scsistatGood := by
  by_contra hbad
  simp only [spdSrbExecuteScsiComplete, if_pos hbad, Option.bind_eq_bind,
    Option.bind_eq_some_iff] at h
  obtain ⟨⟨st, srb⟩, herror, h⟩ := h
  cases h
  exact hstatus (spdScsiErrorEx_status herror)

theorem Chunking.survive (hrw : ReadOrWrite disk.unit.storageUnitParams srb range)
    (hch : Chunking disk.unit.storageUnitParams srb range i requests answers s q)
    (h : UnitStep disk s ev s') (hlive : i.srb ∉ ev.completed) :
    ∃ q', Chunking disk.unit.storageUnitParams srb range i
      (requests ++ (ev.requestFor i.ext).toList)
      (answers ++ (ev.answerFor i.ext).toList) s' q' := by
  have hallowed := h.allowed
  have hi : i ∈ q.items := by
    rcases hch.queued with ⟨hi, -⟩ | ⟨hi, -⟩
    · exact List.mem_append_left _ hi
    · exact List.mem_append_right _ hi
  obtain ⟨q', hinv', hitem, htransfer⟩ := hch.inv.itemStep hrw.unitOk h hi
  cases hitem with
  | untouched requestFor answerFor hsrb hext pending process =>
      refine ⟨q', ?_⟩
      simp only [requestFor, answerFor, Option.toList_none, List.append_nil]
      exact hch.keep hinv' hsrb hext pending process
  | aborted _ _ call => exact absurd (mem_completed call) hlive
  | handed op requestFor answerFor prepare mem pending process =>
      rw [op] at hallowed
      refine ⟨q', ?_⟩
      simp only [requestFor, answerFor, Option.toList_some, Option.toList_none, List.append_nil]
      exact hch.handed hrw hinv' hallowed prepare mem pending process
  | reposted op hint requestFor answerFor complete process pending =>
      rw [op] at hallowed
      have hgood := complete_good complete (by decide)
      have hanswer := hch.answer hrw hgood hallowed (hch.length_of_process process) complete
      refine ⟨q', ?_⟩
      simp only [requestFor, answerFor, Option.toList_some, Option.toList_none, List.append_nil]
      exact hch.reposted hrw hinv' (htransfer _ hch.transfer (List.mem_append_left _ pending))
        hanswer process pending
  | @finished rsp buf status op hint calls =>
      have hcall : .srbComplete i.srb status ∈ ev.calls := by
        rw [calls]
        exact List.mem_cons_of_mem _ (List.mem_singleton_self _)
      exact absurd (mem_completed hcall) hlive

/-- A step that completes it with success takes in the last answer. -/
theorem Chunking.succeed (hrw : ReadOrWrite disk.unit.storageUnitParams srb range)
    (hch : Chunking disk.unit.storageUnitParams srb range i requests answers s q)
    (h : UnitStep disk s ev s') (hsuccess : .srbComplete i.srb srbStatusSuccess ∈ ev.calls) :
    Finished disk.unit.storageUnitParams srb range i requests answers ev s' ∧
      ∃ rsp buf, ev.op = .transactRsp rsp buf ∧ rsp.hint = i.ext ∧ i ∈ q.process ∧
        rsp.status.scsiStatus = scsistatGood := by
  have hallowed := h.allowed
  have hi : i ∈ q.items := by
    rcases hch.queued with ⟨hi, -⟩ | ⟨hi, -⟩
    · exact List.mem_append_left _ hi
    · exact List.mem_append_right _ hi
  obtain ⟨q', hinv', hitem, -⟩ := hch.inv.itemStep hrw.unitOk h hi
  have hgone : i ∉ q'.items := fun hi' =>
    hinv'.good.notMem_completed h hi' (mem_completed hsuccess)
  cases hitem with
  | untouched _ _ _ _ pending process =>
      exact absurd (mem_items_of_untouched hi pending process) hgone
  | aborted _ _ _ status => exact absurd (status _ hsuccess) (by decide)
  | handed _ _ _ _ _ _ process => exact absurd (List.mem_append_right _ process) hgone
  | reposted _ _ _ _ _ _ pending => exact absurd (List.mem_append_left _ pending) hgone
  | @finished rsp buf status op hint calls complete status_ne process =>
      rw [op] at hallowed
      have hst : status = srbStatusSuccess := by
        rw [calls] at hsuccess
        simp only [List.mem_cons, IoqCall.srbComplete.injEq, reduceCtorEq, List.not_mem_nil,
          or_false, false_or] at hsuccess
        exact hsuccess.2.symm
      subst hst
      have hgood := complete_good complete (by decide)
      have hlen := hch.length_of_process process
      have hanswer := hch.answer hrw hgood hallowed hlen complete
      have hlt := hch.answered_lt hrw
      have hst := hanswer.status_eq
      split at hst
      · exact absurd hst (by decide)
      · next hge =>
          rw [List.length_append, List.length_singleton] at hge
          exact ⟨⟨calls, by omega, by omega, rsp, buf, op, hanswer⟩, rsp, buf, op,
            hint, process,
            hgood⟩

end Unit

/-! ## What a run says about the file -/

def unitEventOf : DiskEvent → Option UnitEvent
  | .act (.unit _) ev => some ev
  | _ => none

def fileEventOf : DiskEvent → Option FileEvent
  | .act (.file a) answer => some ⟨a, answer⟩
  | _ => none

def unitEvents (ls : List DiskEvent) : List UnitEvent := ls.filterMap unitEventOf

def fileEvents (ls : List DiskEvent) : List FileEvent := ls.filterMap fileEventOf

/-- The byte was written back and made durable, by calls that succeeded. -/
def FlushedAfter (p : Nat) (events : List FileEvent) : Prop :=
  ∃ offset length, Flushes offset length p ∧
    ([⟨.flushViewOfFile offset length, true⟩, ⟨.flushFileBuffers, true⟩] : List
      FileEvent).Sublist
      events

/-- The byte was stored, and if it is forced it was flushed then. -/
def Put (p : Nat) (byte : UInt8) (forced : Bool) (events : List FileEvent) : Prop :=
  ∃ before after, events = before ++ after ∧ stored (UInt64.ofNat p) byte ∈ before ∧
    (forced = true → FlushedAfter p after)

def forced (unit : StorageUnitParams) (range : CdbRange) : Bool :=
  if unit.cacheSupported then range.forceUnitAccess else true

variable {disk : Disk} {unit : StorageUnitParams} {rawDisk : RawDisk} {order : MemcpyOrder}
  {size : Nat} {srb : Srb} {range : CdbRange} {i : Item} {r : Request} {buf : List UInt8}
  {events events' : List FileEvent} {n j p : Nat} {byte : UInt8}
  {s s' : DiskSys} {w w' w₀ w₁ : DiskWorld} {g : DiskServing} {gs : List DiskServing}
  {ev : DiskEvent}
  {ls : List DiskEvent} {requests : List Request} {answers : List (Option (List UInt8))} {q : Queue}

theorem Put.mono (h : Put p byte b events) (hsub : events.Sublist events') :
    Put p byte b events' := by
  obtain ⟨before, after, rfl, hstored, hforced⟩ := h
  obtain ⟨before', after', rfl, hbefore, hafter⟩ := List.append_sublist_iff.mp hsub
  refine ⟨before', after', rfl, hbefore.subset hstored, fun hb => ?_⟩
  obtain ⟨offset, length, hflushes, hcalls⟩ := hforced hb
  exact ⟨offset, length, hflushes, hcalls.trans hafter⟩

def firstByte (unit : StorageUnitParams) (range : CdbRange) : Nat :=
  range.blockAddress.toNat * unit.blockLength.toNat

theorem Backed.piece_offset (hb : Backed unit rawDisk size) {blockAddress : UInt64}
    {blockCount : UInt32} (hunit : InUnit unit blockAddress blockCount)
    (haddress : blockAddress.toNat = range.blockAddress.toNat + n * chunkBlocks unit)
    (hj : j < blockCount.toNat * unit.blockLength.toNat) :
    rawDisk.fileBuffer blockAddress + UInt64.ofNat j =
      UInt64.ofNat (firstByte unit range + (n * unit.maxTransferLength.toNat + j)) := by
  have hoffset := hb.toNat_offset hunit hj
  have hle := hb.bytes_le hunit
  have hlt := hb.size_lt
  have hsum : blockAddress.toNat * unit.blockLength.toNat + j =
      firstByte unit range + (n * unit.maxTransferLength.toNat + j) := by
    rw [haddress, Nat.add_mul, Nat.mul_assoc, hb.unitOk.chunkBlocks_mul, firstByte, Nat.add_assoc]
  rw [← UInt64.toNat_inj, hoffset, ← hsum,
    UInt64.toNat_ofNat_of_lt'
      (show blockAddress.toNat * unit.blockLength.toNat + j < 2 ^ 64 by omega)]

theorem IsPieceReq.served_read (h : IsPieceReq unit srb range n r.1)
    (hb : Backed unit rawDisk size) (hop : scsiOp srb.cdb = .read)
    (hallowed : AllowedRequest unit r) (hserved : Fulfilled unit rawDisk r buf events)
    (hj : j < requestLength unit r.1) :
    ∃ byte, buf[j]? = some byte ∧
      loaded (UInt64.ofNat (firstByte unit range + (n * unit.maxTransferLength.toNat + j))) byte ∈
        events := by
  obtain ⟨blockAddress, blockCount, hreq, haddress, -⟩ := h
  obtain ⟨req, data⟩ := r
  dsimp only at hreq hj
  subst hreq
  rw [requestLength, requestBlocks_transferOp, List.length_range'] at hj
  have htransfer : transferOp srb.cdb = TransactOp.read := by
    rw [transferOp, if_neg (by simp [hop])]
  rw [htransfer] at hserved hallowed
  obtain ⟨byte, hget, hmem⟩ := hserved j hj
  rw [hb.piece_offset hallowed.1 haddress hj] at hmem
  exact ⟨byte, hget, hmem⟩

/-- A piece of a WRITE that was served was stored, and flushed if it is forced. -/
theorem IsPieceReq.served_write (h : IsPieceReq unit srb range n r.1)
    (hb : Backed unit rawDisk size) (hop : scsiOp srb.cdb = .write)
    (hallowed : AllowedRequest unit r) (hserved : Fulfilled unit rawDisk r buf events)
    (hj : j < requestLength unit r.1) :
    ∃ byte, r.2[j]? = some byte ∧
      Put (firstByte unit range + (n * unit.maxTransferLength.toNat + j)) byte
        (forced unit range) events := by
  obtain ⟨blockAddress, blockCount, hreq, haddress, -⟩ := h
  obtain ⟨req, data⟩ := r
  dsimp only at hreq hj
  subst hreq
  rw [requestLength, requestBlocks_transferOp, List.length_range'] at hj
  have htransfer : transferOp srb.cdb = TransactOp.write := by
    rw [transferOp, if_pos (by simp [hop])]
  rw [htransfer] at hserved hallowed
  obtain ⟨before, after, rfl, hstored, hflushed⟩ := hserved
  obtain ⟨-, hunit, hcount, -⟩ := hallowed
  obtain ⟨byte, hget, hmem⟩ := hstored j hj
  have hoffset := hb.piece_offset hunit haddress hj
  rw [hoffset] at hmem
  refine ⟨byte, hget, before, after, rfl, hmem, fun hforced => ?_⟩
  rw [hflushed hforced]
  refine ⟨_, _, ?_, List.Sublist.refl _⟩
  have hstart := hb.toNat_fileBuffer ((Nat.le_add_right _ _).trans hunit)
  have hsum : blockAddress.toNat * unit.blockLength.toNat + j =
      firstByte unit range + (n * unit.maxTransferLength.toNat + j) := by
    rw [haddress, Nat.add_mul, Nat.mul_assoc, hb.unitOk.chunkBlocks_mul, firstByte, Nat.add_assoc]
  rw [Flushes, hstart, hb.toNat_length hcount, ← hsum]
  exact ⟨Nat.le_add_right _ _, .inr (Nat.add_lt_add_left hj _)⟩

/-! ## The account -/

/-- Is the request of the thread one with hint `e`? -/
def HoldsHint (e : Addr) (g : DiskServing) : Prop := ∃ r, g.request = some r ∧ r.1.hint = e

/-- The outstanding request is the one with no answer yet. -/
def Outstanding (requests : List Request) (answers : List (Option (List UInt8))) (r : Request) :
    Prop := requests[answers.length]? = some r

/-- What was done to the file for the answers that were taken in. -/
structure AnswersServed (unit : StorageUnitParams) (srb : Srb) (range : CdbRange)
    (requests : List Request) (answers : List (Option (List UInt8))) (length : Nat)
    (events : List FileEvent) : Prop where
  read : scsiOp srb.cdb = .read → ∀ j byte, (answered unit requests answers)[j]? = some byte →
    loaded (UInt64.ofNat (firstByte unit range + j)) byte ∈ events
  write : scsiOp srb.cdb = .write → ∀ data, srb.dataBuffer = some data → ∀ j < length,
    ∃ byte, data[j]? = some byte ∧ Put (firstByte unit range + j) byte
      (forced unit range) events

/-- The account, when `requests` were handed out for the SRB, `answers` were taken in
and `events` were done to the file. -/
structure DiskAccount (unit : StorageUnitParams) (rawDisk : RawDisk) (srb : Srb) (range : CdbRange)
    (i : Item) (requests : List Request) (answers : List (Option (List UInt8)))
    (events : List FileEvent) (s : UnitSys) (gs : List DiskServing) : Prop where
  chunking : ∃ q, Chunking unit srb range i requests answers s q
  /-- No two threads have a request of the SRB. -/
  holders : gs.Pairwise fun g g' => ¬ (HoldsHint i.ext g ∧ HoldsHint i.ext g')
  held : ∀ g ∈ gs, ∀ r, g.request = some r → r.1.hint = i.ext →
    Outstanding requests answers r ∧ g.events.Sublist events
  served : AnswersServed unit srb range requests answers
    (answers.length * unit.maxTransferLength.toNat) events

abbrev DiskTransfer (unit : StorageUnitParams) (rawDisk : RawDisk) (srb : Srb) (range : CdbRange)
    (i : Item) (ls : List DiskEvent) (s : DiskSys) (gs : List DiskServing) : Prop :=
  DiskAccount unit rawDisk srb range i (requestsFor i.ext (unitEvents ls))
    (answersFor i.ext (unitEvents ls)) (fileEvents ls) s.unit gs

theorem AnswersServed.mono {length : Nat}
    (h : AnswersServed unit srb range requests answers length events)
    (hsub : events.Sublist events') :
    AnswersServed unit srb range requests answers length events' :=
  ⟨fun hop j byte hget => hsub.subset (h.read hop j byte hget),
    fun hop data hdata j hj =>
      (h.write hop data hdata j hj).imp fun _ hput => ⟨hput.1, hput.2.mono hsub⟩⟩

theorem Chunking.length_answered {s : UnitSys} (hrw : ReadOrWrite unit srb range)
    (hch : Chunking unit srb range i requests answers s q) (hop : scsiOp srb.cdb = .read) :
    (answered unit requests answers).length = answers.length * unit.maxTransferLength.toNat := by
  have hne : range.blockCount * unit.blockLength ≠ 0 := by
    intro h
    have hlt := hrw.unitOk.lt_chunkCount.mp (hch.answered_lt hrw)
    rw [← hrw.length, h] at hlt
    exact absurd hlt (Nat.not_lt_zero _)
  obtain ⟨data, hdata, -⟩ := hch.transfer.mapped hne
  have hcdb := hch.cdb
  have hle := hch.transfer.chunk_le_length (.inl (by rw [hcdb]; exact hop)) hdata
  rw [hch.offset] at hle
  rw [← hch.read hop data hdata, List.length_take]
  omega

theorem answered_outstanding {answer : Option (List UInt8)} (hout : Outstanding requests answers r)
    (hlength : requests.length = answers.length + 1) :
    answered unit requests (answers ++ [answer]) =
      answered unit requests answers ++ answeredBytes answer (requestLength unit r.1) := by
  obtain rfl | ⟨init, r', rfl⟩ := List.eq_nil_or_concat' requests
  · simp at hlength
  rw [List.length_append, List.length_singleton, Nat.add_right_cancel_iff] at hlength
  rw [Outstanding, ← hlength, List.getElem?_concat_length, Option.some.injEq] at hout
  rw [answered_snoc hlength, answered_append hlength, hout]

theorem Chunking.serve {s : UnitSys} (hrw : ReadOrWrite unit srb range)
    (hch : Chunking unit srb range i requests answers s q) (hb : Backed unit rawDisk size)
    (hallowed : AllowedRequest unit r) (hout : Outstanding requests answers r)
    (hprocess : requests.length = answers.length + 1)
    (hserved : Fulfilled unit rawDisk r buf events') (hsub : events'.Sublist events)
    (h : AnswersServed unit srb range requests answers
      (answers.length * unit.maxTransferLength.toNat) events) :
    AnswersServed unit srb range requests (answers ++ [some buf])
      (answers.length * unit.maxTransferLength.toNat + requestLength unit r.1) events := by
  have hpiece := hch.pieces _ r hout
  refine ⟨fun hop j byte hget => ?_, fun hop data hdata j hj => ?_⟩
  · rw [answered_outstanding hout hprocess, List.getElem?_append,
      hch.length_answered hrw hop] at hget
    split at hget
    · exact h.read hop j byte hget
    · next hge =>
        have hj : j - answers.length * unit.maxTransferLength.toNat < requestLength unit r.1 := by
          obtain ⟨hlt, -⟩ := List.getElem?_eq_some_iff.mp hget
          rw [answeredBytes, List.length_take] at hlt
          omega
        obtain ⟨byte', hbyte, hmem⟩ := hpiece.req.served_read hb hop hallowed hserved hj
        rw [answeredBytes, List.getElem?_take_of_lt hj, hbyte, Option.some.injEq] at hget
        rw [Nat.add_sub_of_le (Nat.not_lt.mp hge)] at hmem
        rw [← hget]
        exact hsub.subset hmem
  · by_cases hlt : j < answers.length * unit.maxTransferLength.toNat
    · exact h.write hop data hdata j hlt
    · have hj' : j - answers.length * unit.maxTransferLength.toNat < requestLength unit r.1 := by
        omega
      obtain ⟨byte, hbyte, hput⟩ := hpiece.req.served_write hb hop hallowed hserved hj'
      rw [Nat.add_sub_of_le (Nat.not_lt.mp hlt)] at hput
      have hbytes := congrArg
        (fun l : List UInt8 => l[j - answers.length * unit.maxTransferLength.toNat]?)
        (hpiece.bytes hop data hdata)
      simp only [List.getElem?_take_of_lt hj', List.getElem?_drop,
        Nat.add_sub_of_le (Nat.not_lt.mp hlt)] at hbytes
      exact ⟨byte, hbytes.symm.trans hbyte, hput.mono hsub⟩

/-- The transfer has `n` bytes. -/
def transferBytes (unit : StorageUnitParams) (range : CdbRange) : Nat :=
  range.blockCount.toNat * unit.blockLength.toNat

/-- All of the transfer was done to the file; `dataBuffer` is the SRB's at the end. -/
structure Delivered (unit : StorageUnitParams) (srb : Srb) (range : CdbRange)
    (dataBuffer : Option (List UInt8)) (events : List FileEvent) : Prop where
  read : scsiOp srb.cdb = .read → ∃ data, dataBuffer = some data ∧
    ∀ j < transferBytes unit range, ∃ byte, data[j]? = some byte ∧
      loaded (UInt64.ofNat (firstByte unit range + j)) byte ∈ events
  write : scsiOp srb.cdb = .write → ∀ data, srb.dataBuffer = some data →
    ∀ j < transferBytes unit range, ∃ byte, data[j]? = some byte ∧
      Put (firstByte unit range + j) byte (forced unit range) events

theorem Chunking.delivered {u u' : UnitSys} {uev : UnitEvent} {rsp : TransactRsp}
    (hrw : ReadOrWrite unit srb range) (hch : Chunking unit srb range i requests answers u q)
    (hfin : Finished unit srb range i requests answers uev u')
    (hop : uev.op = .transactRsp rsp (some buf))
    (hlength : buf.length = unit.maxTransferLength.toNat) (hout : Outstanding requests answers r)
    (hprocess : requests.length = answers.length + 1)
    (hall : AnswersServed unit srb range requests (answers ++ [some buf])
      (answers.length * unit.maxTransferLength.toNat + requestLength unit r.1) events) :
    Delivered unit srb range (u'.mem.srb i.srb).dataBuffer events := by
  have hpiece := (hch.pieces _ r hout).req.length hrw.unitOk
  have hlt := hrw.unitOk.lt_chunkCount.mp (hch.answered_lt hrw)
  have hge : ¬ (answers.length + 1) * unit.maxTransferLength.toNat < transferBytes unit range := by
    rw [transferBytes, ← hrw.unitOk.lt_chunkCount, hfin.answered]
    exact Nat.lt_irrefl _
  rw [Nat.add_mul, Nat.one_mul] at hge
  rw [pieceLength] at hpiece
  have hlast : answers.length * unit.maxTransferLength.toNat + requestLength unit r.1 =
      transferBytes unit range := by
    rw [hpiece, transferBytes] at *
    omega
  rw [hlast] at hall
  refine ⟨fun hread => ?_, hall.write⟩
  obtain ⟨rsp', buf', hop', hanswer⟩ := hfin.answer
  rw [hop] at hop'
  cases hop'
  obtain ⟨data, hdata, htake⟩ := hanswer.read hread
  have htotal : (answered unit requests (answers ++ [some buf])).length =
      transferBytes unit range := by
    rw [answered_outstanding hout hprocess, List.length_append, hch.length_answered hrw hread,
      length_answeredBytes fun d hd => ?_, hlast]
    cases hd
    rw [hlength, hpiece]
    exact Nat.min_le_left _ _
  refine ⟨data, hdata, fun j hj => ?_⟩
  have hget : (answered unit requests (answers ++ [some buf]))[j]? = data[j]? := by
    rw [← htake, List.getElem?_take_of_lt]
    rw [← htake, List.length_take] at htotal
    omega
  have hsome : (answered unit requests (answers ++ [some buf]))[j]? =
      some (answered unit requests (answers ++ [some buf]))[j] := List.getElem?_eq_getElem _
  rw [hget] at hsome
  exact ⟨_, hsome, hall.read hread j _ (hget.trans hsome)⟩

/-! ## Steps -/

/-- An answer that is taken in is to the request of its hint. -/
theorem UnitInv.hint_of_answerFor {s s' : UnitSys} {uev : UnitEvent} {e : Addr}
    {answer : Option (List UInt8)} (hinv : UnitInv disk.unit.storageUnitParams s q)
    (h : UnitStep disk s uev s') (hans : uev.answerFor e = some answer) :
    ∃ rsp, uev.op = .transactRsp rsp answer ∧ rsp.hint = e := by
  obtain ⟨q', -, hc⟩ := hinv.step h
  cases hc with
  | posted op => simp [UnitEvent.answerFor, op] at hans
  | settled _ calls own_arrived =>
      rw [answerFor_of_settled calls own_arrived] at hans
      cases hans
  | handed op => simp [UnitEvent.answerFor, op] at hans
  | reposted op calls _ hint =>
      rw [answerFor_of_complete op calls (by simp)] at hans
      split at hans
      · next he =>
          cases hans
          exact ⟨_, op, hint.symm.trans he⟩
      · cases hans
  | finished op calls _ hint =>
      rw [answerFor_of_complete op calls (by simp [completesExt])] at hans
      split at hans
      · next he =>
          cases hans
          exact ⟨_, op, hint.symm.trans he⟩
      · cases hans

/-- An answer that is taken in and does not complete the SRB is GOOD. -/
theorem Chunking.good_of_answerFor {s s' : UnitSys} {uev : UnitEvent} {rsp : TransactRsp}
    {dataBuffer : Option (List UInt8)} (hu : UnitOk disk.unit.storageUnitParams)
    (hch : Chunking disk.unit.storageUnitParams srb range i requests answers s q)
    (h : UnitStep disk s uev s') (hlive : i.srb ∉ uev.completed)
    (hop : uev.op = .transactRsp rsp dataBuffer) (hans : uev.answerFor i.ext ≠ none) :
    rsp.status.scsiStatus = scsistatGood := by
  have hi : i ∈ q.items := by
    rcases hch.queued with ⟨hi, -⟩ | ⟨hi, -⟩
    · exact List.mem_append_left _ hi
    · exact List.mem_append_right _ hi
  obtain ⟨q', -, hitem, -⟩ := hch.inv.itemStep hu h hi
  cases hitem with
  | untouched _ answerFor => exact absurd answerFor hans
  | aborted _ _ call => exact absurd (mem_completed call) hlive
  | handed _ _ answerFor => exact absurd answerFor hans
  | reposted op _ _ _ complete =>
      rw [hop] at op
      cases op
      exact complete_good complete (by decide)
  | @finished _ _ status _ _ calls =>
      have hcall : .srbComplete i.srb status ∈ uev.calls := by
        rw [calls]
        exact List.mem_cons_of_mem _ (List.mem_singleton_self _)
      exact absurd (mem_completed hcall) hlive

theorem Chunking.process_of_outstanding {s : UnitSys}
    (hch : Chunking unit srb range i requests answers s q) (hout : Outstanding requests answers r) :
    i ∈ q.process ∧ requests.length = answers.length + 1 := by
  have hlt := (List.getElem?_eq_some_iff.mp hout).1
  rcases hch.queued with ⟨-, hlen⟩ | hprocess
  · omega
  · exact hprocess

theorem unitEvents_snoc : unitEvents (ls ++ [ev]) = unitEvents ls ++ (unitEventOf ev).toList := by
  rw [unitEvents, List.filterMap_append]
  cases h : unitEventOf ev <;> simp [unitEvents, h]

theorem fileEvents_snoc : fileEvents (ls ++ [ev]) = fileEvents ls ++ (fileEventOf ev).toList := by
  rw [fileEvents, List.filterMap_append]
  cases h : fileEventOf ev <;> simp [fileEvents, h]

theorem answered_append_of_le {rest : List Request} (h : answers.length ≤ requests.length) :
    answered unit (requests ++ rest) answers = answered unit requests answers := by
  have htake : (requests.take answers.length).length = answers.length := by
    rw [List.length_take]
    omega
  rw [← List.take_append_drop answers.length requests, List.append_assoc, answered_append htake,
    answered_append htake]

theorem requestFor_eq_some {uev : UnitEvent} {e : Addr} :
    uev.requestFor e = some r ↔ uev.handed = some r ∧ r.1.hint = e := by
  rw [UnitEvent.requestFor, Option.filter_eq_some_iff, decide_eq_true_eq]

section Account

variable {u u' : UnitSys} {uev : UnitEvent} {gs' : List DiskServing}
  (h : DiskAccount unit rawDisk srb range i requests answers events u gs)
include h

theorem DiskAccount.perm (hperm : gs.Perm gs') :
    DiskAccount unit rawDisk srb range i requests answers events u gs' :=
  ⟨h.chunking, (hperm.pairwise_iff fun hnot hboth => hnot hboth.symm).mp h.holders,
    fun g hg => h.held g (hperm.mem_iff.mpr hg), h.served⟩

/-- Threads that have no other request, and have done no more than was done. -/
theorem DiskAccount.threads (hsub : events.Sublist events')
    (hheld : ∀ g' ∈ gs', ∀ r, g'.request = some r → ∃ g ∈ gs, g.request = some r ∧
      (g.events.Sublist events → g'.events.Sublist events'))
    (hholders : gs'.Pairwise fun g g' => ¬ (HoldsHint i.ext g ∧ HoldsHint i.ext g')) :
    DiskAccount unit rawDisk srb range i requests answers events' u gs' := by
  refine ⟨h.chunking, hholders, fun g' hg' r hr he => ?_, h.served.mono hsub⟩
  obtain ⟨g, hg, hgr, hevents⟩ := hheld g' hg' r hr
  obtain ⟨hout, hgsub⟩ := h.held g hg r hgr he
  exact ⟨hout, hevents hgsub⟩

end Account

section Head

variable {u u' : UnitSys} {uev : UnitEvent} {op : UnitOp}
  (h : DiskAccount unit rawDisk srb range i requests answers events u (g :: gs))
include h

theorem DiskAccount.onFile {x : FileEvent} :
    DiskAccount unit rawDisk srb range i requests answers (events ++ [x]) u
      ({ g with events := g.events ++ [x] } :: gs) := by
  refine h.threads (List.sublist_append_left _ _) (fun g' hg' r hr => ?_) ?_
  · rcases List.mem_cons.mp hg' with rfl | hg'
    · exact ⟨g, List.mem_cons_self, hr, fun hsub => hsub.append (.refl _)⟩
    · exact ⟨g', List.mem_cons_of_mem _ hg', hr,
        fun hsub => hsub.trans (List.sublist_append_left _ _)⟩
  · have hholders := h.holders
    rw [List.pairwise_cons] at hholders ⊢
    exact hholders

theorem DiskAccount.hand
    (hch : ∃ q, Chunking unit srb range i (requests ++ (uev.requestFor i.ext).toList)
      answers u' q) :
    DiskAccount unit rawDisk srb range i (requests ++ (uev.requestFor i.ext).toList) answers events
      u' (⟨uev.handed, []⟩ :: gs) := by
  have hothers : ∀ g' ∈ gs, ∀ r, g'.request = some r → r.1.hint = i.ext →
      Outstanding requests answers r ∧ g'.events.Sublist events :=
    fun g' hg' => h.held g' (List.mem_cons_of_mem _ hg')
  obtain ⟨q, hch₀⟩ := h.chunking
  obtain ⟨q', hch'⟩ := hch
  have hle : answers.length ≤ requests.length := by
    rcases hch₀.queued with ⟨-, hlen⟩ | ⟨-, hlen⟩ <;> omega
  -- nothing was outstanding when it was handed a request of the SRB
  have hlength : ∀ r, uev.requestFor i.ext = some r → requests.length = answers.length := by
    intro r hr
    have hqueued := hch'.queued
    simp only [hr, Option.toList_some, List.length_append, List.length_singleton] at hqueued
    omega
  refine ⟨⟨q', hch'⟩, ?_, fun g' hg' r hr he => ?_, fun hop => ?_, h.served.write⟩
  · rw [List.pairwise_cons]
    refine ⟨fun g' hg' hboth => ?_, (List.pairwise_cons.mp h.holders).2⟩
    obtain ⟨⟨r, hr, he⟩, r', hr', he'⟩ := hboth
    have hlt := (List.getElem?_eq_some_iff.mp (hothers g' hg' r' hr' he').1).1
    have heq := hlength r (requestFor_eq_some.mpr ⟨hr, he⟩)
    omega
  · rcases List.mem_cons.mp hg' with rfl | hg'
    · have hreq := requestFor_eq_some.mpr ⟨hr, he⟩
      rw [Outstanding, hreq, Option.toList_some, ← hlength r hreq, List.getElem?_concat_length]
      exact ⟨rfl, List.nil_sublist _⟩
    · obtain ⟨hout, hsub⟩ := hothers g' hg' r hr he
      have hlt := (List.getElem?_eq_some_iff.mp hout).1
      rw [Outstanding, List.getElem?_append_left hlt]
      exact ⟨hout, hsub⟩
  · rw [answered_append_of_le hle]
    exact h.served.read hop

/-- The response of a thread is to a request of another SRB. -/
theorem DiskAccount.respondOther
    (hch : ∃ q, Chunking unit srb range i requests answers u' q) :
    DiskAccount unit rawDisk srb range i requests answers events u' (⟨none, []⟩ :: gs) := by
  refine ⟨hch, ?_, fun g' hg' r hr he => ?_, h.served⟩
  · rw [List.pairwise_cons]
    refine ⟨fun g' hg' hboth => ?_, (List.pairwise_cons.mp h.holders).2⟩
    obtain ⟨⟨r, hr, -⟩, -⟩ := hboth
    cases hr
  · rcases List.mem_cons.mp hg' with rfl | hg'
    · cases hr
    · exact h.held g' (List.mem_cons_of_mem _ hg') r hr he

/-- A thread has served the outstanding request of the SRB: what was done to the file
for one more answer. -/
theorem DiskAccount.serve (hrw : ReadOrWrite unit srb range) (hb : Backed unit rawDisk size)
    (hr : g.request = some r) (he : r.1.hint = i.ext) (hallowed : AllowedRequest unit r)
    (hserved : Fulfilled unit rawDisk r buf g.events) :
    AnswersServed unit srb range requests (answers ++ [some buf])
      (answers.length * unit.maxTransferLength.toNat + requestLength unit r.1) events := by
  obtain ⟨q, hch⟩ := h.chunking
  obtain ⟨hout, hsub⟩ := h.held g List.mem_cons_self r hr he
  exact hch.serve hrw hb hallowed hout (hch.process_of_outstanding hout).2 hserved hsub h.served

theorem DiskAccount.respond (hrw : ReadOrWrite unit srb range) (hb : Backed unit rawDisk size)
    (hr : g.request = some r) (he : r.1.hint = i.ext) (hallowed : AllowedRequest unit r)
    (hserved : Fulfilled unit rawDisk r buf g.events)
    (hch : ∃ q, Chunking unit srb range i requests (answers ++ [some buf]) u' q) :
    DiskAccount unit rawDisk srb range i requests (answers ++ [some buf]) events u'
      (⟨none, []⟩ :: gs) := by
  have hserved' := h.serve hrw hb hr he hallowed hserved
  obtain ⟨hout, -⟩ := h.held g List.mem_cons_self r hr he
  obtain ⟨q, hch₀⟩ := h.chunking
  obtain ⟨q', hch'⟩ := hch
  have hfirst := (List.pairwise_cons.mp h.holders).1
  have hnobody : ∀ g' ∈ gs, ¬ HoldsHint i.ext g' :=
    fun g' hg' hholds => hfirst g' hg' ⟨⟨r, hr, he⟩, hholds⟩
  -- there are more chunks, so this one was a whole one
  have hlength : answers.length * unit.maxTransferLength.toNat + requestLength unit r.1 =
      (answers ++ [some buf]).length * unit.maxTransferLength.toNat := by
    have hlt := hrw.unitOk.lt_chunkCount.mp (hch'.answered_lt hrw)
    rw [List.length_append, List.length_singleton] at hlt ⊢
    rw [(hch₀.pieces _ r hout).req.length hrw.unitOk, pieceLength]
    rw [Nat.add_mul, Nat.one_mul] at hlt ⊢
    omega
  rw [hlength] at hserved'
  refine ⟨⟨q', hch'⟩, ?_, fun g' hg' r' hr' he' => ?_, hserved'⟩
  · rw [List.pairwise_cons]
    exact ⟨fun g' hg' hboth => hnobody g' hg' hboth.2, (List.pairwise_cons.mp h.holders).2⟩
  · rcases List.mem_cons.mp hg' with rfl | hg'
    · cases hr'
    · exact absurd ⟨r', hr', he'⟩ (hnobody g' hg')

theorem DiskAccount.onUnit (hrw : ReadOrWrite disk.unit.storageUnitParams srb range)
    (hunit : disk.unit.storageUnitParams = unit) (hb : Backed unit rawDisk size)
    (hok : ∀ r, g.request = some r → DiskThreads.HandedOk unit r)
    (hmay : DiskThreads.May unit rawDisk g (.unit op)) (hop : uev.op = op)
    (hstep : UnitStep disk u uev u') (hlive : i.srb ∉ uev.completed) :
    DiskAccount unit rawDisk srb range i (requests ++ (uev.requestFor i.ext).toList)
      (answers ++ (uev.answerFor i.ext).toList) events u'
      (DiskThreads.track (.unit op) uev g :: gs) := by
  subst hunit
  obtain ⟨q, hch⟩ := h.chunking
  obtain ⟨q', hch'⟩ := hch.survive hrw hstep hlive
  have hother : (∀ rsp buf, op ≠ .transactRsp rsp buf) → uev.answerFor i.ext = none := by
    intro hne
    cases hans : uev.answerFor i.ext with
    | none => rfl
    | some answer =>
        obtain ⟨rsp, heq, -⟩ := hch.inv.hint_of_answerFor hstep hans
        exact absurd (hop.symm.trans heq) (hne rsp answer)
  have hquiet : (∀ buf, op ≠ .transactReq buf) → uev.requestFor i.ext = none := fun hne =>
    requestFor_of_none (hch.inv.handed_none hstep fun buf heq => hne buf (hop.symm.trans heq))
  cases op with
  | transactReq dataBuffer =>
      rw [hother (fun _ _ heq => by cases heq), Option.toList_none, List.append_nil] at hch' ⊢
      exact h.hand ⟨q', hch'⟩
  | transactRsp rsp dataBuffer =>
      obtain ⟨buf, rfl, -, r, hr, hhint, hserved⟩ := hmay
      rw [hquiet (fun _ heq => by cases heq), Option.toList_none, List.append_nil] at hch' ⊢
      cases hans : uev.answerFor i.ext with
      | none =>
          rw [hans, Option.toList_none, List.append_nil] at hch'
          rw [Option.toList_none, List.append_nil]
          exact h.respondOther ⟨q', hch'⟩
      | some answer =>
          obtain ⟨rsp', heq, he⟩ := hch.inv.hint_of_answerFor hstep hans
          rw [hop] at heq
          cases heq
          rw [hans] at hch'
          have he' : r.1.hint = i.ext := hhint.symm.trans he
          have hgood := hch.good_of_answerFor hrw.unitOk hstep hlive hop (by simp [hans])
          exact h.respond hrw hb hr he' (hok r hr).allowed (hserved hgood) ⟨q', hch'⟩
  | _ =>
      simp only [hother (fun _ _ heq => by cases heq), hquiet (fun _ heq => by cases heq),
        Option.toList_none, List.append_nil] at hch' ⊢
      exact ⟨⟨q', hch'⟩, h.holders, h.held, h.served⟩

end Head

end Winspd.Proofs
