import Winspd.Proofs.Capacity
import Winspd.Proofs.Chunks
import Winspd.Proofs.Copies
import Winspd.Proofs.Flush

/-!
# The length reported for data

A command that is answered with a page sets the SRB's `DataTransferLength` to
the length of the page. A READ does not: neither the post, which returns early
for no blocks, nor the answers to its chunks set it, and the queue completes
the SRB as it is. So the length that is reported is the length of the data
exactly when the command is not a READ or the buffer was as long as the data
(`unit_data_length`). `Reading` is what holds of a READ while it is queued.
-/

namespace Winspd.Proofs

open Winspd.Lib Winspd.Sys Winspd.Spec

variable {disk : Disk} {a : Addr} {srb : Srb} {storResult : StorStatus} {status : UInt8}
  {s s₀ s₁ s' : UnitSys} {q q' : Queue} {ev ev₀ : UnitEvent} {ls : List UnitEvent} {n : Nat}
  {i : Item} {m m' : ScsiMem} {ioq ioq' : SpdIoq} {kind : DataIn} {calls : List IoqCall}
  {dataLength : UInt32} {range : CdbRange}

/-! ## The commands -/

/-- The case of the switch in `SpdSrbExecuteScsi`. -/
def DataIn.op : DataIn → ScsiOp
  | .reportLuns _ => .reportLuns
  | .inquiry | .supportedPages | .serialNumber | .deviceIdentifiers | .blockLimits
  | .logicalBlockProvisioning => .inquiry
  | .modeSense | .modeSense10 => .modeSense
  | .readCapacity => .readCapacity
  | .readCapacity16 => .serviceActionIn16

/-- The unit that is found for the command. -/
def DataIn.storageUnit (unit : SpdStorageUnit) : DataIn → Option SpdStorageUnit
  | .reportLuns false => none
  | _ => some unit

/-- A data-in command and the length of its data. -/
inductive DataInCommand (disk : Disk) (srb : Srb) : Nat → Prop
  | read {range : CdbRange} (hunit : disk.reference srb = some disk.unit)
      (hop : scsiOp srb.cdb = .read) (hrange : spdCdbGetRange srb.cdb = some range) :
      DataInCommand disk srb
        (range.blockCount.toNat * disk.unit.storageUnitParams.blockLength.toNat)
  | page {kind : DataIn} (hunit : disk.reference srb = kind.storageUnit disk.unit)
      (hop : scsiOp srb.cdb = kind.op) (hsel : kind.Selects srb.cdb)
      (haction : kind = .readCapacity16 →
        srb.cdb.asByte 1 &&& 0x1f = serviceActionReadCapacity16) :
      DataInCommand disk srb (kind.page disk.unit srb.dataTransferLength.toNat).length

/-- `srb` was started at `a`, and `ev` is the step, to `s'`, that completes it. -/
inductive Completes (disk : Disk) (a : Addr) (srb : Srb) (status : UInt8) (ev : UnitEvent)
    (s' : UnitSys) : Prop
  | atOnce {mem : ScsiMem} {ioqMem : SpdIoq} {ls : List UnitEvent} {s : UnitSys}
      {storResult : StorStatus} (hrun : Run (UnitStep disk) (.create mem ioqMem) ls s)
      (h : UnitStep disk s ev s') (hop : ev.op = .startIo a srb storResult)
      (hcall : .srbComplete a status ∈ ev.calls)
  | later {mem : ScsiMem} {ioqMem : SpdIoq} {ls₀ ls : List UnitEvent} {s₀ s₁ s : UnitSys}
      {ev₀ : UnitEvent} {storResult : StorStatus}
      (hrun₀ : Run (UnitStep disk) (.create mem ioqMem) ls₀ s₀)
      (hpost : UnitStep disk s₀ ev₀ s₁)
      (hop : ev₀.op = .startIo a srb storResult) (hposted : a ∉ ev₀.completed)
      (hrun : Run (UnitStep disk) s₁ ls s) (hlive : ∀ ev ∈ ls, a ∉ ev.completed)
      (h : UnitStep disk s ev s') (hcall : .srbComplete a status ∈ ev.calls)

/-- The SRB came back as `srb'` with `n` bytes of data, and says so. -/
structure LengthReported (srb srb' : Srb) (n : Nat) : Prop where
  length : srb'.dataTransferLength.toNat = n
  /-- Behind the data of a READ nothing was written. -/
  read : scsiOp srb.cdb = .read → ∀ buf, srb.dataBuffer = some buf →
    ∃ buf', srb'.dataBuffer = some buf' ∧ buf'.length = buf.length ∧ buf'.drop n = buf.drop n
  /-- Anything else put its data in front of zeros. -/
  page : scsiOp srb.cdb ≠ .read → ∃ buf data, srb.dataBuffer = some buf ∧
    data.length = n ∧
    srb' = paged srb buf data

/-! ## Pages -/

theorem DataIn.build_none (hbuf : srb.dataBuffer = none) :
    kind.build disk.unit srb = some (srbStatusInternalError, srb) := by
  cases kind <;>
    simp only [build, spdScsiReportLuns, spdScsiInquiry, spdScsiModeSense, spdScsiReadCapacity,
      withZeroedBuffer, hbuf]

theorem scsiOp_reportLuns {cdb : Cdb} (h : scsiOp cdb = .reportLuns) :
    cdb.asByte 0 = scsiopReportLuns := by
  unfold scsiOp at h
  repeat' split at h
  all_goals first | assumption | cases h

theorem DataIn.execute (hunit : disk.reference (m.srb a) = kind.storageUnit disk.unit)
    (hop : scsiOp (m.srb a).cdb = kind.op)
    (haction : kind = .readCapacity16 →
      (m.srb a).cdb.asByte 1 &&& 0x1f = serviceActionReadCapacity16) :
    spdSrbExecuteScsi storResult (disk.reference (m.srb a)) a m ioq =
      (kind.build disk.unit (m.srb a)).map (srbResult a m ioq) := by
  rw [hunit]
  cases kind with
  | reportLuns present =>
      cases present with
      | false =>
          simp only [storageUnit, spdSrbExecuteScsi, if_pos (scsiOp_reportLuns hop)]
          rfl
      | true =>
          simp only [storageUnit, spdSrbExecuteScsi, hop]
          rfl
  | readCapacity16 =>
      simp only [storageUnit, spdSrbExecuteScsi, hop, op, if_pos (haction rfl)]
      rfl
  | _ =>
      simp only [storageUnit, spdSrbExecuteScsi, hop]
      rfl

/-- What `SpdHwStartIo` does with an SRB that it completes with success. -/
theorem spdHwStartIo_success (hfun : (m.srb a).function = srbFunctionExecuteScsi)
    (h : spdHwStartIo storResult disk a m ioq = some (m', ioq', calls))
    (hcall : .srbComplete a srbStatusSuccess ∈ calls) :
    spdSrbExecuteScsi storResult (disk.reference (m.srb a)) a m ioq =
      some (srbStatusSuccess, m', ioq') := by
  simp only [spdHwStartIo, startIoDispatch, if_pos hfun, Option.bind_eq_bind,
    Option.bind_eq_some_iff, Option.some.injEq] at h
  obtain ⟨_, ⟨⟨status', m₁, ioq₁⟩, hexec, rfl⟩, h⟩ := h
  simp only at h
  split at h
  · cases h
    cases hcall
  · rw [Option.some.injEq, Prod.mk.injEq, Prod.mk.injEq] at h
    obtain ⟨hm, hq, rfl⟩ := h
    rw [List.nil_append, List.mem_singleton, IoqCall.srbComplete.injEq] at hcall
    obtain ⟨-, rfl⟩ := hcall
    rw [if_neg fun hno => absurd hno.1 (by decide)] at hm
    rw [hexec, hm, hq]

theorem DataIn.completed (hblock : disk.unit.storageUnitParams.blockLength ≠ 0)
    (hunit : disk.reference (m.srb a) = kind.storageUnit disk.unit)
    (hop : scsiOp (m.srb a).cdb = kind.op) (hsel : kind.Selects (m.srb a).cdb)
    (haction : kind = .readCapacity16 →
      (m.srb a).cdb.asByte 1 &&& 0x1f = serviceActionReadCapacity16)
    (hmap : Mapped storResult (m.srb a))
    (h : spdSrbExecuteScsi storResult (disk.reference (m.srb a)) a m ioq =
      some (srbStatusSuccess, m', ioq')) :
    ∃ buf, (m.srb a).dataBuffer = some buf ∧
      (kind.page disk.unit (m.srb a).dataTransferLength.toNat).length ≤
        (m.srb a).dataTransferLength.toNat ∧
      m'.srb a = paged (m.srb a) buf
        (kind.page disk.unit (m.srb a).dataTransferLength.toNat) := by
  rw [DataIn.execute hunit hop haction, Option.map_eq_some_iff] at h
  obtain ⟨⟨status', srb'⟩, hbuild, h⟩ := h
  cases h
  rw [ScsiMem.setSrb_srb, Function.update_self]
  cases hbuf : (m.srb a).dataBuffer with
  | none =>
      rw [DataIn.build_none hbuf] at hbuild
      cases hbuild
  | some buf =>
      rw [kind.build_eq (fun _ => hblock) hsel hbuf (hmap.data buf hbuf), putPage_eq] at hbuild
      by_cases hfits : (kind.page disk.unit (m.srb a).dataTransferLength.toNat).length ≤
          (m.srb a).dataTransferLength.toNat
      · rw [if_pos hfits] at hbuild
        cases hbuild
        exact ⟨buf, rfl, hfits, rfl⟩
      · rw [if_neg hfits] at hbuild
        cases hbuild

theorem read_completed (hunit : disk.reference (m.srb a) = some disk.unit)
    (hop : scsiOp (m.srb a).cdb = .read) (hrange : spdCdbGetRange (m.srb a).cdb = some range)
    (h : spdSrbExecuteScsi storResult (disk.reference (m.srb a)) a m ioq =
      some (srbStatusSuccess, m', ioq')) : range.blockCount = 0 ∧ m' = m := by
  rw [hunit] at h
  simp only [spdSrbExecuteScsi, hop, spdScsiPostRangeSrb, hrange, Option.bind_eq_bind,
    Option.bind_some] at h
  split at h
  · cases h
  · by_cases hcount : range.blockCount = 0
    · rw [spdScsiPostRange, if_pos hcount] at h
      cases h
      exact ⟨hcount, rfl⟩
    · exact absurd (show srbStatus srbStatusSuccess = srbStatusSuccess by decide)
        (spdScsiPostRange_status hcount h)

/-! ## Reads -/

/-- A READ of `n` bytes, as long as it is queued: it still says what it said, and
nothing was written behind the data. -/
structure Reading (disk : Disk) (srb : Srb) (n : Nat) (i : Item) (s : UnitSys) (q : Queue) :
    Prop where
  inv : UnitInv disk.unit.storageUnitParams s q
  queued : i ∈ q.items
  srb_eq : s.mem.srb i.srb = { srb with dataBuffer := (s.mem.srb i.srb).dataBuffer }
  rest : ∀ buf, srb.dataBuffer = some buf →
    ∃ buf', (s.mem.srb i.srb).dataBuffer = some buf' ∧
    buf'.length = buf.length ∧ buf'.drop n = buf.drop n

/-- What an answer leaves of the SRB, if it does not make it an error. -/
theorem Transfer.answer_read {buf : Option (List UInt8)} {rsp : TransactRsp}
    (ht : Transfer disk.unit.storageUnitParams m i dataLength)
    (hop : scsiOp (m.srb i.srb).cdb = .read)
    (hlen : ∀ data, buf = some data →
      data.length = disk.unit.storageUnitParams.maxTransferLength.toNat)
    (hst : srbStatus status ≠ srbStatusError) (hn : dataLength.toNat ≤ n)
    (h : spdSrbExecuteScsiComplete rsp buf i.ext i.srb m = some (status, m')) :
    m'.srb i.srb = { m.srb i.srb with dataBuffer := (m'.srb i.srb).dataBuffer } ∧
      ∀ data, (m.srb i.srb).dataBuffer = some data → ∃ data',
        (m'.srb i.srb).dataBuffer = some data' ∧ data'.length = data.length ∧
        data'.drop n = data.drop n := by
  have hgood : rsp.status.scsiStatus = scsistatGood := by
    by_contra hbad
    obtain ⟨status', srb', herr, hst'⟩ := ht.complete_error buf hbad
    rw [h, Option.some.injEq, Prod.mk.injEq] at herr
    obtain ⟨rfl, -⟩ := herr
    exact hst hst'
  rw [ht.complete_read_eq hgood hop hlen, Option.some.injEq, Prod.mk.injEq] at h
  obtain ⟨-, rfl⟩ := h
  rw [ScsiMem.setExt_srb, ScsiMem.setSrb_srb, Function.update_self]
  refine ⟨rfl, fun data hdata => ?_⟩
  have hchunk := ht.chunk
  have hle := ht.chunkOffset_add_le
  have hfit := ht.chunk_le_length (.inl hop) hdata
  have hsize := length_answeredBytes (show ∀ data, buf = some data →
    (chunkLength disk.unit.storageUnitParams (m.ext i.ext)).toNat ≤ data.length from
      fun data hdata => by rw [hlen data hdata]; omega)
  have hfront : (data.take (m.ext i.ext).chunkOffset.toNat ++ answeredBytes buf
      (chunkLength disk.unit.storageUnitParams (m.ext i.ext)).toNat).length =
        (m.ext i.ext).chunkOffset.toNat +
          (chunkLength disk.unit.storageUnitParams (m.ext i.ext)).toNat := by
    rw [List.length_append, List.length_take, hsize]
    omega
  refine ⟨_, by rw [hdata, Option.map_some], ?_, ?_⟩
  · rw [List.length_append, hfront, List.length_drop]
    omega
  · rw [List.drop_append, List.drop_eq_nil_of_le (by omega), List.nil_append, List.drop_drop,
      hfront, Nat.add_sub_cancel' (by omega)]

/-- The data of a posted READ is not longer than what it asks for. -/
theorem PostOk.read_le {unit : StorageUnitParams} (hok : PostOk unit srb dataLength)
    (hop : scsiOp srb.cdb = .read) (hrange : spdCdbGetRange srb.cdb = some range) :
    dataLength.toNat ≤ range.blockCount.toNat * unit.blockLength.toNat := by
  obtain ⟨rfl, -⟩ := hok.of_range (.inl hop) hrange
  rw [UInt32.toNat_mul]
  exact Nat.mod_le _ _

theorem reading_posted (hinv : UnitInv disk.unit.storageUnitParams s₀ q)
    (h : UnitStep disk s₀ ev s₁) (hstart : ev.op = .startIo a srb storResult)
    (howed : a ∉ ev.completed) :
    ∃ q₁, Reading disk srb n ⟨srb.miniportContext, a⟩ s₁ q₁ := by
  obtain ⟨q₁, hinv', hc⟩ := hinv.step h
  obtain ⟨dataLength, -, -, mem, pending⟩ := hc.posted_of_owed hstart howed
  have hs : s₁.mem.srb a = srb := by
    rw [mem]
    exact Function.update_self _ _ _
  refine ⟨q₁, hinv', ?_, by rw [hs], fun buf hbuf => ⟨buf, by rw [hs, hbuf], rfl, rfl⟩⟩
  rw [Queue.items, pending]
  exact List.mem_append_left _ (List.mem_append_right _ (List.mem_singleton_self _))

/-- A step leaves the READ queued, and a step that completes it with success
leaves the SRB as it was but for the data. -/
theorem Reading.step (hu : UnitOk disk.unit.storageUnitParams)
    (hop : scsiOp srb.cdb = .read) (hrange : spdCdbGetRange srb.cdb = some range)
    (hn : range.blockCount.toNat * disk.unit.storageUnitParams.blockLength.toNat = n)
    (hr : Reading disk srb n i s q) (h : UnitStep disk s ev s') :
    (i.srb ∉ ev.completed → ∃ q', Reading disk srb n i s' q') ∧
    (.srbComplete i.srb srbStatusSuccess ∈ ev.calls →
      s'.mem.srb i.srb = { srb with dataBuffer := (s'.mem.srb i.srb).dataBuffer } ∧
      ∀ buf, srb.dataBuffer = some buf → ∃ buf', (s'.mem.srb i.srb).dataBuffer = some buf' ∧
        buf'.length = buf.length ∧ buf'.drop n = buf.drop n) := by
  obtain ⟨q', hinv', hitem, -⟩ := hr.inv.itemStep hu h hr.queued
  obtain ⟨dataLength, ht⟩ := hr.inv.transfers i hr.queued
  have hallowed := h.allowed
  have hcdb : (s.mem.srb i.srb).cdb = srb.cdb := by rw [hr.srb_eq]
  have hle : dataLength.toNat ≤ n := by
    rw [← hn]
    exact ht.ok.read_le (by rw [hcdb, hop]) (by rw [hcdb, hrange])
  -- what an answer that is not an error leaves
  have hanswer : ∀ {rsp buf status}, ev.op = .transactRsp rsp buf →
      srbStatus status ≠ srbStatusError →
      spdSrbExecuteScsiComplete rsp buf i.ext i.srb s.mem = some (status, s'.mem) →
      s'.mem.srb i.srb = { srb with dataBuffer := (s'.mem.srb i.srb).dataBuffer } ∧
      ∀ buf, srb.dataBuffer = some buf → ∃ buf', (s'.mem.srb i.srb).dataBuffer = some buf' ∧
        buf'.length = buf.length ∧ buf'.drop n = buf.drop n := by
    intro rsp buf status hevent hst hcomplete
    rw [hevent] at hallowed
    obtain ⟨hsrb, hdata⟩ := ht.answer_read (by rw [hcdb, hop]) hallowed hst hle hcomplete
    refine ⟨by rw [hsrb, hr.srb_eq], fun data hbuf => ?_⟩
    obtain ⟨data₁, hdata₁, hlen₁, hdrop₁⟩ := hr.rest data hbuf
    obtain ⟨data₂, hdata₂, hlen₂, hdrop₂⟩ := hdata data₁ hdata₁
    exact ⟨data₂, hdata₂, hlen₂.trans hlen₁, hdrop₂.trans hdrop₁⟩
  cases hitem with
  | untouched _ _ hsrb _ pending process =>
      have hi' := mem_items_of_untouched hr.queued pending process
      refine ⟨fun _ => ⟨q', hinv', hi', by rw [hsrb]; exact hr.srb_eq, by
        rw [hsrb]; exact hr.rest⟩, fun hcall => ?_⟩
      exact absurd (mem_completed hcall) (hinv'.good.notMem_completed h hi')
  | aborted _ _ call aborted =>
      refine ⟨fun hno => absurd (mem_completed call) hno, fun hcall => ?_⟩
      exact absurd (aborted _ hcall) (by decide)
  | handed _ _ _ _ mem _ process =>
      have hi' : i ∈ q'.items := List.mem_append_right _ process
      refine ⟨fun _ => ⟨q', hinv', hi', by rw [mem]; exact hr.srb_eq, by
        rw [mem]; exact hr.rest⟩, fun hcall => ?_⟩
      exact absurd (mem_completed hcall) (hinv'.good.notMem_completed h hi')
  | reposted hevent _ _ _ complete _ pending =>
      have hi' : i ∈ q'.items := List.mem_append_left _ pending
      obtain ⟨hsrb, hrest⟩ := hanswer hevent (by decide) complete
      refine ⟨fun _ => ⟨q', hinv', hi', hsrb, hrest⟩, fun hcall => ?_⟩
      exact absurd (mem_completed hcall) (hinv'.good.notMem_completed h hi')
  | @finished rsp buf status hevent _ calls complete _ _ =>
      refine ⟨fun hno => absurd (mem_completed (show .srbComplete i.srb status ∈ ev.calls by
          simp [calls])) hno,
        fun hcall => ?_⟩
      obtain rfl : srbStatusSuccess = status := by simpa [calls] using hcall
      exact hanswer hevent (by decide) complete

theorem Reading.run (hu : UnitOk disk.unit.storageUnitParams)
    (hop : scsiOp srb.cdb = .read) (hrange : spdCdbGetRange srb.cdb = some range)
    (hn : range.blockCount.toNat * disk.unit.storageUnitParams.blockLength.toNat = n)
    (hr : Reading disk srb n i s₁ q) (hrun : Run (UnitStep disk) s₁ ls s)
    (hlive : ∀ ev ∈ ls, i.srb ∉ ev.completed) : ∃ q, Reading disk srb n i s q := by
  refine hrun.history (I := fun ls s => (∀ ev ∈ ls, i.srb ∉ ev.completed) →
    ∃ q, Reading disk srb n i s q) (fun _ => ⟨q, hr⟩) ?_ hlive
  intro ls s ev s' _ ih h hlive
  rw [List.forall_mem_append, List.forall_mem_singleton] at hlive
  obtain ⟨q, hr⟩ := ih hlive.1
  exact (hr.step hu hop hrange hn h).1 hlive.2

/-! ## Success -/

theorem DataIn.op_ne_read : kind.op ≠ .read := by
  cases kind <;> simp [op]

theorem DataIn.not_postOk {unit : StorageUnitParams} (hop : scsiOp srb.cdb = kind.op) :
    ¬ PostOk unit srb dataLength := by
  intro hok
  cases hok with
  | read hop' => exact absurd (hop.symm.trans hop') op_ne_read
  | write hop' => cases kind <;> simp [hop', op] at hop
  | synchronizeCache hop' => cases kind <;> simp [hop', op] at hop
  | unmap hop' => cases kind <;> simp [hop', op] at hop

theorem UnitStep.startIo_success (h : UnitStep disk s ev s')
    (hstart : ev.op = .startIo a srb storResult) (hfun : srb.function = srbFunctionExecuteScsi)
    (hcall : .srbComplete a srbStatusSuccess ∈ ev.calls) :
    Mapped storResult srb ∧
      spdSrbExecuteScsi storResult (disk.reference srb) a (s.mem.setSrb a srb) s.ioq =
        some (srbStatusSuccess, s'.mem, s'.ioq) := by
  have hallowed := h.allowed
  have hexec := h.exec
  rw [hstart] at hallowed hexec
  simp only [UnitOp.exec, Option.map_eq_some_iff, Prod.mk.injEq, Prod.exists] at hexec
  obtain ⟨m, ioq, calls, hstartIo, rfl, rfl, rfl, -⟩ := hexec
  have hsrb : (s.mem.setSrb a srb).srb a = srb := Function.update_self _ _ _
  have hresult := spdHwStartIo_success (by rw [hsrb, hfun]) hstartIo hcall
  rw [hsrb] at hresult
  exact ⟨hallowed.2.2.2, hresult⟩

/-- A READ comes back saying what it said when it was started. -/
theorem lengthReported_read {srb' : Srb} (hop : scsiOp srb.cdb = .read)
    (hsrb : srb' = { srb with dataBuffer := srb'.dataBuffer })
    (hrest : ∀ buf, srb.dataBuffer = some buf → ∃ buf', srb'.dataBuffer = some buf' ∧
      buf'.length = buf.length ∧ buf'.drop n = buf.drop n) :
    LengthReported srb srb' n ↔
    (scsiOp srb.cdb = .read → srb.dataTransferLength.toNat = n) := by
  have hlen : srb'.dataTransferLength = srb.dataTransferLength := by rw [hsrb]
  constructor
  · intro hrep _
    rw [← hlen]
    exact hrep.length
  · intro heq
    refine ⟨by rw [hlen]; exact heq hop, fun _ => hrest, fun hno => absurd hop hno⟩

/-- Of a unit with valid parameters, a data-in command that is completed with
success reports the length of its data exactly when it is not a READ or it is a
READ into a buffer as long as the data. -/
theorem unit_data_length (hvalid : ¬ disk.unit.storageUnitParams.Invalid)
    (hfun : srb.function = srbFunctionExecuteScsi) (hcmd : DataInCommand disk srb n)
    (h : Completes disk a srb srbStatusSuccess ev s') :
    LengthReported srb (s'.mem.srb a) n ↔
      (scsiOp srb.cdb = .read → srb.dataTransferLength.toNat = n) := by
  have hu := unitOk_of_valid hvalid
  cases hcmd with
  | @read range hunit hop hrange =>
      cases h with
      | @atOnce _ _ _ s _ _ h hstart hcall =>
          have hsrb : (s.mem.setSrb a srb).srb a = srb := Function.update_self _ _ _
          obtain ⟨-, hexec⟩ := h.startIo_success hstart hfun hcall
          obtain ⟨-, hmem⟩ :=
            read_completed (show disk.reference ((s.mem.setSrb a srb).srb a) = _ by
            rw [hsrb, hunit]) (by rw [hsrb, hop]) (by rw [hsrb, hrange]) (by rwa [hsrb])
          rw [hmem, hsrb]
          exact lengthReported_read hop rfl fun buf hbuf => ⟨buf, hbuf, rfl, rfl⟩
      | later hrun₀ hpost hstart howed hrun hlive h hcall =>
          obtain ⟨q₀, hinv⟩ := unitRun_inv hrun₀
          obtain ⟨q₁, hr₁⟩ := reading_posted hinv hpost hstart howed
          obtain ⟨q, hr⟩ := hr₁.run hu hop hrange rfl hrun hlive
          obtain ⟨hsrb, hrest⟩ := (hr.step hu hop hrange rfl h).2 hcall
          exact lengthReported_read hop hsrb hrest
  | @page kind hunit hop hsel haction =>
      have hne : scsiOp srb.cdb ≠ .read := by
        rw [hop]
        exact DataIn.op_ne_read
      cases h with
      | @atOnce _ _ _ s _ _ h hstart hcall =>
          have hsrb : (s.mem.setSrb a srb).srb a = srb := Function.update_self _ _ _
          obtain ⟨hmap, hexec⟩ := h.startIo_success hstart hfun hcall
          obtain ⟨buf, hbuf, hfits, hpaged⟩ := DataIn.completed hu.blockLength_ne
            (show disk.reference ((s.mem.setSrb a srb).srb a) = kind.storageUnit disk.unit by
              rw [hsrb, hunit]) (by rw [hsrb, hop]) (by rwa [hsrb])
            (by rwa [hsrb]) (by rw [hsrb]; exact hmap) (by rwa [hsrb])
          rw [hsrb] at hbuf hfits hpaged
          rw [hpaged]
          refine ⟨fun _ hread => absurd hread hne, fun _ => ⟨?_, fun hread => absurd hread hne,
            fun _ => ⟨buf, _, hbuf, rfl, rfl⟩⟩⟩
          have hlt := srb.dataTransferLength.toNat_lt
          exact Nat.mod_eq_of_lt (by omega)
      | later hrun₀ hpost hstart howed hrun hlive h hcall =>
          obtain ⟨q₀, hinv⟩ := unitRun_inv hrun₀
          obtain ⟨q₁, -, hc⟩ := hinv.step hpost
          obtain ⟨dataLength, hok, -⟩ := hc.posted_of_owed hstart howed
          exact absurd hok (DataIn.not_postOk hop)

/-! ## A READ of one block -/

/-- Into a buffer of `k` bytes. -/
def sampleReadOne (k : Nat) : Srb :=
  sampleSrb (sampleCdb scsiopRead16 0 0 0 1) (List.replicate k 0)

theorem sampleReadOne_command (k : Nat) : DataInCommand sampleDisk (sampleReadOne k) 16 := by
  have hrange : spdCdbGetRange (sampleReadOne k).cdb = some ⟨0, 1, false⟩ :=
    show spdCdbGetRange (sampleCdb scsiopRead16 0 0 0 1) = _ by decide
  have hunit : sampleDisk.reference (sampleReadOne k) = some sampleDisk.unit :=
    if_pos (show spdIoctlBtl 0 0 0 = sampleDisk.btl by decide)
  exact @DataInCommand.read sampleDisk _ _ hunit rfl hrange

theorem sampleReadOne_mapped (k : Nat) : Mapped .success (sampleReadOne k) := by
  refine ⟨fun buf hbuf => ?_, fun _ _ => by simp [sampleReadOne, sampleSrb], fun buf hbuf => ?_⟩
  · cases hbuf
    exact Nat.mod_le (List.replicate k (0 : UInt8)).length (2 ^ 32)
  · cases hbuf

theorem sampleReadOne_completes {k : Nat} (hk : k = 16 ∨ k = 48) :
    ∃ ev s', Completes sampleDisk 0x2000 (sampleReadOne k) srbStatusSuccess ev s' ∧
      (s'.mem.srb 0x2000).dataTransferLength = (sampleReadOne k).dataTransferLength := by
  obtain ⟨r₁, r₂, r₃, h₁, h₂, h₃, hr₁, hr₂, hr₃, hlen⟩ : ∃ r₁ r₂ r₃,
      UnitOp.exec sampleDisk (sampleMem (sampleReadOne k)) (spdIoqCreate zeroedIoq)
        (.startIo 0x2000 (sampleReadOne k) .success) = some r₁ ∧
      UnitOp.exec sampleDisk r₁.1 r₁.2.1 (.transactReq (List.replicate 32 0)) = some r₂ ∧
      UnitOp.exec sampleDisk r₂.1 r₂.2.1 (.transactRsp sampleRsp none) = some r₃ ∧
      r₁.2.2 = ([], none) ∧
      r₂.2.2 = ([.prepare 0x1000 0x2000],
        some (⟨0x1000, .read 0 1 false⟩, List.replicate 32 0)) ∧
      r₃.2.2 = ([.complete 0x1000 0x2000 srbStatusSuccess,
        .srbComplete 0x2000 srbStatusSuccess], none) ∧
      (r₃.1.srb 0x2000).dataTransferLength = (sampleReadOne k).dataTransferLength := by
    rcases hk with rfl | rfl
    · exact ⟨_, _, _, rfl, rfl, rfl, rfl, rfl, rfl, rfl⟩
    · exact ⟨_, _, _, rfl, rfl, rfl, rfl, rfl, rfl, rfl⟩
  obtain ⟨m₁, ioq₁, c₁, n₁⟩ := r₁
  obtain ⟨m₂, ioq₂, c₂, n₂⟩ := r₂
  obtain ⟨m₃, ioq₃, c₃, n₃⟩ := r₃
  cases hr₁
  cases hr₂
  cases hr₃
  have hstep₁ : UnitStep sampleDisk (.create (sampleMem (sampleReadOne k)) zeroedIoq)
      ⟨.startIo 0x2000 (sampleReadOne k) .success, [], none⟩
        ⟨m₁, ioq₁, [⟨0x1000, 0x2000⟩]⟩ :=
    ⟨⟨by decide, show (0x1000 : Addr) ≠ 0 by decide, fun j hj => (by cases hj),
      sampleReadOne_mapped k⟩, h₁, rfl⟩
  have hstep₂ : UnitStep sampleDisk ⟨m₁, ioq₁, [⟨0x1000, 0x2000⟩]⟩
      ⟨.transactReq (List.replicate 32 0), _, _⟩ ⟨m₂, ioq₂, [⟨0x1000, 0x2000⟩]⟩ :=
        ⟨rfl, h₂, rfl⟩
  have hstep₃ : UnitStep sampleDisk ⟨m₂, ioq₂, [⟨0x1000, 0x2000⟩]⟩
      ⟨.transactRsp sampleRsp none, _, _⟩ ⟨m₃, ioq₃, []⟩ :=
    ⟨fun buf hbuf => (by cases hbuf), h₃, rfl⟩
  refine ⟨_, _, .later .nil hstep₁ rfl (by simp [UnitEvent.completed])
    (.single hstep₂) ?_ hstep₃
    (by simp), hlen⟩
  simp [UnitEvent.completed, completedSrb]

/-- Into a buffer of one block. -/
theorem unit_data_length_exact :
    ∃ ev s', Completes sampleDisk 0x2000 (sampleReadOne 16) srbStatusSuccess ev s' ∧
      (LengthReported (sampleReadOne 16) (s'.mem.srb 0x2000) 16 ↔
        (scsiOp (sampleReadOne 16).cdb = .read →
          (sampleReadOne 16).dataTransferLength.toNat = 16)) := by
  obtain ⟨ev, s', h, -⟩ := sampleReadOne_completes (.inl rfl)
  exact ⟨ev, s', h, unit_data_length sampleDisk_valid rfl (sampleReadOne_command 16) h⟩

/-- Into a buffer of three blocks: all three are said to be data. -/
theorem unit_data_length_larger :
    ∃ ev s', DataInCommand sampleDisk (sampleReadOne 48) 16 ∧
      16 ≤ (sampleReadOne 48).dataTransferLength.toNat ∧
      Completes sampleDisk 0x2000 (sampleReadOne 48) srbStatusSuccess ev s' ∧
      (s'.mem.srb 0x2000).dataTransferLength.toNat = 48 ∧
      ¬ LengthReported (sampleReadOne 48) (s'.mem.srb 0x2000) 16 := by
  obtain ⟨ev, s', h, hlen⟩ := sampleReadOne_completes (.inr rfl)
  have hlong : (s'.mem.srb 0x2000).dataTransferLength.toNat = 48 := by
    rw [hlen]
    rfl
  refine ⟨ev, s', sampleReadOne_command 48, by decide, h, hlong, fun hrep => ?_⟩
  have hlength := hrep.length
  omega

end Winspd.Proofs
