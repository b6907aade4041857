import Winspd.Proofs.IoqAnswer
import Winspd.Proofs.ItemStep

/-!
# A successful SYNCHRONIZE CACHE was flushed

The issuer of a SYNCHRONIZE CACHE relies on its success: what was written to
the blocks it names is on the medium, and so `SpdSrbFlush` has nothing left to
do. The driver keeps no data, it can only hand a Flush to user mode and wait
for the answer.

The driver knows an answer by its hint, so `OwingSys` keeps beside the driver
which requests user mode owes an answer to, each with its number. An answer is
made for one of these that has its hint. `Syncing` follows the SRB through a
run: an answer other than GOOD completes it with an error, and while user mode
has it, all that is owed under its hint is the Flush of its range. For this
no request may be handed out under a hint that is owed an answer
(`Orderly`, the condition of `spdIoq_answers`): without it, the answer to an
older request takes the place of the Flush's (`synchronizeCache_stale`).

A block count of zero names all blocks from the address to the end of the
unit. `SpdScsiPostRangeSrb` takes it for nothing to do, as it is for a READ or
a WRITE, and completes the SRB with success before any of this begins. In
orderly runs that is the one exception (`synchronizeCache_flushed`).
-/

namespace Winspd.Proofs

open Winspd.Lib Winspd.Sys Winspd.Spec

/-! ## Requests that are owed an answer -/

/-- A request that was handed out, and how many were handed out before it. -/
structure OwedRequest where
  number : Nat
  request : Request
  deriving DecidableEq

/-- The driver, how many requests it has handed out, and the ones of them that
user mode owes an answer to. -/
structure OwingSys where
  sys : UnitSys
  handed : Nat
  owed : List OwedRequest

def OwingSys.create (mem : ScsiMem) (ioqMem : SpdIoq) : OwingSys := ⟨.create mem ioqMem, 0, []⟩

/-- What the step of the unit was. An answer is for the request it is made for,
or for none. -/
inductive OwingEvent
  | call (ev : UnitEvent)
  | answer (h : OwedRequest) (ev : UnitEvent)
  | stray (ev : UnitEvent)

def OwingEvent.unit : OwingEvent → UnitEvent
  | .call ev => ev
  | .answer _ ev => ev
  | .stray ev => ev

/-- The request that a step hands out, as one that is owed. -/
def OwingSys.newlyOwed (s : OwingSys) (ev : UnitEvent) : List OwedRequest :=
  (ev.handed.map fun r => ⟨s.handed, r⟩).toList

/-- Any step of the unit. An answer settles a request that is owed one under its
hint, if there is any. -/
inductive OwingStep (disk : Disk) : OwingSys → OwingEvent → OwingSys → Prop
  | call {s : OwingSys} {ev : UnitEvent} {sys : UnitSys}
      (hop : ∀ rsp buf, ev.op ≠ .transactRsp rsp buf) (hstep : UnitStep disk s.sys ev sys) :
      OwingStep disk s (.call ev)
        ⟨sys, s.handed + ev.handed.toList.length, s.owed ++ s.newlyOwed ev⟩
  | answer {s : OwingSys} {h : OwedRequest} {rsp : TransactRsp} {buf : Option (List UInt8)}
      {ev : UnitEvent} {sys : UnitSys} (howed : h ∈ s.owed) (hop : ev.op = .transactRsp rsp buf)
      (hhint : h.request.1.hint = rsp.hint) (hstep : UnitStep disk s.sys ev sys) :
      OwingStep disk s (.answer h ev) ⟨sys, s.handed, s.owed.erase h⟩
  | stray {s : OwingSys} {rsp : TransactRsp} {buf : Option (List UInt8)} {ev : UnitEvent}
      {sys : UnitSys} (hop : ev.op = .transactRsp rsp buf)
      (hnone : ∀ h ∈ s.owed, h.request.1.hint ≠ rsp.hint)
      (hstep : UnitStep disk s.sys ev sys) :
      OwingStep disk s (.stray ev) ⟨sys, s.handed, s.owed⟩

/-- If the step is for a request, none is owed an answer under the hint it is
going to get. -/
def Orderly (s : OwingSys) : OwingEvent → Prop
  | .call ev => ∀ buf, ev.op = .transactReq buf → ∀ e, nextExt s.sys.ioq = some e →
      ∀ h ∈ s.owed, h.request.1.hint ≠ e
  | _ => True

def OrderlyStep (disk : Disk) (s : OwingSys) (ev : OwingEvent) (s' : OwingSys) : Prop :=
  OwingStep disk s ev s' ∧ Orderly s ev

/-! ## What the success is to mean -/

/-- The blocks a flush of the range is about. A count of zero names all that are
left of the unit. -/
def FlushNames (unit : StorageUnitParams) (blockAddress : UInt64) (blockCount : UInt32)
    (n : Nat) : Prop :=
  blockAddress.toNat ≤ n ∧
    n < if blockCount = 0 then unit.blockCount.toNat else blockAddress.toNat + blockCount.toNat

/-- The request is a Flush of every block the range names. -/
def FlushesRange (unit : StorageUnitParams) (range : CdbRange) (r : TransactReq) : Prop :=
  match r.op with
  | .flush blockAddress blockCount =>
      ∀ n, FlushNames unit range.blockAddress range.blockCount n →
      FlushNames unit blockAddress blockCount n
  | _ => False

/-- The SRB at `a` is started in `s₀` and not completed up to `s`, and then `ev`
happens. -/
structure Served (step : OwingSys → OwingEvent → OwingSys → Prop) (a : Addr) (srb : Srb)
    (s₀ : OwingSys) (ls : List OwingEvent) (s : OwingSys) (ev : OwingEvent) (s' : OwingSys) :
    Prop where
  run : Run step s₀ ls s
  last : step s ev s'
  starts : ∃ ev₀ storResult, (ls ++ [ev]).head? = some ev₀ ∧
    ev₀.unit.op = .startIo a srb storResult
  live : ∀ ev' ∈ ls, a ∉ ev'.unit.completed

/-- The request was handed out for the SRB, all the `before` requests having
been handed out before it was started, it is a Flush of the range, and `ev` is
a GOOD answer to it. -/
structure Flushed (unit : StorageUnitParams) (e : Addr) (range : CdbRange) (before : Nat)
    (h : OwedRequest) (ev : UnitEvent) : Prop where
  since : before ≤ h.number
  hint : h.request.1.hint = e
  flush : FlushesRange unit range h.request.1
  good : ∃ rsp buf, ev.op = .transactRsp rsp buf ∧ rsp.status.scsiStatus = scsistatGood

/-- In every run by these steps, the SRB is completed with success only by a
GOOD answer to its own Flush. -/
def SuccessFlushed (step : OwingSys → OwingEvent → OwingSys → Prop) (unit : StorageUnitParams)
    (a : Addr) (srb : Srb) (range : CdbRange) : Prop :=
  ∀ mem ioqMem ls₀ s₀ ls s ev s' status, Run step (.create mem ioqMem) ls₀ s₀ →
    Served step a srb s₀ ls s ev s' → .srbComplete a status ∈ ev.unit.calls →
    srbStatus status = srbStatusSuccess →
    ∃ h ev', ev = .answer h ev' ∧ Flushed unit srb.miniportContext range s₀.handed h ev'

/-! ## StartIo -/

variable {storResult : StorStatus} {unit : StorageUnitParams} {disk : Disk} {a : Addr}
  {m m' : ScsiMem} {ioq ioq' : SpdIoq} {range : CdbRange} {dataLength : UInt32} {srb : Srb}
  {r : ScsiResult} {calls : List IoqCall} {status : UInt8}

theorem spdScsiPostRange_status (hcount : range.blockCount ≠ 0)
    (h : spdScsiPostRange storResult unit a range dataLength m ioq = some r) :
    srbStatus r.1 ≠ srbStatusSuccess := by
  unfold spdScsiPostRange at h
  rw [if_neg hcount] at h
  simp only at h
  split at h
  · rw [Option.map_eq_some_iff] at h
    obtain ⟨⟨status, srb'⟩, herr, rfl⟩ := h
    show srbStatus status ≠ srbStatusSuccess
    rw [spdScsiErrorEx_status herr]
    decide
  · rcases spdScsiPostSrb_status h with hst | hst | hst <;> rw [hst] <;> decide

theorem spdSrbExecuteScsi_synchronizeCache {storageUnit : Option SpdStorageUnit}
    (hop : scsiOp (m.srb a).cdb = .synchronizeCache)
    (hrange : spdCdbGetRange (m.srb a).cdb = some range) (hcount : range.blockCount ≠ 0)
    (h : spdSrbExecuteScsi storResult storageUnit a m ioq = some r) :
    srbStatus r.1 ≠ srbStatusSuccess := by
  simp only [spdSrbExecuteScsi] at h
  split at h
  · split at h
    · next hluns =>
        rw [scsiOp, hluns] at hop
        exact absurd hop (by decide)
    · cases h
      show srbStatus srbStatusNoDevice ≠ srbStatusSuccess
      decide
  · next unit =>
      simp only [hop, spdScsiPostRangeSrb] at h
      split at h
      · cases h
        show srbStatus srbStatusInvalidRequest ≠ srbStatusSuccess
        decide
      · split at h
        · rw [Option.map_eq_some_iff] at h
          obtain ⟨⟨status, srb'⟩, herr, rfl⟩ := h
          show srbStatus status ≠ srbStatusSuccess
          rw [spdScsiErrorEx_status herr]
          decide
        · rw [hrange] at h
          exact spdScsiPostRange_status hcount h

/-- With blocks to flush, `SpdHwStartIo` does not complete the SRB with
success. -/
theorem spdHwStartIo_synchronizeCache (hfun : (m.srb a).function = srbFunctionExecuteScsi)
    (hop : scsiOp (m.srb a).cdb = .synchronizeCache)
    (hrange : spdCdbGetRange (m.srb a).cdb = some range) (hcount : range.blockCount ≠ 0)
    (h : spdHwStartIo storResult disk a m ioq = some (m', ioq', calls))
    (hcall : .srbComplete a status ∈ calls) : srbStatus status ≠ srbStatusSuccess := by
  simp only [spdHwStartIo, startIoDispatch, if_pos hfun, Option.bind_eq_bind,
    Option.bind_eq_some_iff, Option.some.injEq] at h
  obtain ⟨_, ⟨⟨status', m₁, ioq₁⟩, hexec, rfl⟩, h⟩ := h
  have hst := spdSrbExecuteScsi_synchronizeCache hop hrange hcount hexec
  split at h
  · cases h
    cases hcall
  · cases h
    rw [List.nil_append, List.mem_singleton, IoqCall.srbComplete.injEq] at hcall
    rw [hcall.2]
    exact hst

theorem spdHwStartIo_no_blocks (hfun : (m.srb a).function = srbFunctionExecuteScsi)
    (haddr : disk.reference (m.srb a) = some disk.unit)
    (hop : scsiOp (m.srb a).cdb = .synchronizeCache)
    (hcache : disk.unit.storageUnitParams.cacheSupported = true)
    (hwp : disk.unit.storageUnitParams.writeProtected = false)
    (hrange : spdCdbGetRange (m.srb a).cdb = some range) (hcount : range.blockCount = 0) :
    spdHwStartIo storResult disk a m ioq =
      some (m, ioq, [.srbComplete a srbStatusSuccess]) := by
  have hexec : spdSrbExecuteScsi storResult (disk.reference (m.srb a)) a m ioq =
      some (srbStatusSuccess, m, ioq) := by
    simp only [haddr, spdSrbExecuteScsi, hop, spdScsiPostRangeSrb, hcache, hwp, hrange,
      spdScsiPostRange, hcount, Option.bind_eq_bind, Option.bind_some, Bool.not_true,
      Bool.false_eq_true, if_false, if_true]
  simp only [spdHwStartIo, startIoDispatch, if_pos hfun, hexec, Option.bind_eq_bind,
    Option.bind_some]
  rfl

/-! ## The SRB in the queue -/

variable {u u' : UnitSys} {q q' : Queue} {i : Item} {uev : UnitEvent}

structure Synchronizing (unit : StorageUnitParams) (range : CdbRange) (i : Item) (s : UnitSys)
    (q : Queue) : Prop where
  inv : UnitInv unit s q
  op : scsiOp (s.mem.srb i.srb).cdb = .synchronizeCache
  decoded : spdCdbGetRange (s.mem.srb i.srb).cdb = some range
  queued : i ∈ q.items

/-- An answer completes the SRB, with success if it is GOOD and with an error
otherwise. -/
theorem Synchronizing.complete {rsp : TransactRsp} {buf : Option (List UInt8)}
    (hsync : Synchronizing unit range i u q)
    (h : spdSrbExecuteScsiComplete rsp buf i.ext i.srb u.mem = some (status, m')) :
    (rsp.status.scsiStatus = scsistatGood ∧ status = srbStatusSuccess ∧ m' = u.mem) ∨
      srbStatus status = srbStatusError := by
  by_cases hgood : rsp.status.scsiStatus = scsistatGood
  · rw [complete_other hgood (.inl hsync.op)] at h
    cases h
    exact .inl ⟨hgood, rfl, rfl⟩
  · obtain ⟨dataLength, ht⟩ := hsync.inv.transfers i hsync.queued
    obtain ⟨status', srb', hcomplete, hst⟩ := ht.complete_error buf hgood
    rw [h, Option.some.injEq, Prod.mk.injEq] at hcomplete
    rw [hcomplete.1]
    exact .inr hst

/-- What a step does to the SRB that does not complete it. -/
inductive SyncStep (range : CdbRange) (i : Item) (q : Queue) (uev : UnitEvent) (q' : Queue) : Prop
  | kept (process : i ∈ q'.process → i ∈ q.process) (requestFor : uev.requestFor i.ext = none)
      (answerFor : uev.answerFor i.ext = none)
  | handed {buf dataBuffer : List UInt8} (op : uev.op = .transactReq buf)
      (requestFor : uev.requestFor i.ext =
        some (⟨i.ext, .flush range.blockAddress range.blockCount⟩, dataBuffer))

theorem Synchronizing.step (hu : UnitOk disk.unit.storageUnitParams)
    (hsync : Synchronizing disk.unit.storageUnitParams range i u q) (h : UnitStep disk u uev u') :
    (i.srb ∉ uev.completed ∧ ∃ q', Synchronizing disk.unit.storageUnitParams range i u' q' ∧
      SyncStep range i q uev q') ∨
    (i.srb ∈ uev.completed ∧ ∀ status, .srbComplete i.srb status ∈ uev.calls →
      srbStatus status = srbStatusSuccess → i ∈ q.process ∧ ∃ rsp buf,
        uev.op = .transactRsp rsp buf ∧ rsp.hint = i.ext ∧
          rsp.status.scsiStatus = scsistatGood) := by
  obtain ⟨q', hinv', hitem, -⟩ := hsync.inv.itemStep hu h hsync.queued
  have hlive : i ∈ q'.items → i.srb ∉ uev.completed := hinv'.good.notMem_completed h
  cases hitem with
  | untouched requestFor answerFor hsrb hext pending process =>
      have hi' := mem_items_of_untouched hsync.queued pending process
      refine .inl ⟨hlive hi', q', ⟨hinv', by rw [hsrb, hsync.op], by rw [hsrb, hsync.decoded],
        hi'⟩, .kept (fun hr => ?_) requestFor answerFor⟩
      -- it is not among both
      refine (List.mem_append.mp hsync.queued).resolve_left fun hp => ?_
      have hnd := List.nodup_append.mp hinv'.good.refines.wf.items_nodup
      exact hnd.2.2 i (pending hp) i hr rfl
  | aborted _ _ call aborted =>
      refine .inr ⟨mem_completed call, fun status hcall hst => ?_⟩
      rw [aborted status hcall] at hst
      exact absurd hst (by decide)
  | handed op requestFor _ prepare mem _ process =>
      rw [prepare_flush hsync.op hsync.decoded, Option.some.injEq] at prepare
      subst prepare
      have hi' : i ∈ q'.items := List.mem_append_right _ process
      exact .inl
        ⟨hlive hi', q', ⟨hinv', by rw [mem, hsync.op], by rw [mem, hsync.decoded], hi'⟩,
        .handed op requestFor⟩
  | reposted _ _ _ _ complete =>
      rcases hsync.complete complete with ⟨-, hst, -⟩ | hst
      · exact absurd hst (by decide)
      · exact absurd hst (by decide)
  | @finished rsp buf status op hint calls complete _ process =>
      have hdone : i.srb ∈ uev.completed :=
        mem_completed (show .srbComplete i.srb status ∈ uev.calls by simp [calls])
      refine .inr ⟨hdone, fun status' hcall hst => ⟨process, rsp, buf, op, hint, ?_⟩⟩
      obtain rfl : status' = status := by simpa [calls] using hcall
      rcases hsync.complete complete with ⟨hgood, -⟩ | herr
      · exact hgood
      · rw [herr] at hst
        exact absurd hst (by decide)

theorem synchronizing_posted (hinv : UnitInv disk.unit.storageUnitParams u q)
    (h : UnitStep disk u uev u') (hstart : uev.op = .startIo a srb storResult)
    (hposted : a ∉ uev.completed) (hop : scsiOp srb.cdb = .synchronizeCache)
    (hrange : spdCdbGetRange srb.cdb = some range) :
    ∃ q', Synchronizing disk.unit.storageUnitParams range ⟨srb.miniportContext, a⟩ u' q' ∧
      ⟨srb.miniportContext, a⟩ ∉ q'.process := by
  obtain ⟨q', hinv', hc⟩ := hinv.step h
  obtain ⟨dataLength, -, -, mem, pending⟩ := hc.posted_of_owed hstart hposted
  have hs : u'.mem.srb a = srb := by
    rw [mem]
    exact Function.update_self _ _ _
  have hp : ⟨srb.miniportContext, a⟩ ∈ q'.pending := by
    rw [pending]
    exact List.mem_append_right _ (List.mem_singleton_self _)
  refine ⟨q', ⟨hinv', by rwa [hs], by rwa [hs], List.mem_append_left _ hp⟩, fun hr => ?_⟩
  have hnd := List.nodup_append.mp hinv'.good.refines.wf.items_nodup
  exact hnd.2.2 _ hp _ hr rfl

/-! ## Steps of the unit -/

variable {s s' s₀ s₁ : OwingSys} {ev : OwingEvent} {ls : List OwingEvent} {before : Nat}

theorem OwingStep.unitStep (h : OwingStep disk s ev s') : UnitStep disk s.sys ev.unit s'.sys := by
  cases h with
  | call _ hstep => exact hstep
  | answer _ _ _ hstep => exact hstep
  | stray _ _ hstep => exact hstep

theorem owingStep_of_unitStep (h : UnitStep disk s.sys uev u') :
    ∃ ev s', OwingStep disk s ev s' ∧ ev.unit = uev ∧ s'.sys = u' := by
  by_cases hrsp : ∃ rsp buf, uev.op = .transactRsp rsp buf
  · obtain ⟨rsp, buf, hop⟩ := hrsp
    by_cases howed : ∃ h ∈ s.owed, h.request.1.hint = rsp.hint
    · obtain ⟨r, hr, hhint⟩ := howed
      exact ⟨_, _, .answer hr hop hhint h, rfl, rfl⟩
    · exact ⟨_, _, .stray hop (fun r hr hhint => howed ⟨r, hr, hhint⟩) h, rfl, rfl⟩
  · exact ⟨_, _, .call (fun rsp buf hop => hrsp ⟨rsp, buf, hop⟩) h, rfl, rfl⟩

theorem owingRun_inv {mem : ScsiMem} {ioqMem : SpdIoq}
    (hrun : Run (OrderlyStep disk) (.create mem ioqMem) ls s) :
    ∃ q, UnitInv disk.unit.storageUnitParams s.sys q := by
  refine hrun.inv (I := fun s : OwingSys => ∃ q, UnitInv disk.unit.storageUnitParams s.sys q)
    ⟨.empty, unitInv_create⟩ ?_
  rintro s ev s' ⟨q, hinv⟩ ⟨hstep, -⟩
  obtain ⟨q', hinv', -⟩ := hinv.step hstep.unitStep
  exact ⟨q', hinv'⟩

theorem nextExt_of_pending {rest : List Item} (hr : Refines ioq q)
    (hp : q.pending = i :: rest) : nextExt ioq = some i.ext := by
  have hst : q.stopped = false := by
    by_contra hst
    have hnil := hr.wf.drained (by simpa using hst)
    rw [Queue.items, hp] at hnil
    cases hnil
  rw [hr.nextExt, hst, hp]
  rfl

/-- A request is handed out under the hint that the queue has first. -/
theorem UnitInv.handed_next {r : Request} (hu : UnitOk disk.unit.storageUnitParams)
    (hinv : UnitInv disk.unit.storageUnitParams u q) (h : UnitStep disk u uev u')
    (hhanded : uev.handed = some r) : nextExt u.ioq = some r.1.hint := by
  have hallowed := h.allowed
  obtain ⟨q', -, hc⟩ := hinv.step h
  cases hc with
  | posted _ _ handed => simp [handed] at hhanded
  | settled handed => simp [handed] at hhanded
  | reposted _ _ handed => simp [handed] at hhanded
  | finished _ _ handed => simp [handed] at hhanded
  | @handed buf j t op _ handed prepare _ pending =>
      rw [op] at hallowed
      rw [handed, Option.some.injEq] at hhanded
      subst hhanded
      have hj : j ∈ q.items := List.mem_append_left _ (by rw [pending]; exact List.mem_cons_self)
      obtain ⟨dataLength, ht⟩ := hinv.transfers j hj
      obtain ⟨t', hprep, hhint, -⟩ := ht.prepare hu hallowed
      rw [prepare, Option.some.injEq] at hprep
      subst hprep
      rw [nextExt_of_pending hinv.good.refines pending]
      exact congrArg some hhint.symm

theorem OwingStep.handed_le (h : OwingStep disk s ev s') : s.handed ≤ s'.handed := by
  cases h with
  | call => exact Nat.le_add_right _ _
  | answer => exact Nat.le_refl _
  | stray => exact Nat.le_refl _

/-! ## Its Flush -/

/-- User mode owes an answer under the hint `e`, and it is one to a Flush of the
range. -/
structure FlushOwed (unit : StorageUnitParams) (range : CdbRange) (e : Addr) (before : Nat)
    (owed : List OwedRequest) : Prop where
  some : ∃ h ∈ owed, h.request.1.hint = e
  flush : ∀ h ∈ owed, h.request.1.hint = e → before ≤ h.number ∧
    FlushesRange unit range h.request.1

/-- The SRB is queued, and its Flush is owed an answer if user mode has it. -/
structure Syncing (unit : StorageUnitParams) (range : CdbRange) (i : Item) (before : Nat)
    (s : OwingSys) (q : Queue) : Prop where
  queued : Synchronizing unit range i s.sys q
  before_le : before ≤ s.handed
  owed : i ∈ q.process → FlushOwed unit range i.ext before s.owed

/-- What is owed under a hint stays, unless the step hands out a request or takes
in an answer under it. -/
theorem FlushOwed.untouched (howed : FlushOwed unit range i.ext before s.owed)
    (hinv : UnitInv unit s.sys q) (h : OwingStep disk s ev s') (hi : i ∈ q.process)
    (hreq : ev.unit.requestFor i.ext = none) (hans : ev.unit.answerFor i.ext = none) :
    FlushOwed unit range i.ext before s'.owed := by
  obtain ⟨h₀, hmem₀, hhint₀⟩ := howed.some
  cases h with
  | @call ev sys hop hstep =>
      refine ⟨⟨h₀, List.mem_append_left _ hmem₀, hhint₀⟩, fun h hmem hhint => ?_⟩
      rcases List.mem_append.mp hmem with hmem | hmem
      · exact howed.flush h hmem hhint
      · -- a request under another hint
        simp only [OwingSys.newlyOwed, Option.mem_toList,
          Option.map_eq_some_iff] at hmem
        obtain ⟨r, hr, rfl⟩ := hmem
        have hfor := requestFor_of_some (e := i.ext) hr
        rw [if_pos hhint] at hfor
        exact absurd (hreq.symm.trans hfor) (by simp)
  | @answer h rsp buf ev sys hmem hop hhint hstep =>
      -- an answer under the hint would be taken in
      have hne : h.request.1.hint ≠ i.ext := fun heq => by
        have hfor := hinv.answerFor hstep hop hi (hhint.symm.trans heq)
        exact absurd (hans.symm.trans hfor) (by simp)
      refine ⟨⟨h₀, (List.mem_erase_of_ne fun heq => hne (by rw [← heq, hhint₀])).mpr
        hmem₀, hhint₀⟩, ?_⟩
      exact fun h' hmem' => howed.flush h' (List.mem_of_mem_erase hmem')
  | stray => exact howed

/-- The request is handed out, and it is all that is owed under its hint. -/
theorem flushOwed_handed {buf dataBuffer : List UInt8} (hu : UnitOk disk.unit.storageUnitParams)
    (hinv : UnitInv disk.unit.storageUnitParams s.sys q) (hbefore : before ≤ s.handed)
    (h : OwingStep disk s ev s') (horderly : Orderly s ev) (hop : ev.unit.op = .transactReq buf)
    (hreq : ev.unit.requestFor i.ext =
      some (⟨i.ext, .flush range.blockAddress range.blockCount⟩, dataBuffer)) :
    FlushOwed disk.unit.storageUnitParams range i.ext before s'.owed := by
  cases h with
  | @call ev sys _ hstep =>
      have hhanded : ev.handed =
          some (⟨i.ext, .flush range.blockAddress range.blockCount⟩, dataBuffer) :=
        (Option.filter_eq_some_iff.mp hreq).1
      have hnext := hinv.handed_next hu hstep hhanded
      have hnew : s.newlyOwed ev = [⟨s.handed,
          ⟨i.ext, .flush range.blockAddress range.blockCount⟩, dataBuffer⟩] := by
        rw [OwingSys.newlyOwed, hhanded]
        rfl
      refine ⟨⟨_, List.mem_append_right _ (by rw [hnew]; exact List.mem_singleton_self _),
        rfl⟩, ?_⟩
      intro r hr hhint
      rcases List.mem_append.mp hr with hr | hr
      · exact absurd hhint (horderly buf hop _ hnext r hr)
      · rw [hnew, List.mem_singleton] at hr
        subst hr
        exact ⟨hbefore, fun _ hn => hn⟩
  | answer _ hrsp => exact absurd (hop.symm.trans hrsp) (by simp)
  | stray hrsp => exact absurd (hop.symm.trans hrsp) (by simp)

theorem FlushOwed.answered {e : Addr} {rsp : TransactRsp} {buf : Option (List UInt8)}
    (howed : FlushOwed unit range e before s.owed) (h : OwingStep disk s ev s')
    (hop : ev.unit.op = .transactRsp rsp buf) (hhint : rsp.hint = e) :
    ∃ r ev', ev = .answer r ev' ∧ r.request.1.hint = e ∧ before ≤ r.number ∧
      FlushesRange unit range r.request.1 := by
  cases h with
  | call hno => exact absurd hop (hno rsp buf)
  | @answer r rsp' buf' ev sys hmem hop' hhint' =>
      rw [OwingEvent.unit, hop', UnitOp.transactRsp.injEq] at hop
      obtain ⟨rfl, rfl⟩ := hop
      have heq := hhint'.trans hhint
      exact ⟨r, ev, rfl, heq, howed.flush r hmem heq⟩
  | @stray rsp' buf' ev sys hop' hnone =>
      rw [OwingEvent.unit, hop', UnitOp.transactRsp.injEq] at hop
      obtain ⟨rfl, rfl⟩ := hop
      obtain ⟨r, hmem, heq⟩ := howed.some
      exact absurd (heq.trans hhint.symm) (hnone r hmem)

theorem Syncing.step (hu : UnitOk disk.unit.storageUnitParams)
    (hsync : Syncing disk.unit.storageUnitParams range i before s q)
    (h : OrderlyStep disk s ev s') :
    (i.srb ∉ ev.unit.completed ∧
      ∃ q', Syncing disk.unit.storageUnitParams range i before s' q') ∨
    (i.srb ∈ ev.unit.completed ∧ ∀ status, .srbComplete i.srb status ∈ ev.unit.calls →
      srbStatus status = srbStatusSuccess → ∃ h ev', ev = .answer h ev' ∧
        Flushed disk.unit.storageUnitParams i.ext range before h ev') := by
  obtain ⟨h, horderly⟩ := h
  have hinv := hsync.queued.inv
  rcases hsync.queued.step hu h.unitStep with ⟨hlive, q', hqueued',
    hstep⟩ | ⟨hdone, hsuccess⟩
  · refine .inl ⟨hlive, q', hqueued', Nat.le_trans hsync.before_le h.handed_le, fun hi' => ?_⟩
    cases hstep with
    | kept process requestFor answerFor =>
        exact (hsync.owed (process hi')).untouched hinv h (process hi') requestFor answerFor
    | handed op requestFor =>
        exact flushOwed_handed hu hinv hsync.before_le h horderly op requestFor
  · refine .inr ⟨hdone, fun status hcall hst => ?_⟩
    obtain ⟨process, rsp, buf, hop, hhint, hgood⟩ := hsuccess status hcall hst
    obtain ⟨r, ev', rfl, hrhint, hflush⟩ := (hsync.owed process).answered h hop hhint
    exact ⟨r, ev', rfl, hflush.1, hrhint, hflush.2, rsp, buf, hop, hgood⟩

theorem Syncing.run (hu : UnitOk disk.unit.storageUnitParams)
    (hsync : Syncing disk.unit.storageUnitParams range i before s₁ q)
    (hrun : Run (OrderlyStep disk) s₁ ls s) (hlive : ∀ ev ∈ ls, i.srb ∉ ev.unit.completed) :
    ∃ q, Syncing disk.unit.storageUnitParams range i before s q := by
  refine hrun.history (I := fun ls s => (∀ ev ∈ ls, i.srb ∉ ev.unit.completed) →
    ∃ q, Syncing disk.unit.storageUnitParams range i before s q) (fun _ =>
      ⟨q, hsync⟩) ?_ hlive
  intro ls s ev s' _ ih h hlive
  simp only [List.forall_mem_append, List.forall_mem_singleton] at hlive
  obtain ⟨q, hsync⟩ := ih hlive.1
  rcases hsync.step hu h with ⟨-, hsync'⟩ | hdone
  · exact hsync'
  · exact absurd hdone.1 hlive.2

/-! ## Success -/

variable {mem : ScsiMem} {ioqMem : SpdIoq}

theorem successFlushed (hvalid : ¬ disk.unit.storageUnitParams.Invalid)
    (hfun : srb.function = srbFunctionExecuteScsi) (hop : scsiOp srb.cdb = .synchronizeCache)
    (hrange : spdCdbGetRange srb.cdb = some range) (hcount : range.blockCount ≠ 0) :
    SuccessFlushed (OrderlyStep disk) disk.unit.storageUnitParams a srb range := by
  intro mem ioqMem ls₀ s₀ ls s ev s' status hrun₀ hserved hcall hst
  obtain ⟨q₀, hinv⟩ := owingRun_inv hrun₀
  obtain ⟨ev₀, storResult, hhead, hstart⟩ := hserved.starts
  have hu := unitOk_of_valid hvalid
  have hrun := hserved.run
  have hstep := hserved.last
  cases ls with
  | nil =>
      -- the step that starts the SRB completes it
      rw [Run.nil_iff] at hrun
      subst hrun
      obtain rfl : ev = ev₀ := by simpa using hhead
      have hexec := hstep.1.unitStep.exec
      rw [hstart] at hexec
      simp only [UnitOp.exec, Option.map_eq_some_iff, Prod.mk.injEq, Prod.exists] at hexec
      obtain ⟨_, _, _, hstartIo, -, -, rfl, -⟩ := hexec
      have hsrb : (s.sys.mem.setSrb a srb).srb a = srb := Function.update_self _ _ _
      exact absurd hst (spdHwStartIo_synchronizeCache (by rwa [hsrb]) (by rwa [hsrb])
        (by rwa [hsrb]) hcount hstartIo hcall)
  | cons first rest =>
      obtain rfl : first = ev₀ := by simpa using hhead
      have hlive := hserved.live
      rw [List.forall_mem_cons] at hlive
      obtain ⟨s₁, hfirst, hrest⟩ := Run.cons_iff.mp hrun
      obtain ⟨q₁, hqueued, hno⟩ :=
        synchronizing_posted hinv hfirst.1.unitStep hstart hlive.1 hop hrange
      have hsync₁ :
          Syncing disk.unit.storageUnitParams range ⟨srb.miniportContext, a⟩ s₀.handed
          s₁ q₁ := ⟨hqueued, hfirst.1.handed_le, fun hi => absurd hi hno⟩
      obtain ⟨q, hsync⟩ := hsync₁.run hu hrest hlive.2
      rcases hsync.step hu hstep with ⟨hno, -⟩ | ⟨-, hflushed⟩
      · exact absurd (mem_completed hcall) hno
      · exact hflushed status hcall hst

/-- Without blocks to flush, the SRB is completed with success at once. -/
theorem not_successFlushed (ha : a ≠ 0) (hext : srb.miniportContext ≠ 0)
    (hmap : Mapped storResult srb) (hfun : srb.function = srbFunctionExecuteScsi)
    (haddr : disk.reference srb = some disk.unit) (hop : scsiOp srb.cdb = .synchronizeCache)
    (hcache : disk.unit.storageUnitParams.cacheSupported = true)
    (hwp : disk.unit.storageUnitParams.writeProtected = false)
    (hrange : spdCdbGetRange srb.cdb = some range) (hcount : range.blockCount = 0) :
    ¬ SuccessFlushed (OrderlyStep disk) disk.unit.storageUnitParams a srb range := by
  intro hflushed
  have hsrb : ((sampleMem srb).setSrb a srb).srb a = srb := Function.update_self _ _ _
  have hstartIo : spdHwStartIo storResult disk a ((sampleMem srb).setSrb a srb)
      (spdIoqCreate zeroedIoq) = some (_, _, [.srbComplete a srbStatusSuccess]) :=
    spdHwStartIo_no_blocks (by rwa [hsrb]) (by rwa [hsrb]) (by rwa [hsrb]) hcache hwp
      (by rwa [hsrb]) hcount
  have hstep : UnitStep disk (.create (sampleMem srb) zeroedIoq)
      ⟨.startIo a srb storResult, [.srbComplete a srbStatusSuccess], none⟩
      ⟨(sampleMem srb).setSrb a srb, spdIoqCreate zeroedIoq, []⟩ := by
    refine ⟨⟨ha, hext, fun j hj => (by cases hj), hmap⟩, ?_, ?_⟩
    · simp only [UnitOp.exec, UnitSys.create, hstartIo, Option.map_some]
    · simp [UnitSys.create, UnitEvent.arrived, UnitEvent.completed, completedSrb]
  have horderly : OrderlyStep disk (.create (sampleMem srb) zeroedIoq)
      (.call ⟨.startIo a srb storResult, [.srbComplete a srbStatusSuccess], none⟩) _ :=
    ⟨.call (by simp) hstep, by simp [Orderly]⟩
  obtain ⟨h, ev', hanswer, -⟩ := hflushed _ _ _ _ [] _ _ _ _ .nil
    ⟨.nil, horderly, ⟨_, storResult, rfl, rfl⟩, fun ev hev => (by cases hev)⟩
    (List.mem_singleton_self _) (by decide)
  cases hanswer

/-- In every run in which no request is handed out under a hint that is owed an
answer, the success of a SYNCHRONIZE CACHE means that its blocks were flushed,
exactly when its block count is not zero. -/
theorem synchronizeCache_flushed (hvalid : ¬ disk.unit.storageUnitParams.Invalid)
    (ha : a ≠ 0) (hext : srb.miniportContext ≠ 0) (hmap : Mapped storResult srb)
    (hfun : srb.function = srbFunctionExecuteScsi)
    (haddr : disk.reference srb = some disk.unit) (hop : scsiOp srb.cdb = .synchronizeCache)
    (hcache : disk.unit.storageUnitParams.cacheSupported = true)
    (hwp : disk.unit.storageUnitParams.writeProtected = false)
    (hrange : spdCdbGetRange srb.cdb = some range) :
    SuccessFlushed (OrderlyStep disk) disk.unit.storageUnitParams a srb range ↔
      range.blockCount ≠ 0 := by
  constructor
  · intro hflushed hcount
    exact not_successFlushed ha hext hmap hfun haddr hop hcache hwp hrange hcount hflushed
  · exact successFlushed hvalid hfun hop hrange

/-- A SYNCHRONIZE CACHE (16) from block zero on. -/
def sampleSync (c₀ : UInt8) : Srb := sampleSrb (sampleCdb scsiopSynchronizeCache16 0 0 0 c₀) []

theorem sampleSync_mapped (c₀ : UInt8) : Mapped .success (sampleSync c₀) := by
  refine ⟨fun buf hbuf => ?_, fun _ hne => absurd rfl hne, fun buf hbuf => ?_⟩
  · cases hbuf
    exact Nat.le_refl _
  · cases hbuf

/-- Eight blocks are flushed. -/
theorem synchronizeCache_flushed_blocks :
    SuccessFlushed (OrderlyStep sampleDisk) sampleDisk.unit.storageUnitParams 0x2000 (sampleSync 8)
      ⟨0, 8, false⟩ ↔ (8 : UInt32) ≠ 0 :=
  synchronizeCache_flushed sampleDisk_valid (by decide) (show (0x1000 : Addr) ≠ 0 by decide)
    (sampleSync_mapped 8) rfl rfl (by decide) rfl rfl (by decide)

/-- The whole unit is not. -/
theorem synchronizeCache_whole_unit :
    ¬ sampleDisk.unit.storageUnitParams.Invalid ∧
      scsiOp (sampleSync 0).cdb = .synchronizeCache ∧
      spdCdbGetRange (sampleSync 0).cdb = some ⟨0, 0, false⟩ ∧
      InUnit sampleDisk.unit.storageUnitParams 0 0 ∧
      ¬ SuccessFlushed (OrderlyStep sampleDisk) sampleDisk.unit.storageUnitParams 0x2000
        (sampleSync 0) ⟨0, 0, false⟩ :=
  ⟨sampleDisk_valid, by decide, by decide, Nat.zero_le _,
    not_successFlushed (by decide) (show (0x1000 : Addr) ≠ 0 by decide) (sampleSync_mapped 0) rfl
      rfl (by decide) rfl rfl (by decide) rfl⟩

/-- The request of a READ, which had the extension before. -/
def staleRead : OwedRequest := ⟨0, ⟨0x1000, .read 0 2 false⟩, List.replicate 32 0⟩

def staleRsp : TransactRsp := ⟨0x1000, 1, ⟨scsistatGood, 0, 0, 0, 0, false⟩⟩

/-- A READ is handed out and then reset, and its extension is posted again. The
answer to the READ completes the SYNCHRONIZE CACHE of eight blocks. -/
theorem synchronizeCache_stale :
    ¬ SuccessFlushed (OwingStep sampleDisk) sampleDisk.unit.storageUnitParams 0x2000 (sampleSync 8)
      ⟨0, 8, false⟩ := by
  intro hflushed
  obtain ⟨r₁, r₂, r₃, r₄, r₅, r₆, h₁, h₂, h₃, h₄, h₅, h₆, hr₁, hr₂,
      hr₃, hr₄, hr₅, hr₆⟩ :
      ∃ r₁ r₂ r₃ r₄ r₅ r₆,
      UnitOp.exec sampleDisk (sampleMem sampleRead) (spdIoqCreate zeroedIoq)
        (.startIo 0x2000 sampleRead .success) = some r₁ ∧
      UnitOp.exec sampleDisk r₁.1 r₁.2.1 (.transactReq (List.replicate 32 0)) = some r₂ ∧
      UnitOp.exec sampleDisk r₂.1 r₂.2.1 (.reset false) = some r₃ ∧
      UnitOp.exec sampleDisk r₃.1 r₃.2.1 (.startIo 0x2000 (sampleSync 8) .success) =
        some r₄ ∧
      UnitOp.exec sampleDisk r₄.1 r₄.2.1 (.transactReq (List.replicate 32 0)) = some r₅ ∧
      UnitOp.exec sampleDisk r₅.1 r₅.2.1 (.transactRsp staleRsp none) = some r₆ ∧
      r₁.2.2 = ([], none) ∧
      r₂.2.2 = ([.prepare 0x1000 0x2000],
        some (⟨0x1000, .read 0 2 false⟩, List.replicate 32 0)) ∧
      r₃.2.2 = ([.srbComplete 0x2000 srbStatusAborted], none) ∧
      r₄.2.2 = ([], none) ∧
      r₅.2.2 = ([.prepare 0x1000 0x2000], some
        (⟨0x1000, .flush 0 8⟩, List.replicate 32 0)) ∧
      r₆.2.2 = ([.complete 0x1000 0x2000 srbStatusSuccess,
        .srbComplete 0x2000 srbStatusSuccess], none) :=
    ⟨_, _, _, _, _, _, rfl, rfl, rfl, rfl, rfl, rfl, rfl, rfl, rfl, rfl, rfl, rfl⟩
  obtain ⟨m₁, ioq₁, c₁, n₁⟩ := r₁
  obtain ⟨m₂, ioq₂, c₂, n₂⟩ := r₂
  obtain ⟨m₃, ioq₃, c₃, n₃⟩ := r₃
  obtain ⟨m₄, ioq₄, c₄, n₄⟩ := r₄
  obtain ⟨m₅, ioq₅, c₅, n₅⟩ := r₅
  obtain ⟨m₆, ioq₆, c₆, n₆⟩ := r₆
  cases hr₁
  cases hr₂
  cases hr₃
  cases hr₄
  cases hr₅
  cases hr₆
  have hstep₁ : UnitStep sampleDisk (.create (sampleMem sampleRead) zeroedIoq)
      ⟨.startIo 0x2000 sampleRead .success, _, _⟩ ⟨m₁, ioq₁, [⟨0x1000, 0x2000⟩]⟩ :=
    ⟨⟨by decide, by decide, fun j hj => (by cases hj), sampleRead_mapped⟩, h₁, rfl⟩
  have hstep₂ : UnitStep sampleDisk ⟨m₁, ioq₁, [⟨0x1000, 0x2000⟩]⟩
      ⟨.transactReq (List.replicate 32 0), _, _⟩ ⟨m₂, ioq₂, [⟨0x1000, 0x2000⟩]⟩ :=
        ⟨rfl, h₂, rfl⟩
  have hstep₃ :
      UnitStep sampleDisk ⟨m₂, ioq₂, [⟨0x1000, 0x2000⟩]⟩ ⟨.reset false, _, _⟩
      ⟨m₃, ioq₃, []⟩ := ⟨trivial, h₃, rfl⟩
  have hstep₄ :
      UnitStep sampleDisk ⟨m₃, ioq₃, []⟩ ⟨.startIo 0x2000 (sampleSync 8) .success, _, _⟩
      ⟨m₄, ioq₄, [⟨0x1000, 0x2000⟩]⟩ :=
    ⟨⟨by decide, show (0x1000 : Addr) ≠ 0 by decide, fun j hj => (by cases hj),
      sampleSync_mapped 8⟩, h₄, rfl⟩
  have hstep₅ : UnitStep sampleDisk ⟨m₄, ioq₄, [⟨0x1000, 0x2000⟩]⟩
      ⟨.transactReq (List.replicate 32 0), _, _⟩ ⟨m₅, ioq₅, [⟨0x1000, 0x2000⟩]⟩ :=
        ⟨rfl, h₅, rfl⟩
  have hstep₆ : UnitStep sampleDisk ⟨m₅, ioq₅, [⟨0x1000, 0x2000⟩]⟩
      ⟨.transactRsp staleRsp none, _, _⟩ ⟨m₆, ioq₆, []⟩ :=
        ⟨fun buf hbuf => (by cases hbuf), h₆, rfl⟩
  have hcall₁ := @OwingStep.call _ (.create (sampleMem sampleRead) zeroedIoq) _ _
    (by simp) hstep₁
  have hcall₂ := @OwingStep.call _ ⟨_, 0, []⟩ _ _ (by simp) hstep₂
  have hcall₃ := @OwingStep.call _ ⟨_, 1, [staleRead]⟩ _ _ (by simp) hstep₃
  have hcall₄ := @OwingStep.call _ ⟨_, 1, [staleRead]⟩ _ _ (by simp) hstep₄
  have hcall₅ := @OwingStep.call _ ⟨_, 1, [staleRead]⟩ _ _ (by simp) hstep₅
  obtain ⟨h, ev', hanswer, hown⟩ := hflushed _ _ _ _ _ _ _ _ _
    (((Run.single hcall₁).snoc hcall₂).snoc hcall₃)
    ⟨(Run.single hcall₄).snoc hcall₅, .answer List.mem_cons_self rfl rfl hstep₆,
      ⟨_, _, rfl, rfl⟩, by simp [OwingEvent.unit, UnitEvent.completed, completedSrb]⟩
    (List.mem_cons_of_mem _ (List.mem_singleton_self _)) (by decide)
  cases hanswer
  -- the READ was handed out before
  exact absurd (show 1 ≤ 0 from hown.since) (by decide)

end Winspd.Proofs
