import Winspd.Proofs.Transfer

/-!
# Every request handed out is one the unit allows

The checks are made once, on the CDB, when an SRB is posted; the request is
made later, for every chunk again, from the CDB and the extension. What ties
the two together is `UnitInv`: every queued SRB is in a transfer, whatever was
started, answered, cancelled or reset in between. The step lemma
(`UnitInv.step`) looks at the one SRB a step works on. All others keep their
memory, because no two queued SRBs share an SRB or an extension.
-/

namespace Winspd.Proofs

open Winspd.Lib Winspd.Sys Winspd.Spec

variable {disk : Disk} {s s' : UnitSys} {q q' : Queue} {ev : UnitEvent} {ls : List UnitEvent}
  {mem : ScsiMem} {ioqMem : SpdIoq} {i j : Item} {dataLength : UInt32}

/-- What every reachable state of a unit satisfies. -/
structure UnitInv (unit : StorageUnitParams) (s : UnitSys) (q : Queue) : Prop where
  good : UnitGood s q
  transfers : ∀ i ∈ q.items, ∃ dataLength, Transfer unit s.mem i dataLength

theorem unitInv_create {unit : StorageUnitParams} : UnitInv unit (.create mem ioqMem) .empty :=
  ⟨unitGood_create mem ioqMem, fun i hi => by cases hi⟩

theorem UnitGood.ne_of_ne (hg : UnitGood s q) (hi : i ∈ q.items) (hj : j ∈ q.items)
    (hne : j ≠ i) : j.srb ≠ i.srb ∧ j.ext ≠ i.ext := by
  constructor
  · intro h
    exact hne (List.inj_on_of_nodup_map hg.srb_nodup hj hi h)
  · intro h
    exact hne (hg.refines.wf.eq_of_ext hj hi h)

theorem UnitInv.complete_frame {unit : StorageUnitParams} {rsp : TransactRsp}
    {buf : Option (List UInt8)} {status : UInt8} (hinv : UnitInv unit s q)
    (hlen : ∀ data, buf = some data → data.length = unit.maxTransferLength.toNat)
    (hi : i ∈ q.items)
    (hcomplete : spdSrbExecuteScsiComplete rsp buf i.ext i.srb s.mem = some (status, s'.mem))
    (hj : j ∈ q.items) (hne : j ≠ i) :
    s'.mem.srb j.srb = s.mem.srb j.srb ∧ s'.mem.ext j.ext = s.mem.ext j.ext := by
  obtain ⟨dataLength, ht⟩ := hinv.transfers i hi
  obtain ⟨status', m', hcomplete', hframe, -⟩ := ht.complete rsp hlen
  rw [hcomplete, Option.some.injEq, Prod.mk.injEq] at hcomplete'
  obtain ⟨-, rfl⟩ := hcomplete'
  obtain ⟨hs, he⟩ := hinv.good.ne_of_ne hi hj hne
  exact ⟨hframe.srb _ hs, hframe.ext _ he⟩

theorem UnitInv.transfer (hinv : UnitInv disk.unit.storageUnitParams s q)
    (h : UnitStep disk s ev s') (hc : UnitCase disk s q ev s' q') (hj : j ∈ q.items)
    (hj' : j ∈ q'.items) (ht : Transfer disk.unit.storageUnitParams s.mem j dataLength) :
    Transfer disk.unit.storageUnitParams s'.mem j dataLength := by
  have hallowed := h.allowed
  cases hc with
  | posted op _ _ _ _ mem =>
      rw [op] at hallowed
      obtain ⟨hs, he⟩ := hallowed.2.2.1 j (hinv.good.items.mem_iff.mp hj)
      rw [mem]
      exact ht.congr (Function.update_of_ne hs _ _) (Function.update_of_ne he _ _)
  | settled _ _ _ _ _ _ _ mem => exact ht.congr (mem j hj).1 (mem j hj).2
  | handed _ _ _ _ mem =>
      rw [mem]
      exact ht
  | @reposted rsp buf i op _ _ _ mem_process complete =>
      rw [op] at hallowed
      have hi : i ∈ q.items := List.mem_append_right _ mem_process
      by_cases hij : j = i
      · subst hij
        obtain ⟨status, m', hcomplete, -, hpend⟩ := ht.complete rsp hallowed
        rw [complete, Option.some.injEq, Prod.mk.injEq] at hcomplete
        obtain ⟨rfl, rfl⟩ := hcomplete
        exact hpend rfl
      · obtain ⟨hs, he⟩ := hinv.complete_frame hallowed hi complete hj hij
        exact ht.congr hs he
  | @finished rsp buf i status op _ _ _ mem_process complete _ pending process =>
      rw [op] at hallowed
      have hi : i ∈ q.items := List.mem_append_right _ mem_process
      have hij : j ≠ i := by
        rintro rfl
        have hnd := List.nodup_append.mp hinv.good.refines.wf.items_nodup
        rw [Queue.items, pending, process] at hj'
        rcases List.mem_append.mp hj' with hp | hr
        · exact hnd.2.2 j hp j mem_process rfl
        · exact (hnd.2.1.mem_erase_iff.mp hr).1 rfl
      obtain ⟨hs, he⟩ := hinv.complete_frame hallowed hi complete hj hij
      exact ht.congr hs he

theorem UnitInv.step (hinv : UnitInv disk.unit.storageUnitParams s q)
    (h : UnitStep disk s ev s') :
    ∃ q', UnitInv disk.unit.storageUnitParams s' q' ∧ UnitCase disk s q ev s' q' := by
  obtain ⟨q', hg', hc⟩ := hinv.good.step h
  have hkeep : ∀ {j}, j ∈ q.items → j ∈ q'.items →
      ∃ dataLength, Transfer disk.unit.storageUnitParams s'.mem j dataLength := by
    intro j hj hj'
    obtain ⟨dataLength, ht⟩ := hinv.transfers j hj
    exact ⟨dataLength, hinv.transfer h hc hj hj' ht⟩
  refine ⟨q', ⟨hg', fun j hj' => ?_⟩, hc⟩
  by_cases hj : j ∈ q.items
  · exact hkeep hj hj'
  · have hallowed := h.allowed
    cases hc with
    | @posted a srb storResult dataLength op _ _ ok stor mem pending process =>
        rw [op] at hallowed
        have hnew : j = ⟨srb.miniportContext, a⟩ := by
          rw [Queue.items, pending, process] at hj'
          simp only [Queue.items, List.mem_append, List.mem_singleton, not_or] at hj hj'
          tauto
        rw [hnew, mem]
        exact ⟨dataLength, transfer_posted hallowed.1 hallowed.2.2.2 ok stor⟩
    | settled _ _ _ _ removed =>
        exact absurd (removed.items.symm.subset (List.mem_append_right _ hj')) hj
    | handed _ _ _ _ _ pending process =>
        rw [Queue.items, process] at hj'
        simp only [Queue.items, pending, List.mem_append, List.mem_cons, List.not_mem_nil] at hj hj'
        tauto
    | reposted _ _ _ _ mem_process _ pending process =>
        rw [Queue.items, pending, process] at hj'
        simp only [Queue.items, List.mem_append, List.mem_cons, not_or] at hj hj'
        rcases hj' with (rfl | hp) | hr
        · exact absurd mem_process hj.2
        · exact absurd hp hj.1
        · exact absurd (List.mem_of_mem_erase hr) hj.2
    | finished _ _ _ _ _ _ _ pending process =>
        rw [Queue.items, pending, process] at hj'
        simp only [Queue.items, List.mem_append, not_or] at hj hj'
        rcases hj' with hp | hr
        · exact absurd hp hj.1
        · exact absurd (List.mem_of_mem_erase hr) hj.2

theorem unitRun_inv (hrun : Run (UnitStep disk) (.create mem ioqMem) ls s) :
    ∃ q, UnitInv disk.unit.storageUnitParams s q :=
  hrun.inv (I := fun s => ∃ q, UnitInv disk.unit.storageUnitParams s q)
    ⟨.empty, unitInv_create⟩
    fun ⟨_, hinv⟩ h =>
      let ⟨q', hinv', _⟩ := hinv.step h
      ⟨q', hinv'⟩

/-! ## The requests -/

/-- A call of `Prepare` is for the first pending SRB, which is handed out. -/
theorem UnitCase.prepare_mem {e a : Addr} (hc : UnitCase disk s q ev s' q')
    (hcall : .prepare e a ∈ ev.calls) :
    ∃ buf t, ev.op = .transactReq buf ∧ ⟨e, a⟩ ∈ q.pending ∧
      spdSrbExecuteScsiPrepare e a ⟨s.mem, .zero, buf⟩ = some t ∧
      ev.handed = some (t.req, t.dataBuffer) ∧ s'.mem = s.mem := by
  cases hc with
  | posted _ calls => simp [calls] at hcall
  | settled _ calls own_arrived =>
      rw [calls] at hcall
      obtain ⟨_, _, heq⟩ := srbComplete_of_settled own_arrived hcall
      cases heq
  | @handed buf i t op calls handed prepare mem pending =>
      rw [calls, List.mem_singleton] at hcall
      cases hcall
      exact ⟨buf, t, op, by rw [pending]; exact List.mem_cons_self, prepare, handed, mem⟩
  | reposted _ calls => simp [calls] at hcall
  | finished _ calls => simp [calls] at hcall

/-- A call of `Complete` is the answer to an SRB that is being processed, and is
the SRB's completion unless it is pending again. -/
theorem UnitCase.complete_mem {e a : Addr} {status : UInt8} (hc : UnitCase disk s q ev s' q')
    (hcall : .complete e a status ∈ ev.calls) :
    ∃ rsp buf, ev.op = .transactRsp rsp buf ∧ ⟨e, a⟩ ∈ q.process ∧
      spdSrbExecuteScsiComplete rsp buf e a s.mem = some (status, s'.mem) ∧
      (status ≠ srbStatusPending →
        ev.calls = [.complete e a status, .srbComplete a status]) := by
  cases hc with
  | posted _ calls => simp [calls] at hcall
  | settled _ calls own_arrived =>
      rw [calls] at hcall
      obtain ⟨_, _, heq⟩ := srbComplete_of_settled own_arrived hcall
      cases heq
  | handed _ calls => simp [calls] at hcall
  | @reposted rsp buf i op calls _ _ mem_process complete =>
      rw [calls, List.mem_singleton] at hcall
      cases hcall
      exact ⟨rsp, buf, op, mem_process, complete, fun hne => absurd rfl hne⟩
  | @finished rsp buf i status' op calls _ _ mem_process complete =>
      have hsame : (IoqCall.complete e a status) = .complete i.ext i.srb status' := by
        simpa [calls] using hcall
      cases hsame
      exact ⟨rsp, buf, op, mem_process, complete, fun _ => calls⟩

/-- The commands `Prepare` and `Complete` have a case for. Any other runs into
their `ASSERT(FALSE)`. -/
def Queueable (op : ScsiOp) : Prop :=
  op = .read ∨ op = .write ∨ op = .synchronizeCache ∨ op = .unmap

theorem PostOk.queueable {unit : StorageUnitParams} {srb : Srb} (h : PostOk unit srb dataLength) :
    Queueable (scsiOp srb.cdb) := by
  cases h with
  | read hop => exact .inl hop
  | write hop => exact .inr (.inl hop)
  | synchronizeCache hop => exact .inr (.inr (.inl hop))
  | unmap hop => exact .inr (.inr (.inr hop))

theorem newStorageUnit_invalid (params : StorageUnitParams) (processId : UInt32) :
    (newStorageUnit params processId).storageUnitParams.Invalid ↔ params.Invalid := Iff.rfl

/-- Every request that is handed out is inside the unit and one that its parameters allow,
in every run, and only commands that may be queued are prepared and completed. -/
theorem unit_requests_allowed (hvalid : ¬ disk.unit.storageUnitParams.Invalid)
    (hrun : Run (UnitStep disk) (.create mem ioqMem) ls s) (hstep : UnitStep disk s ev s') :
    (∀ r, ev.handed = some r → AllowedRequest disk.unit.storageUnitParams r) ∧
      ∀ e a, (.prepare e a ∈ ev.calls ∨ ∃ status, .complete e a status ∈ ev.calls) →
        Queueable (scsiOp (s.mem.srb a).cdb) := by
  obtain ⟨q, hinv⟩ := unitRun_inv hrun
  have hu := unitOk_of_valid hvalid
  have hallowed := hstep.allowed
  have hqueueable : ∀ i ∈ q.items, Queueable (scsiOp (s.mem.srb i.srb).cdb) := by
    intro i hi
    obtain ⟨dataLength, ht⟩ := hinv.transfers i hi
    exact ht.ok.queueable
  obtain ⟨q', -, hc⟩ := hinv.step hstep
  cases hc with
  | posted _ calls handed => simp [calls, handed]
  | settled handed calls own_arrived =>
      refine ⟨by simp [handed], fun e a hcall => ?_⟩
      rw [calls] at hcall
      rcases hcall with hcall | ⟨status, hcall⟩ <;>
        obtain ⟨_, _, heq⟩ := srbComplete_of_settled own_arrived hcall <;> cases heq
  | @handed buf i t op calls handed prepare _ pending =>
      rw [op] at hallowed
      have hi : i ∈ q.items := by
        rw [Queue.items, pending]
        exact List.mem_cons_self
      obtain ⟨dataLength, ht⟩ := hinv.transfers i hi
      obtain ⟨t', hprep, -, hreq⟩ := ht.prepare hu hallowed
      rw [prepare, Option.some.injEq] at hprep
      subst hprep
      refine ⟨fun r hr => ?_, fun e a hcall => ?_⟩
      · rw [handed, Option.some.injEq] at hr
        rwa [← hr]
      · simp only [calls, List.mem_singleton, IoqCall.prepare.injEq, reduceCtorEq, exists_false,
          or_false] at hcall
        rw [hcall.2]
        exact hqueueable i hi
  | reposted _ calls handed _ mem_process =>
      refine ⟨by simp [handed], fun e a hcall => ?_⟩
      simp only [calls, List.mem_singleton, IoqCall.complete.injEq, reduceCtorEq,
        false_or] at hcall
      obtain ⟨status, -, rfl, -⟩ := hcall
      exact hqueueable _ (List.mem_append_right _ mem_process)
  | finished _ calls handed _ mem_process =>
      refine ⟨by simp [handed], fun e a hcall => ?_⟩
      simp only [calls, List.mem_cons, IoqCall.complete.injEq, reduceCtorEq, List.not_mem_nil,
        or_false, false_or] at hcall
      obtain ⟨status, -, rfl, -⟩ := hcall
      exact hqueueable _ (List.mem_append_right _ mem_process)

/-- The operations of a thread of user mode. -/
def UnitOp.Transacts : UnitOp → Prop
  | .transactReq _ | .transactRsp _ _ => True
  | _ => False

/-- In every reachable state they go through: no request and no answer stops
the machine. -/
theorem UnitInv.transacts (hu : UnitOk disk.unit.storageUnitParams)
    (hinv : UnitInv disk.unit.storageUnitParams s q) {op : UnitOp} (hop : op.Transacts)
    (ha : op.Allowed disk.unit.storageUnitParams s.live) :
    ∃ ev s', ev.op = op ∧ UnitStep disk s ev s' := by
  have hexec : ∃ r, op.exec disk s.mem s.ioq = some r := by
    cases op with
    | transactReq buf =>
        have hagree := spdIoqStartProcessingSrb_agree hinv.good.refines spdSrbExecuteScsiPrepare
          ⟨s.mem, .zero, buf⟩
        have hsome : ∃ r, q.start spdSrbExecuteScsiPrepare ⟨s.mem, .zero, buf⟩ = some r := by
          rw [Queue.start]
          split
          · exact ⟨_, rfl⟩
          · split
            · exact ⟨_, rfl⟩
            · next i rest hp =>
                have hi : i ∈ q.items :=
                  List.mem_append_left _ (by rw [hp]; exact List.mem_cons_self)
                obtain ⟨dataLength, ht⟩ := hinv.transfers i hi
                obtain ⟨t, hprep, -⟩ := ht.prepare hu ha
                rw [hprep]
                exact ⟨_, rfl⟩
        obtain ⟨⟨q', x⟩, hspec⟩ := hsome
        rw [hspec] at hagree
        obtain ⟨ioq', hstart, -⟩ := hagree.exists_some
        exact ⟨_, by rw [UnitOp.exec, hstart]; rfl⟩
    | transactRsp rsp buf =>
        have hagree := spdIoqEndProcessingSrb_agree hinv.good.refines
          (spdSrbExecuteScsiComplete rsp buf) s.mem rsp.hint
        have hsome :
            ∃ r, q.finish (spdSrbExecuteScsiComplete rsp buf) s.mem rsp.hint = some r := by
          rw [Queue.finish]
          split
          · exact ⟨_, rfl⟩
          · split
            · exact ⟨_, rfl⟩
            · next i hl =>
                have hi := (hinv.good.refines.wf.lookup_eq_some.mp hl).1
                obtain ⟨dataLength, ht⟩ := hinv.transfers i (List.mem_append_right _ hi)
                obtain ⟨status, m', hcomplete, -⟩ := ht.complete rsp ha
                simp only [hcomplete, Option.bind_eq_bind, Option.bind_some]
                split <;> exact ⟨_, rfl⟩
        obtain ⟨⟨q', x⟩, hspec⟩ := hsome
        rw [hspec] at hagree
        obtain ⟨ioq', hend, -⟩ := hagree.exists_some
        exact ⟨_, by rw [UnitOp.exec, hend]; rfl⟩
    | startIo => exact hop.elim
    | cancel => exact hop.elim
    | reset => exact hop.elim
  obtain ⟨⟨m', ioq', calls, handed⟩, hexec⟩ := hexec
  exact ⟨⟨op, calls, handed⟩, ⟨m', ioq', _⟩, rfl, ha, hexec, rfl⟩

/-! ## A read of three blocks -/

def sampleDisk : Disk := ⟨0, newStorageUnit sampleUnit 7⟩

theorem sampleDisk_valid : ¬ sampleDisk.unit.storageUnitParams.Invalid := by
  rw [sampleDisk, newStorageUnit_invalid]
  decide

/-- A READ (16) of three blocks, which is two chunks. -/
def sampleRead : Srb := sampleSrb (sampleCdb scsiopRead16 0 0 0 3) (List.replicate 48 0)

theorem sampleRead_mapped : Mapped .success sampleRead := by
  refine ⟨fun buf hbuf => ?_, fun _ _ => by simp [sampleRead, sampleSrb], fun buf hbuf => ?_⟩
  · cases hbuf
    decide
  · cases hbuf

/-- It is posted, and its first two blocks are handed out. -/
theorem unit_requests_allowed_read :
    ∃ s ev s', Run (UnitStep sampleDisk) (.create (sampleMem sampleRead) zeroedIoq)
        [⟨.startIo 0x2000 sampleRead .success, [], none⟩] s ∧
      UnitStep sampleDisk s ev s' ∧ ev.handed.map Prod.fst =
        some ⟨0x1000, .read 0 2 false⟩ ∧
      (∀ r, ev.handed = some r → AllowedRequest sampleDisk.unit.storageUnitParams r) ∧
        ∀ e a, (.prepare e a ∈ ev.calls ∨ ∃ status, .complete e a status ∈ ev.calls) →
          Queueable (scsiOp (s.mem.srb a).cdb) := by
  obtain ⟨r₁, r₂, h₁, h₂, hr₁, hr₂⟩ : ∃ r₁ r₂,
      UnitOp.exec sampleDisk (sampleMem sampleRead) (spdIoqCreate zeroedIoq)
        (.startIo 0x2000 sampleRead .success) = some r₁ ∧
      UnitOp.exec sampleDisk r₁.1 r₁.2.1 (.transactReq (List.replicate 32 0)) = some r₂ ∧
      r₁.2.2 = ([], none) ∧ r₂.2.2 = ([.prepare 0x1000 0x2000],
        some (⟨0x1000, .read 0 2 false⟩, List.replicate 32 0)) := ⟨_, _, rfl, rfl, rfl, rfl⟩
  obtain ⟨m₁, ioq₁, c₁, n₁⟩ := r₁
  obtain ⟨m₂, ioq₂, c₂, n₂⟩ := r₂
  cases hr₁
  cases hr₂
  have hstep₁ : UnitStep sampleDisk (.create (sampleMem sampleRead) zeroedIoq)
      ⟨.startIo 0x2000 sampleRead .success, [], none⟩
        ⟨m₁, ioq₁, [⟨0x1000, 0x2000⟩]⟩ :=
    ⟨⟨by decide, by decide, fun j hj => (by cases hj), sampleRead_mapped⟩, h₁, rfl⟩
  have hstep₂ : UnitStep sampleDisk ⟨m₁, ioq₁, [⟨0x1000, 0x2000⟩]⟩
      ⟨.transactReq (List.replicate 32 0), [.prepare 0x1000 0x2000],
        some (⟨0x1000, .read 0 2 false⟩, List.replicate 32 0)⟩
      ⟨m₂, ioq₂, [⟨0x1000, 0x2000⟩]⟩ := ⟨rfl, h₂, rfl⟩
  exact ⟨_, _, _, .single hstep₁, hstep₂, rfl,
    unit_requests_allowed sampleDisk_valid (.single hstep₁) hstep₂⟩

end Winspd.Proofs
