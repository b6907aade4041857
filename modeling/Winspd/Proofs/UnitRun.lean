import Winspd.Proofs.StartIo

/-!
# Runs of a storage unit

A run of a unit is any sequence of the things that happen to it: StorPort
starts an SRB, a thread of user mode asks for a request or answers one, an SRB
is cancelled, the queue is reset. `UnitSys` is the memory, the queue and the
SRBs StorPort is still owed a completion for.

What StorPort promises is written down in `UnitOp.Allowed`: an SRB and an
extension it hands over belong to no SRB it is still owed, the buffers are as
long as the SRB says, and a data buffer it can map is there. Of user mode's
buffer the driver knows that it is `MaxTransferLength` bytes long, because it
has locked that many.

`UnitGood.step` says once what a step can do (`UnitCase`). The later modules
derive every invariant from that: a step posts an SRB, completes SRBs without
user mode, hands out the first pending SRB, or takes in an answer.
-/

namespace Winspd.Proofs

open Winspd.Lib Winspd.Sys Winspd.Spec
open scoped List

/-! ## The system -/

/-- What happens to a unit. `startIo` comes with what StorPort wrote into the
SRB, and with what `StorPortGetSystemAddress` is going to say about it. -/
inductive UnitOp
  | startIo (a : Addr) (srb : Srb) (storResult : StorStatus)
  | transactReq (dataBuffer : List UInt8)
  | transactRsp (rsp : TransactRsp) (dataBuffer : Option (List UInt8))
  | cancel (i : Item)
  | reset (stop : Bool)

/-- The request that was handed out, with the data buffer that goes with it. -/
abbrev Request := TransactReq × List UInt8

/-- The operation, on the memory and the queue. -/
def UnitOp.exec (disk : Disk) (m : ScsiMem) (ioq : SpdIoq) :
    UnitOp → Option (ScsiMem × SpdIoq × List IoqCall × Option Request)
  | .startIo a srb storResult =>
      (spdHwStartIo storResult disk a (m.setSrb a srb) ioq).map fun r =>
        (r.1, r.2.1, r.2.2, none)
  | .transactReq dataBuffer =>
      (spdIoqStartProcessingSrb spdSrbExecuteScsiPrepare ioq
        ⟨m, .zero, dataBuffer⟩).map fun r =>
        (r.2.1.mem, r.1, r.2.2.1,
          if r.2.2.2 = .success then some (r.2.1.req, r.2.1.dataBuffer) else none)
  | .transactRsp rsp dataBuffer =>
      (spdIoqEndProcessingSrb (spdSrbExecuteScsiComplete rsp dataBuffer) ioq m rsp.hint).map
        fun r => (r.2.1, r.1, r.2.2, none)
  | .cancel i => (spdIoqCancelSrb ioq i.srb i.ext).map fun r => (m, r.1, r.2.1, none)
  | .reset stop => (spdIoqReset ioq stop).map fun r => (m, r.1, r.2, none)

/-- The buffers of an SRB are what the SRB says they are. -/
structure Mapped (storResult : StorStatus) (srb : Srb) : Prop where
  data : ∀ buf, srb.dataBuffer = some buf → srb.dataTransferLength.toNat ≤ buf.length
  mapped : storResult = .success → srb.dataTransferLength ≠ 0 → srb.dataBuffer ≠ none
  sense : ∀ buf, srb.senseInfoBuffer = some buf → srb.senseInfoBufferLength.toNat ≤ buf.length

/-- What StorPort and user mode promise, `live` being the SRBs that are owed. -/
def UnitOp.Allowed (unit : StorageUnitParams) (live : List Item) : UnitOp → Prop
  | .startIo a srb storResult =>
      a ≠ 0 ∧ srb.miniportContext ≠ 0 ∧
      (∀ j ∈ live, j.srb ≠ a ∧ j.ext ≠ srb.miniportContext) ∧
        Mapped storResult srb
  | .transactReq dataBuffer => dataBuffer.length = unit.maxTransferLength.toNat
  | .transactRsp _ dataBuffer =>
      ∀ buf, dataBuffer = some buf → buf.length = unit.maxTransferLength.toNat
  | .cancel i => i ∈ live
  | .reset _ => True

/-- What happened, the calls that were made and the request handed out. -/
structure UnitEvent where
  op : UnitOp
  calls : List IoqCall
  handed : Option Request

def UnitEvent.arrived (ev : UnitEvent) : List Item :=
  match ev.op with
  | .startIo a srb _ => [⟨srb.miniportContext, a⟩]
  | _ => []

def UnitEvent.completed (ev : UnitEvent) : List Addr := ev.calls.filterMap completedSrb

structure UnitSys where
  mem : ScsiMem
  ioq : SpdIoq
  live : List Item

/-- A new unit, whose queue is in memory that held `ioqMem`. -/
def UnitSys.create (mem : ScsiMem) (ioqMem : SpdIoq) : UnitSys := ⟨mem, spdIoqCreate ioqMem, []⟩

structure UnitStep (disk : Disk) (s : UnitSys) (ev : UnitEvent) (s' : UnitSys) : Prop where
  allowed : ev.op.Allowed disk.unit.storageUnitParams s.live
  exec : ev.op.exec disk s.mem s.ioq = some (s'.mem, s'.ioq, ev.calls, ev.handed)
  live : s'.live = (s.live ++ ev.arrived).filter fun i => i.srb ∉ ev.completed

/-! ## What a step can do -/

variable {disk : Disk} {s s' : UnitSys} {q q' : Queue} {ev : UnitEvent} {m : ScsiMem}
  {ioq : SpdIoq}

/-- The items an operation may take out of the queue without user mode. -/
def UnitOp.MayTake (done : List Item) : UnitOp → Prop
  | .startIo _ srb _ => ResetsQueue srb ∨ done = []
  | .cancel i => done ⊆ [i]
  | .reset _ => True
  | _ => done = []

inductive UnitCase (disk : Disk) (s : UnitSys) (q : Queue) (ev : UnitEvent) (s' : UnitSys)
    (q' : Queue) : Prop
  /-- The SRB passed its checks and was posted. -/
  | posted {a : Addr} {srb : Srb} {storResult : StorStatus} {dataLength : UInt32}
      (op : ev.op = .startIo a srb storResult) (calls : ev.calls = []) (handed : ev.handed = none)
      (ok : PostOk disk.unit.storageUnitParams srb dataLength)
      (stor : dataLength ≠ 0 → storResult = .success)
      (mem : s'.mem = (s.mem.setSrb a srb).setExt srb.miniportContext
        (postedExt disk.unit.storageUnitParams a dataLength))
      (pending : q'.pending = q.pending ++ [⟨srb.miniportContext, a⟩])
      (process : q'.process = q.process)
  /-- The items of `done` were taken out as aborted, and an SRB that arrived was
  completed at once. -/
  | settled {done : List Item} {own : List IoqCall} (handed : ev.handed = none)
      (calls : ev.calls = aborts done ++ own)
      (own_arrived : ∀ c ∈ own, ∃ i ∈ ev.arrived, ∃ status, c = .srbComplete i.srb status)
      (arrived_own : ∀ i ∈ ev.arrived, ∃ status, .srbComplete i.srb status ∈ own)
      (removed : Removed q q' done)
      (takes : ev.op.MayTake done)
      (stale : ∀ rsp buf, ev.op = .transactRsp rsp buf → rsp.hint ∉ q.process.map Item.ext)
      (mem : ∀ i ∈ q.items, s'.mem.srb i.srb = s.mem.srb i.srb ∧
        s'.mem.ext i.ext = s.mem.ext i.ext)
  /-- The first pending SRB was made a request and handed out. -/
  | handed {buf : List UInt8} {i : Item} {t : Transact} (op : ev.op = .transactReq buf)
      (calls : ev.calls = [.prepare i.ext i.srb]) (handed : ev.handed = some (t.req, t.dataBuffer))
      (prepare : spdSrbExecuteScsiPrepare i.ext i.srb ⟨s.mem, .zero, buf⟩ = some t)
      (mem : s'.mem = s.mem) (pending : q.pending = i :: q'.pending)
      (process : q'.process = q.process ++ [i])
  /-- An answer was taken in, and the SRB has more chunks. -/
  | reposted {rsp : TransactRsp} {buf : Option (List UInt8)} {i : Item}
      (op : ev.op = .transactRsp rsp buf)
      (calls : ev.calls = [.complete i.ext i.srb srbStatusPending]) (handed : ev.handed = none)
      (hint : i.ext = rsp.hint) (mem_process : i ∈ q.process)
      (complete : spdSrbExecuteScsiComplete rsp buf i.ext i.srb s.mem =
        some (srbStatusPending, s'.mem))
      (pending : q'.pending = i :: q.pending) (process : q'.process = q.process.erase i)
  /-- An answer was taken in, and the SRB was completed. -/
  | finished {rsp : TransactRsp} {buf : Option (List UInt8)} {i : Item} {status : UInt8}
      (op : ev.op = .transactRsp rsp buf)
      (calls : ev.calls = [.complete i.ext i.srb status, .srbComplete i.srb status])
      (handed : ev.handed = none) (hint : i.ext = rsp.hint) (mem_process : i ∈ q.process)
      (complete : spdSrbExecuteScsiComplete rsp buf i.ext i.srb s.mem = some (status, s'.mem))
      (status_ne : status ≠ srbStatusPending)
      (pending : q'.pending = q.pending) (process : q'.process = q.process.erase i)

/-- `Prepare` reads memory and writes none. -/
theorem spdSrbExecuteScsiPrepare_mem {e a : Addr} {t t' : Transact}
    (h : spdSrbExecuteScsiPrepare e a t = some t') : t'.mem = t.mem := by
  unfold spdSrbExecuteScsiPrepare at h
  simp only at h
  split at h
  · simp only [Option.bind_eq_bind, Option.bind_eq_some_iff] at h
    obtain ⟨range, -, h⟩ := h
    split at h
    · cases h
    · cases h
      rfl
  · simp only [Option.bind_eq_bind, Option.bind_eq_some_iff] at h
    obtain ⟨range, -, h⟩ := h
    split at h
    · cases h
    · simp only [Option.bind_eq_some_iff] at h
      obtain ⟨bytes, -, buf, -, h⟩ := h
      cases h
      rfl
  · simp only [Option.bind_eq_bind, Option.bind_eq_some_iff] at h
    obtain ⟨range, -, h⟩ := h
    cases h
    rfl
  · simp only [Option.bind_eq_bind, Option.bind_eq_some_iff] at h
    obtain ⟨buf, -, h⟩ := h
    cases h
    rfl
  · cases h
    rfl

/-- What every reachable state of a unit satisfies, whatever its SRBs say: the
queue's items are the SRBs that are owed, each owed once. -/
structure UnitGood (s : UnitSys) (q : Queue) : Prop where
  refines : Refines s.ioq q
  items : q.items.Perm s.live
  srb_nodup : (q.items.map Item.srb).Nodup

theorem unitGood_create (mem : ScsiMem) (ioqMem : SpdIoq) :
    UnitGood (.create mem ioqMem) .empty :=
  ⟨spdIoqCreate_refines ioqMem, List.Perm.nil, List.nodup_nil⟩

/-- A step that took out the items of `done` and touched no memory. -/
theorem UnitCase.of_removed {done : List Item} (harrived : ev.arrived = [])
    (hhanded : ev.handed = none) (hcalls : ev.calls = aborts done) (hrem : Removed q q' done)
    (htakes : ev.op.MayTake done)
    (hstale : ∀ rsp buf, ev.op = .transactRsp rsp buf → rsp.hint ∉ q.process.map Item.ext)
    (hmem : s'.mem = s.mem) : UnitCase disk s q ev s' q' := by
  have hcalls' : ev.calls = aborts done ++ [] := by rw [hcalls, List.append_nil]
  refine .settled hhanded hcalls' ?_ ?_ hrem htakes hstale ?_
  · intro c hc
    cases hc
  · intro i hi
    rw [harrived] at hi
    cases hi
  · intro i _
    rw [hmem]
    exact ⟨rfl, rfl⟩

theorem unitCase_startIo {a : Addr} {srb : Srb} {storResult : StorStatus}
    (hr : Refines s.ioq q) (hop : ev.op = .startIo a srb storResult)
    (hfresh : ∀ j ∈ q.items, j.srb ≠ a ∧ j.ext ≠ srb.miniportContext)
    (hexec : ev.op.exec disk s.mem s.ioq = some (s'.mem, s'.ioq, ev.calls, ev.handed)) :
    ∃ q', Refines s'.ioq q' ∧ UnitCase disk s q ev s' q' := by
  rw [hop] at hexec
  simp only [UnitOp.exec, Option.map_eq_some_iff, Prod.mk.injEq, Prod.exists] at hexec
  obtain ⟨_, _, _, hstart, rfl, rfl, rfl, hhanded⟩ := hexec
  have hsrb : (s.mem.setSrb a srb).srb a = srb := Function.update_self _ _ _
  have hext : srb.miniportContext ∉ q.items.map Item.ext := by
    intro hmem
    obtain ⟨j, hj, hje⟩ := List.mem_map.mp hmem
    exact (hfresh j hj).2 hje
  obtain ⟨dataLength, status, hok, hcalls, hp⟩ | ⟨q', done, own, hown, hnp⟩ :=
    spdHwStartIo_cases hr (by rwa [hsrb]) hstart
  · rw [hsrb] at hok
    have hioq := hp.ioq
    have hne := hp.ext_ne
    have hmem := hp.mem
    rw [hsrb] at hioq hne hmem
    have hagree := spdIoqPostSrb_agree (i := ⟨srb.miniportContext, a⟩) (hr.zeroExtension hext)
      hext hne
    rw [hioq] at hagree
    obtain ⟨q', heq, hr'⟩ := hagree.of_some
    have hst : q.stopped = false := by
      by_contra hst
      rw [Bool.not_eq_false] at hst
      simp [Queue.post, hst] at heq
    rw [Queue.post_of_running hst] at heq
    cases heq
    exact ⟨_, hr', .posted hop hcalls hhanded.symm hok hp.stor hmem rfl rfl⟩
  · have harr : ev.arrived = [⟨srb.miniportContext, a⟩] := by
      rw [UnitEvent.arrived, hop]
    refine ⟨q', hnp.refines, .settled hhanded.symm hnp.calls ?_ ?_ hnp.removed ?_ ?_ ?_⟩
    · intro c hc
      obtain ⟨status, -, rfl⟩ := List.mem_map.mp hc
      exact ⟨_, by rw [harr]; exact List.mem_singleton_self _, status, rfl⟩
    · intro i hi
      rw [harr, List.mem_singleton] at hi
      subst hi
      obtain ⟨status, hstatus⟩ := List.exists_mem_of_ne_nil own hown
      exact ⟨status, List.mem_map_of_mem hstatus⟩
    · rw [hop]
      have hspares := hnp.spares
      rw [hsrb] at hspares
      exact or_iff_not_imp_left.mpr hspares
    · intro rsp buf hop'
      simp [hop] at hop'
    · intro i hi
      obtain ⟨hsa, hea⟩ := hfresh i hi
      have hframe := hnp.frame
      rw [hsrb] at hframe
      exact ⟨(hframe.srb _ hsa).trans (Function.update_of_ne hsa _ _), hframe.ext _ hea⟩

theorem unitCase_transactReq {buf : List UInt8} (hr : Refines s.ioq q)
    (hop : ev.op = .transactReq buf)
    (hexec : ev.op.exec disk s.mem s.ioq = some (s'.mem, s'.ioq, ev.calls, ev.handed)) :
    ∃ q', Refines s'.ioq q' ∧ UnitCase disk s q ev s' q' := by
  rw [hop] at hexec
  simp only [UnitOp.exec, Option.map_eq_some_iff, Prod.mk.injEq, Prod.exists] at hexec
  obtain ⟨_, t, _, status, hstart, hmem, rfl, rfl, hhanded⟩ := hexec
  have hagree := spdIoqStartProcessingSrb_agree hr spdSrbExecuteScsiPrepare ⟨s.mem, .zero, buf⟩
  rw [hstart] at hagree
  obtain ⟨q', hspec, hr'⟩ := hagree.of_some
  have hsettled : t.mem = s.mem → ev.calls = [] → status ≠ .success →
      q'.pending = q.pending → q'.process = q.process →
      ∃ q', Refines s'.ioq q' ∧ UnitCase disk s q ev s' q' := by
    intro ht hcalls hst hp hpr
    exact ⟨q', hr', .of_removed (by rw [UnitEvent.arrived, hop]) (by rw [← hhanded, if_neg hst])
      (show ev.calls = aborts [] from hcalls) (removed_nil hp hpr) (by rw [hop]; rfl)
      (fun _ _ h => by simp [hop] at h)
      (hmem.symm.trans ht)⟩
  obtain ⟨-, rfl, rfl, hcalls, rfl⟩ | ⟨-, -, rfl, rfl, hcalls, rfl⟩ |
    ⟨i, rest, -, hp, hprep, rfl, hcalls, rfl⟩ := Queue.start_cases hspec
  · exact hsettled rfl hcalls (by simp) rfl rfl
  · exact hsettled rfl hcalls (by simp) rfl rfl
  · exact ⟨_, hr', .handed hop hcalls (by rw [← hhanded, if_pos rfl]) hprep
      (hmem.symm.trans (spdSrbExecuteScsiPrepare_mem hprep)) hp rfl⟩

theorem unitCase_transactRsp {rsp : TransactRsp} {buf : Option (List UInt8)}
    (hr : Refines s.ioq q) (hop : ev.op = .transactRsp rsp buf)
    (hexec : ev.op.exec disk s.mem s.ioq = some (s'.mem, s'.ioq, ev.calls, ev.handed)) :
    ∃ q', Refines s'.ioq q' ∧ UnitCase disk s q ev s' q' := by
  rw [hop] at hexec
  simp only [UnitOp.exec, Option.map_eq_some_iff, Prod.mk.injEq, Prod.exists] at hexec
  obtain ⟨_, w, _, hend, rfl, rfl, rfl, hhanded⟩ := hexec
  have hagree := spdIoqEndProcessingSrb_agree hr (spdSrbExecuteScsiComplete rsp buf) s.mem rsp.hint
  rw [hend] at hagree
  obtain ⟨q', hspec, hr'⟩ := hagree.of_some
  obtain ⟨hno, rfl, hmem, hcalls⟩ | ⟨i, status, -, hl, hcomplete, hrest⟩ :=
    Queue.finish_cases hspec
  · have hstale : rsp.hint ∉ q'.process.map Item.ext := by
      rcases hno with hst | hl
      · have hnil := hr.wf.drained hst
        rw [Queue.items, List.append_eq_nil_iff] at hnil
        simp [hnil.2]
      · exact lookup_eq_none.mp hl
    refine ⟨_, hr', .of_removed (by rw [UnitEvent.arrived, hop]) hhanded.symm
      (show ev.calls = aborts [] from hcalls) removed_refl
      (by rw [hop]; rfl) ?_ hmem⟩
    intro rsp' buf' hop'
    rw [hop] at hop'
    cases hop'
    exact hstale
  · obtain ⟨hi, hhint⟩ := hr.wf.lookup_eq_some.mp hl
    obtain ⟨rfl, rfl, hcalls⟩ | ⟨hne, rfl, hcalls⟩ := hrest
    · exact ⟨_, hr', .reposted hop hcalls hhanded.symm hhint hi hcomplete rfl rfl⟩
    · exact ⟨_, hr', .finished hop hcalls hhanded.symm hhint hi hcomplete hne rfl rfl⟩

theorem unitCase_cancel {i : Item} (hr : Refines s.ioq q) (hop : ev.op = .cancel i)
    (hi : i ∈ q.items)
    (hexec : ev.op.exec disk s.mem s.ioq = some (s'.mem, s'.ioq, ev.calls, ev.handed)) :
    ∃ q', Refines s'.ioq q' ∧ UnitCase disk s q ev s' q' := by
  rw [hop] at hexec
  simp only [UnitOp.exec, Option.map_eq_some_iff, Prod.mk.injEq, Prod.exists] at hexec
  obtain ⟨_, _, _, hcancel, hmem, rfl, rfl, hhanded⟩ := hexec
  have hagree := spdIoqCancelSrb_agree hr hi
  rw [hcancel] at hagree
  obtain ⟨q', hspec, hr'⟩ := hagree.of_some
  obtain ⟨done, hrem, hcalls, hdone⟩ := removed_cancel hr.wf hi
  rw [Option.some.injEq] at hspec
  rw [hspec] at hrem hcalls
  exact ⟨q', hr', .of_removed (by rw [UnitEvent.arrived, hop]) hhanded.symm hcalls hrem
    (by rw [hop]; exact hdone) (fun _ _ h => by simp [hop] at h) hmem.symm⟩

theorem unitCase_reset {stop : Bool} (hr : Refines s.ioq q) (hop : ev.op = .reset stop)
    (hexec : ev.op.exec disk s.mem s.ioq = some (s'.mem, s'.ioq, ev.calls, ev.handed)) :
    ∃ q', Refines s'.ioq q' ∧ UnitCase disk s q ev s' q' := by
  rw [hop] at hexec
  simp only [UnitOp.exec, Option.map_eq_some_iff, Prod.mk.injEq, Prod.exists] at hexec
  obtain ⟨_, _, hreset, hmem, rfl, rfl, hhanded⟩ := hexec
  have hagree := spdIoqReset_agree hr stop
  rw [hreset] at hagree
  obtain ⟨q', hspec, hr'⟩ := hagree.of_some
  obtain ⟨done, hrem, hcalls⟩ := removed_reset q stop
  rw [Option.some.injEq] at hspec
  rw [hspec] at hrem hcalls
  exact ⟨q', hr', .of_removed (by rw [UnitEvent.arrived, hop]) hhanded.symm hcalls hrem
    (by rw [hop]; trivial) (fun _ _ h => by simp [hop] at h) hmem.symm⟩

theorem UnitGood.cases (hg : UnitGood s q) (h : UnitStep disk s ev s') :
    ∃ q', Refines s'.ioq q' ∧ UnitCase disk s q ev s' q' := by
  have hallowed := h.allowed
  cases hop : ev.op with
  | startIo a srb storResult =>
      rw [hop] at hallowed
      exact unitCase_startIo hg.refines hop (fun j hj => hallowed.2.2.1 j (hg.items.mem_iff.mp hj))
        h.exec
  | transactReq buf => exact unitCase_transactReq hg.refines hop h.exec
  | transactRsp rsp buf => exact unitCase_transactRsp hg.refines hop h.exec
  | cancel i =>
      rw [hop] at hallowed
      exact unitCase_cancel hg.refines hop (hg.items.mem_iff.mpr hallowed) h.exec
  | reset stop => exact unitCase_reset hg.refines hop h.exec

/-! ## The items -/

theorem mem_completed_aborts {done : List Item} {x : Addr} :
    x ∈ (aborts done).filterMap completedSrb ↔ x ∈ done.map Item.srb := by
  rw [aborts, List.filterMap_map, ← List.filterMap_eq_map]
  rfl

theorem srbComplete_of_settled {done : List Item} {own : List IoqCall} {c : IoqCall}
    (hown : ∀ c ∈ own, ∃ i ∈ ev.arrived, ∃ status, c = .srbComplete i.srb status)
    (hc : c ∈ aborts done ++ own) : ∃ a status, c = .srbComplete a status := by
  rcases List.mem_append.mp hc with hc | hc
  · obtain ⟨i, -, rfl⟩ := List.mem_map.mp hc
    exact ⟨_, _, rfl⟩
  · obtain ⟨i, -, status, rfl⟩ := hown c hc
    exact ⟨_, _, rfl⟩

/-- The items a step found, and the SRB that arrived, are the ones it completed
and the ones it leaves. -/
theorem UnitCase.items (hc : UnitCase disk s q ev s' q') :
    ∃ gone : List Item, (q.items ++ ev.arrived).Perm (gone ++ q'.items) ∧
      ∀ x, x ∈ ev.completed ↔ x ∈ gone.map Item.srb := by
  cases hc with
  | @posted a srb storResult dataLength op calls _ _ _ _ pending process =>
      refine ⟨[], ?_, by simp [UnitEvent.completed, calls]⟩
      rw [UnitEvent.arrived, op, Queue.items, Queue.items, pending, process]
      simp only [List.append_assoc, List.nil_append]
      exact List.Perm.append_left _ List.perm_append_comm
  | @settled done own _ calls own_arrived arrived_own removed _ _ _ =>
      refine ⟨done ++ ev.arrived, ?_, fun x => ?_⟩
      · have hperm := removed.items.append_right ev.arrived
        rw [List.append_assoc] at hperm
        rw [List.append_assoc]
        exact hperm.trans (List.perm_append_comm.append_left done)
      · rw [UnitEvent.completed, calls, List.filterMap_append, List.map_append, List.mem_append,
          List.mem_append, mem_completed_aborts]
        refine or_congr_right ⟨fun hx => ?_, fun hx => ?_⟩
        · obtain ⟨c, hc, hcx⟩ := List.mem_filterMap.mp hx
          obtain ⟨i, hi, status, rfl⟩ := own_arrived c hc
          rw [← Option.some.inj hcx]
          exact List.mem_map_of_mem hi
        · obtain ⟨i, hi, rfl⟩ := List.mem_map.mp hx
          obtain ⟨status, hstatus⟩ := arrived_own i hi
          exact List.mem_filterMap.mpr ⟨_, hstatus, rfl⟩
  | @handed buf i t op calls _ _ _ pending process =>
      refine ⟨[], ?_, by simp [UnitEvent.completed, calls, completedSrb]⟩
      rw [UnitEvent.arrived, op, Queue.items, Queue.items, pending, process, List.append_nil,
        List.nil_append, ← List.append_assoc]
      exact (List.perm_append_singleton i _).symm
  | @reposted rsp buf i op calls _ _ mem_process _ pending process =>
      refine ⟨[], ?_, by simp [UnitEvent.completed, calls, completedSrb]⟩
      rw [UnitEvent.arrived, op, Queue.items, Queue.items, pending, process, List.append_nil,
        List.nil_append]
      exact ((List.perm_cons_erase mem_process).append_left q.pending).trans List.perm_middle
  | @finished rsp buf i status op calls _ _ mem_process _ _ pending process =>
      refine ⟨[i], ?_, by simp [UnitEvent.completed, calls, completedSrb, eq_comm]⟩
      rw [UnitEvent.arrived, op, Queue.items, Queue.items, pending, process, List.append_nil]
      exact ((List.perm_cons_erase mem_process).append_left q.pending).trans List.perm_middle

theorem arrived_fresh (h : UnitStep disk s ev s') (hnd : (s.live.map Item.srb).Nodup) :
    ((s.live ++ ev.arrived).map Item.srb).Nodup := by
  have hallowed := h.allowed
  unfold UnitEvent.arrived
  split
  · next a srb storResult hop =>
      rw [hop] at hallowed
      rw [List.map_append, List.nodup_append]
      refine ⟨hnd, List.nodup_singleton _, ?_⟩
      intro x hx y hy
      obtain ⟨j, hj, rfl⟩ := List.mem_map.mp hx
      rw [List.map_cons, List.map_nil, List.mem_singleton] at hy
      rw [hy]
      exact (hallowed.2.2.1 j hj).1
  · rwa [List.append_nil]

theorem UnitGood.step (hg : UnitGood s q) (h : UnitStep disk s ev s') :
    ∃ q', UnitGood s' q' ∧ UnitCase disk s q ev s' q' := by
  obtain ⟨q', hr', hc⟩ := hg.cases h
  obtain ⟨gone, hperm, hgone⟩ := hc.items
  have hlive : (gone ++ q'.items).Perm (s.live ++ ev.arrived) :=
    hperm.symm.trans (hg.items.append_right _)
  have hnd : ((gone ++ q'.items).map Item.srb).Nodup :=
    (hlive.map Item.srb).nodup_iff.mpr
      (arrived_fresh h ((hg.items.map Item.srb).nodup_iff.mp hg.srb_nodup))
  refine ⟨q', ⟨hr', ?_, ?_⟩, hc⟩
  · rw [h.live, ← filter_completed hnd]
    simp only [hgone]
    exact hlive.filter _
  · rw [List.map_append] at hnd
    exact (List.nodup_append.mp hnd).2.1

/-! ## The SRB of an item -/

/-- An item that a step does not complete stays in the list it is in, unless
the step hands it out or takes in an answer to it. -/
theorem Removed.mem_pending {done : List Item} {i : Item} (hw : Wf q) (hrem : Removed q q' done)
    (hi : i ∈ q.pending) (hdone : i ∉ done) : i ∈ q'.pending := by
  have hmem := hrem.items.subset (List.mem_append_left q.process hi)
  rcases List.mem_append.mp ((List.mem_append.mp hmem).resolve_left hdone) with hp | hr
  · exact hp
  · exact absurd rfl ((List.nodup_append.mp hw.items_nodup).2.2 i hi i (hrem.process.subset hr))

theorem Removed.mem_process {done : List Item} {i : Item} (hw : Wf q) (hrem : Removed q q' done)
    (hi : i ∈ q.process) (hdone : i ∉ done) : i ∈ q'.process := by
  have hmem := hrem.items.subset (List.mem_append_right q.pending hi)
  rcases List.mem_append.mp ((List.mem_append.mp hmem).resolve_left hdone) with hp | hr
  · exact absurd rfl ((List.nodup_append.mp hw.items_nodup).2.2 i (hrem.pending.subset hp) i hi)
  · exact hr

end Winspd.Proofs
