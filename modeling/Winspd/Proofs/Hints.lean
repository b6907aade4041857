import Winspd.Proofs.Requests

/-!
# Hints

The hint of a response is the address of an SRB extension, and user mode can
put any number there. `SpdIoqEndProcessingSrb` follows it only when it finds it
in a hash chain, so what protects the kernel is that the chains hold the
extensions of `ProcessList` and no others. `Spells` is what the links of a
queue say: its two lists and its chains, in order.

A hint that is not on `ProcessList` does nothing at all (`Spells.answer_none`),
one that is takes exactly its extension off (`UnitInv.answer_some`), and no
extension is on `ProcessList` that was not handed out since it was last
answered (`unhanded_run`).
-/

namespace Winspd.Proofs

open Winspd.Lib Winspd.Sys Winspd.Spec

variable {disk : Disk} {s s' : UnitSys} {q q' : Queue} {ev : UnitEvent} {ls : List UnitEvent}
  {mem : ScsiMem} {ioqMem ioq ioq' : SpdIoq} {rsp : TransactRsp} {buf : Option (List UInt8)}
  {e : Addr} {pending pending' process : List Addr} {chains : UInt32 → List Addr}

/-! ## The lists and the chains -/

/-- The extensions on the lists and in the chains, in the order of the links. -/
structure Spells (ioq : SpdIoq) (pending process : List Addr) (chains : UInt32 → List Addr) :
    Prop where
  lists : TwoRings ioq.listEntry .pendingList .processList pending process
  table : Table ioq.processBuckets 0 ioq.bucket chains
  chained : ∀ e, e ∈ chains (ioq.bucket e) ↔ e ∈ process

theorem Refines.spells (hr : Refines ioq q) :
    ∃ chains, Spells ioq (q.pending.map Item.ext) (q.process.map Item.ext) chains := by
  obtain ⟨chains, htable, hmem⟩ := hr.buckets
  exact ⟨chains, hr.lists, htable, hmem⟩

/-- `SpdIoqEndProcessingSrb`, for a response of user mode. -/
def UnitSys.answer (s : UnitSys) (rsp : TransactRsp) (buf : Option (List UInt8)) :
    Option (SpdIoq × ScsiMem × List IoqCall) :=
  spdIoqEndProcessingSrb (spdSrbExecuteScsiComplete rsp buf) s.ioq s.mem rsp.hint

/-- A hint that is not on `ProcessList`. -/
theorem Spells.answer_none (hs : Spells s.ioq pending process chains)
    (hhint : rsp.hint ∉ process) : s.answer rsp buf = some (s.ioq, s.mem, []) := by
  rw [UnitSys.answer, spdIoqEndProcessingSrb]
  split
  · rfl
  · have hchain : rsp.hint ∉ chains (s.ioq.bucket rsp.hint) := fun h =>
      hhint ((hs.chained rsp.hint).mp h)
    have hfind := hs.table.find_notMem hchain (bucket_length_lt hs.table _)
    simp only [hfind, Option.bind_eq_bind, Option.bind_some]

/-! ## An answer that is taken in -/

/-- What is called for an extension that is taken in. -/
def answerCalls (e srb : Addr) (status : UInt8) : List IoqCall :=
  .complete e srb status ::
    if status = srbStatusPending then [] else [.srbComplete srb status]

/-- The extension `e` leaves `ProcessList` and its chain. It goes to the head of
`PendingList` if there are more chunks, and else its SRB is completed. -/
structure TakenIn (s : UnitSys) (pending process : List Addr) (chains : UInt32 → List Addr)
    (e : Addr) (status : UInt8) (ioq' : SpdIoq) (mem' : ScsiMem) : Prop where
  owed : ⟨e, s.ioq.srb e⟩ ∈ s.live
  spells : Spells ioq' (if status = srbStatusPending then e :: pending else pending)
    (process.erase e)
    (Function.update chains (s.ioq.bucket e) ((chains (s.ioq.bucket e)).erase e))
  stopped : ioq'.stopped = s.ioq.stopped
  srb : ioq'.srb = s.ioq.srb
  frame : Frame (s.ioq.srb e) e s.mem mem'

section Queue

variable {ω : Type} {complete : Addr → Addr → ω → Option (UInt8 × ω)} {w w' : ω}
  {calls : List IoqCall} {P : Loc UInt32 Addr}

/-- What `SpdIoqEndProcessingSrb` writes besides the links of the lists. -/
theorem spdIoqEndProcessingSrb_writes (hst : ioq.stopped = false)
    (hfind : ioq.processBuckets.find 0 e addressSpace (.head (ioq.bucket e)) = some (some P))
    (h : spdIoqEndProcessingSrb complete ioq w e = some (ioq', w', calls)) :
    ioq'.processBuckets = ioq.processBuckets.write P (ioq.processBuckets.next e) ∧
      ioq'.processBucketCount = ioq.processBucketCount ∧ ioq'.stopped = ioq.stopped ∧
      ioq'.srb = ioq.srb := by
  rw [spdIoqEndProcessingSrb, if_neg (by simp [hst])] at h
  simp only [hfind, Option.bind_eq_bind, Option.bind_some, Option.bind_eq_some_iff] at h
  obtain ⟨⟨L, b⟩, -, ⟨status, w₁⟩, -, h⟩ := h
  split at h
  · simp only [Option.bind_eq_some_iff] at h
    obtain ⟨L', -, h⟩ := h
    cases h
    exact ⟨rfl, rfl, rfl, rfl⟩
  · cases h
    exact ⟨rfl, rfl, rfl, rfl⟩

/-- The chains after an answer: the extension is gone from its own. -/
theorem Spells.unlink (hs : Spells ioq pending process chains) (hst : ioq.stopped = false)
    (he : e ∈ process)
    (hlists : TwoRings ioq'.listEntry .pendingList .processList pending' (process.erase e))
    (h : spdIoqEndProcessingSrb complete ioq w e = some (ioq', w', calls)) :
    Spells ioq' pending' (process.erase e)
        (Function.update chains (ioq.bucket e) ((chains (ioq.bucket e)).erase e)) ∧
      ioq'.stopped = ioq.stopped ∧ ioq'.srb = ioq.srb := by
  obtain ⟨P, hfind, htable⟩ :=
    hs.table.unlink ((hs.chained e).mpr he) (bucket_length_lt hs.table _)
  obtain ⟨hbuckets, hcount, hstopped, hsrb⟩ := spdIoqEndProcessingSrb_writes hst hfind h
  have hbucket : ioq'.bucket = ioq.bucket := by
    funext x
    rw [SpdIoq.bucket, SpdIoq.bucket, hcount]
  refine ⟨⟨hlists, ?_, fun x => ?_⟩, hstopped, hsrb⟩
  · rwa [hbuckets, hbucket]
  · have hnd := (List.nodup_append.mp hs.lists.nodup).2.1
    rw [hbucket, hnd.mem_erase_iff, ← hs.chained x]
    by_cases hx : ioq.bucket x = ioq.bucket e
    · rw [hx, Function.update_self, (hs.table.nodup _).mem_erase_iff]
    · have hxe : x ≠ e := fun hxe => hx (by rw [hxe])
      rw [Function.update_of_ne hx]
      exact ⟨fun h => ⟨hxe, h⟩, fun h => h.2⟩

end Queue

/-- A hint that is on `ProcessList`. -/
theorem UnitInv.answer_some (hinv : UnitInv disk.unit.storageUnitParams s q)
    (hs : Spells s.ioq (q.pending.map Item.ext) (q.process.map Item.ext) chains)
    (hhint : rsp.hint ∈ q.process.map Item.ext)
    (hlen : ∀ data, buf = some data →
      data.length = disk.unit.storageUnitParams.maxTransferLength.toNat) :
    ∃ status ioq' mem', s.answer rsp buf =
        some (ioq', mem', answerCalls rsp.hint (s.ioq.srb rsp.hint) status) ∧
      TakenIn s (q.pending.map Item.ext) (q.process.map Item.ext) chains rsp.hint status ioq'
        mem' := by
  have hr := hinv.good.refines
  obtain ⟨i, hi, hie⟩ := List.mem_map.mp hhint
  have hmem : i ∈ q.items := List.mem_append_right _ hi
  have hsrb : s.ioq.srb rsp.hint = i.srb := by rw [← hie, hr.srb i hmem]
  have hst : q.stopped = false := by
    by_contra hne
    rw [hr.wf.drained (by simpa using hne)] at hmem
    cases hmem
  have hl := hr.wf.lookup_eq_some.mpr ⟨hi, hie⟩
  obtain ⟨dataLength, ht⟩ := hinv.transfers i hmem
  obtain ⟨status, mem', hcomplete, hframe, -⟩ := ht.complete rsp hlen
  have herase := hr.wf.map_erase hmem (List.subset_append_right q.pending q.process)
  have howed : ⟨rsp.hint, s.ioq.srb rsp.hint⟩ ∈ s.live := by
    rw [hsrb, ← hie]
    exact hinv.good.items.mem_iff.mp hmem
  have hagree := spdIoqEndProcessingSrb_agree hr (spdSrbExecuteScsiComplete rsp buf) s.mem rsp.hint
  -- the queue says where the extension goes, the code what happens to its chain
  obtain ⟨ioq', hend, hlists⟩ : ∃ ioq', s.answer rsp buf =
        some (ioq', mem', answerCalls rsp.hint (s.ioq.srb rsp.hint) status) ∧
      TwoRings ioq'.listEntry .pendingList .processList
        (if status = srbStatusPending then rsp.hint :: q.pending.map Item.ext
          else q.pending.map Item.ext) ((q.process.map Item.ext).erase rsp.hint) := by
    by_cases hpend : status = srbStatusPending
    · have hspec : q.finish (spdSrbExecuteScsiComplete rsp buf) s.mem rsp.hint =
          some ({ q with event := true, pending := i :: q.pending, process := q.process.erase i },
            mem', [.complete i.ext i.srb status]) := by
        rw [Queue.finish, if_neg (by simp [hst])]
        simp only [hl, hcomplete, Option.bind_eq_bind, Option.bind_some, if_pos hpend]
      rw [hspec] at hagree
      obtain ⟨ioq', hend, hr'⟩ := hagree.exists_some
      refine ⟨ioq', ?_, ?_⟩
      · rw [answerCalls, if_pos hpend, hsrb, ← hie]
        exact hie ▸ hend
      · rw [if_pos hpend, ← hie, ← herase]
        exact hr'.lists
    · rw [Queue.finish_of_lookup hl hst hcomplete hpend] at hagree
      obtain ⟨ioq', hend, hr'⟩ := hagree.exists_some
      refine ⟨ioq', ?_, ?_⟩
      · rw [answerCalls, if_neg hpend, hsrb, ← hie]
        exact hie ▸ hend
      · rw [if_neg hpend, ← hie, ← herase]
        exact hr'.lists
  obtain ⟨hspells, hstopped, hsrb'⟩ :=
    hs.unlink (hr.stopped.trans hst) hhint hlists hend
  refine ⟨status, ioq', mem', hend, howed, hspells, hstopped, hsrb', ?_⟩
  rw [hsrb, ← hie]
  exact hframe

/-! ## Answered once -/

/-- Only a request puts an extension on `ProcessList`. -/
theorem UnitCase.unhanded (hc : UnitCase disk s q ev s' q')
    (hprep : ∀ a, .prepare e a ∉ ev.calls) (he : e ∉ q.process.map Item.ext) :
    e ∉ q'.process.map Item.ext := by
  cases hc with
  | posted _ _ _ _ _ _ _ process => rwa [process]
  | settled _ _ _ _ removed =>
      exact fun h => he ((removed.process.map Item.ext).subset h)
  | @handed buf i t op calls _ _ _ _ process =>
      have hie : i.ext ≠ e := by
        rintro rfl
        exact hprep i.srb (by rw [calls]; exact List.mem_singleton_self _)
      rw [process, List.map_append, List.mem_append, not_or]
      exact ⟨he, by simpa using Ne.symm hie⟩
  | reposted _ _ _ _ _ _ _ process =>
      rw [process]
      exact fun h => he ((List.erase_sublist.map Item.ext).subset h)
  | finished _ _ _ _ _ _ _ _ process =>
      rw [process]
      exact fun h => he ((List.erase_sublist.map Item.ext).subset h)

/-- An answer leaves its hint off `ProcessList`. -/
theorem UnitCase.unhanded_rsp (hw : Wf q) (hc : UnitCase disk s q ev s' q')
    (hop : ev.op = .transactRsp rsp buf) : rsp.hint ∉ q'.process.map Item.ext := by
  have herase : ∀ {i}, i.ext = rsp.hint → i ∈ q.process → q'.process = q.process.erase i →
      rsp.hint ∉ q'.process.map Item.ext := by
    intro i hie hi hprocess
    have hsub := List.subset_append_right q.pending q.process
    have hnd : (q.process.map Item.ext).Nodup :=
      hw.nodup.sublist ((List.sublist_append_right q.pending q.process).map Item.ext)
    rw [hprocess, hw.map_erase (hsub hi) hsub, hie]
    exact hnd.not_mem_erase
  cases hc with
  | posted op => simp [op] at hop
  | settled _ _ _ _ removed _ stale =>
      exact fun h => stale rsp buf hop ((removed.process.map Item.ext).subset h)
  | handed op => simp [op] at hop
  | reposted op _ _ hint mem_process _ _ process =>
      rw [op] at hop
      cases hop
      exact herase hint mem_process process
  | finished op _ _ hint mem_process _ _ _ process =>
      rw [op] at hop
      cases hop
      exact herase hint mem_process process

/-- An extension that is off `ProcessList` stays off while it is not handed out. -/
theorem unhanded_run (hinv : UnitInv disk.unit.storageUnitParams s q)
    (he : e ∉ q.process.map Item.ext) (hrun : Run (UnitStep disk) s ls s')
    (hprep : ∀ ev ∈ ls, ∀ a, .prepare e a ∉ ev.calls) :
    ∃ q', UnitInv disk.unit.storageUnitParams s' q' ∧ e ∉ q'.process.map Item.ext := by
  induction hrun with
  | nil => exact ⟨q, hinv, he⟩
  | snoc _ hstep ih =>
      obtain ⟨q₁, hinv₁, he₁⟩ := ih fun ev hev => hprep ev (List.mem_append_left _ hev)
      obtain ⟨q₂, hinv₂, hc⟩ := hinv₁.step hstep
      exact ⟨q₂, hinv₂, hc.unhanded (hprep _ (by simp)) he₁⟩

/-! ## Every hint -/

/-- In every reachable state and for every response: the chains hold what is on
`ProcessList`; a hint that is not there does nothing; one that is takes that
extension off and touches nothing else; and a response that comes again does
nothing unless the extension was handed out again. -/
theorem spdIoqEndProcessingSrb_hint (hrun : Run (UnitStep disk) (.create mem ioqMem) ls s)
    (rsp : TransactRsp) (buf : Option (List UInt8)) :
    (∃ pending process chains, Spells s.ioq pending process chains ∧
      (rsp.hint ∉ process → s.answer rsp buf = some (s.ioq, s.mem, [])) ∧
      (rsp.hint ∈ pending → s.answer rsp buf = some (s.ioq, s.mem, [])) ∧
      (rsp.hint ∈ process →
        (∀ data, buf = some data →
          data.length = disk.unit.storageUnitParams.maxTransferLength.toNat) →
        ∃ status ioq' mem', s.answer rsp buf =
            some (ioq', mem', answerCalls rsp.hint (s.ioq.srb rsp.hint) status) ∧
          TakenIn s pending process chains rsp.hint status ioq' mem')) ∧
      ∀ ev s₁ ls' s₂, UnitStep disk s ev s₁ → ev.op = .transactRsp rsp buf →
        Run (UnitStep disk) s₁ ls' s₂ →
        (∀ ev' ∈ ls', ∀ a, .prepare rsp.hint a ∉ ev'.calls) →
        ∀ rsp' buf', rsp'.hint = rsp.hint →
          s₂.answer rsp' buf' = some (s₂.ioq, s₂.mem, []) := by
  obtain ⟨q, hinv⟩ := unitRun_inv hrun
  constructor
  · obtain ⟨chains, hs⟩ := hinv.good.refines.spells
    refine ⟨_, _, chains, hs, hs.answer_none, fun hpending => hs.answer_none fun hprocess => ?_,
      hinv.answer_some hs⟩
    exact (List.nodup_append.mp hs.lists.nodup).2.2 _ hpending _ hprocess rfl
  · intro ev s₁ ls' s₂ hstep hop hrun' hprep rsp' buf' hhint
    obtain ⟨q₁, hinv₁, hc⟩ := hinv.step hstep
    obtain ⟨q₂, hinv₂, hoff⟩ :=
      unhanded_run hinv₁ (hc.unhanded_rsp hinv.good.refines.wf hop) hrun' hprep
    obtain ⟨chains, hs⟩ := hinv₂.good.refines.spells
    exact hs.answer_none (by rwa [hhint])

/-- The first chunk of a read was answered: the read waits for its second one,
and no response with its hint does anything. -/
theorem spdIoqEndProcessingSrb_hint_again :
    ∃ ls s ev s₁, Run (UnitStep sampleDisk) (.create (sampleMem sampleRead) zeroedIoq) ls s ∧
      UnitStep sampleDisk s ev s₁ ∧ ev.calls = [.complete 0x1000 0x2000 srbStatusPending] ∧
      ∀ rsp' buf', rsp'.hint = 0x1000 →
        s₁.answer rsp' buf' = some (s₁.ioq, s₁.mem, []) := by
  obtain ⟨r₁, r₂, r₃, h₁, h₂, h₃, hr₁, hr₂, hr₃⟩ : ∃ r₁ r₂ r₃,
      UnitOp.exec sampleDisk (sampleMem sampleRead) (spdIoqCreate zeroedIoq)
        (.startIo 0x2000 sampleRead .success) = some r₁ ∧
      UnitOp.exec sampleDisk r₁.1 r₁.2.1 (.transactReq (List.replicate 32 0)) = some r₂ ∧
      UnitOp.exec sampleDisk r₂.1 r₂.2.1
        (.transactRsp ⟨0x1000, 1, ⟨0, 0, 0, 0, 0, false⟩⟩ none) = some r₃ ∧
      r₁.2.2 = ([], none) ∧ r₂.2.2 = ([.prepare 0x1000 0x2000],
        some (⟨0x1000, .read 0 2 false⟩, List.replicate 32 0)) ∧
      r₃.2.2 = ([.complete 0x1000 0x2000 srbStatusPending], none) :=
    ⟨_, _, _, rfl, rfl, rfl, rfl, rfl, rfl⟩
  obtain ⟨m₁, ioq₁, c₁, n₁⟩ := r₁
  obtain ⟨m₂, ioq₂, c₂, n₂⟩ := r₂
  obtain ⟨m₃, ioq₃, c₃, n₃⟩ := r₃
  cases hr₁
  cases hr₂
  cases hr₃
  have hstep₁ : UnitStep sampleDisk (.create (sampleMem sampleRead) zeroedIoq)
      ⟨.startIo 0x2000 sampleRead .success, [], none⟩
        ⟨m₁, ioq₁, [⟨0x1000, 0x2000⟩]⟩ :=
    ⟨⟨by decide, by decide, fun j hj => (by cases hj), sampleRead_mapped⟩, h₁, rfl⟩
  have hstep₂ : UnitStep sampleDisk ⟨m₁, ioq₁, [⟨0x1000, 0x2000⟩]⟩
      ⟨.transactReq (List.replicate 32 0), [.prepare 0x1000 0x2000],
        some (⟨0x1000, .read 0 2 false⟩, List.replicate 32 0)⟩
      ⟨m₂, ioq₂, [⟨0x1000, 0x2000⟩]⟩ := ⟨rfl, h₂, rfl⟩
  have hstep₃ : UnitStep sampleDisk ⟨m₂, ioq₂, [⟨0x1000, 0x2000⟩]⟩
      ⟨.transactRsp ⟨0x1000, 1, ⟨0, 0, 0, 0, 0, false⟩⟩ none,
        [.complete 0x1000 0x2000 srbStatusPending], none⟩
      ⟨m₃, ioq₃, [⟨0x1000, 0x2000⟩]⟩ :=
        ⟨fun data hdata => (by cases hdata), h₃, rfl⟩
  have hrun := Run.cons hstep₁ (.single hstep₂)
  exact ⟨_, _, _, _, hrun, hstep₃, rfl,
    (spdIoqEndProcessingSrb_hint hrun ⟨0x1000, 1, ⟨0, 0, 0, 0, 0, false⟩⟩ none).2 _ _ _ _
      hstep₃ rfl .nil fun ev hev => absurd hev List.not_mem_nil⟩

end Winspd.Proofs
