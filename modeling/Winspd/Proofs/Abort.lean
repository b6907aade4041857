import Winspd.Proofs.Hints

/-!
# Aborting a command

StorPort aborts a command by starting another SRB, whose `NextSrb` is the one
to abort. `SpdSrbAbortCommand` hands `SpdIoqCancelSrb` the SRB it was given
instead. That SRB was never posted, so its extension is on no list: the cancel
takes whatever its link fields point at out of whatever list that is, or stops
the machine, and completes the abort itself, which `SpdHwStartIo` then
completes again. The victim stays in the queue.
-/

namespace Winspd.Proofs

open Winspd.Lib Winspd.Sys Winspd.Spec

variable {storResult : StorStatus} {disk : Disk} {a : Addr} {srb : Srb} {v : Item}
  {s : UnitSys} {q : Queue} {ls : List UnitEvent} {m m' : ScsiMem} {mem : ScsiMem}
  {ioq ioq' ioqMem : SpdIoq} {calls : List IoqCall}

/-! ## What an abort is for -/

/-- The SRB asks to abort `v`. -/
structure AbortOf (srb : Srb) (v : Item) : Prop where
  function : srb.function = srbFunctionAbortCommand
  next : srbGetNextSrb srb = v.srb

/-- The victim `v` left the queue and was completed as aborted, once; so was the
abort `a`, with some status; and every other SRB is where it was. -/
structure Aborted (ioq : SpdIoq) (a : Addr) (v : Item) (m' : ScsiMem) (ioq' : SpdIoq)
    (calls : List IoqCall) : Prop where
  victim : calls.filter (completedSrb · = some v.srb) = [.srbComplete v.srb srbStatusAborted]
  own : (calls.filterMap completedSrb).count a = 1
  spells : ∃ pending process chains, Spells ioq pending process chains ∧
    Spells ioq' (pending.erase v.ext) (process.erase v.ext)
      (Function.update chains (ioq.bucket v.ext) ((chains (ioq.bucket v.ext)).erase v.ext))
  stale : ∀ rsp buf, rsp.hint = v.ext →
    spdIoqEndProcessingSrb (spdSrbExecuteScsiComplete rsp buf) ioq' m' rsp.hint =
      some (ioq', m', [])

/-- The abort `srb`, started at `a`, does what an abort is for. -/
def AbortOk (storResult : StorStatus) (disk : Disk) (s : UnitSys) (a : Addr) (srb : Srb)
    (v : Item) : Prop :=
  ∃ m' ioq' calls, spdHwStartIo storResult disk a (s.mem.setSrb a srb) s.ioq =
      some (m', ioq', calls) ∧
    Aborted s.ioq a v m' ioq' calls

/-! ## What the code does -/

theorem spdIoqCancelSrb_calls {e : Addr} {result : NtStatus}
    (h : spdIoqCancelSrb ioq a e = some (ioq', calls, result)) :
    ∀ c ∈ calls, completedSrb c = some a := by
  unfold spdIoqCancelSrb at h
  split at h
  · cases h
    intro c hc
    cases hc
  · simp only [Option.bind_eq_bind, Option.bind_eq_some_iff] at h
    obtain ⟨found, -, ⟨L, b⟩, -, h⟩ := h
    cases h
    intro c hc
    rw [List.mem_singleton.mp hc, completedSrb]

/-- Whatever the abort is for, what it completes is itself, and what it does to
the queue is nothing the queue represents. -/
theorem spdHwStartIo_abort (hr : Refines ioq q)
    (hfun : (m.srb a).function = srbFunctionAbortCommand)
    (hfresh : (m.srb a).miniportContext ∉ q.items.map Item.ext)
    (h : spdHwStartIo storResult disk a m ioq = some (m', ioq', calls)) :
    (∀ c ∈ calls, completedSrb c = some a) ∧ Refines ioq' q := by
  have hdispatch : startIoDispatch storResult disk a m ioq = spdSrbAbortCommand disk a m ioq := by
    rw [startIoDispatch]
    simp only [hfun, if_neg (show srbFunctionAbortCommand ≠ srbFunctionExecuteScsi by decide),
      if_true]
  unfold spdHwStartIo at h
  rw [hdispatch] at h
  simp only [Option.bind_eq_bind, Option.bind_eq_some_iff] at h
  obtain ⟨⟨status, m₁, ioq₁, calls₁⟩, habort, h⟩ := h
  have hcancelled : (∀ c ∈ calls₁, completedSrb c = some a) ∧ Refines ioq₁ q := by
    unfold spdSrbAbortCommand at habort
    split at habort
    · cases habort
      exact ⟨fun c hc => absurd hc List.not_mem_nil, hr⟩
    · simp only [Option.bind_eq_bind, Option.bind_eq_some_iff] at habort
      obtain ⟨⟨ioq₂, calls₂, result⟩, hcancel, habort⟩ := habort
      cases habort
      exact ⟨spdIoqCancelSrb_calls hcancel, spdIoqCancelSrb_notMem hr hfresh hcancel⟩
  simp only at h
  split at h
  · cases h
    exact hcancelled
  · cases h
    refine ⟨fun c hc => ?_, hcancelled.2⟩
    rcases List.mem_append.mp hc with hc | hc
    · exact hcancelled.1 c hc
    · rw [List.mem_singleton.mp hc, completedSrb]

/-- No abort does what it is for: in every reachable state, and for every SRB
that is queued, the victim stays queued and no completion is the victim's. -/
theorem spdSrbAbortCommand_victim (hrun : Run (UnitStep disk) (.create mem ioqMem) ls s)
    (hallowed : UnitOp.Allowed disk.unit.storageUnitParams s.live (.startIo a srb storResult))
    (hv : v ∈ s.live) (hsrb : AbortOf srb v) :
    ¬ AbortOk storResult disk s a srb v ∧
      ∀ m' ioq' calls, spdHwStartIo storResult disk a (s.mem.setSrb a srb) s.ioq =
          some (m', ioq', calls) →
        (∃ q, Refines ioq' q ∧ v ∈ q.items) ∧ ∀ c ∈ calls,
          completedSrb c ≠ some v.srb := by
  obtain ⟨q, hinv⟩ := unitRun_inv hrun
  have hself : (s.mem.setSrb a srb).srb a = srb := Function.update_self _ _ _
  have hfresh : ((s.mem.setSrb a srb).srb a).miniportContext ∉ q.items.map Item.ext := by
    rw [hself]
    intro hmem
    obtain ⟨j, hj, hje⟩ := List.mem_map.mp hmem
    exact (hallowed.2.2.1 j (hinv.good.items.mem_iff.mp hj)).2 hje
  have hne : ¬ a = v.srb := (hallowed.2.2.1 v hv).1.symm
  have hfun : ((s.mem.setSrb a srb).srb a).function = srbFunctionAbortCommand := by
    rw [hself, hsrb.function]
  have hspares : ∀ m' ioq' calls, spdHwStartIo storResult disk a (s.mem.setSrb a srb) s.ioq =
        some (m', ioq', calls) →
      (∃ q, Refines ioq' q ∧ v ∈ q.items) ∧ ∀ c ∈ calls,
        completedSrb c ≠ some v.srb := by
    intro m' ioq' calls hstart
    obtain ⟨hcalls, hr'⟩ := spdHwStartIo_abort hinv.good.refines hfun hfresh hstart
    refine ⟨⟨q, hr', hinv.good.items.mem_iff.mpr hv⟩, fun c hc hcv => hne ?_⟩
    rw [hcalls c hc, Option.some.injEq] at hcv
    exact hcv
  refine ⟨fun hok => ?_, hspares⟩
  obtain ⟨m', ioq', calls, hstart, hab⟩ := hok
  have hmem : IoqCall.srbComplete v.srb srbStatusAborted ∈
      calls.filter (completedSrb · = some v.srb) := by
    rw [hab.victim]
    exact List.mem_singleton_self _
  exact (hspares m' ioq' calls hstart).2 _ (List.mem_filter.mp hmem).1 rfl

/-! ## An abort of a read -/

/-- The abort of the SRB at `0x2000`. -/
def sampleAbort : Srb :=
  { sampleSrb (sampleCdb scsiopRead16 0 0 0 3) [] with
    function := srbFunctionAbortCommand
    miniportContext := 0x4000
    nextSrb := 0x2000 }

theorem sampleAbort_of : AbortOf sampleAbort ⟨0x1000, 0x2000⟩ := ⟨rfl, rfl⟩

theorem sampleAbort_allowed : UnitOp.Allowed sampleDisk.unit.storageUnitParams
    [⟨0x1000, 0x2000⟩] (.startIo 0x3000 sampleAbort .success) := by
  refine ⟨by decide, by decide, fun j hj => ?_, ?_, ?_, ?_⟩
  · rw [List.mem_singleton.mp hj]
    decide
  · intro data hdata
    cases hdata
    decide
  · exact fun _ _ => by simp [sampleAbort, sampleSrb]
  · intro data hdata
    cases hdata

/-- Memory in which every entry is linked to itself. -/
def selfLinkedIoq : SpdIoq := { zeroedIoq with listEntry := ⟨some, some⟩ }

/-- With its read posted, the abort is completed twice, and the read stays. -/
theorem spdSrbAbortCommand_itself :
    ∃ s, Run (UnitStep sampleDisk) (.create (sampleMem sampleRead) selfLinkedIoq)
        [⟨.startIo 0x2000 sampleRead .success, [], none⟩] s ∧
      s.live = [⟨0x1000, 0x2000⟩] ∧
      UnitOp.Allowed sampleDisk.unit.storageUnitParams s.live
        (.startIo 0x3000 sampleAbort .success) ∧
      AbortOf sampleAbort ⟨0x1000, 0x2000⟩ ∧
      (spdHwStartIo .success sampleDisk 0x3000 (s.mem.setSrb 0x3000 sampleAbort) s.ioq).map
          (fun r => r.2.2) =
        some [.srbComplete 0x3000 srbStatusAborted, .srbComplete 0x3000 srbStatusSuccess] ∧
      ¬ AbortOk .success sampleDisk s 0x3000 sampleAbort ⟨0x1000, 0x2000⟩ := by
  obtain ⟨r, hr, hcalls, habort⟩ : ∃ r,
      UnitOp.exec sampleDisk (sampleMem sampleRead) (spdIoqCreate selfLinkedIoq)
        (.startIo 0x2000 sampleRead .success) = some r ∧ r.2.2 = ([], none) ∧
      (spdHwStartIo .success sampleDisk 0x3000 (r.1.setSrb 0x3000 sampleAbort) r.2.1).map
          (fun r => r.2.2) =
        some [.srbComplete 0x3000 srbStatusAborted, .srbComplete 0x3000 srbStatusSuccess] :=
    ⟨_, rfl, rfl, rfl⟩
  obtain ⟨m, ioq, c, n⟩ := r
  cases hcalls
  refine ⟨⟨m, ioq, [⟨0x1000, 0x2000⟩]⟩, ?_, rfl, sampleAbort_allowed, sampleAbort_of,
    habort, ?_⟩
  · exact .single
      ⟨⟨by decide, by decide, fun j hj => (by cases hj), sampleRead_mapped⟩, hr, rfl⟩
  · rintro ⟨m', ioq', calls, hstart, hab⟩
    rw [hstart, Option.map_some, Option.some.injEq] at habort
    have hown := hab.own
    simp only at habort
    rw [habort] at hown
    exact absurd hown (by decide)

/-- The same in zeroed memory, where the machine follows a null link. -/
theorem spdSrbAbortCommand_victim_zeroed :
    ∃ s, Run (UnitStep sampleDisk) (.create (sampleMem sampleRead) zeroedIoq)
        [⟨.startIo 0x2000 sampleRead .success, [], none⟩] s ∧
      ¬ AbortOk .success sampleDisk s 0x3000 sampleAbort ⟨0x1000, 0x2000⟩ := by
  obtain ⟨r, hr, hcalls⟩ : ∃ r,
      UnitOp.exec sampleDisk (sampleMem sampleRead) (spdIoqCreate zeroedIoq)
        (.startIo 0x2000 sampleRead .success) = some r ∧ r.2.2 = ([], none) := ⟨_, rfl, rfl⟩
  obtain ⟨m, ioq, c, n⟩ := r
  cases hcalls
  have hrun : Run (UnitStep sampleDisk) (.create (sampleMem sampleRead) zeroedIoq)
      [⟨.startIo 0x2000 sampleRead .success, [], none⟩] ⟨m, ioq, [⟨0x1000, 0x2000⟩]⟩ :=
    .single ⟨⟨by decide, by decide, fun j hj => (by cases hj), sampleRead_mapped⟩, hr, rfl⟩
  exact ⟨_, hrun, (spdSrbAbortCommand_victim hrun sampleAbort_allowed
    (List.mem_singleton_self _) sampleAbort_of).1⟩

end Winspd.Proofs
