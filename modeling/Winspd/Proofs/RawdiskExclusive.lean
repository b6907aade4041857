import Winspd.Proofs.RawdiskKept

/-!
# One thread for each request

StorPort can take an SRB back, and the thread that has a request of it is not told. As
long as it takes none back, the requests that threads have are requests the driver is
waiting for, and no two threads have one of the same SRB (`rawdisk_exclusive`). So every
answer is taken in, for the SRB it is meant for, and no thread has a request with the
hint of an SRB that StorPort is going to start, which is what `CarriedOut` asks for.
-/

namespace Winspd.Proofs

open Winspd.Lib Winspd.Sys Winspd.Shared Winspd.Spec Winspd.Rawdisk

variable {disk : Disk} {rawDisk : RawDisk} {order : MemcpyOrder} {s s' : DiskSys}
  {w w' w₀ w₁ : DiskWorld} {ev : DiskEvent} {ls ls₀ : List DiskEvent} {g : DiskServing}
  {gs gs' : List DiskServing} {op : UnitOp} {uev : UnitEvent} {r : Request}
  {q q' : Queue} {a : Addr}
  {srb : Srb} {mem : ScsiMem} {ioqMem : SpdIoq} {file : RawDiskFile}

def UnitOp.TakesNone (op : UnitOp) : Prop := ∀ done, op.MayTake done → done = []

/-- The hints of the requests that threads have. -/
def hints (gs : List DiskServing) : List Addr :=
  (gs.filterMap DiskServing.request).map fun r => r.1.hint

theorem mem_hints {e : Addr} : e ∈ hints gs ↔ ∃ g ∈ gs, HoldsHint e g := by
  simp only [hints, List.mem_map, List.mem_filterMap, HoldsHint]
  constructor
  · rintro ⟨r, ⟨g, hg, hr⟩, he⟩
    exact ⟨g, hg, r, hr, he⟩
  · rintro ⟨g, hg, r, hr, he⟩
    exact ⟨r, ⟨g, hg, hr⟩, he⟩

theorem hints_none {events : List FileEvent} : hints (⟨none, events⟩ :: gs) = hints gs := rfl

theorem hints_some {events : List FileEvent} :
    hints (⟨some r, events⟩ :: gs) = r.1.hint :: hints gs := rfl

theorem hints_tail : (hints gs).Sublist (hints (g :: gs)) := by
  obtain ⟨request, events⟩ := g
  cases request with
  | none => exact .refl _
  | some r => exact List.sublist_cons_self _ _

/-- The requests that threads have are requests of different SRBs, that user mode has. -/
structure ExclusiveRequests (unit : StorageUnitParams) (s : DiskSys) (gs : List DiskServing)
    (q : Queue) :
    Prop where
  driver : UnitInv unit s.unit q
  nodup : (hints gs).Nodup
  process : hints gs ⊆ q.process.map Item.ext

theorem ExclusiveRequests.perm {unit : StorageUnitParams} (hperm : gs.Perm gs')
    (h : ExclusiveRequests unit s gs q) : ExclusiveRequests unit s gs' q := by
  have hhints : (hints gs).Perm (hints gs') := (hperm.filterMap _).map _
  exact ⟨h.driver, hhints.nodup_iff.mp h.nodup, List.Subset.trans hhints.symm.subset h.process⟩

theorem ExclusiveRequests.keep {unit : StorageUnitParams} (h : ExclusiveRequests unit s gs q)
    (hdriver : UnitInv unit s'.unit q') (hsub : (hints gs').Sublist (hints gs))
    (hprocess : q.process ⊆ q'.process) : ExclusiveRequests unit s' gs' q' :=
  ⟨hdriver, hsub.nodup h.nodup,
    List.Subset.trans hsub.subset (List.Subset.trans h.process (List.map_subset _ hprocess))⟩

theorem track_hints (hhanded : uev.handed = none) :
    (hints (DiskThreads.track (.unit op) uev g :: gs)).Sublist (hints (g :: gs)) := by
  cases op with
  | transactReq buf =>
      show (hints (⟨uev.handed, []⟩ :: gs)).Sublist _
      rw [hhanded, hints_none]
      exact hints_tail
  | transactRsp rsp buf =>
      show (hints (⟨none, []⟩ :: gs)).Sublist _
      rw [hints_none]
      exact hints_tail
  | _ => exact .refl _

/-- An answer takes the SRB of the thread out of those user mode has. -/
theorem ExclusiveRequests.respond {i : Item} {events : List FileEvent}
    {unit : StorageUnitParams} (h : ExclusiveRequests unit s (⟨some r, events⟩ :: gs) q)
    (hdriver : UnitInv unit s'.unit q') (hhint : i.ext = r.1.hint)
    (hprocess : q'.process = q.process.erase i) :
      ExclusiveRequests unit s' (⟨none, []⟩ :: gs) q' := by
  have hnodup := h.nodup
  have hsub := h.process
  rw [hints_some] at hnodup hsub
  rw [List.nodup_cons] at hnodup
  refine ⟨hdriver, hnodup.2, fun e he => ?_⟩
  rw [hints_none] at he
  obtain ⟨j, hj, rfl⟩ := List.mem_map.mp (hsub (List.mem_cons_of_mem _ he))
  rw [hprocess]
  refine List.mem_map_of_mem ((List.mem_erase_of_ne ?_).mpr hj)
  rintro rfl
  rw [hhint] at he
  exact hnodup.1 he

/-- A thread that has none is handed a request, of an SRB that was pending. -/
theorem ExclusiveRequests.hand {i : Item} {unit : StorageUnitParams}
    (h : ExclusiveRequests unit s (g :: gs) q) (hdriver : UnitInv unit s'.unit q')
    (hhint : r.1.hint = i.ext) (hpending : q.pending = i :: q'.pending)
    (hprocess : q'.process = q.process ++ [i]) :
      ExclusiveRequests unit s' (⟨some r, []⟩ :: gs) q' := by
  have hnodup := hints_tail.nodup h.nodup
  have hsub := List.Subset.trans hints_tail.subset h.process
  have hitems := h.driver.good.refines.wf.nodup
  rw [Queue.items, hpending, List.cons_append, List.map_cons, List.nodup_cons] at hitems
  rw [List.map_append] at hitems
  refine ⟨hdriver, ?_, ?_⟩
  · rw [hints_some, List.nodup_cons, hhint]
    exact ⟨fun hmem => hitems.1 (List.mem_append_right _ (hsub hmem)), hnodup⟩
  · rw [hints_some, hprocess, List.map_append]
    refine List.cons_subset.mpr ⟨?_, List.Subset.trans hsub (List.subset_append_left _ _)⟩
    rw [hhint]
    exact List.mem_append_right _ (List.mem_singleton_self _)

theorem track_hints_other {act : DiskAction} {y : act.Answer} (hop : ∀ op, act ≠ .unit op) :
    hints (DiskThreads.track act y g :: gs) = hints (g :: gs) := by
  cases act with
  | unit op => exact absurd rfl (hop op)
  | _ => rfl

theorem ExclusiveRequests.onUnit (hu : UnitOk disk.unit.storageUnitParams)
    (h : ExclusiveRequests disk.unit.storageUnitParams s (g :: gs) q)
    (hmay : DiskThreads.May disk.unit.storageUnitParams rawDisk g (.unit op)) (hop : uev.op = op)
    (hstep : UnitStep disk s.unit uev s'.unit) (hnone : op.TakesNone) :
    ∃ q', ExclusiveRequests disk.unit.storageUnitParams s'
      (DiskThreads.track (.unit op) uev g :: gs) q' := by
  obtain ⟨q', hdriver, hc⟩ := h.driver.step hstep
  subst hop
  cases hc with
  | posted _ _ handed _ _ _ _ process =>
      exact ⟨q', h.keep hdriver (track_hints handed)
        (by rw [process]; exact List.Subset.refl _)⟩
  | @settled done own handed _ _ _ removed takes =>
      have hdone := hnone done takes
      subst hdone
      exact ⟨q', h.keep hdriver (track_hints handed) fun i hi =>
        removed.mem_process h.driver.good.refines.wf hi List.not_mem_nil⟩
  | @handed buf i t op calls handed prepare mem pending process =>
      have hi : i ∈ q.items := by
        rw [Queue.items, pending]
        exact List.mem_cons_self
      have hallowed := hstep.allowed
      rw [op] at hallowed ⊢
      obtain ⟨dataLength, ht⟩ := h.driver.transfers i hi
      obtain ⟨t', hprep, hhint, -⟩ := ht.prepare hu hallowed
      rw [prepare, Option.some.injEq] at hprep
      subst hprep
      show ∃ q', ExclusiveRequests _ s' (⟨uev.handed, []⟩ :: gs) q'
      rw [handed]
      exact ⟨q', h.hand hdriver hhint pending process⟩
  | @reposted rsp buf i op calls handed hint mem_process complete pending process =>
      rw [op] at hmay ⊢
      obtain ⟨buf', rfl, -, r, hr, hhint, -⟩ := hmay
      obtain ⟨request, events⟩ := g
      dsimp only at hr
      subst hr
      exact ⟨q', h.respond hdriver (hint.trans hhint) process⟩
  | @finished rsp buf i status op calls handed hint mem_process complete status_ne
      pending process =>
      rw [op] at hmay ⊢
      obtain ⟨buf', rfl, -, r, hr, hhint, -⟩ := hmay
      obtain ⟨request, events⟩ := g
      dsimp only at hr
      subst hr
      exact ⟨q', h.respond hdriver (hint.trans hhint) process⟩

/-! ## Along a run -/

theorem DiskVerified.exclusive (hw : DiskVerified disk rawDisk w)
    (h : ExclusiveRequests disk.unit.storageUnitParams w.shared w.accounts q)
    (hstep : DiskStep disk rawDisk order w ev w')
    (hnone : ∀ uev, unitEventOf ev = some uev → uev.op.TakesNone) :
    ∃ q', ExclusiveRequests disk.unit.storageUnitParams w'.shared w'.accounts q' := by
  cases ev with
  | enter =>
      obtain ⟨hstep, -⟩ := hstep
      cases hstep with
      | enter => exact ⟨q, h.driver, h.nodup, h.process⟩
  | leave =>
      obtain ⟨hstep, -⟩ := hstep
      cases hstep with
      | leave =>
          have hhead := h.perm Threads.accounts_middle
          exact ⟨q, hhead.keep hhead.driver hints_tail (List.Subset.refl _)⟩
  | act act y =>
      obtain ⟨g, gs, hperm, -, hmay, ⟨choice, hexec⟩, hperm'⟩ := hw.acting hstep
      have hhead := h.perm hperm
      by_cases hop : ∃ op, act = .unit op
      · obtain ⟨op, rfl⟩ := hop
        obtain ⟨hop, hunit, -⟩ := DiskSys.unitStep hmay hstep.promised hexec
        obtain ⟨q', hexclusive⟩ := hhead.onUnit hw.inv.backed.unitOk hmay hop hunit
          (hop ▸ hnone y rfl)
        exact ⟨q', hexclusive.perm hperm'.symm⟩
      · have hother : ∀ op, act ≠ .unit op := fun op heq => hop ⟨op, heq⟩
        have hdriver : UnitInv disk.unit.storageUnitParams w'.shared.unit q := by
          rw [(DiskSys.other_unit hother hexec).1]
          exact h.driver
        have hsame : ExclusiveRequests disk.unit.storageUnitParams w'.shared
            (DiskThreads.track act y g :: gs) q :=
          hhead.keep hdriver (by rw [track_hints_other hother]) (List.Subset.refl _)
        exact ⟨q, hsame.perm hperm'.symm⟩

theorem exclusive_run (hb : Backed disk.unit.storageUnitParams rawDisk file.size)
    (hrun : Run (DiskStep disk rawDisk order) (.start mem ioqMem file) ls w)
    (hnone : ∀ uev ∈ unitEvents ls, uev.op.TakesNone) :
    ∃ q, ExclusiveRequests disk.unit.storageUnitParams w.shared w.accounts q := by
  have hw : DiskVerified disk rawDisk (.start mem ioqMem file) := diskVerified_start hb
  refine hrun.history (I := fun ls w => (∀ uev ∈ unitEvents ls, uev.op.TakesNone) →
    ∃ q, ExclusiveRequests disk.unit.storageUnitParams w.shared w.accounts q)
      (fun _ => ?_) ?_ hnone
  · exact ⟨_, unitInv_create, List.nodup_nil, List.nil_subset _⟩
  · intro ls w ev w' hrun ih hstep hnone
    rw [unitEvents_snoc, List.forall_mem_append] at hnone
    obtain ⟨q, h⟩ := ih hnone.1
    exact (diskRun_verified hw hrun).exclusive h hstep fun uev huev =>
      hnone.2 uev (by rw [huev]; exact List.mem_singleton_self _)

/-- As long as no SRB is taken back, no two threads have a request of the same SRB, the
SRB is owed, and no thread has a request of an SRB that may be started. -/
theorem rawdisk_exclusive (hb : Backed disk.unit.storageUnitParams rawDisk file.size)
    (hrun : Run (DiskStep disk rawDisk order) (.start mem ioqMem file) ls w)
    (hnone : ∀ uev ∈ unitEvents ls, uev.op.TakesNone) :
    ((held w).map fun r => r.1.hint).Nodup ∧
      (∀ r ∈ held w, ∃ i ∈ w.shared.unit.live, i.ext = r.1.hint) ∧
      ∀ a srb storResult, UnitOp.Allowed disk.unit.storageUnitParams w.shared.unit.live
        (.startIo a srb storResult) → ∀ g ∈ w.accounts,
          ¬ HoldsHint srb.miniportContext g := by
  obtain ⟨q, h⟩ := exclusive_run hb hrun hnone
  have howed : ∀ e ∈ hints w.accounts, ∃ i ∈ w.shared.unit.live, i.ext = e := by
    intro e he
    obtain ⟨i, hi, hhint⟩ := List.mem_map.mp (h.process he)
    exact ⟨i, h.driver.good.items.subset (List.mem_append_right _ hi), hhint⟩
  refine ⟨h.nodup, fun r hr => howed _ (List.mem_map_of_mem hr),
    fun a srb storResult hallowed g hg hholds => ?_⟩
  obtain ⟨i, hi, hhint⟩ := howed _ (mem_hints.mpr ⟨g, hg, hholds⟩)
  exact (hallowed.2.2.1 i hi).2 hhint

theorem takesNone_of_transacts (h : op.Transacts) : op.TakesNone := by
  cases op with
  | transactReq buf => exact fun done hdone => hdone
  | transactRsp rsp buf => exact fun done hdone => hdone
  | _ => exact h.elim

instance : (op : UnitOp) → Decidable op.Transacts
  | .transactReq _ => .isTrue trivial
  | .transactRsp _ _ => .isTrue trivial
  | .startIo _ _ _ => .isFalse id
  | .cancel _ => .isFalse id
  | .reset _ => .isFalse id

/-- While the block is written, the thread has its request. -/
theorem rawdisk_exclusive_block : ∃ ls w, Run SampleStep
    (.start (sampleMem sampleForcedWrite) zeroedIoq sampleFile) ls w ∧
      (held w).map (fun r => r.1.hint) = [0x1000] ∧
      ((held w).map fun r => r.1.hint).Nodup ∧
      (∀ r ∈ held w, ∃ i ∈ w.shared.unit.live, i.ext = r.1.hint) ∧
      ∀ a srb storResult, UnitOp.Allowed sampleDisk.unit.storageUnitParams w.shared.unit.live
        (.startIo a srb storResult) → ∀ g ∈ w.accounts,
          ¬ HoldsHint srb.miniportContext g := by
  have h : (sampleWritten.map fun x => ((held x.2.2.1).map (fun r => r.1.hint),
      (unitEvents x.2.1).map fun uev => decide uev.op.Transacts)) = some ([0x1000], [true]) := by
    rfl
  obtain ⟨⟨w₁, ls, w₂, ev, w₃⟩, hx, heq⟩ := Option.map_eq_some_iff.mp h
  rw [Prod.mk.injEq] at heq
  have hc := sampleWritten_carried hx
  obtain ⟨storResult, uev, -, hstart⟩ := hc.start
  have hrun := sampleWorld_run.append (.cons hstart hc.run)
  refine ⟨_, w₂, hrun, heq.1, rawdisk_exclusive sampleFile_backed hrun fun uev' huev' => ?_⟩
  rcases List.mem_cons.mp (show uev' ∈ uev :: unitEvents ls from huev') with rfl | huev'
  · obtain ⟨g, gs, -, -, hmay, ⟨choice, hexec⟩, -⟩ :=
      (reached_verified sampleFile_backed sampleWorld_run).acting hstart
    obtain ⟨hop, -⟩ := DiskSys.unitStep hmay hstart.promised hexec
    rw [hop]
    exact fun done hdone => hdone.resolve_left (by unfold ResetsQueue; decide)
  · have hmem := List.mem_map_of_mem (f := fun uev : UnitEvent => decide uev.op.Transacts) huev'
    rw [heq.2, List.mem_singleton] at hmem
    exact takesNone_of_transacts (of_decide_eq_true hmem)

end Winspd.Proofs
