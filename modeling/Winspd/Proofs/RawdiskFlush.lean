import Winspd.Proofs.Flush
import Winspd.Proofs.RawdiskKept

/-!
# A SYNCHRONIZE CACHE of the raw disk

`synchronizeCache_flushed` says that the driver completes a SYNCHRONIZE CACHE when user
mode has answered a Flush. Here is what the raw disk does for it. Other threads may write
all the while, so what a byte is on the medium in the end is what it was in the view at
some time since the SRB was started (`rawdisk_synchronize_cache`). Nothing older is left.

`FlushViewOfFile` gets the length as a `UINT32`, which is the length of the range modulo
`2 ^ 32`, and of a length of zero it makes the rest of the file. So of the ranges that are
longer only a part is flushed (`flushedBytes`).
-/

namespace Winspd.Proofs

open Winspd.Lib Winspd.Sys Winspd.Shared Winspd.Spec Winspd.Rawdisk

variable {disk : Disk} {unit : StorageUnitParams} {rawDisk : RawDisk} {order : MemcpyOrder}
  {srb : Srb} {range : CdbRange} {i : Item} {w w' w₀ w₁ v : DiskWorld} {ev : DiskEvent}
  {ls ls₀ ls' : List DiskEvent} {a : Addr} {p j size : Nat} {byte : UInt8} {mem : ScsiMem}
  {ioqMem : SpdIoq} {file f f' : RawDiskFile} {r : Request} {x : FileEvent} {q : Queue}

/-! ## What was in the view -/

/-- The byte was in the view at some time of the run from `w₁` to `w`. -/
def Seen (disk : Disk) (rawDisk : RawDisk) (order : MemcpyOrder) (w₁ : DiskWorld)
    (ls : List DiskEvent) (w : DiskWorld) (p : Nat) (byte : UInt8) : Prop :=
  ∃ ls₁ ls₂ v, ls = ls₁ ++ ls₂ ∧ Run (DiskStep disk rawDisk order) w₁ ls₁ v ∧
    Run (DiskStep disk rawDisk order) v ls₂ w ∧ v.shared.file.view p = byte

theorem seen_now (hrun : Run (DiskStep disk rawDisk order) w₁ ls w) :
    Seen disk rawDisk order w₁ ls w p (w.shared.file.view p) :=
  ⟨ls, [], w, by simp, hrun, .nil, rfl⟩

theorem Seen.append (h : Seen disk rawDisk order w₁ ls w p byte)
    (hrun : Run (DiskStep disk rawDisk order) w ls' w') :
    Seen disk rawDisk order w₁ (ls ++ ls') w' p byte := by
  obtain ⟨ls₁, ls₂, v, rfl, hbefore, hafter, hview⟩ := h
  exact ⟨ls₁, ls₂ ++ ls', v, List.append_assoc _ _ _, hbefore, hafter.append hrun, hview⟩

/-- What is written back comes from the view, and what gets to the medium was written
back. -/
theorem FileChange.sources (h : FileChange f ev f') :
    (f'.written p = f.written p ∨ f'.written p = f.view p) ∧
      (f'.durable p = f.durable p ∨ f'.durable p = f.written p) := by
  cases h with
  | none file => rw [file]; exact ⟨.inl rfl, .inl rfl⟩
  | @exec act y c exec event =>
      cases act <;> cases c <;> simp only [FileAction.exec, reduceCtorEq] at exec
      case flushViewOfFile.succeeds offset length =>
        cases exec
        refine ⟨?_, .inl rfl⟩
        show (if Flushes offset length p then f.view p else f.written p) = _ ∨
          (if Flushes offset length p then f.view p else f.written p) = _
        split
        · exact .inr rfl
        · exact .inl rfl
      case flushFileBuffers.succeeds =>
        cases exec
        exact ⟨.inl rfl, .inr rfl⟩
      all_goals first
        | (cases exec; exact ⟨.inl rfl, .inl rfl⟩)
        | (split at exec <;> cases exec; exact ⟨.inl rfl, .inl rfl⟩)
  | @writeBack p' file =>
      rw [file]
      refine ⟨?_, .inl rfl⟩
      by_cases hp : p = p'
      · exact .inr (by rw [hp]; exact Function.update_self _ _ _)
      · exact .inl (Function.update_of_ne hp _ _)
  | @makeDurable p' file =>
      rw [file]
      refine ⟨.inl rfl, ?_⟩
      by_cases hp : p = p'
      · exact .inr (by rw [hp]; exact Function.update_self _ _ _)
      · exact .inl (Function.update_of_ne hp _ _)

/-- What was written back of the byte since `w₁`, it was in the view since then. -/
def WrittenSince (disk : Disk) (rawDisk : RawDisk) (order : MemcpyOrder) (w₁ : DiskWorld)
    (ls : List DiskEvent) (p : Nat) (w : DiskWorld) : Prop :=
  Run (DiskStep disk rawDisk order) w₁ ls w ∧
    Seen disk rawDisk order w₁ ls w p (w.shared.file.written p)

def DurableSince (disk : Disk) (rawDisk : RawDisk) (order : MemcpyOrder) (w₁ : DiskWorld)
    (ls : List DiskEvent) (p : Nat) (w : DiskWorld) : Prop :=
  WrittenSince disk rawDisk order w₁ ls p w ∧
    Seen disk rawDisk order w₁ ls w p (w.shared.file.durable p)

theorem WrittenSince.step (h : WrittenSince disk rawDisk order w₁ ls p w)
    (hstep : DiskStep disk rawDisk order w ev w') :
    WrittenSince disk rawDisk order w₁ (ls ++ [ev]) p w' := by
  obtain ⟨hrun, hseen⟩ := h
  refine ⟨hrun.snoc hstep, ?_⟩
  rcases hstep.fileChange.sources.1 with hwritten | hwritten
  · rw [hwritten]
    exact hseen.append (.single hstep)
  · rw [hwritten]
    exact (seen_now hrun).append (.single hstep)

theorem DurableSince.step (h : DurableSince disk rawDisk order w₁ ls p w)
    (hstep : DiskStep disk rawDisk order w ev w') :
    DurableSince disk rawDisk order w₁ (ls ++ [ev]) p w' := by
  obtain ⟨hwritten, hseen⟩ := h
  refine ⟨hwritten.step hstep, ?_⟩
  rcases hstep.fileChange.sources.2 with hdurable | hdurable
  · rw [hdurable]
    exact hseen.append (.single hstep)
  · rw [hdurable]
    exact hwritten.2.append (.single hstep)

theorem WrittenSince.run (h : WrittenSince disk rawDisk order w₁ ls p w)
    (hrun : Run (DiskStep disk rawDisk order) w ls' w') :
    WrittenSince disk rawDisk order w₁ (ls ++ ls') p w' := by
  induction hrun with
  | nil => rwa [List.append_nil]
  | snoc _ hstep ih =>
      rw [← List.append_assoc]
      exact ih.step hstep

theorem DurableSince.run (h : DurableSince disk rawDisk order w₁ ls p w)
    (hrun : Run (DiskStep disk rawDisk order) w ls' w') :
    DurableSince disk rawDisk order w₁ (ls ++ ls') p w' := by
  induction hrun with
  | nil => rwa [List.append_nil]
  | snoc _ hstep ih =>
      rw [← List.append_assoc]
      exact ih.step hstep

theorem FileAction.exec_durable {c : FileChoice} {flushed : Bool}
    (h : FileAction.flushFileBuffers.exec f c = some (f', flushed)) (hok : flushed = true) :
    f'.durable = f.written := by
  subst hok
  cases c <;> simp only [FileAction.exec, reduceCtorEq] at h <;> cases h
  rfl

theorem durableSince_of_flushed (hrun : Run (DiskStep disk rawDisk order) w₁ ls w)
    (hflushed : FlushedAfter p (fileEvents ls)) : DurableSince disk rawDisk order w₁ ls p w := by
  obtain ⟨offset, length, hp, hcalls⟩ := hflushed
  obtain ⟨before, after, heq, hview, hfile⟩ := List.cons_sublist_iff.mp hcalls
  obtain ⟨ls₁, ls₂, rfl, rfl, rfl⟩ := List.filterMap_eq_append_iff.mp heq
  obtain ⟨m, hrun₁, hrun₂⟩ := hrun.split
  obtain ⟨k₁, ev₁, k₂, v₁, v₁', c₁, rfl, hbefore₁, hstep₁, hafter₁, -,
      hexec₁⟩ :=
    run_fileEvent hrun₁ hview
  obtain ⟨k₃, ev₂, k₄, v₂, v₂', c₂, rfl, hbefore₂, hstep₂, hafter₂, -,
      hexec₂⟩ :=
    run_fileEvent hrun₂ (List.singleton_sublist.mp hfile)
  -- the view is flushed first
  have hwritten : WrittenSince disk rawDisk order w₁ (k₁ ++ [ev₁]) p v₁' := by
    refine ⟨hbefore₁.snoc hstep₁, ?_⟩
    have heq : v₁'.shared.file.written p = v₁.shared.file.view p :=
      (FileAction.exec_flushedView hexec₁ rfl hp
        (show InView p (v₁.shared.file.view p) v₁.shared.file from ⟨rfl⟩)).written
    rw [heq]
    exact (seen_now hbefore₁).append (.single hstep₁)
  have hsince := (hwritten.run hafter₁).run hbefore₂
  have hdurable :
      DurableSince disk rawDisk order w₁ (((k₁ ++ [ev₁]) ++ k₂ ++ k₃) ++ [ev₂])
        p v₂' := by
    refine ⟨hsince.step hstep₂, ?_⟩
    rw [FileAction.exec_durable hexec₂ rfl]
    exact hsince.2.append (.single hstep₂)
  have hall := hdurable.run hafter₂
  simpa using hall

/-! ## The account -/

/-- The SRB is queued, and the requests that threads have of it are flushes of its
range. -/
structure SyncAccount (unit : StorageUnitParams) (range : CdbRange) (i : Item)
    (events : List FileEvent) (s : UnitSys) (gs : List DiskServing) : Prop where
  syncing : ∃ q, Synchronizing unit range i s q
  held : ∀ g ∈ gs, ∀ r, g.request = some r → r.1.hint = i.ext →
    r.1.op = .flush range.blockAddress range.blockCount ∧ g.events.Sublist events

abbrev DiskSync (unit : StorageUnitParams) (range : CdbRange) (i : Item) (ls : List DiskEvent)
    (w : DiskWorld) : Prop :=
  SyncAccount unit range i (fileEvents ls) w.shared.unit w.accounts

theorem SyncStep.handed_op {uev : UnitEvent} {q' : Queue} (h : SyncStep range i q uev q')
    (hr : uev.requestFor i.ext = some r) :
    r.1.op = .flush range.blockAddress range.blockCount := by
  cases h with
  | kept _ requestFor => simp [requestFor] at hr
  | handed _ requestFor =>
      rw [requestFor, Option.some.injEq] at hr
      rw [← hr]

section Account

variable {events events' : List FileEvent} {u u' : UnitSys}
  {g : DiskServing} {gs gs' : List DiskServing} {uev : UnitEvent} {op : UnitOp}

theorem SyncAccount.threads (h : SyncAccount unit range i events u gs)
    (hheld : ∀ g' ∈ gs', ∀ r, g'.request = some r → ∃ g ∈ gs, g.request = some r ∧
      (g.events.Sublist events → g'.events.Sublist events')) :
    SyncAccount unit range i events' u gs' := by
  refine ⟨h.syncing, fun g' hg' r hr he => ?_⟩
  obtain ⟨g, hg, hgr, hevents⟩ := hheld g' hg' r hr
  exact (h.held g hg r hgr he).imp_right hevents

theorem SyncAccount.onUnit (hu : UnitOk disk.unit.storageUnitParams)
    (h : SyncAccount disk.unit.storageUnitParams range i events u (g :: gs))
    (hop : uev.op = op) (hstep : UnitStep disk u uev u') (hlive : i.srb ∉ uev.completed) :
    SyncAccount disk.unit.storageUnitParams range i events u'
       (DiskThreads.track (.unit op) uev g :: gs) := by
  obtain ⟨q, hsync⟩ := h.syncing
  rcases hsync.step hu hstep with ⟨-, q', hsync', hsyncStep⟩ | ⟨hdone, -⟩
  · refine ⟨⟨q', hsync'⟩, fun g' hg' r hr he => ?_⟩
    rcases List.mem_cons.mp hg' with rfl | hg'
    · cases op with
      | transactReq buf =>
          have hrequest := requestFor_eq_some.mpr ⟨hr, he⟩
          exact ⟨hsyncStep.handed_op hrequest, List.nil_sublist _⟩
      | transactRsp rsp buf => cases hr
      | _ => exact h.held g List.mem_cons_self r hr he
    · exact h.held g' (List.mem_cons_of_mem _ hg') r hr he
  · exact absurd hdone hlive

end Account

theorem DiskSync.step (hw : DiskVerified disk rawDisk w)
    (h : DiskSync disk.unit.storageUnitParams range i ls w)
    (hstep : DiskStep disk rawDisk order w ev w')
    (hlive : ∀ uev, unitEventOf ev = some uev → i.srb ∉ uev.completed) :
    DiskSync disk.unit.storageUnitParams range i (ls ++ [ev]) w' := by
  cases ev with
  | enter =>
      obtain ⟨hstep, -⟩ := hstep
      cases hstep with
      | enter =>
          rw [DiskSync, fileEvents_quiet rfl]
          refine h.threads fun g' hg' r hr => ?_
          rcases List.mem_cons.mp hg' with rfl | hg'
          · cases hr
          · exact ⟨g', hg', hr, id⟩
  | leave =>
      obtain ⟨hstep, -⟩ := hstep
      cases hstep with
      | leave =>
          rw [DiskSync, fileEvents_quiet rfl]
          refine h.threads fun g' hg' r hr => ⟨g', ?_, hr, id⟩
          exact Threads.accounts_middle.mem_iff.mpr (List.mem_cons_of_mem _ hg')
  | act act x =>
      obtain ⟨g, gs, hperm, hinv, hmay, ⟨choice, hexec⟩, hperm'⟩ := hw.acting hstep
      have hhead :
          SyncAccount disk.unit.storageUnitParams range i (fileEvents ls) w.shared.unit (g :: gs) :=
        ⟨h.syncing, fun g' hg' => h.held g' (hperm.mem_iff.mpr hg')⟩
      have hback : ∀ {events u}, SyncAccount disk.unit.storageUnitParams range i events u
          (DiskThreads.track act x g :: gs) →
          SyncAccount disk.unit.storageUnitParams range i events u w'.accounts :=
        fun h => ⟨h.syncing, fun g' hg' => h.held g' (hperm'.mem_iff.mp hg')⟩
      refine hback ?_
      cases act with
      | unit op =>
          obtain ⟨hop, hunit, -⟩ := DiskSys.unitStep hmay hstep.promised hexec
          rw [fileEvents_quiet rfl]
          exact hhead.onUnit hinv.backed.unitOk hop hunit (hlive x rfl)
      | file act =>
          have hunit := (DiskSys.other_unit (fun op heq => by cases heq) hexec).1
          have hevents :
              fileEvents (ls ++ [.act (.file act) x]) = fileEvents ls ++ [⟨act, x⟩] :=
            fileEvents_snoc
          rw [hevents, hunit]
          refine hhead.threads fun g' hg' r hr => ?_
          rcases List.mem_cons.mp hg' with rfl | hg'
          · exact ⟨g, List.mem_cons_self, hr, fun hsub => hsub.append (.refl _)⟩
          · exact ⟨g', List.mem_cons_of_mem _ hg', hr,
              fun hsub => hsub.trans (List.sublist_append_left _ _)⟩
      | _ =>
          have hunit := (DiskSys.other_unit (fun op heq => by cases heq) hexec).1
          rw [fileEvents_quiet rfl, hunit]
          exact hhead

theorem DiskSync.run (hw : DiskVerified disk rawDisk w₁)
    (h : DiskSync disk.unit.storageUnitParams range i [] w₁)
    (hrun : Run (DiskStep disk rawDisk order) w₁ ls w)
    (hlive : ∀ uev ∈ unitEvents ls, i.srb ∉ uev.completed) :
    DiskSync disk.unit.storageUnitParams range i ls w := by
  refine hrun.history (I := fun ls w => (∀ uev ∈ unitEvents ls, i.srb ∉ uev.completed) →
    DiskSync disk.unit.storageUnitParams range i ls w) (fun _ => h) ?_ hlive
  intro ls w ev w' hrun ih hstep hlive
  rw [unitEvents_snoc, List.forall_mem_append] at hlive
  exact (ih hlive.1).step (diskRun_verified hw hrun) hstep fun uev huev =>
    hlive.2 uev (by rw [huev]; exact List.mem_singleton_self _)

/-! ## What is flushed -/

/-- As many bytes of the range as `FlushViewOfFile` makes. -/
def flushedBytes (unit : StorageUnitParams) (range : CdbRange) : Nat :=
  if transferBytes unit range % 2 ^ 32 = 0 then transferBytes unit range
  else transferBytes unit range % 2 ^ 32

theorem Backed.flushes (hb : Backed unit rawDisk size)
    (hunit : InUnit unit range.blockAddress range.blockCount) (hj : j < flushedBytes unit range) :
    Flushes (rawDisk.fileBuffer range.blockAddress) (range.blockCount * rawDisk.blockLength)
      (firstByte unit range + j) := by
  have hstart := hb.toNat_fileBuffer ((Nat.le_add_right _ _).trans hunit)
  have hlength : (range.blockCount * rawDisk.blockLength).toNat =
      transferBytes unit range % 2 ^ 32 := by
    rw [hb.blockLength, UInt32.toNat_mul, transferBytes]
  rw [flushedBytes] at hj
  rw [Flushes, hstart, hlength, ← UInt32.toNat_inj, hlength]
  refine ⟨Nat.le_add_right _ _, ?_⟩
  split at hj
  · next hzero => exact .inl hzero
  · exact .inr (Nat.add_lt_add_left hj _)

/-- When a SYNCHRONIZE CACHE is completed, what is on the medium of its range is what was
in the file at some time while it was carried out. -/
theorem rawdisk_synchronize_cache (hb : Backed disk.unit.storageUnitParams rawDisk file.size)
    (hrun : Run (DiskStep disk rawDisk order) (.start mem ioqMem file) ls₀ w₀)
    (hc : CarriedOut disk rawDisk order a srb w₀ w₁ ls w w')
    (hop : scsiOp srb.cdb = .synchronizeCache) (hrange : spdCdbGetRange srb.cdb = some range) :
    ∀ j < flushedBytes disk.unit.storageUnitParams range, ∃ ls₁ ls₂ v,
      ls = ls₁ ++ ls₂ ∧
      Run (DiskStep disk rawDisk order) w₁ ls₁ v ∧
      Run (DiskStep disk rawDisk order) v ls₂ w ∧
      w'.shared.file.durable (firstByte disk.unit.storageUnitParams range + j) =
        v.shared.file.view (firstByte disk.unit.storageUnitParams range + j) := by
  have hw₀ := reached_verified hb hrun
  obtain ⟨hw₁, hw, -⟩ := hc.verified hw₀
  have hu := hb.unitOk
  -- it was posted
  have hstarted :
      DiskSync disk.unit.storageUnitParams range ⟨srb.miniportContext, a⟩ [] w₁ := by
    obtain ⟨storResult, uev, hposted, hstart⟩ := hc.start
    obtain ⟨g, gs, hperm, hinv, hmay, ⟨choice, hexec⟩, hperm'⟩ := hw₀.acting hstart
    obtain ⟨hop', hunit, -⟩ := DiskSys.unitStep hmay hstart.promised hexec
    obtain ⟨q, hdriver⟩ := hinv.driver
    obtain ⟨q₁, hposted, -⟩ := synchronizing_posted hdriver hunit hop' hposted hop hrange
    refine ⟨⟨q₁, hposted⟩, fun g' hg' r hr he => ?_⟩
    have hmem : g' ∈ g :: gs := hperm'.mem_iff.mp hg'
    exact absurd ⟨r, hr, he⟩ (hc.fresh g' (hperm.mem_iff.mpr hmem))
  have hsync := hstarted.run hw₁ hc.run hc.live
  -- and answered by a thread that has flushed
  obtain ⟨op, uev, hsuccess, hdone⟩ := hc.done
  obtain ⟨g, gs, hperm, hinv, hmay, ⟨choice, hexec⟩, -⟩ := hw.acting hdone
  obtain ⟨hop', hunit, hfile⟩ := DiskSys.unitStep hmay hdone.promised hexec
  obtain ⟨q, hsyncing⟩ := hsync.syncing
  rcases hsyncing.step hu hunit with ⟨hno, -⟩ | ⟨-, hflushed⟩
  · exact absurd (mem_completed hsuccess) hno
  obtain ⟨-, rsp, dataBuffer, hrsp, hhint, hgood⟩ := hflushed _ hsuccess (by decide)
  rw [hop'] at hrsp
  subst hrsp
  obtain ⟨buf, rfl, -, r, hr, hrhint, hserved⟩ := hmay
  have hg : g ∈ w.accounts := hperm.mem_iff.mpr List.mem_cons_self
  obtain ⟨hflush, hevents⟩ := hsync.held g hg r hr (hrhint.symm.trans hhint)
  have hallowed := (hinv.requests g List.mem_cons_self r hr).allowed
  have hfulfilled := hserved hgood
  rw [Fulfilled, hflush] at hfulfilled
  rw [AllowedRequest, hflush] at hallowed
  intro j hj
  have hafter : FlushedAfter (firstByte disk.unit.storageUnitParams range + j) (fileEvents ls) := by
    refine ⟨_, _, hinv.backed.flushes hallowed.2.2 hj, ?_⟩
    have heq : g.events = flushed rawDisk range.blockAddress range.blockCount := hfulfilled
    rwa [heq] at hevents
  obtain ⟨-, ls₁, ls₂, v, hls, hbefore, hrest, hview⟩ :=
    durableSince_of_flushed hc.run hafter
  exact ⟨ls₁, ls₂, v, hls, hbefore, hrest, by rw [hview, ← hfile]⟩

/-- Eight blocks are flushed. -/
theorem rawdisk_synchronize_cache_blocks : ∃ w₀ w₁ ls w w',
    CarriedOut sampleDisk sampleRawDisk .forward 0x2000 (sampleSync 8) w₀ w₁ ls w w' ∧
      ∀ j < 128, ∃ ls₁ ls₂ v, ls = ls₁ ++ ls₂ ∧ Run SampleStep w₁ ls₁ v ∧
        Run SampleStep v ls₂ w ∧
        w'.shared.file.durable (0 + j) = v.shared.file.view (0 + j) := by
  have h : ((sampleCarry (sampleSync 8) ⟨.create (sampleMem (sampleSync 8)) zeroedIoq,
      sampleFile⟩
      [dispatcherThread] (sampleTurns 1 .runs ++ sampleTurns 1 (.ends 0) ++ sampleTurns 1 .runs ++
        sampleTurns 2 (.file .succeeds) ++ sampleTurns 1 (.ends 0))).map fun _ => ()) =
      some () := by rfl
  obtain ⟨⟨w₁, ls, w, ev, w'⟩, hcarry, -⟩ := Option.map_eq_some_iff.mp h
  have hc := sampleCarry_carried hcarry
    ⟨by decide, by decide, fun j hj => (by cases hj), sampleSync_mapped 8⟩
  have hrun :
      Run SampleStep (.start (sampleMem (sampleSync 8)) zeroedIoq sampleFile) [.enter, .enter]
      ⟨_, [startThread (sampleSync 8), dispatcherThread]⟩ :=
    .cons ⟨.enter (.dispatcher 3 false _ rfl), trivial⟩
      (.single ⟨.enter startThread_entry, trivial⟩)
  have hrange : spdCdbGetRange (sampleSync 8).cdb = some ⟨0, 8, false⟩ := by decide
  exact ⟨_, w₁, ls, w, w', hc,
    rawdisk_synchronize_cache sampleFile_backed hrun hc (by decide) hrange⟩

end Winspd.Proofs
