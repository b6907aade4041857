import Winspd.Proofs.Chunks
import Winspd.Proofs.RawdiskThreads

/-!
# Runs of the driver and the raw disk

A step of the system is a step of a thread, and StorPort keeps its promises. Every
step that is about the unit is a step of `UnitStep` (`DiskSys.unitStep`), so the
invariants of its runs hold, and what the driver hands out is allowed.
-/

namespace Winspd.Proofs

open Winspd.Lib Winspd.Sys Winspd.Shared Winspd.Spec Winspd.Rawdisk

abbrev DiskWorld := Threads DiskAction DiskAction.Answer DiskSys DiskServing

abbrev DiskEvent := ThreadEvent DiskAction DiskAction.Answer

/-- What StorPort promises. The dispatcher threads promise nothing. -/
def Promised (unit : StorageUnitParams) (w : DiskWorld) : DiskEvent → Prop
  | .act (.unit op) _ => ¬ op.Transacts → op.Allowed unit w.shared.unit.live
  | _ => True

structure DiskStep (disk : Disk) (rawDisk : RawDisk) (order : MemcpyOrder) (w : DiskWorld)
    (ev : DiskEvent) (w' : DiskWorld) : Prop where
  step : Threads.Step (diskRules disk.unit.storageUnitParams rawDisk) (DiskAction.Exec disk)
    (DiskEntry disk.unit.storageUnitParams rawDisk order) w ev w'
  promised : Promised disk.unit.storageUnitParams w ev

def DiskWorld.start (mem : ScsiMem) (ioqMem : SpdIoq) (file : RawDiskFile) : DiskWorld :=
  ⟨⟨.create mem ioqMem, file⟩, []⟩

variable {disk : Disk} {rawDisk : RawDisk} {order : MemcpyOrder} {s s' : DiskSys}
  {w w' : DiskWorld} {ev : DiskEvent} {ls : List DiskEvent} {g : DiskServing}
  {gs : List DiskServing}
  {op : UnitOp} {uev : UnitEvent} {r : Request} {q q' : Queue}

/-! ## Steps of the unit -/

theorem UnitOp.exec_transact_lengths {unit : StorageUnitParams} {live : List Item}
    (hmay : DiskThreads.May unit rawDisk g (.unit op))
    (hop : ¬ op.Transacts → op.Allowed unit live) :
    op.Allowed unit live := by
  cases op with
  | transactReq buf => exact hmay.2
  | transactRsp rsp buf =>
      obtain ⟨buf', rfl, hlength, -⟩ := hmay
      exact fun data hdata => by
        cases hdata
        exact hlength
  | startIo a srb storResult => exact hop id
  | cancel i => exact hop id
  | reset stop => exact hop id

/-- An action on the unit is a step of the unit, and leaves the file. -/
theorem DiskSys.unitStep {choice : DiskChoice}
    (hmay : DiskThreads.May disk.unit.storageUnitParams rawDisk g (.unit op))
    (hop : ¬ op.Transacts → op.Allowed disk.unit.storageUnitParams s.unit.live)
    (hexec : DiskAction.exec disk s (.unit op) choice = some (s', uev)) :
    uev.op = op ∧ UnitStep disk s.unit uev s'.unit ∧ s'.file = s.file := by
  cases choice with
  | runs =>
      obtain ⟨x, hx, heq⟩ := Option.map_eq_some_iff.mp hexec
      cases heq
      exact ⟨rfl, ⟨UnitOp.exec_transact_lengths hmay hop, hx, rfl⟩, rfl⟩
  | file c => cases hexec
  | ends error => cases hexec

theorem copyUnmapDescriptors_length {m : ScsiMem} {ext : SrbExtension} {i n : Nat}
    {dataBuffer dataBuffer' : List UInt8}
    (h : copyUnmapDescriptors m ext i n dataBuffer = some dataBuffer') :
    dataBuffer'.length = dataBuffer.length := by
  induction n generalizing i dataBuffer with
  | zero =>
      cases h
      rfl
  | succ n ih =>
      simp only [copyUnmapDescriptors, Option.bind_eq_bind, Option.bind_eq_some_iff] at h
      obtain ⟨d, -, buf, hwrite, h⟩ := h
      rw [ih h, length_writeAt hwrite]

/-- `Prepare` fills a buffer, and it stays as long as it was. -/
theorem spdSrbExecuteScsiPrepare_length {e a : Addr} {t t' : Transact}
    (h : spdSrbExecuteScsiPrepare e a t = some t') :
    t'.dataBuffer.length = t.dataBuffer.length := by
  unfold spdSrbExecuteScsiPrepare at h
  simp only at h
  split at h
  · simp only [Option.bind_eq_bind, Option.bind_eq_some_iff] at h
    obtain ⟨range, -, h⟩ := h
    split at h
    · cases h
    · cases h
      rfl
  · simp only [Option.bind_eq_bind, Option.bind_eq_some_iff] at h
    obtain ⟨range, -, h⟩ := h
    split at h
    · cases h
    · simp only [Option.bind_eq_some_iff] at h
      obtain ⟨bytes, -, buf, hwrite, h⟩ := h
      cases h
      exact length_writeAt hwrite
  · simp only [Option.bind_eq_bind, Option.bind_eq_some_iff] at h
    obtain ⟨range, -, h⟩ := h
    cases h
    rfl
  · simp only [Option.bind_eq_bind, Option.bind_eq_some_iff] at h
    obtain ⟨buf, hcopy, h⟩ := h
    cases h
    exact copyUnmapDescriptors_length hcopy
  · cases h
    rfl

theorem UnitInv.handedOk {s s' : UnitSys}
    (hu : UnitOk disk.unit.storageUnitParams) (hinv : UnitInv disk.unit.storageUnitParams s q)
    (h : UnitStep disk s uev s') (hr : uev.handed = some r) :
    DiskThreads.HandedOk disk.unit.storageUnitParams r := by
  have hallowed := h.allowed
  obtain ⟨q', -, hc⟩ := hinv.step h
  cases hc with
  | posted _ _ handed => simp [handed] at hr
  | settled handed => simp [handed] at hr
  | @handed buf i t op calls handed prepare mem pending process =>
      rw [op] at hallowed
      rw [handed, Option.some.injEq] at hr
      subst hr
      have hi : i ∈ q.items := by
        rw [Queue.items, pending]
        exact List.mem_cons_self
      obtain ⟨dataLength, ht⟩ := hinv.transfers i hi
      obtain ⟨t', hprep, hhint, hreq⟩ := ht.prepare hu hallowed
      rw [prepare, Option.some.injEq] at hprep
      subst hprep
      refine ⟨?_, hreq, (spdSrbExecuteScsiPrepare_length prepare).trans hallowed⟩
      rw [hhint]
      exact hinv.good.refines.wf.ext_ne i hi
  | reposted _ _ handed => simp [handed] at hr
  | finished _ _ handed => simp [handed] at hr

theorem UnitInv.handed_none {s s' : UnitSys} (hinv : UnitInv disk.unit.storageUnitParams s q)
    (h : UnitStep disk s uev s') (hop : ∀ buf, uev.op ≠ .transactReq buf) :
    uev.handed = none := by
  obtain ⟨q', -, hc⟩ := hinv.step h
  cases hc with
  | posted _ _ handed => exact handed
  | settled handed => exact handed
  | handed op => exact absurd op (hop _)
  | reposted _ _ handed => exact handed
  | finished _ _ handed => exact handed

/-! ## The file -/

theorem FileAction.exec_size {f f' : RawDiskFile} {a : FileAction} {c : FileChoice} {x : a.Answer}
    (h : a.exec f c = some (f', x)) : f'.size = f.size := by
  cases a <;> cases c <;> simp only [FileAction.exec, reduceCtorEq] at h
  all_goals first | (split at h <;> first | (cases h; rfl) | cases h) | (cases h; rfl)

theorem DiskSys.other_unit {a : DiskAction} {x : a.Answer} {choice : DiskChoice}
    (hop : ∀ op, a ≠ .unit op) (hexec : a.exec disk s choice = some (s', x)) :
    s'.unit = s.unit ∧ s'.file.size = s.file.size := by
  cases a with
  | unit op => exact absurd rfl (hop op)
  | file a =>
      cases choice with
      | file c =>
          obtain ⟨y, hy, heq⟩ := Option.map_eq_some_iff.mp hexec
          cases heq
          exact ⟨rfl, FileAction.exec_size hy⟩
      | runs => cases hexec
      | ends error => cases hexec
  | _ =>
      cases choice <;> first
        | (cases hexec; exact ⟨rfl, rfl⟩)
        | cases hexec

/-! ## What holds in every reachable state -/

structure DiskInv (unit : StorageUnitParams) (rawDisk : RawDisk) (s : DiskSys)
    (gs : List DiskServing) :
    Prop where
  driver : ∃ q, UnitInv unit s.unit q
  backed : Backed unit rawDisk s.file.size
  requests : ∀ g ∈ gs, ∀ r, g.request = some r → DiskThreads.HandedOk unit r

theorem DiskInv.perm {unit : StorageUnitParams} {gs' : List DiskServing} (hperm : gs.Perm gs')
    (h : DiskInv unit rawDisk s gs) : DiskInv unit rawDisk s gs' :=
  ⟨h.driver, h.backed, fun g hg => h.requests g (hperm.mem_iff.mpr hg)⟩

/-- The request a thread has after an action: the one it had, or one it was handed. -/
theorem track_request {a : DiskAction} {x : a.Answer}
    (h : (DiskThreads.track a x g).request = some r) :
    g.request = some r ∨ DiskThreads.handedBy a x = some r := by
  unfold DiskThreads.track at h
  split at h
  · exact .inr h
  · cases h
  · exact .inl h
  · exact .inl h

theorem handedBy_unit {a : DiskAction} {x : a.Answer} (h : DiskThreads.handedBy a x = some r) :
    ∃ op, a = .unit op := by
  unfold DiskThreads.handedBy at h
  split at h
  · exact ⟨_, rfl⟩
  · cases h

theorem handedBy_handed {x : UnitEvent}
    (h : DiskThreads.handedBy (.unit op) x = some r) : x.handed = some r := by
  cases op with
  | transactReq buf => exact h
  | _ => cases h

theorem DiskInv.act {a : DiskAction} {x : a.Answer}
    (hinv : DiskInv disk.unit.storageUnitParams rawDisk s (g :: gs))
    (hmay : DiskThreads.May disk.unit.storageUnitParams rawDisk g a)
    (hpromised : ∀ op, a = .unit op → ¬ op.Transacts →
      op.Allowed disk.unit.storageUnitParams s.unit.live)
    (hexec : DiskAction.Exec disk s a x s') :
    DiskInv disk.unit.storageUnitParams rawDisk s' (DiskThreads.track a x g :: gs) ∧
      DiskThreads.Answers disk.unit.storageUnitParams g a x := by
  obtain ⟨choice, hexec⟩ := hexec
  obtain ⟨q, hunit⟩ := hinv.driver
  have hrequests : ∀ {q'}, UnitInv disk.unit.storageUnitParams s'.unit q' →
      Backed disk.unit.storageUnitParams rawDisk s'.file.size →
      (∀ r, DiskThreads.handedBy a x = some r →
        DiskThreads.HandedOk disk.unit.storageUnitParams r) →
      DiskInv disk.unit.storageUnitParams rawDisk s' (DiskThreads.track a x g :: gs) := by
    intro q' hunit' hbacked hhanded
    refine ⟨⟨q', hunit'⟩, hbacked, fun g' hg' r hr => ?_⟩
    rcases List.mem_cons.mp hg' with rfl | hg'
    · rcases track_request hr with hr | hr
      · exact hinv.requests g List.mem_cons_self r hr
      · exact hhanded r hr
    · exact hinv.requests g' (List.mem_cons_of_mem _ hg') r hr
  by_cases hop : ∃ op, a = .unit op
  · obtain ⟨op, rfl⟩ := hop
    obtain ⟨-, hstep, hfile⟩ := DiskSys.unitStep hmay (hpromised op rfl) hexec
    obtain ⟨q', hunit', -⟩ := hunit.step hstep
    have hhanded : ∀ r, DiskThreads.handedBy (.unit op) x = some r →
        DiskThreads.HandedOk disk.unit.storageUnitParams r :=
      fun r hr => hunit.handedOk hinv.backed.unitOk hstep (handedBy_handed hr)
    exact ⟨hrequests hunit' (hfile ▸ hinv.backed) hhanded, hhanded⟩
  · obtain ⟨hunit', hsize⟩ := DiskSys.other_unit (fun op ha => hop ⟨op, ha⟩) hexec
    have hhanded : ∀ r, DiskThreads.handedBy a x = some r →
        DiskThreads.HandedOk disk.unit.storageUnitParams r :=
      fun r hr => absurd (handedBy_unit hr) hop
    exact ⟨hrequests (hunit' ▸ hunit) (hsize ▸ hinv.backed) hhanded, hhanded⟩

abbrev DiskVerified (disk : Disk) (rawDisk : RawDisk) (w : DiskWorld) : Prop :=
  Threads.Verified (diskRules disk.unit.storageUnitParams rawDisk)
    (DiskInv disk.unit.storageUnitParams rawDisk) w

theorem DiskVerified.step (hw : DiskVerified disk rawDisk w)
    (h : DiskStep disk rawDisk order w ev w') : DiskVerified disk rawDisk w' := by
  refine Threads.Verified.step (C := Promised disk.unit.storageUnitParams)
    (fun hperm hinv => hinv.perm hperm) (fun hinv => ?_) (fun _ hinv => ?_) (fun hp => ?_)
    (fun _ hpromised hmay hinv hexec => ?_) hw h.promised h.step
  · exact ⟨hinv.driver, hinv.backed, fun g hg r hr => by
      rcases List.mem_cons.mp hg with rfl | hg
      · cases hr
      · exact hinv.requests g hg r hr⟩
  · exact ⟨hinv.driver, hinv.backed, fun g hg => hinv.requests g (List.mem_cons_of_mem _ hg)⟩
  · exact hp.safe hw.inv.backed
  · exact hinv.act hmay (fun op ha => by subst ha; exact hpromised) hexec

theorem diskVerified_start {mem : ScsiMem} {ioqMem : SpdIoq} {file : RawDiskFile}
    (hb : Backed disk.unit.storageUnitParams rawDisk file.size) :
    DiskVerified disk rawDisk (.start mem ioqMem file) :=
  ⟨⟨⟨_, unitInv_create⟩, hb, fun g hg => by cases hg⟩, fun t ht => by cases ht⟩

theorem diskRun_verified (hw : DiskVerified disk rawDisk w)
    (hrun : Run (DiskStep disk rawDisk order) w ls w') : DiskVerified disk rawDisk w' :=
  hrun.inv hw fun hw h => hw.step h

theorem DiskVerified.acting {a : DiskAction} {x : a.Answer} (hw : DiskVerified disk rawDisk w)
    (h : DiskStep disk rawDisk order w (.act a x) w') :
    ∃ g gs, w.accounts.Perm (g :: gs) ∧
      DiskInv disk.unit.storageUnitParams rawDisk w.shared (g :: gs) ∧
      DiskThreads.May disk.unit.storageUnitParams rawDisk g a ∧
      DiskAction.Exec disk w.shared a x w'.shared ∧
      w'.accounts.Perm (DiskThreads.track a x g :: gs) := by
  obtain ⟨hstep, -⟩ := h
  cases hstep with
  | @act s s' us vs a k g r hexec =>
      have hsafe := hw.safe ⟨.act a k, g⟩ (by simp)
      exact ⟨g, _, Threads.accounts_middle, hw.inv.perm Threads.accounts_middle, hsafe.1, hexec,
        Threads.accounts_middle⟩

end Winspd.Proofs
