import Winspd.Proofs.RawdiskTransfer

/-!
# The raw disk keeps its data

What the issuer of a READ or WRITE may rely on, in any run of the driver, of any number
of dispatcher threads over a raw disk, and of any other SRBs. `CarriedOut` is an SRB that
is started, and later completed with success.

A byte is the unit of it. Every byte that a READ returns was in the file at some time
while the SRB was carried out (`rawdisk_read`), and every byte of a WRITE was put into
the file at some time while it was (`rawdisk_write`). Nothing more is promised of
transfers that overlap.

What is asked of the threads is only that none has a request with the SRB's hint from
before. The hint is the address of the SRB's extension, and an answer to a request of
an SRB that was cancelled would be taken for an answer to this one.
-/

namespace Winspd.Proofs

open Winspd.Lib Winspd.Sys Winspd.Shared Winspd.Spec Winspd.Rawdisk

variable {disk : Disk} {rawDisk : RawDisk} {order : MemcpyOrder} {srb srb' : Srb}
  {range range' : CdbRange} {i : Item}
  {w w' w₀ w₁ w₂ w₃ w₄ w₅ w₆ w₇ v v' : DiskWorld}
  {ev : DiskEvent} {ls ls' ls₀ ls₁ ls₂ : List DiskEvent} {a a' : Addr} {p j : Nat}
  {byte : UInt8}
  {mem : ScsiMem} {ioqMem : SpdIoq} {file f f' : RawDiskFile} {data : List UInt8}

/-! ## The account along a run -/

theorem unitEvents_quiet (h : unitEventOf ev = none) : unitEvents (ls ++ [ev]) = unitEvents ls := by
  rw [unitEvents_snoc, h]
  exact List.append_nil _

theorem fileEvents_quiet (h : fileEventOf ev = none) : fileEvents (ls ++ [ev]) = fileEvents ls := by
  rw [fileEvents_snoc, h]
  exact List.append_nil _

theorem DiskTransfer.step (hrw : ReadOrWrite disk.unit.storageUnitParams srb range)
    (hw : DiskVerified disk rawDisk w)
    (h : DiskTransfer disk.unit.storageUnitParams rawDisk srb range i ls w.shared w.accounts)
    (hstep : DiskStep disk rawDisk order w ev w')
    (hlive : ∀ uev, unitEventOf ev = some uev → i.srb ∉ uev.completed) :
    DiskTransfer disk.unit.storageUnitParams rawDisk srb range i (ls ++ [ev]) w'.shared
      w'.accounts := by
  cases ev with
  | enter =>
      obtain ⟨hstep, -⟩ := hstep
      cases hstep with
      | @enter s ts prog hp =>
          rw [DiskTransfer, unitEvents_quiet rfl, fileEvents_quiet rfl]
          refine h.threads (List.Sublist.refl _) (fun g' hg' r hr => ?_) ?_
          · rcases List.mem_cons.mp hg' with rfl | hg'
            · cases hr
            · exact ⟨g', hg', hr, id⟩
          · refine List.pairwise_cons.mpr ⟨fun g' _ hboth => ?_, h.holders⟩
            obtain ⟨⟨r, hr, -⟩, -⟩ := hboth
            cases hr
  | leave =>
      obtain ⟨hstep, -⟩ := hstep
      cases hstep with
      | @leave s us vs g =>
          have hhead := h.perm Threads.accounts_middle
          rw [DiskTransfer, unitEvents_quiet rfl, fileEvents_quiet rfl]
          exact hhead.threads (List.Sublist.refl _)
            (fun g' hg' r hr => ⟨g', List.mem_cons_of_mem _ hg', hr, id⟩)
            (List.pairwise_cons.mp hhead.holders).2
  | act act x =>
      obtain ⟨g, gs, hperm, hinv, hmay, ⟨choice, hexec⟩, hperm'⟩ := hw.acting hstep
      have hhead := h.perm hperm
      refine DiskAccount.perm ?_ hperm'.symm
      cases act with
      | unit op =>
          have hpromised :
              ¬ op.Transacts → op.Allowed disk.unit.storageUnitParams w.shared.unit.live :=
            hstep.promised
          obtain ⟨hop, hunit, -⟩ := DiskSys.unitStep hmay hpromised hexec
          have hevents : unitEvents (ls ++ [.act (.unit op) x]) = unitEvents ls ++ [x] :=
            unitEvents_snoc
          rw [hevents, requestsFor_snoc, answersFor_snoc, fileEvents_quiet rfl]
          exact hhead.onUnit hrw rfl hinv.backed (hinv.requests g List.mem_cons_self) hmay hop hunit
            (hlive x rfl)
      | file act =>
          have hunit := (DiskSys.other_unit (fun op heq => by cases heq) hexec).1
          have hevents :
              fileEvents (ls ++ [.act (.file act) x]) = fileEvents ls ++ [⟨act, x⟩] :=
            fileEvents_snoc
          rw [unitEvents_quiet rfl, hevents, hunit]
          exact hhead.onFile
      | _ =>
          have hunit := (DiskSys.other_unit (fun op heq => by cases heq) hexec).1
          rw [unitEvents_quiet rfl, fileEvents_quiet rfl, hunit]
          exact hhead

theorem DiskTransfer.run (hrw : ReadOrWrite disk.unit.storageUnitParams srb range)
    (hw : DiskVerified disk rawDisk w₁)
    (h : DiskTransfer disk.unit.storageUnitParams rawDisk srb range i [] w₁.shared w₁.accounts)
    (hrun : Run (DiskStep disk rawDisk order) w₁ ls w)
    (hlive : ∀ uev ∈ unitEvents ls, i.srb ∉ uev.completed) :
    DiskVerified disk rawDisk w ∧
      DiskTransfer disk.unit.storageUnitParams rawDisk srb range i ls w.shared w.accounts := by
  refine hrun.history (I := fun ls w => (∀ uev ∈ unitEvents ls, i.srb ∉ uev.completed) →
    DiskVerified disk rawDisk w ∧
      DiskTransfer disk.unit.storageUnitParams rawDisk srb range i ls w.shared w.accounts)
    (fun _ => ⟨hw, h⟩) ?_ hlive
  intro ls w ev w' _ ih hstep hlive
  rw [unitEvents_snoc, List.forall_mem_append] at hlive
  obtain ⟨hw, h⟩ := ih hlive.1
  exact ⟨hw.step hstep, h.step hrw hw hstep fun uev huev =>
    hlive.2 uev (by rw [huev]; exact List.mem_singleton_self _)⟩

/-! ## An SRB that is carried out -/

/-- The SRB is started, no thread having a request with its hint left from before, and
it is completed with success; `ls` is what happens in between. -/
structure CarriedOut (disk : Disk) (rawDisk : RawDisk) (order : MemcpyOrder) (a : Addr) (srb : Srb)
    (w₀ w₁ : DiskWorld) (ls : List DiskEvent) (w w' : DiskWorld) : Prop where
  fresh : ∀ g ∈ w₀.accounts, ¬ HoldsHint srb.miniportContext g
  start : ∃ storResult ev, a ∉ UnitEvent.completed ev ∧
    DiskStep disk rawDisk order w₀ (.act (.unit (.startIo a srb storResult)) ev) w₁
  run : Run (DiskStep disk rawDisk order) w₁ ls w
  live : ∀ uev ∈ unitEvents ls, a ∉ uev.completed
  done : ∃ op ev, .srbComplete a srbStatusSuccess ∈ UnitEvent.calls ev ∧
    DiskStep disk rawDisk order w (.act (.unit op) ev) w'

section CarriedOut

variable (hc : CarriedOut disk rawDisk order a srb w₀ w₁ ls w w')
  (hw₀ : DiskVerified disk rawDisk w₀)
include hc hw₀

omit hw₀ in
theorem CarriedOut.whole : ∃ ls', Run (DiskStep disk rawDisk order) w₀ ls' w' := by
  obtain ⟨_, ev, -, hstart⟩ := hc.start
  obtain ⟨_, _, -, hdone⟩ := hc.done
  exact ⟨_, .cons hstart (hc.run.snoc hdone)⟩

theorem CarriedOut.verified : DiskVerified disk rawDisk w₁ ∧ DiskVerified disk rawDisk w ∧
    DiskVerified disk rawDisk w' := by
  obtain ⟨_, ev, -, hstart⟩ := hc.start
  obtain ⟨_, _, -, hdone⟩ := hc.done
  have hw₁ := hw₀.step hstart
  have hw := diskRun_verified hw₁ hc.run
  exact ⟨hw₁, hw, hw.step hdone⟩

theorem CarriedOut.started (hrw : ReadOrWrite disk.unit.storageUnitParams srb range) :
    DiskTransfer disk.unit.storageUnitParams rawDisk srb range ⟨srb.miniportContext, a⟩ []
      w₁.shared w₁.accounts := by
  obtain ⟨storResult, ev, hposted, hstart⟩ := hc.start
  obtain ⟨g, gs, hperm, hinv, hmay, ⟨choice, hexec⟩, hperm'⟩ := hw₀.acting hstart
  obtain ⟨hop, hunit, -⟩ := DiskSys.unitStep hmay hstart.promised hexec
  obtain ⟨q, hdriver⟩ := hinv.driver
  obtain ⟨q₁, hch⟩ := chunking_posted hrw hdriver hunit hop hposted
  have hnobody : ∀ g' ∈ w₁.accounts, ¬ HoldsHint srb.miniportContext g' := by
    intro g' hg'
    have hmem : g' ∈ g :: gs := hperm'.mem_iff.mp hg'
    exact hc.fresh g' (hperm.mem_iff.mpr hmem)
  refine ⟨⟨q₁, hch⟩, ?_, fun g' hg' r hr he => absurd ⟨r, hr, he⟩ (hnobody g' hg'),
    ?_⟩
  · exact List.pairwise_of_forall_mem_list fun g' hg' _ _ hboth => hnobody g' hg' hboth.1
  · refine ⟨fun _ j byte hget => ?_, fun _ _ _ j hj => ?_⟩
    · simp [answersFor, unitEvents, answered] at hget
    · simp [answersFor, unitEvents] at hj

theorem CarriedOut.delivered (hrw : ReadOrWrite disk.unit.storageUnitParams srb range) :
    Delivered disk.unit.storageUnitParams srb range (w'.shared.unit.mem.srb a).dataBuffer
      (fileEvents ls) := by
  obtain ⟨hw, ht⟩ := (hc.started hw₀ hrw).run hrw (hc.verified hw₀).1 hc.run hc.live
  obtain ⟨op, ev, hsuccess, hdone⟩ := hc.done
  obtain ⟨g, gs, hperm, hinv, hmay, ⟨choice, hexec⟩, -⟩ := hw.acting hdone
  obtain ⟨hop, hunit, -⟩ := DiskSys.unitStep hmay hdone.promised hexec
  have hhead := ht.perm hperm
  obtain ⟨q, hch⟩ := hhead.chunking
  obtain ⟨hfin, rsp, dataBuffer, hrsp, hhint, -, hgood⟩ := hch.succeed hrw hunit hsuccess
  rw [hop] at hrsp
  subst hrsp
  obtain ⟨buf, rfl, hlength, r, hr, hrhint, hserved⟩ := hmay
  have he : r.1.hint = srb.miniportContext := hrhint.symm.trans hhint
  obtain ⟨hout, -⟩ := hhead.held g List.mem_cons_self r hr he
  have hok := hinv.requests g List.mem_cons_self r hr
  exact hch.delivered hrw hfin hop hlength hout (hch.process_of_outstanding hout).2
    (hhead.serve hrw hinv.backed hr he hok.allowed (hserved hgood))

end CarriedOut

/-! ## Bytes of the file -/

/-- What is done leaves `byte` at `p`. -/
def KeepsByte (p : Nat) (byte : UInt8) : FileEvent → Prop
  | ⟨.store offset b, _⟩ => offset.toNat = p → b = byte
  | ⟨.setZeroData fileOffset beyondFinalZero, _⟩ =>
      fileOffset.toNat ≤ p → p < beyondFinalZero.toNat → byte = 0
  | _ => True

/-- What a step does to the file. -/
inductive FileChange (f : RawDiskFile) (ev : DiskEvent) (f' : RawDiskFile) : Prop
  | none (file : f' = f) (event : fileEventOf ev = none)
  | exec {a : FileAction} {x : a.Answer} {c : FileChoice} (exec : a.exec f c = some (f', x))
      (event : fileEventOf ev = some ⟨a, x⟩)
  | writeBack {p : Nat} (file : f' = { f with written := Function.update f.written p (f.view p) })
      (event : fileEventOf ev = none)
  | makeDurable {p : Nat}
      (file : f' = { f with durable := Function.update f.durable p (f.written p) })
      (event : fileEventOf ev = none)

theorem DiskStep.fileChange (h : DiskStep disk rawDisk order w ev w') :
    FileChange w.shared.file ev w'.shared.file := by
  obtain ⟨hstep, -⟩ := h
  cases hstep with
  | enter => exact .none rfl rfl
  | leave => exact .none rfl rfl
  | @act s s' us vs a k g r hexec =>
      obtain ⟨choice, hexec⟩ := hexec
      cases a with
      | unit op =>
          cases choice with
          | runs =>
              obtain ⟨x, -, heq⟩ := Option.map_eq_some_iff.mp hexec
              cases heq
              exact .none rfl rfl
          | file c => cases hexec
          | ends error => cases hexec
      | file act =>
          cases choice with
          | file c =>
              obtain ⟨y, hy, heq⟩ := Option.map_eq_some_iff.mp hexec
              cases heq
              exact .exec hy rfl
          | runs => cases hexec
          | ends error => cases hexec
      | writeBack p =>
          cases choice with
          | runs =>
              cases hexec
              exact .writeBack rfl rfl
          | file c => cases hexec
          | ends error => cases hexec
      | makeDurable p =>
          cases choice with
          | runs =>
              cases hexec
              exact .makeDurable rfl rfl
          | file c => cases hexec
          | ends error => cases hexec
      | _ =>
          cases choice <;> first
            | (cases hexec; exact .none rfl rfl)
            | cases hexec

theorem FileAction.exec_keeps {act : FileAction} {x : act.Answer} {c : FileChoice}
    (h : act.exec f c = some (f', x)) (hkeeps : KeepsByte p byte ⟨act, x⟩)
    (hview : f.view p = byte) :
    f'.view p = byte ∧ (f.written p = byte → f'.written p = byte ∧
      (f.durable p = byte → f'.durable p = byte)) := by
  cases act with
  | load offset =>
      cases c <;> simp only [FileAction.exec, reduceCtorEq] at h
      all_goals
        split at h
        · cases h
          exact ⟨hview, fun hwritten => ⟨hwritten, id⟩⟩
        · cases h
  | store offset b =>
      cases c <;> simp only [FileAction.exec, reduceCtorEq] at h
      · split at h
        · cases h
          refine ⟨?_, fun hwritten => ⟨hwritten, id⟩⟩
          show Function.update f.view offset.toNat b p = byte
          by_cases hp : offset.toNat = p
          · rw [hp, Function.update_self]
            exact hkeeps hp
          · rwa [Function.update_of_ne (Ne.symm hp)]
        · cases h
      · split at h
        · cases h
          exact ⟨hview, fun hwritten => ⟨hwritten, id⟩⟩
        · cases h
  | flushViewOfFile offset length =>
      cases c <;> simp only [FileAction.exec, reduceCtorEq] at h
      · cases h
        refine ⟨hview, fun hwritten => ⟨?_, id⟩⟩
        show (if Flushes offset length p then f.view p else f.written p) = byte
        rw [hview, hwritten, ite_self]
      · cases h
        exact ⟨hview, fun hwritten => ⟨hwritten, id⟩⟩
  | flushFileBuffers =>
      cases c <;> simp only [FileAction.exec, reduceCtorEq] at h
      · cases h
        exact ⟨hview, fun hwritten => ⟨hwritten, fun _ => hwritten⟩⟩
      · cases h
        exact ⟨hview, fun hwritten => ⟨hwritten, id⟩⟩
  | setZeroData fileOffset beyondFinalZero =>
      cases c <;> simp only [FileAction.exec, reduceCtorEq] at h
      · cases h
        refine ⟨?_, fun hwritten => ⟨hwritten, id⟩⟩
        show (if fileOffset.toNat ≤ p ∧ p < beyondFinalZero.toNat then 0 else f.view p) = byte
        split
        · next hin => exact (hkeeps hin.1 hin.2).symm
        · exact hview
      · cases h
        exact ⟨hview, fun hwritten => ⟨hwritten, id⟩⟩

/-- The byte is in the view, or it is written back too, or it is on the medium too. -/
structure InView (p : Nat) (byte : UInt8) (f : RawDiskFile) : Prop where
  view : f.view p = byte

structure WrittenBack (p : Nat) (byte : UInt8) (f : RawDiskFile) : Prop extends
    InView p byte f where
  written : f.written p = byte

structure OnMedium (p : Nat) (byte : UInt8) (f : RawDiskFile) : Prop extends
    WrittenBack p byte f where
  durable : f.durable p = byte

theorem DiskStep.keeps (h : DiskStep disk rawDisk order w ev w')
    (hkeeps : ∀ x, fileEventOf ev = some x → KeepsByte p byte x) :
    (InView p byte w.shared.file → InView p byte w'.shared.file) ∧
      (WrittenBack p byte w.shared.file → WrittenBack p byte w'.shared.file) ∧
      (OnMedium p byte w.shared.file → OnMedium p byte w'.shared.file) := by
  cases h.fileChange with
  | none file => rw [file]; exact ⟨id, id, id⟩
  | exec exec event =>
      have hafter := fun hview => FileAction.exec_keeps (p := p) exec (hkeeps _ event) hview
      refine ⟨fun hin => ⟨(hafter hin.view).1⟩, fun hin => ?_, fun hin => ?_⟩
      · obtain ⟨hview, hwritten⟩ := hafter hin.view
        exact ⟨⟨hview⟩, (hwritten hin.written).1⟩
      · obtain ⟨hview, hwritten⟩ := hafter hin.view
        exact ⟨⟨⟨hview⟩, (hwritten hin.written).1⟩,
          (hwritten hin.written).2 hin.durable⟩
  | @writeBack p' file =>
      have hwritten : ∀ {f : RawDiskFile}, f.view p = byte → f.written p = byte →
          Function.update f.written p' (f.view p') p = byte := by
        intro f hview hwritten
        by_cases hp : p = p'
        · rw [← hp, Function.update_self, hview]
        · rwa [Function.update_of_ne hp]
      rw [file]
      exact ⟨fun hin => ⟨hin.view⟩, fun hin =>
        ⟨⟨hin.view⟩, hwritten hin.view hin.written⟩,
        fun hin => ⟨⟨⟨hin.view⟩, hwritten hin.view hin.written⟩, hin.durable⟩⟩
  | @makeDurable p' file =>
      have hdurable : ∀ {f : RawDiskFile}, f.written p = byte → f.durable p = byte →
          Function.update f.durable p' (f.written p') p = byte := by
        intro f hwritten hdurable
        by_cases hp : p = p'
        · rw [← hp, Function.update_self, hwritten]
        · rwa [Function.update_of_ne hp]
      rw [file]
      exact ⟨fun hin => ⟨hin.view⟩, fun hin => ⟨⟨hin.view⟩, hin.written⟩,
        fun hin => ⟨⟨⟨hin.view⟩, hin.written⟩, hdurable hin.written hin.durable⟩⟩

theorem keeps_run (hrun : Run (DiskStep disk rawDisk order) w ls w')
    (hkeeps : ∀ x ∈ fileEvents ls, KeepsByte p byte x) :
    (InView p byte w.shared.file → InView p byte w'.shared.file) ∧
      (WrittenBack p byte w.shared.file → WrittenBack p byte w'.shared.file) ∧
      (OnMedium p byte w.shared.file → OnMedium p byte w'.shared.file) := by
  induction hrun with
  | nil => exact ⟨id, id, id⟩
  | @snoc ls ev v v' _ hstep ih =>
      rw [fileEvents_snoc, List.forall_mem_append] at hkeeps
      obtain ⟨hview, hwritten, hmedium⟩ := ih hkeeps.1
      obtain ⟨hview', hwritten', hmedium'⟩ := hstep.keeps fun x hx =>
        show KeepsByte p byte x from hkeeps.2 x (by rw [hx]; exact List.mem_singleton_self _)
      exact ⟨hview' ∘ hview, hwritten' ∘ hwritten, hmedium' ∘ hmedium⟩

/-! ## An event of a run -/

variable {x : FileEvent} {c : FileChoice} {offset : UInt64}

/-- Something that was done to the file, and the states it is between. -/
theorem run_fileEvent (hrun : Run (DiskStep disk rawDisk order) w ls w')
    (hx : x ∈ fileEvents ls) :
    ∃ ls₁ ev ls₂ v v' c, ls = ls₁ ++ ev :: ls₂ ∧
      Run (DiskStep disk rawDisk order) w ls₁ v ∧
      DiskStep disk rawDisk order v ev v' ∧ Run (DiskStep disk rawDisk order) v' ls₂ w' ∧
      fileEventOf ev = some x ∧ x.1.exec v.shared.file c = some (v'.shared.file, x.2) := by
  obtain ⟨ev, hev, hof⟩ := List.mem_filterMap.mp hx
  obtain ⟨ls₁, ls₂, rfl⟩ := List.append_of_mem hev
  obtain ⟨v, hbefore, hafter⟩ := hrun.split
  obtain ⟨v', hstep, hafter⟩ := Run.cons_iff.mp hafter
  cases hstep.fileChange with
  | none _ event => simp [event] at hof
  | writeBack _ event => simp [event] at hof
  | makeDurable _ event => simp [event] at hof
  | @exec a y c exec event =>
      rw [event, Option.some.injEq] at hof
      subst hof
      exact ⟨ls₁, ev, ls₂, v, v', c, rfl, hbefore, hstep, hafter, event, exec⟩

theorem fileEvents_append : fileEvents (ls₁ ++ ls₂) = fileEvents ls₁ ++ fileEvents ls₂ :=
  List.filterMap_append

theorem fileEvents_cons (h : fileEventOf ev = some x) :
    fileEvents (ev :: ls) = x :: fileEvents ls := List.filterMap_cons_some h

theorem FileAction.exec_loaded {answer : (FileAction.load offset).Answer}
    (h : (FileAction.load offset).exec f c = some (f', answer)) (hok : answer = .ok byte) :
    f.view offset.toNat = byte := by
  subst hok
  cases c <;> simp only [FileAction.exec, reduceCtorEq] at h
  all_goals split at h <;> cases h
  rfl

theorem FileAction.exec_stored {answer : (FileAction.store offset byte).Answer}
    (h : (FileAction.store offset byte).exec f c = some (f', answer)) (hok : answer = .ok ()) :
    f'.view offset.toNat = byte := by
  subst hok
  cases c <;> simp only [FileAction.exec, reduceCtorEq] at h
  all_goals split at h <;> cases h
  exact Function.update_self _ _ _

/-- `FlushViewOfFile` writes the bytes back. -/
theorem FileAction.exec_flushedView {length : UInt32} {flushed : Bool}
    (h : (FileAction.flushViewOfFile offset length).exec f c = some (f', flushed))
    (hok : flushed = true) (hp : Flushes offset length p) (hin : InView p byte f) :
    WrittenBack p byte f' := by
  subst hok
  cases c <;> simp only [FileAction.exec, reduceCtorEq] at h
  · cases h
    exact ⟨⟨hin.view⟩, (if_pos hp).trans hin.view⟩
  · cases h

theorem FileAction.exec_flushedFile {flushed : Bool}
    (h : FileAction.flushFileBuffers.exec f c = some (f', flushed)) (hok : flushed = true)
    (hin : WrittenBack p byte f) : OnMedium p byte f' := by
  subst hok
  cases c <;> simp only [FileAction.exec, reduceCtorEq] at h
  · cases h
    exact ⟨⟨⟨hin.view⟩, hin.written⟩, hin.written⟩
  · cases h

/-- In a run, `P` holds until something is done that makes it `Q`. -/
theorem run_past {P Q : RawDiskFile → Prop}
    (hP : ∀ {w ls w'}, Run (DiskStep disk rawDisk order) w ls w' →
      (∀ x ∈ fileEvents ls, KeepsByte p byte x) → P w.shared.file → P w'.shared.file)
    (hQ : ∀ {w ls w'}, Run (DiskStep disk rawDisk order) w ls w' →
      (∀ x ∈ fileEvents ls, KeepsByte p byte x) → Q w.shared.file → Q w'.shared.file)
    (hpast : ∀ {f f' c}, x.1.exec f c = some (f', x.2) → P f → Q f')
    (hrun : Run (DiskStep disk rawDisk order) w ls w') (hx : x ∈ fileEvents ls)
    (hkeeps : ∀ x ∈ fileEvents ls, KeepsByte p byte x)
    (h : P w.shared.file) : Q w'.shared.file := by
  obtain ⟨ls₁, ev, ls₂, v, v', c, rfl, hbefore, -, hafter, hev, hexec⟩ :=
    run_fileEvent hrun hx
  rw [fileEvents_append, fileEvents_cons hev, List.forall_mem_append,
    List.forall_mem_cons] at hkeeps
  exact hQ hafter hkeeps.2.2 (hpast hexec (hP hbefore hkeeps.1 h))

/-- A byte in the view that is flushed gets to the medium. -/
theorem flushed_run (hrun : Run (DiskStep disk rawDisk order) w ls w')
    (hkeeps : ∀ x ∈ fileEvents ls, KeepsByte p byte x)
    (hflushed : FlushedAfter p (fileEvents ls))
    (hin : InView p byte w.shared.file) : OnMedium p byte w'.shared.file := by
  obtain ⟨offset, length, hp, hcalls⟩ := hflushed
  obtain ⟨before, after, heq, hview, hfile⟩ := List.cons_sublist_iff.mp hcalls
  obtain ⟨ls₁, ls₂, rfl, rfl, rfl⟩ := List.filterMap_eq_append_iff.mp heq
  obtain ⟨v, hbefore, hafter⟩ := hrun.split
  rw [fileEvents_append, List.forall_mem_append] at hkeeps
  have hwritten : WrittenBack p byte v.shared.file :=
    run_past (P := InView p byte) (Q := WrittenBack p byte)
      (fun hrun hkeeps => (keeps_run hrun hkeeps).1)
      (fun hrun hkeeps => (keeps_run hrun hkeeps).2.1)
      (fun hexec => FileAction.exec_flushedView hexec rfl hp) hbefore hview hkeeps.1 hin
  exact run_past (P := WrittenBack p byte) (Q := OnMedium p byte)
    (fun hrun hkeeps => (keeps_run hrun hkeeps).2.1)
    (fun hrun hkeeps => (keeps_run hrun hkeeps).2.2)
    (fun hexec => FileAction.exec_flushedFile hexec rfl) hafter (List.singleton_sublist.mp hfile)
    hkeeps.2 hwritten

/-! ## A READ and a WRITE -/

/-- The unit's disk and its file, and what is reached from them. -/
theorem reached_verified (hb : Backed disk.unit.storageUnitParams rawDisk file.size)
    (hrun : Run (DiskStep disk rawDisk order) (.start mem ioqMem file) ls w) :
    DiskVerified disk rawDisk w := diskRun_verified (diskVerified_start hb) hrun

section Bytes

variable (hc : CarriedOut disk rawDisk order a srb w₀ w₁ ls w w')
  (hw₀ : DiskVerified disk rawDisk w₀)
  (hrw : ReadOrWrite disk.unit.storageUnitParams srb range)
include hc hw₀ hrw

theorem CarriedOut.offset_lt (hj : j < transferBytes disk.unit.storageUnitParams range) :
    (UInt64.ofNat (firstByte disk.unit.storageUnitParams range + j)).toNat =
      firstByte disk.unit.storageUnitParams range + j := by
  obtain ⟨q, hch⟩ := (hc.started hw₀ hrw).chunking
  have hb := hw₀.inv.backed
  have hle := hb.bytes_le (hch.inUnit hrw)
  have hlt := hb.size_lt
  rw [transferBytes] at hj
  rw [firstByte, UInt64.toNat_ofNat_of_lt' (show _ < 2 ^ 64 by omega)]

/-- A byte that is put into the file is in the view then, and until the end if nothing
else takes its place. -/
theorem CarriedOut.put (hj : j < transferBytes disk.unit.storageUnitParams range)
    (hput : Put (firstByte disk.unit.storageUnitParams range + j) byte
      (forced disk.unit.storageUnitParams range) (fileEvents ls)) :
    ∃ ls₁ ls₂ v, ls = ls₁ ++ ls₂ ∧ Run (DiskStep disk rawDisk order) w₁ ls₁ v ∧
      Run (DiskStep disk rawDisk order) v ls₂ w ∧
      InView (firstByte disk.unit.storageUnitParams range + j) byte v.shared.file ∧
      ((∀ x ∈ fileEvents ls₂, KeepsByte
        (firstByte disk.unit.storageUnitParams range + j) byte x) →
        InView (firstByte disk.unit.storageUnitParams range + j) byte w'.shared.file ∧
        (forced disk.unit.storageUnitParams range = true →
          OnMedium (firstByte disk.unit.storageUnitParams range + j) byte w'.shared.file)) := by
  obtain ⟨before, after, heq, hstored, hforced⟩ := hput
  obtain ⟨l₁, l₂, rfl, rfl, rfl⟩ := List.filterMap_eq_append_iff.mp heq
  obtain ⟨m, hrun₁, hrun₂⟩ := hc.run.split
  obtain ⟨ls₁, ev, ls₂, v, v', c, rfl, hbefore, hstep, hafter, hev, hexec⟩ :=
    run_fileEvent hrun₁ hstored
  have hview := FileAction.exec_stored hexec rfl
  rw [hc.offset_lt hw₀ hrw hj] at hview
  have hin : InView (firstByte disk.unit.storageUnitParams range + j) byte v'.shared.file :=
    ⟨hview⟩
  obtain ⟨op, uev, -, hdone⟩ := hc.done
  refine ⟨ls₁ ++ [ev], ls₂ ++ l₂, v', by simp, .snoc hbefore hstep,
    hafter.append hrun₂, hin,
    fun hkeeps => ?_⟩
  rw [fileEvents_append, List.forall_mem_append] at hkeeps
  have hlast := hdone.keeps fun x hx =>
    show KeepsByte (firstByte disk.unit.storageUnitParams range + j) byte x by cases hx
  have hmiddle := (keeps_run hafter hkeeps.1).1 hin
  refine ⟨hlast.1 ((keeps_run hrun₂ hkeeps.2).1 hmiddle), fun hf => hlast.2.2 ?_⟩
  exact flushed_run hrun₂ hkeeps.2 (hforced hf) hmiddle

theorem CarriedOut.loads (hop : scsiOp srb.cdb = .read) :
    ∃ data, (w'.shared.unit.mem.srb a).dataBuffer = some data ∧
      ∀ j < transferBytes disk.unit.storageUnitParams range, ∃ ls₁ ls₂ v,
        ls = ls₁ ++ ls₂ ∧
        Run (DiskStep disk rawDisk order) w₁ ls₁ v ∧
        Run (DiskStep disk rawDisk order) v ls₂ w ∧
        data[j]? = some (v.shared.file.view (firstByte disk.unit.storageUnitParams range + j)) := by
  obtain ⟨data, hdata, hall⟩ := (hc.delivered hw₀ hrw).read hop
  refine ⟨data, hdata, fun j hj => ?_⟩
  obtain ⟨byte, hget, hloaded⟩ := hall j hj
  obtain ⟨ls₁, ev, ls₂, v, v', c, rfl, hbefore, hstep, hafter, -, hexec⟩ :=
    run_fileEvent hc.run hloaded
  have hview := FileAction.exec_loaded hexec rfl
  rw [hc.offset_lt hw₀ hrw hj] at hview
  exact ⟨ls₁, ev :: ls₂, v, rfl, hbefore, .cons hstep hafter, by rw [hview, hget]⟩

end Bytes

/-- Every byte that a READ returns was in the file while it was carried out. -/
theorem rawdisk_read (hb : Backed disk.unit.storageUnitParams rawDisk file.size)
    (hrun : Run (DiskStep disk rawDisk order) (.start mem ioqMem file) ls₀ w₀)
    (hc : CarriedOut disk rawDisk order a srb w₀ w₁ ls w w') (hop : scsiOp srb.cdb = .read)
    (hrange : spdCdbGetRange srb.cdb = some range)
    (hlength : transferBytes disk.unit.storageUnitParams range < 2 ^ 32) :
    ∃ data, (w'.shared.unit.mem.srb a).dataBuffer = some data ∧
      ∀ j < transferBytes disk.unit.storageUnitParams range, ∃ ls₁ ls₂ v,
        ls = ls₁ ++ ls₂ ∧
        Run (DiskStep disk rawDisk order) w₁ ls₁ v ∧
        Run (DiskStep disk rawDisk order) v ls₂ w ∧
        data[j]? = some (v.shared.file.view (firstByte disk.unit.storageUnitParams range + j)) :=
  hc.loads (reached_verified hb hrun) ⟨hb.unitOk, .inl hop, hrange, hlength⟩ hop

/-- Every byte of a WRITE was put into the file while it was carried out. -/
theorem rawdisk_write (hb : Backed disk.unit.storageUnitParams rawDisk file.size)
    (hrun : Run (DiskStep disk rawDisk order) (.start mem ioqMem file) ls₀ w₀)
    (hc : CarriedOut disk rawDisk order a srb w₀ w₁ ls w w') (hop : scsiOp srb.cdb = .write)
    (hrange : spdCdbGetRange srb.cdb = some range)
    (hlength : transferBytes disk.unit.storageUnitParams range < 2 ^ 32)
    (hdata : srb.dataBuffer = some data) :
    ∀ j < transferBytes disk.unit.storageUnitParams range, ∃ ls₁ ls₂ v,
      ls = ls₁ ++ ls₂ ∧
      Run (DiskStep disk rawDisk order) w₁ ls₁ v ∧
      Run (DiskStep disk rawDisk order) v ls₂ w ∧
      data[j]? = some (v.shared.file.view (firstByte disk.unit.storageUnitParams range + j)) := by
  have hw₀ := reached_verified hb hrun
  have hrw : ReadOrWrite disk.unit.storageUnitParams srb range :=
    ⟨hb.unitOk, .inr hop, hrange, hlength⟩
  intro j hj
  obtain ⟨byte, hget, hput⟩ := (hc.delivered hw₀ hrw).write hop data hdata j hj
  obtain ⟨ls₁, ls₂, v, hls, hbefore, hafter, hin, -⟩ := hc.put hw₀ hrw hj hput
  exact ⟨ls₁, ls₂, v, hls, hbefore, hafter, by rw [hin.view, hget]⟩

/-! ## A block that is written and read -/

section Sample

variable {s : DiskSys}

def sampleRawDisk : RawDisk := ⟨0x20000000, 16, false⟩

def sampleFile : RawDiskFile := ⟨0x200000000, fun _ => 0, fun _ => 0, fun _ => 0⟩

theorem sampleFile_backed :
    Backed sampleDisk.unit.storageUnitParams sampleRawDisk sampleFile.size :=
  ⟨unitOk_of_valid sampleDisk_valid, by decide, by decide, by decide⟩

/-- A WRITE (16) of the first block, with force unit access. -/
def sampleForcedWrite : Srb :=
  sampleSrb ⟨#[scsiopWrite16, 0x08, 0, 0, 0, 0, 0, 0, 0, 0, 0, 0, 0, 1, 0, 0], rfl⟩
    ((List.range 16).map UInt8.ofNat)

def sampleReadBack : Srb := sampleSrb (sampleCdb scsiopRead16 0 0 0 1) (List.replicate 16 0)

/-- The steps that StorPort has no part in. -/
def unpromised : DiskEvent → Bool
  | .act (.unit op) _ =>
      match op with
      | .transactReq _ => true
      | .transactRsp _ _ => true
      | _ => false
  | _ => true

theorem promised_of_unpromised {unit : StorageUnitParams} (h : unpromised ev = true) :
    Promised unit w ev := by
  cases ev with
  | act act y =>
      cases act with
      | unit op =>
          cases op with
          | transactReq buf => exact fun hnot => absurd trivial hnot
          | transactRsp rsp buf => exact fun hnot => absurd trivial hnot
          | _ => cases h
      | _ => trivial
  | _ => trivial

abbrev SampleEntry : DiskProg Unit → Prop :=
  DiskEntry sampleDisk.unit.storageUnitParams sampleRawDisk .forward

abbrev SampleStep : DiskWorld → DiskEvent → DiskWorld → Prop :=
  DiskStep sampleDisk sampleRawDisk .forward

def samplePlays (w : DiskWorld) (ms : List (DiskChoice × Threads.Move SampleEntry)) :
    Option (List DiskEvent × DiskWorld) :=
  Threads.plays (diskRules sampleDisk.unit.storageUnitParams sampleRawDisk)
    (fun c s a => a.exec sampleDisk s c) (fun _ _ ev => unpromised ev) [] w ms

theorem samplePlays_run {ms : List (DiskChoice × Threads.Move SampleEntry)}
    (h : samplePlays w ms = some (ls, w')) : Run SampleStep w ls w' :=
  (RunWhen.steps (Threads.plays_run (P := fun _ => Promised _) (fun c _ _ _ _ h => ⟨c, h⟩)
    (fun _ _ _ h => promised_of_unpromised h) .nil h)).mono fun hstep => ⟨hstep.1, hstep.2⟩

/-- The thread that comes in last, `n` times. -/
def sampleTurns (n : Nat) (c : DiskChoice) : List (DiskChoice × Threads.Move SampleEntry) :=
  List.replicate n (c, .turn 0)

def succeeds : DiskEvent → Bool
  | .act (.unit _) uev => decide (.srbComplete 0x2000 srbStatusSuccess ∈ UnitEvent.calls uev)
  | _ => false

/-- StorPort starts the SRB, the threads do as they are told, and the last of the steps
completes it. -/
def sampleCarry (srb : Srb) (s : DiskSys)
    (ts : List (Thread DiskAction DiskAction.Answer DiskServing))
    (ms : List (DiskChoice × Threads.Move SampleEntry)) :
    Option (DiskWorld × List DiskEvent × DiskWorld × DiskEvent × DiskWorld) := do
  let x ← DiskAction.exec sampleDisk s (.unit (.startIo 0x2000 srb .success)) .runs
  let (ls, w) ← samplePlays ⟨x.1, ⟨.ret (), ⟨none, []⟩⟩ :: ts⟩ ms
  let (ev, w') ← Threads.move (diskRules sampleDisk.unit.storageUnitParams sampleRawDisk)
    (fun s a => a.exec sampleDisk s .runs) w (.turn 0 : Threads.Move SampleEntry)
  if 0x2000 ∉ UnitEvent.completed x.2 ∧
    (∀ uev ∈ unitEvents ls, 0x2000 ∉ uev.completed) ∧
      unpromised ev ∧ succeeds ev ∧
      (∀ t ∈ ts, ∀ r ∈ t.account.request, r.1.hint ≠ srb.miniportContext) then
    some (⟨x.1, ⟨.ret (), ⟨none, []⟩⟩ :: ts⟩, ls, w, ev, w')
  else none

def startThread (srb : Srb) : Thread DiskAction DiskAction.Answer DiskServing :=
  ⟨diskAction (.unit (.startIo 0x2000 srb .success)) >>= fun _ => pure (), ⟨none, []⟩⟩

theorem sampleCarry_carried {ts : List (Thread DiskAction DiskAction.Answer DiskServing)}
    {ms : List (DiskChoice × Threads.Move SampleEntry)}
    (h : sampleCarry srb s ts ms = some (w₁, ls, w, ev, w'))
    (hallowed : UnitOp.Allowed sampleDisk.unit.storageUnitParams s.unit.live
      (.startIo 0x2000 srb .success)) :
    CarriedOut sampleDisk sampleRawDisk .forward 0x2000 srb ⟨s, startThread srb :: ts⟩ w₁
      ls w w' := by
  simp only [sampleCarry, Option.bind_eq_bind, Option.bind_eq_some_iff] at h
  obtain ⟨⟨s₁, uev⟩, hexec, ⟨ls, w⟩, hplays, ⟨ev, w'⟩, hmove, h⟩ := h
  dsimp only at h
  split at h
  · next hchecks =>
      cases h
      obtain ⟨hposted, hlive, hunpromised, hsucceeds, hfresh⟩ := hchecks
      refine ⟨fun g hg hholds => ?_, ?_, samplePlays_run hplays, hlive, ?_⟩
      · obtain ⟨r, hr, hhint⟩ := hholds
        rcases List.mem_cons.mp hg with rfl | hg
        · cases hr
        · obtain ⟨t, ht, rfl⟩ := List.mem_map.mp hg
          exact hfresh t ht r hr hhint
      · exact ⟨.success, uev, hposted, Threads.step_head ⟨.runs, hexec⟩, fun _ => hallowed⟩
      · have hrun : ∀ s a s' r, DiskAction.exec sampleDisk s a .runs = some (s', r) →
            DiskAction.Exec sampleDisk s a r s' ∧ True := fun _ _ _ _ h =>
              ⟨⟨.runs, h⟩, trivial⟩
        have hstep : SampleStep w ev w' :=
          ⟨(Threads.move_step hrun hmove).1, promised_of_unpromised hunpromised⟩
        cases ev with
        | act act y =>
            cases act with
            | unit op => exact ⟨op, y, of_decide_eq_true hsucceeds, hstep⟩
            | _ => cases hsucceeds
        | _ => cases hsucceeds
  · cases h

def dispatcherThread : Thread DiskAction DiskAction.Answer DiskServing :=
  ⟨diskThread sampleRawDisk .forward 3 false (List.replicate 32 0), ⟨none, []⟩⟩

/-- The WRITE: the dispatcher thread asks for a request, copies, flushes and responds. -/
def sampleWritten : Option (DiskWorld × List DiskEvent × DiskWorld × DiskEvent × DiskWorld) :=
  sampleCarry sampleForcedWrite ⟨.create (sampleMem sampleForcedWrite) zeroedIoq, sampleFile⟩
    [dispatcherThread]
    (sampleTurns 1 .runs ++ sampleTurns 1 (.ends 0) ++ sampleTurns 1 .runs ++
      sampleTurns 18 (.file .succeeds) ++ sampleTurns 1 (.ends 0))

def sampleReadAfter : Option (DiskWorld × List DiskEvent × DiskWorld × DiskEvent × DiskWorld) :=
  sampleWritten.bind fun x =>
  sampleCarry sampleReadBack x.2.2.2.2.shared x.2.2.2.2.threads
    (sampleTurns 2 .runs ++ sampleTurns 16 (.file .succeeds) ++ sampleTurns 1 (.ends 0))

theorem sampleWritten_eq :
    ∃ w₁ ls w₂ ev w₃, sampleWritten = some (w₁, ls, w₂, ev, w₃) ∧
    w₃.shared.unit.live = [] := by
  have h : (sampleWritten.map fun x => x.2.2.2.2.shared.unit.live) = some [] := by rfl
  obtain ⟨⟨w₁, ls, w₂, ev, w₃⟩, hx, hlive⟩ := Option.map_eq_some_iff.mp h
  exact ⟨w₁, ls, w₂, ev, w₃, hx, hlive⟩

def sampleWorld : DiskWorld :=
  ⟨⟨.create (sampleMem sampleForcedWrite) zeroedIoq, sampleFile⟩,
    [startThread sampleForcedWrite, dispatcherThread]⟩

theorem startThread_entry {srb : Srb} : SampleEntry (startThread srb).prog := .storPort _ id

theorem sampleWorld_run : Run SampleStep
    (.start (sampleMem sampleForcedWrite) zeroedIoq sampleFile) [.enter, .enter] sampleWorld :=
  .cons ⟨.enter (.dispatcher 3 false _ rfl), trivial⟩
    (.single ⟨.enter startThread_entry, trivial⟩)

theorem sampleForcedWrite_allowed : UnitOp.Allowed sampleDisk.unit.storageUnitParams []
    (.startIo 0x2000 sampleForcedWrite .success) := by
  refine ⟨by decide, by decide, fun j hj => (by cases hj), fun buf hbuf => ?_, fun _ _ => ?_,
    fun buf hbuf => ?_⟩
  · cases hbuf
    decide
  · simp [sampleForcedWrite, sampleSrb]
  · cases hbuf

theorem sampleReadBack_allowed : UnitOp.Allowed sampleDisk.unit.storageUnitParams []
    (.startIo 0x2000 sampleReadBack .success) := by
  refine ⟨by decide, by decide, fun j hj => (by cases hj), fun buf hbuf => ?_, fun _ _ => ?_,
    fun buf hbuf => ?_⟩
  · cases hbuf
    decide
  · simp [sampleReadBack, sampleSrb]
  · cases hbuf

theorem sampleWritten_carried {w₂ w₃ : DiskWorld}
    (h : sampleWritten = some (w₁, ls, w₂, ev, w₃)) :
    CarriedOut sampleDisk sampleRawDisk .forward 0x2000 sampleForcedWrite sampleWorld w₁
      ls w₂ w₃ :=
  sampleCarry_carried h sampleForcedWrite_allowed

theorem sampleReadAfter_carried {w₁' w₂ w₃ w₄ w₅ : DiskWorld} {ev' : DiskEvent}
    (h : sampleWritten = some (w₁, ls, w₂, ev, w₃)) (hlive : w₃.shared.unit.live = [])
    (h' : sampleReadAfter = some (w₁', ls', w₄, ev', w₅)) :
    Run SampleStep w₃ [.enter] ⟨w₃.shared, startThread sampleReadBack :: w₃.threads⟩ ∧
      CarriedOut sampleDisk sampleRawDisk .forward 0x2000 sampleReadBack
        ⟨w₃.shared, startThread sampleReadBack :: w₃.threads⟩ w₁' ls' w₄ w₅ := by
  rw [sampleReadAfter, h] at h'
  have hallowed := sampleReadBack_allowed
  rw [← hlive] at hallowed
  exact ⟨.single ⟨.enter startThread_entry, trivial⟩, sampleCarry_carried h' hallowed⟩

def sampleRange (forceUnitAccess : Bool) : CdbRange := ⟨0, 1, forceUnitAccess⟩

theorem sampleForcedWrite_range :
    spdCdbGetRange sampleForcedWrite.cdb = some (sampleRange true) := by
  decide

theorem sampleReadBack_range : spdCdbGetRange sampleReadBack.cdb = some (sampleRange false) := by
  decide

/-- It is put into the file. -/
theorem rawdisk_write_block : ∃ w₁ ls w₂ w₃,
    CarriedOut sampleDisk sampleRawDisk .forward 0x2000 sampleForcedWrite sampleWorld w₁ ls
      w₂ w₃ ∧
      ∀ j < 16, ∃ ls₁ ls₂ v, ls = ls₁ ++ ls₂ ∧ Run SampleStep w₁ ls₁ v ∧
        Run SampleStep v ls₂ w₂ ∧
        ((List.range 16).map UInt8.ofNat)[j]? = some (v.shared.file.view (0 + j)) := by
  obtain ⟨w₁, ls, w₂, ev, w₃, h, -⟩ := sampleWritten_eq
  have hc := sampleWritten_carried h
  exact ⟨w₁, ls, w₂, w₃, hc, rawdisk_write sampleFile_backed sampleWorld_run hc (by decide)
    sampleForcedWrite_range (by decide) rfl⟩

/-- And it is read. -/
theorem rawdisk_read_block : ∃ w₀ w₁ ls w w' data,
    CarriedOut sampleDisk sampleRawDisk .forward 0x2000 sampleReadBack w₀ w₁ ls w w' ∧
      (w'.shared.unit.mem.srb 0x2000).dataBuffer = some data ∧
      ∀ j < 16, ∃ ls₁ ls₂ v, ls = ls₁ ++ ls₂ ∧ Run SampleStep w₁ ls₁ v ∧
        Run SampleStep v ls₂ w ∧
        data[j]? = some (v.shared.file.view (0 + j)) := by
  obtain ⟨w₁, ls, w₂, ev, w₃, h, hlive⟩ := sampleWritten_eq
  have hread : (sampleReadAfter.map fun _ => ()) = some () := by rfl
  obtain ⟨⟨w₁', ls', w₄, ev', w₅⟩, h', -⟩ := Option.map_eq_some_iff.mp hread
  obtain ⟨hbetween, hc⟩ := sampleReadAfter_carried h hlive h'
  obtain ⟨ls₀, hwhole⟩ := (sampleWritten_carried h).whole
  exact ⟨_, _, _, _, _, (rawdisk_read sampleFile_backed
    (sampleWorld_run.append (hwhole.append hbetween)) hc rfl sampleReadBack_range (by decide)).imp
      fun data hdata => ⟨hc, hdata⟩⟩

end Sample

end Winspd.Proofs
