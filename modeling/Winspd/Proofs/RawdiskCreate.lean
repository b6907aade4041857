import Winspd.Proofs.RawdiskOperations
import Winspd.Proofs.RawdiskProcess

/-!
# RawDiskCreate

However its system calls end, `RawDiskCreate` either returns an error and has
released what it has acquired, or it returns an object with its unit, its view, its
handles and its memory. A file that was not empty has the bytes and the size it had. In
a disk that is new there is nothing but a table of partitions: one partition, which is
the rest of the disk.

The file of an object has the blocks of its unit (`Backed`), unless the product of
`BlockCount` and `BlockLength` has wrapped around.
-/

namespace Winspd.Proofs

open Winspd.Lib Winspd.Sys Winspd.Shared Winspd.Rawdisk

variable {s s' : RawDiskProcess} {f f₀ : RawDiskFile} {stage : FileStage} {g : MainAccount}
  {rs : List Nat} {r : Nat} {kind : ResourceKind} {error : UInt32}

/-! ## The file -/

/-- What is in the view, and the size. -/
def SameView (f f' : RawDiskFile) : Prop := f.size = f'.size ∧ f.view = f'.view

theorem SameView.setEnd {f f' : RawDiskFile} {size : Nat} (h : SameView f f') :
    SameView (f.setEnd size) (f'.setEnd size) := by
  obtain ⟨hsize, hview⟩ := h
  refine ⟨rfl, ?_⟩
  unfold RawDiskFile.setEnd
  rw [hsize, hview]

theorem SameView.overwrite {f f' : RawDiskFile} {bytes : List UInt8} (h : SameView f f') :
    SameView (f.overwrite bytes) (f'.overwrite bytes) := by
  obtain ⟨hsize, hview⟩ := h
  refine ⟨hsize, ?_⟩
  unfold RawDiskFile.overwrite
  rw [hview]

/-- What the main thread knows about the file, which was `f₀`. -/
def KnowsFile (f₀ : RawDiskFile) (s : RawDiskProcess) : FileStage → Prop
  | .unknown => SameView s.file f₀
  | .sized size => SameView s.file f₀ ∧ size.toNat = f₀.size
  | .pointed size newSize => SameView s.file f₀ ∧ size.toNat = f₀.size ∧
      (size = 0 ∨ size = newSize) ∧ newSize.toNat < 2 ^ 63 ∧ s.position = newSize
  | .ended size newSize => SameView s.file (f₀.setEnd newSize.toNat) ∧
      size.toNat = f₀.size ∧
      (size = 0 ∨ size = newSize) ∧ newSize.toNat < 2 ^ 63
  | .tabled newSize table => SameView s.file ((f₀.setEnd newSize.toNat).overwrite table) ∧
      f₀.size = 0 ∧ newSize.toNat < 2 ^ 63

theorem KnowsFile.keep (h : KnowsFile f₀ s stage) (hview : SameView s'.file s.file)
    (hposition : s'.position = s.position) : KnowsFile f₀ s' stage := by
  have htrans : ∀ {f}, SameView s.file f → SameView s'.file f := fun h =>
    ⟨hview.1.trans h.1, hview.2.trans h.2⟩
  cases stage with
  | unknown => exact htrans h
  | sized size => exact ⟨htrans h.1, h.2⟩
  | pointed size newSize =>
      exact ⟨htrans h.1, h.2.1, h.2.2.1, h.2.2.2.1, hposition.trans h.2.2.2.2⟩
  | ended size newSize => exact ⟨htrans h.1, h.2⟩
  | tabled newSize table => exact ⟨htrans h.1, h.2⟩

theorem FileAction.flush_view {a : FileAction} {c : FileChoice} {r : a.Answer} {f' : RawDiskFile}
    (ha : a = .flushViewOfFile 0 0 ∨ a = .flushFileBuffers)
    (hexec : a.exec f c = some (f', r)) : SameView f' f := by
  rcases ha with rfl | rfl
  · cases c with
    | raises _ => cases hexec
    | succeeds | fails =>
        cases hexec
        exact ⟨rfl, rfl⟩
  · cases c with
    | raises _ => cases hexec
    | succeeds | fails =>
        cases hexec
        exact ⟨rfl, rfl⟩

/-! ## What the main thread changes -/

/-- What an action of the main thread changes, and what was so before. -/
inductive MainEffect (s : RawDiskProcess) (g : MainAccount) :
    RawDiskProcess → MainAccount → Prop
  | nothing : MainEffect s g s g
  | acquires (kind : ResourceKind) (hdispatching : g.dispatching = false) :
      MainEffect s g s.acquire.1 (g.push kind s.acquire.2)
  | releases {kind : ResourceKind} {r : Nat} (hfrees : g.Frees kind r) :
      MainEffect s g (s.release r) g.pop
  | sizes (hstage : g.file = .unknown) (hsmall : s.file.size < 2 ^ 63) :
      MainEffect s g s { g with file := .sized (UInt64.ofNat s.file.size) }
  | points {size newSize : UInt64} (hstage : g.file = .sized size)
      (hkept : size = 0 ∨ size = newSize) (hsmall : newSize.toNat < 2 ^ 63) :
      MainEffect s g { s with position := newSize } { g with file := .pointed size newSize }
  | ends {size newSize : UInt64} (hstage : g.file = .pointed size newSize) :
      MainEffect s g { s with file := s.file.setEnd s.position.toNat }
        { g with file := .ended size newSize }
  | tables {newSize : UInt64} {partition : SpdPartition} (hstage : g.file = .ended 0 newSize) :
      MainEffect s g { s with file := s.file.overwrite (definesTable partition).2 }
        { g with file := .tabled newSize (definesTable partition).2 }
  | flushes {f : RawDiskFile} (hview : SameView f s.file) : MainEffect s g { s with file := f } g
  | describes (params : StorageUnitParams) :
      MainEffect s g { s with params := params } { g with params := params }
  | creates (params : StorageUnitParams) (hdispatching : g.dispatching = false) :
      MainEffect s g { s with params := params }.acquire.1
        { g.push .unit s.acquire.2 with params := params }
  | refers {object : RawDiskObject} (hheld : g.held = objectHeld object)
      (hdispatching : g.dispatching = false) :
      MainEffect s g { s with userContext := some object } { g with userContext := some object }
  | starts {object : RawDiskObject} (hcontext : g.userContext = some object)
      (hheld : g.held = objectHeld object) (hdispatching : g.dispatching = false) :
      MainEffect s g { s with ready := s.ready + 1 } { g with dispatching := true }
  | waits (hready : s.ready = 0) (hrunning : s.running = 0) :
      MainEffect s g s { g with dispatching := false }
  | locks (hshared : s.lockShared = 0) :
      MainEffect s g { s with lockExclusive := true } { g with locked := true }
  | unlocks : MainEffect s g { s with lockExclusive := false } { g with locked := false }
  | guards {pointer : Option Nat} (hlocked : g.locked = true)
      (hheld : ∀ storageUnit, pointer = some storageUnit → (.unit, storageUnit) ∈ g.held) :
      MainEffect s g { s with guardPointer := pointer } { g with guarded := pointer }
  | handles : MainEffect s g { s with handlerSet := true } g

theorem tryAcquire_cases {x : Except UInt32 Nat} (h : some (s.tryAcquire error) = some (s', x)) :
    (∃ e, x = .error e ∧ e ≠ 0 ∧ s' = s) ∨
      x = .ok s.resources.acquire.2 ∧ s' = { s with resources := s.resources.acquire.1 } := by
  unfold RawDiskProcess.tryAcquire at h
  split at h
  · cases h
    exact .inr ⟨rfl, rfl⟩
  · next hne =>
      cases h
      exact .inl ⟨error, rfl, hne, rfl⟩

theorem MainAccount.told {a : ProcessAction} {x : a.Answer} (hexec : a.Exec s x s') :
    MainAccount.Told a x := by
  obtain ⟨c, hexec⟩ := hexec
  cases a with
  | createFile | createFileMapping _ | mapViewOfFile _ | spdStorageUnitCreate _ =>
      cases c with
      | ends error =>
          rcases tryAcquire_cases hexec with ⟨e, rfl, hne, -⟩ | ⟨rfl, -⟩
          · exact hne
          · trivial
      | _ => cases hexec
  | getFileSizeEx handle =>
      cases c with
      | ends error =>
          simp only [ProcessAction.exec] at hexec
          split at hexec
          · obtain ⟨-, heq⟩ := Option.ite_none_right_eq_some.mp hexec
            cases heq
            trivial
          · next hne =>
              cases hexec
              exact hne
      | _ => cases hexec
  | spdDefinePartitionTable partition pointer =>
      simp only [ProcessAction.exec] at hexec
      split at hexec
      · cases hexec
        rfl
      · obtain ⟨-, heq⟩ := Option.ite_none_right_eq_some.mp hexec
        cases heq
        rfl
  | _ => trivial

theorem MainAccount.effect_malloc {x : ProcessAction.Answer .malloc}
    (hmay : g.May .malloc) (hexec : ProcessAction.Exec s .malloc x s') :
    MainEffect s g s' (g.next .malloc x) := by
  obtain ⟨c, hexec⟩ := hexec
  cases c with
  | ends error =>
      simp only [ProcessAction.exec] at hexec
      split at hexec
      · cases hexec
        exact .acquires .memory hmay
      · cases hexec
        exact .nothing
  | _ => cases hexec

theorem MainAccount.effect_getFileSizeEx {handle : Nat}
    {x : ProcessAction.Answer (.getFileSizeEx handle)}
    (hmay : g.May (.getFileSizeEx handle))
    (hexec : ProcessAction.Exec s (.getFileSizeEx handle) x s') :
    MainEffect s g s' (g.next (.getFileSizeEx handle) x) := by
  obtain ⟨c, hexec⟩ := hexec
  cases c with
  | ends error =>
      simp only [ProcessAction.exec] at hexec
      split at hexec
      · obtain ⟨hsmall, heq⟩ := Option.ite_none_right_eq_some.mp hexec
        cases heq
        exact .sizes hmay.2 hsmall
      · cases hexec
        exact .nothing
  | _ => cases hexec

/-- The pointer goes to the size that the file has or is to have. -/
theorem MainAccount.effect_setFilePointerEx {handle : Nat} {distance : UInt64}
    {x : ProcessAction.Answer (.setFilePointerEx handle distance)}
    (hmay : g.May (.setFilePointerEx handle distance))
    (hexec : ProcessAction.Exec s (.setFilePointerEx handle distance) x s') :
    MainEffect s g s' (g.next (.setFilePointerEx handle distance) x) := by
  obtain ⟨c, hexec⟩ := hexec
  obtain ⟨held, stage, params, userContext, dispatching, locked, guarded⟩ := g
  obtain ⟨-, size, hstage, hkept⟩ := hmay
  cases (show stage = .sized size from hstage)
  cases c with
  | ends error =>
      simp only [ProcessAction.exec] at hexec
      split at hexec
      · obtain ⟨hsmall, heq⟩ := Option.ite_none_right_eq_some.mp hexec
        cases heq
        exact .points rfl hkept hsmall
      · next hne =>
          cases hexec
          have hnext : MainAccount.next
              ⟨held, .sized size, params, userContext, dispatching, locked, guarded⟩
              (.setFilePointerEx handle distance) x = _ := if_neg hne
          rw [hnext]
          exact .nothing
  | _ => cases hexec

theorem MainAccount.effect_setEndOfFile {handle : Nat}
    {x : ProcessAction.Answer (.setEndOfFile handle)}
    (hmay : g.May (.setEndOfFile handle))
    (hexec : ProcessAction.Exec s (.setEndOfFile handle) x s') :
    MainEffect s g s' (g.next (.setEndOfFile handle) x) := by
  obtain ⟨c, hexec⟩ := hexec
  obtain ⟨held, stage, params, userContext, dispatching, locked, guarded⟩ := g
  obtain ⟨-, size, newSize, hstage⟩ := hmay
  cases (show stage = .pointed size newSize from hstage)
  cases c with
  | ends error =>
      simp only [ProcessAction.exec] at hexec
      split at hexec
      · cases hexec
        exact .ends rfl
      · next hne =>
          cases hexec
          have hnext : MainAccount.next
              ⟨held, .pointed size newSize, params, userContext, dispatching, locked, guarded⟩
              (.setEndOfFile handle) x = _ := if_neg hne
          rw [hnext]
          exact .nothing
  | _ => cases hexec

/-- A table is written to a file that had nothing in it. -/
theorem MainAccount.effect_spdDefinePartitionTable {partition : SpdPartition} {pointer : Nat}
    {x : ProcessAction.Answer (.spdDefinePartitionTable partition pointer)}
    (hmay : g.May (.spdDefinePartitionTable partition pointer))
    (hexec : ProcessAction.Exec s (.spdDefinePartitionTable partition pointer) x s') :
    MainEffect s g s' (g.next (.spdDefinePartitionTable partition pointer) x) := by
  obtain ⟨c, hexec⟩ := hexec
  obtain ⟨held, stage, params, userContext, dispatching, locked, guarded⟩ := g
  obtain ⟨-, newSize, hstage, -⟩ := hmay
  cases (show stage = .ended 0 newSize from hstage)
  simp only [ProcessAction.exec] at hexec
  split at hexec
  · next hfail =>
      cases hexec
      have hnext : MainAccount.next
          ⟨held, .ended 0 newSize, params, userContext, dispatching, locked, guarded⟩
          (.spdDefinePartitionTable partition pointer) (definesTable partition).1 = _ :=
        if_neg hfail
      show MainEffect _ _ _ (MainAccount.next _ (.spdDefinePartitionTable partition pointer)
        (definesTable partition).1)
      rw [hnext]
      exact .nothing
  · next hok =>
      obtain ⟨-, heq⟩ := Option.ite_none_right_eq_some.mp hexec
      cases heq
      have hnext : MainAccount.next
          ⟨held, .ended 0 newSize, params, userContext, dispatching, locked, guarded⟩
          (.spdDefinePartitionTable partition pointer) (definesTable partition).1 = _ :=
        if_pos (not_ne_iff.mp hok)
      show MainEffect _ _ _ (MainAccount.next _ (.spdDefinePartitionTable partition pointer)
        (definesTable partition).1)
      rw [hnext]
      exact .tables rfl

/-- A dispatcher that does not start leaves the account as it was. -/
theorem MainAccount.effect_spdStorageUnitStartDispatcher {storageUnit : Nat} {threadCount : UInt32}
    {x : ProcessAction.Answer (.spdStorageUnitStartDispatcher storageUnit threadCount)}
    (hmay : g.May (.spdStorageUnitStartDispatcher storageUnit threadCount))
    (hexec : ProcessAction.Exec s (.spdStorageUnitStartDispatcher storageUnit threadCount) x s') :
    MainEffect s g s' (g.next (.spdStorageUnitStartDispatcher storageUnit threadCount) x) := by
  obtain ⟨c, hexec⟩ := hexec
  obtain ⟨held, stage, params, userContext, dispatching, locked, guarded⟩ := g
  obtain ⟨hdispatching, object, hcontext, -, hheld⟩ := hmay
  cases (show dispatching = false from hdispatching)
  cases c with
  | ends error =>
      simp only [ProcessAction.exec] at hexec
      split at hexec
      · cases hexec
        exact .starts hcontext hheld rfl
      · next hne =>
          cases hexec
          have hnext : MainAccount.next
              ⟨held, stage, params, userContext, false, locked, guarded⟩
              (.spdStorageUnitStartDispatcher storageUnit threadCount) x =
              ⟨held, stage, params, userContext, false, locked, guarded⟩ := by
            show MainAccount.mk held stage params userContext (decide (x = 0)) locked guarded = _
            rw [decide_eq_false hne]
          rw [hnext]
          exact .nothing
  | _ => cases hexec

theorem MainAccount.effect {a : ProcessAction} {x : a.Answer} (hmay : g.May a)
    (hexec : a.Exec s x s') : MainEffect s g s' (g.next a x) := by
  cases a with
  | uuidCreate =>
      obtain ⟨c, hexec⟩ := hexec
      cases c with
      | creates guid =>
          cases hexec
          exact .nothing
      | _ => cases hexec
  | wideCharToMultiByte chars size =>
      obtain ⟨c, hexec⟩ := hexec
      cases c with
      | converts bytes =>
          obtain ⟨-, heq⟩ := Option.ite_none_right_eq_some.mp hexec
          cases heq
          exact .nothing
      | ends error =>
          cases hexec
          exact .nothing
      | _ => cases hexec
  | malloc => exact effect_malloc hmay hexec
  | free memory =>
      obtain ⟨c, hexec⟩ := hexec
      cases memory with
      | none =>
          cases hexec
          exact .nothing
      | some memory =>
          cases hexec
          exact .releases hmay
  | createFile =>
      obtain ⟨c, hexec⟩ := hexec
      cases c with
      | ends error =>
          rcases tryAcquire_cases hexec with ⟨e, rfl, -, rfl⟩ | ⟨rfl, rfl⟩
          · exact .nothing
          · exact .acquires .file hmay
      | _ => cases hexec
  | setSparse handle =>
      obtain ⟨c, hexec⟩ := hexec
      cases c with
      | ends error =>
          cases hexec
          exact .nothing
      | _ => cases hexec
  | getFileSizeEx handle => exact effect_getFileSizeEx hmay hexec
  | setFilePointerEx handle distance => exact effect_setFilePointerEx hmay hexec
  | setEndOfFile handle => exact effect_setEndOfFile hmay hexec
  | createFileMapping handle =>
      obtain ⟨c, hexec⟩ := hexec
      cases c with
      | ends error =>
          rcases tryAcquire_cases hexec with ⟨e, rfl, -, rfl⟩ | ⟨rfl, rfl⟩
          · exact .nothing
          · exact .acquires .mapping hmay.2
      | _ => cases hexec
  | mapViewOfFile mapping =>
      obtain ⟨c, hexec⟩ := hexec
      cases c with
      | ends error =>
          rcases tryAcquire_cases hexec with ⟨e, rfl, -, rfl⟩ | ⟨rfl, rfl⟩
          · exact .nothing
          · exact .acquires .view hmay.2
      | _ => cases hexec
  | unmapViewOfFile pointer =>
      obtain ⟨c, hexec⟩ := hexec
      cases hexec
      exact .releases hmay
  | closeHandle handle =>
      obtain ⟨c, hexec⟩ := hexec
      cases hexec
      exact hmay.elim .releases .releases
  | spdDefinePartitionTable partition pointer => exact effect_spdDefinePartitionTable hmay hexec
  | file pointer handle a =>
      obtain ⟨c, hexec⟩ := hexec
      cases c with
      | file c =>
          obtain ⟨x, ha, heq⟩ := Option.map_eq_some_iff.mp hexec
          cases heq
          exact .flushes (FileAction.flush_view hmay.2.2 ha)
      | _ => cases hexec
  | spdStorageUnitCreate params =>
      obtain ⟨c, hexec⟩ := hexec
      cases c with
      | ends error =>
          rcases tryAcquire_cases hexec with ⟨e, rfl, -, rfl⟩ | ⟨rfl, rfl⟩
          · exact .describes params
          · exact .creates params hmay
      | _ => cases hexec
  | spdStorageUnitDelete storageUnit =>
      obtain ⟨c, hexec⟩ := hexec
      cases hexec
      exact .releases hmay
  | setUserContext storageUnit object =>
      obtain ⟨c, hexec⟩ := hexec
      cases hexec
      exact .refers hmay.2.1 hmay.2.2
  | exitProcess error => exact x.elim
  | spdStorageUnitStartDispatcher storageUnit threadCount =>
      exact effect_spdStorageUnitStartDispatcher hmay hexec
  | spdStorageUnitWaitDispatcher storageUnit =>
      obtain ⟨c, hexec⟩ := hexec
      obtain ⟨⟨hready, hrunning⟩, heq⟩ := Option.ite_none_right_eq_some.mp hexec
      cases heq
      exact .waits hready hrunning
  | acquireExclusive =>
      obtain ⟨c, hexec⟩ := hexec
      obtain ⟨⟨hshared, -⟩, heq⟩ := Option.ite_none_right_eq_some.mp hexec
      cases heq
      exact .locks hshared
  | releaseExclusive =>
      obtain ⟨c, hexec⟩ := hexec
      cases hexec
      exact .unlocks
  | setPointer pointer =>
      obtain ⟨c, hexec⟩ := hexec
      cases hexec
      exact .guards hmay.1 hmay.2
  | setConsoleCtrlHandler =>
      obtain ⟨c, hexec⟩ := hexec
      cases hexec
      exact .handles
  | _ => cases hmay

/-! ## The invariant -/

/-- What the main thread has, in addition to `rs`, and what it knows. -/
structure MainKnows (f₀ : RawDiskFile) (rs : List Nat) (s : RawDiskProcess) (g : MainAccount) :
    Prop where
  holds : s.resources.Holds (g.held.map Prod.snd ++ rs)
  file : KnowsFile f₀ s g.file
  params : s.params = g.params

theorem MainAccount.Frees.held_eq (hfrees : g.Frees kind r) : g.held = (kind, r) :: g.pop.held :=
  List.eq_cons_of_mem_head? hfrees.1

theorem MainKnows.step {g' : MainAccount} (h : MainKnows f₀ rs s g)
    (heffect : MainEffect s g s' g') :
    MainKnows f₀ rs s' g' := by
  have hfile := h.file
  cases heffect with
  | nothing => exact h
  | acquires kind _ => exact ⟨h.holds.acquire, hfile.keep ⟨rfl, rfl⟩ rfl, h.params⟩
  | creates params _ => exact ⟨h.holds.acquire, hfile.keep ⟨rfl, rfl⟩ rfl, rfl⟩
  | releases hfrees =>
      have hholds := h.holds
      rw [hfrees.held_eq] at hholds
      exact ⟨hholds.release, hfile.keep ⟨rfl, rfl⟩ rfl, h.params⟩
  | sizes hstage hsmall =>
      rw [hstage] at hfile
      have hnat : (UInt64.ofNat s.file.size).toNat = s.file.size := Nat.mod_eq_of_lt (by omega)
      exact ⟨h.holds, ⟨hfile, hnat.trans hfile.1⟩, h.params⟩
  | points hstage hkept hsmall =>
      rw [hstage] at hfile
      exact ⟨h.holds, ⟨hfile.1, hfile.2, hkept, hsmall, rfl⟩, h.params⟩
  | ends hstage =>
      rw [hstage] at hfile
      obtain ⟨hview, hsize, hkept, hsmall, hposition⟩ := hfile
      rw [hposition]
      exact ⟨h.holds, ⟨hview.setEnd, hsize, hkept, hsmall⟩, h.params⟩
  | tables hstage =>
      rw [hstage] at hfile
      obtain ⟨hview, hsize, -, hsmall⟩ := hfile
      exact ⟨h.holds, ⟨hview.overwrite, hsize.symm, hsmall⟩, h.params⟩
  | flushes hview => exact ⟨h.holds, hfile.keep hview rfl, h.params⟩
  | describes params => exact ⟨h.holds, hfile.keep ⟨rfl, rfl⟩ rfl, rfl⟩
  | refers | starts | locks | unlocks | guards | handles =>
      exact ⟨h.holds, hfile.keep ⟨rfl, rfl⟩ rfl, h.params⟩
  | waits => exact ⟨h.holds, hfile, h.params⟩

/-! ## Every outcome -/

/-- The blocks of a disk that was new: zero, and the table in front. -/
structure NewDisk (args : RawDiskArgs) (f : RawDiskFile) : Prop where
  /-- With a table it is of one partition. -/
  table : ¬ SpdPartition.Unrepresentable args.partition → 512 ≤ f.size ∧
    ∃ table, TableOf (fun _ => args.partition) 1 table ∧
      ∀ p < f.size, f.view p = table.getD p 0
  none : SpdPartition.Unrepresentable args.partition → ∀ p < f.size, f.view p = 0

/-- A file that was not empty is what it was. -/
def Preserved (f f' : RawDiskFile) : Prop :=
  f.size ≠ 0 → f'.size = f.size ∧ ∀ p < f.size, f'.view p = f.view p

/-- What `RawDiskCreate` leaves. -/
structure CreateOutcome (args : RawDiskArgs) (rs : List Nat) (s s' : RawDiskProcess)
    (r : Except UInt32 RawDiskObject) : Prop where
  preserved : Preserved s.file s'.file
  error : ∀ error, r = .error error → error ≠ 0 ∧ s'.resources.Holds rs
  holds : ∀ object, r = .ok object → s'.resources.Holds ((objectHeld object).map Prod.snd ++ rs)
  size : ∀ object, r = .ok object → s'.file.size = args.size.toNat ∧ 0 < s'.file.size ∧
    (s.file.size = 0 ∨ s.file.size = args.size.toNat)
  /-- The multiplication has not wrapped around. -/
  backed : ∀ object, r = .ok object → (Backed s'.params object.rawDisk s'.file.size ↔
    UnitOk s'.params ∧ args.blockCount.toNat * args.blockLength.toNat < 2 ^ 64)
  new : ∀ object, r = .ok object → s.file.size = 0 → NewDisk args s'.file

theorem KnowsFile.preserved (h : KnowsFile f₀ s stage) : Preserved f₀ s.file := by
  intro hne
  cases stage with
  | unknown => exact ⟨h.1, fun p _ => by rw [h.2]⟩
  | sized size => exact ⟨h.1.1, fun p _ => by rw [h.1.2]⟩
  | pointed size newSize => exact ⟨h.1.1, fun p _ => by rw [h.1.2]⟩
  | ended size newSize =>
      obtain ⟨⟨hsize, hview⟩, hold, hkept, -⟩ := h
      have hnonzero : size ≠ 0 := by
        rintro rfl
        exact hne hold.symm
      obtain rfl : size = newSize := hkept.resolve_left hnonzero
      refine ⟨hsize.trans hold, fun p hp => ?_⟩
      rw [hview]
      exact if_pos hp
  | tabled newSize table => exact absurd h.2.1 hne

theorem KnowsFile.made {args : RawDiskArgs} (h : KnowsFile f₀ s stage)
    (hmade : MadeFile args stage) :
    s.file.size = args.size.toNat ∧ s.file.size ≠ 0 ∧ s.file.size < 2 ^ 63 ∧
      (f₀.size = 0 ∨ f₀.size = args.size.toNat) ∧
      (f₀.size = 0 → NewDisk args s.file) := by
  cases stage with
  | unknown | sized _ | pointed _ _ => exact hmade.elim
  | ended size newSize =>
      obtain ⟨⟨hsize, hview⟩, hold, hkept, hsmall⟩ := h
      obtain ⟨rfl, hne, hrefused⟩ := hmade
      have hpos : args.size.toNat ≠ 0 := fun h => hne (UInt64.toNat_inj.mp h)
      refine ⟨hsize, hsize ▸ hpos, hsize ▸ hsmall, ?_, fun hzero => ?_⟩
      · rcases hkept with rfl | rfl
        · exact .inl hold.symm
        · exact .inr hold.symm
      · have hnew : ∀ p < s.file.size, s.file.view p = 0 := by
          intro p _
          rw [hview]
          exact if_neg (by rw [hzero]; exact Nat.not_lt_zero p)
        have hsize : size = 0 := UInt64.toNat_inj.mp (hold.trans hzero)
        have hfail : (definesTable args.partition).1 ≠ mbrSuccess := by
          rcases hrefused with heq | ⟨-, hfail⟩
          · exact absurd (heq.symm.trans hsize) hne
          · exact hfail
        refine ⟨fun hfits => ?_, fun _ => hnew⟩
        rcases definesTable_cases args.partition with ⟨hno, -⟩ | ⟨-, hok, -⟩
        · exact absurd hno hfits
        · exact absurd hok hfail
  | tabled newSize table =>
      obtain ⟨⟨hsize, hview⟩, hzero, hsmall⟩ := h
      obtain ⟨rfl, hne, hok, rfl⟩ := hmade
      have hpos : args.size.toNat ≠ 0 := fun h => hne (UInt64.toNat_inj.mp h)
      have hsize : s.file.size = args.size.toNat := hsize
      refine ⟨hsize, hsize ▸ hpos, hsize ▸ hsmall, .inl hzero, fun _ => ?_⟩
      rcases definesTable_cases args.partition with ⟨-, hfail⟩ | ⟨hfits, -, htable⟩
      · exact absurd hok hfail
      · refine ⟨fun _ => ⟨?_, _, htable, fun p _ => ?_⟩, fun hno => absurd hno hfits⟩
        · rw [hsize, ← htable.length]
          exact table_fits hne hok
        · have hbehind : (f₀.setEnd args.size.toNat).view p = 0 :=
            if_neg (by rw [hzero]; exact Nat.not_lt_zero p)
          rw [hview, RawDiskFile.overwrite]
          dsimp only
          rw [hbehind]

/-- `RawDiskCreate` fails with an error and holds nothing more than before, or it returns an
object and holds what this stands for; what was in the file stays there. -/
theorem rawdisk_create {args : RawDiskArgs} {r : Except UInt32 RawDiskObject}
    (hrun : (rawDiskCreate args).Runs ProcessAction.Exec s r s') (hholds : s.resources.Holds rs) :
    CreateOutcome args rs s s' r := by
  have hstart : MainKnows s.file rs s (creating [] .unknown s.params s.userContext) :=
    ⟨hholds, ⟨rfl, rfl⟩, rfl⟩
  obtain ⟨g', ⟨x, hx, hknows⟩, x', hx', -, hcreated⟩ := rawDiskCreate_safe.runs
    (I := fun t g => ∃ x, g = .main x ∧ MainKnows s.file rs t x)
    (fun hI hmay hexec => by
      obtain ⟨x, rfl, hknows⟩ := hI
      exact ⟨MainAccount.told hexec, _, rfl, hknows.step (MainAccount.effect hmay hexec)⟩) hrun
        ⟨_, rfl, hstart⟩
  subst hx
  cases hx'
  constructor
  case preserved => exact hknows.file.preserved
  case error =>
    rintro error rfl
    obtain ⟨hne, hheld⟩ := hcreated
    have hholds' := hknows.holds
    rw [hheld] at hholds'
    exact ⟨hne, hholds'⟩
  all_goals
    rintro object rfl
    obtain ⟨hheld, -, hcount, hlength, hcount', hlength', hmade⟩ := hcreated
    obtain ⟨hsize, hne, hsmall, hold, hnew⟩ := hknows.file.made hmade
  case holds =>
    rw [← hheld]
    exact hknows.holds
  case size => exact ⟨hsize, Nat.pos_of_ne_zero hne, hold⟩
  case new => exact hnew
  case backed =>
    have hblocks : s'.params.blockCount.toNat * s'.params.blockLength.toNat =
        args.blockCount.toNat * args.blockLength.toNat := by
      rw [hknows.params, hcount', hlength']
    constructor
    · intro h
      refine ⟨h.unitOk, ?_⟩
      rw [← hblocks, ← h.size_eq]
      exact Nat.lt_trans h.size_lt (by decide)
    · rintro ⟨hunit, hproduct⟩
      refine ⟨hunit, ?_, ?_, hsmall⟩
      · rw [hlength, hknows.params, hlength']
      · rw [hsize, size_toNat hproduct, hblocks]

/-! ## A new disk -/

def allSucceed : ProcessAction → ProcessChoice
  | .uuidCreate => .creates nullGuid
  | .wideCharToMultiByte .. => .converts [0x52]
  | .file .. => .file .succeeds
  | _ => .ends 0

def sampleDiskArgs : RawDiskArgs where
  blockCount := 16
  blockLength := 512
  productId := ⟨[0x52], by decide⟩
  productRevision := ⟨[0x31], by decide⟩
  writeProtected := false
  cacheSupported := true
  unmapSupported := true

def emptyFile : RawDiskFile := ⟨0, fun _ => 0, fun _ => 0, fun _ => 0⟩

theorem rawdisk_create_new : ∃ object s',
    (rawDiskCreate sampleDiskArgs).Runs ProcessAction.Exec (.init emptyFile) (.ok object) s' ∧
      CreateOutcome sampleDiskArgs [] (.init emptyFile) s' (.ok object) := by
  have hfinal : ((rawDiskCreate sampleDiskArgs).alone (fun s a => a.exec s (allSucceed a))
      (.init emptyFile)).map (fun x => x.2.toOption.map RawDiskObject.storageUnit) =
        some (some 4) := by decide +kernel
  obtain ⟨⟨s', r⟩, halone, hr⟩ := Option.map_eq_some_iff.mp hfinal
  have hrun : (rawDiskCreate sampleDiskArgs).Runs ProcessAction.Exec (.init emptyFile) r s' :=
    Prog.runs_of_alone (fun {_ a _ _} h => ⟨allSucceed a, h⟩) halone
  cases r with
  | error error => cases hr
  | ok object => exact ⟨object, s', hrun, rawdisk_create hrun .empty⟩

end Winspd.Proofs
