import Winspd.Proofs.RawdiskCreate
import Winspd.Proofs.RawdiskRun

/-!
# The lifetimes of the resources of the raw disk

The main thread deletes the unit, the view and the handles after
`SpdStorageUnitWaitDispatcher`, while threads for console events can come at any time.
What a thread is about to use is there in every run. A dispatcher thread has the unit
and the view of an object that the main thread keeps for as long as there are dispatcher
threads. `SpdGuardExecute` has the lock of the guard, without which the main thread
cannot clear the guard, and it does not delete the unit before.
-/

namespace Winspd.Proofs

open Winspd.Lib Winspd.Sys Winspd.Shared Winspd.Rawdisk

/-- The threads that come, in addition to the main thread. -/
inductive ProcessEntry : ProcessProg Unit → Prop
  | console : ProcessEntry consoleCtrlHandler
  | dispatcher (uses : List DispatcherUse) : ProcessEntry (diskDispatcherThread uses)

abbrev ProcessThreads := Threads ProcessAction ProcessAction.Answer RawDiskProcess ProcessAccount

abbrev ProcessEvent := ThreadEvent ProcessAction ProcessAction.Answer

abbrev ProcessStep : ProcessThreads → ProcessEvent → ProcessThreads → Prop :=
  Threads.Step processRules ProcessAction.Exec ProcessEntry

/-- The main thread is in front of `RawDiskCreate`. -/
def processStart (args : RawDiskArgs) (file : RawDiskFile) : ProcessThreads :=
  ⟨.init file, [⟨rawDiskMain args, .main (creating [] .unknown .zero none)⟩]⟩

theorem processEntry_safe {p : ProcessProg Unit} (h : ProcessEntry p) :
    processRules.Safe (fun _ => processRules.Settled) processRules.start p := by
  cases h with
  | console => exact consoleCtrlHandler_safe
  | dispatcher uses => exact diskDispatcherThread_safe

/-! ## The state and the main thread -/

variable {s s' : RawDiskProcess} {m m' : MainAccount} {g g' : ProcessAccount}
  {gs gs' : List ProcessAccount} {stage : FileStage}

/-- What the main thread knows of the end of the file. -/
def SizedFile (s : RawDiskProcess) : FileStage → Prop
  | .pointed _ newSize => s.position = newSize
  | .ended _ newSize => s.file.size = newSize.toNat
  | _ => True

theorem SizedFile.keep (h : SizedFile s stage) (hsize : s'.file.size = s.file.size)
    (hposition : s'.position = s.position) : SizedFile s' stage := by
  cases stage with
  | pointed size newSize => exact hposition.trans h
  | ended size newSize => exact hsize.trans h
  | unknown | sized _ | tabled _ _ => trivial

/-- What the account of the main thread says of the state. -/
structure MainSide (s : RawDiskProcess) (m : MainAccount) : Prop where
  holds : s.resources.Holds (m.held.map Prod.snd)
  sized : SizedFile s m.file
  locked : s.lockExclusive = m.locked
  pointer : s.guardPointer = m.guarded
  guarded : ∀ storageUnit, m.guarded = some storageUnit → (.unit, storageUnit) ∈ m.held
  context : s.userContext = m.userContext
  dispatching : m.dispatching = true → ∃ object, m.userContext = some object ∧
    m.held = objectHeld object
  idle : m.dispatching = false → s.ready = 0 ∧ s.running = 0

/-- What the other threads see of an action of the main thread. -/
structure MainStep (s : RawDiskProcess) (m : MainAccount) (s' : RawDiskProcess)
    (m' : MainAccount) : Prop where
  side : MainSide s' m'
  shared : s'.lockShared = s.lockShared
  running : s'.running = s.running
  exclusive : m'.locked = true → m.locked = true ∨ s.lockShared = 0
  guarded : m'.guarded = m.guarded ∨ m.locked = true
  context : m'.userContext = m.userContext ∨ m.dispatching = false

theorem MainSide.acquire (h : MainSide s m) (kind : ResourceKind)
    (hdispatching : m.dispatching = false) : MainSide s.acquire.1 (m.push kind s.acquire.2) where
  holds := h.holds.acquire
  sized := h.sized.keep rfl rfl
  locked := h.locked
  pointer := h.pointer
  guarded storageUnit heq := List.mem_cons_of_mem _ (h.guarded storageUnit heq)
  context := h.context
  dispatching hnot := absurd (hdispatching.symm.trans hnot) Bool.false_ne_true
  idle := h.idle

theorem MainSide.step (h : MainSide s m) (heffect : MainEffect s m s' m') : MainStep s m s' m' := by
  cases heffect with
  | nothing => exact ⟨h, rfl, rfl, .inl, .inl rfl, .inl rfl⟩
  | acquires kind hdispatching =>
      exact ⟨h.acquire kind hdispatching, rfl, rfl, .inl, .inl rfl, .inl rfl⟩
  | creates params hdispatching =>
      have hside := h.acquire .unit hdispatching
      refine ⟨⟨hside.holds, h.sized.keep rfl rfl, h.locked, h.pointer, hside.guarded, h.context,
        hside.dispatching, h.idle⟩, rfl, rfl, .inl, .inl rfl, .inl rfl⟩
  | releases hfrees =>
      have hholds := h.holds
      rw [hfrees.held_eq] at hholds
      refine ⟨⟨hholds.release, h.sized.keep rfl rfl, h.locked, h.pointer, ?_, h.context,
        ?_, h.idle⟩,
        rfl, rfl, .inl, .inl rfl, .inl rfl⟩
      · intro storageUnit heq
        cases hfrees.2.2.symm.trans heq
      · intro hdispatching
        cases hfrees.2.1.symm.trans hdispatching
  | sizes hstage hsmall =>
      exact ⟨⟨h.holds, trivial, h.locked, h.pointer, h.guarded, h.context,
        h.dispatching, h.idle⟩,
        rfl, rfl, .inl, .inl rfl, .inl rfl⟩
  | points hstage hkept hsmall =>
      exact ⟨⟨h.holds, rfl, h.locked, h.pointer, h.guarded, h.context, h.dispatching, h.idle⟩,
        rfl, rfl, .inl, .inl rfl, .inl rfl⟩
  | ends hstage =>
      have hsized := h.sized
      rw [hstage] at hsized
      exact ⟨⟨h.holds, congrArg UInt64.toNat hsized, h.locked, h.pointer, h.guarded, h.context,
        h.dispatching, h.idle⟩, rfl, rfl, .inl, .inl rfl, .inl rfl⟩
  | tables hstage =>
      exact ⟨⟨h.holds, trivial, h.locked, h.pointer, h.guarded, h.context,
        h.dispatching, h.idle⟩,
        rfl, rfl, .inl, .inl rfl, .inl rfl⟩
  | flushes hview =>
      exact ⟨⟨h.holds, h.sized.keep hview.1 rfl, h.locked, h.pointer, h.guarded, h.context,
        h.dispatching, h.idle⟩, rfl, rfl, .inl, .inl rfl, .inl rfl⟩
  | describes params | handles =>
      exact ⟨⟨h.holds, h.sized.keep rfl rfl, h.locked, h.pointer, h.guarded, h.context,
        h.dispatching, h.idle⟩, rfl, rfl, .inl, .inl rfl, .inl rfl⟩
  | refers hheld hdispatching =>
      refine ⟨⟨h.holds, h.sized.keep rfl rfl, h.locked, h.pointer, h.guarded, rfl,
        ?_, h.idle⟩,
        rfl, rfl, .inl, .inl rfl, .inr hdispatching⟩
      intro hnot
      cases hdispatching.symm.trans hnot
  | starts hcontext hheld hdispatching =>
      refine ⟨⟨h.holds, h.sized.keep rfl rfl, h.locked, h.pointer, h.guarded, h.context,
        fun _ => ⟨_, hcontext, hheld⟩, ?_⟩, rfl, rfl, .inl, .inl rfl, .inl rfl⟩
      intro hnot
      cases hnot
  | waits hready hrunning =>
      refine ⟨⟨h.holds, h.sized, h.locked, h.pointer, h.guarded, h.context, ?_,
        fun _ => ⟨hready, hrunning⟩⟩, rfl, rfl, .inl, .inl rfl, .inl rfl⟩
      intro hnot
      cases hnot
  | locks hshared =>
      exact ⟨⟨h.holds, h.sized.keep rfl rfl, rfl, h.pointer, h.guarded, h.context,
        h.dispatching,
        h.idle⟩, rfl, rfl, fun _ => .inr hshared, .inl rfl, .inl rfl⟩
  | unlocks =>
      refine ⟨⟨h.holds, h.sized.keep rfl rfl, rfl, h.pointer, h.guarded, h.context,
        h.dispatching,
        h.idle⟩, rfl, rfl, ?_, .inl rfl, .inl rfl⟩
      intro hnot
      cases hnot
  | guards hlocked hheld =>
      exact ⟨⟨h.holds, h.sized.keep rfl rfl, h.locked, rfl, hheld, h.context,
        h.dispatching, h.idle⟩,
        rfl, rfl, .inl, .inr hlocked, .inl rfl⟩

theorem MainSide.others {f : RawDiskFile} {ready running lockShared : Nat} (h : MainSide s m)
    (hsize : f.size = s.file.size) (hidle : m.dispatching = false → ready = 0 ∧ running = 0) :
    MainSide { s with file := f, ready := ready, running := running, lockShared := lockShared } m :=
  ⟨h.holds, h.sized.keep hsize rfl, h.locked, h.pointer, h.guarded, h.context,
    h.dispatching, hidle⟩

/-! ## All threads -/

def mainOf : ProcessAccount → Option MainAccount
  | .main m => some m
  | _ => none

def isConsole : ProcessAccount → Bool
  | .console _ => true
  | _ => false

def isDispatcher : ProcessAccount → Bool
  | .dispatcher _ => true
  | _ => false

def Beside (m : MainAccount) : ProcessAccount → Prop
  | .console (some storageUnit) => m.guarded = some storageUnit
  | .dispatcher object => m.userContext = some object
  | _ => True

/-- The invariant, for the account of the main thread, which can have left. -/
structure ProcessInv (s : RawDiskProcess) (m : MainAccount) (gs : List ProcessAccount) : Prop where
  main : gs.filterMap mainOf = [m] ∨ gs.filterMap mainOf = [] ∧ m.held = []
  side : MainSide s m
  shared : s.lockShared = gs.countP isConsole
  running : s.running = gs.countP isDispatcher
  exclusive : m.locked = true → s.lockShared = 0
  beside : ∀ g ∈ gs, Beside m g

namespace ProcessInv

theorem perm (hperm : gs.Perm gs') (h : ProcessInv s m gs) : ProcessInv s m gs' := by
  have hfilter := hperm.filterMap mainOf
  refine ⟨?_, h.side, ?_, ?_, h.exclusive, fun g hg => h.beside g (hperm.mem_iff.mpr hg)⟩
  · rcases h.main with hone | ⟨hnone, hheld⟩
    · rw [hone] at hfilter
      exact .inl (List.singleton_perm.mp hfilter).symm
    · rw [hnone] at hfilter
      exact .inr ⟨List.nil_perm.mp hfilter, hheld⟩
  · rw [h.shared, hperm.countP_eq]
  · rw [h.running, hperm.countP_eq]

/-- While the main thread has the lock, no other thread has it. -/
theorem no_console (h : ProcessInv s m gs) (hlocked : m.locked = true) :
    ∀ g ∈ gs, isConsole g ≠ true := by
  refine List.countP_eq_zero.mp ?_
  rw [← h.shared]
  exact h.exclusive hlocked

theorem no_dispatcher (h : ProcessInv s m gs) (hdispatching : m.dispatching = false) :
    ∀ g ∈ gs, isDispatcher g ≠ true := by
  refine List.countP_eq_zero.mp ?_
  rw [← h.running]
  exact (h.side.idle hdispatching).2

/-- The object that a dispatcher thread has is that of the main thread. -/
theorem dispatcher_held {object : RawDiskObject} (h : ProcessInv s m gs)
    (hmem : .dispatcher object ∈ gs) : m.dispatching = true ∧ m.held = objectHeld object := by
  have hdispatching : m.dispatching = true := by
    rw [← Bool.not_eq_false]
    intro hnot
    exact h.no_dispatcher hnot _ hmem rfl
  obtain ⟨object', hcontext, hheld⟩ := h.side.dispatching hdispatching
  obtain rfl : object = object' := Option.some.inj ((h.beside _ hmem).symm.trans hcontext)
  exact ⟨hdispatching, hheld⟩

theorem countP_cons_toNat {p : ProcessAccount → Bool} :
    (g :: gs).countP p = gs.countP p + (p g).toNat := by
  rw [List.countP_cons]
  cases p g <;> rfl

theorem other (h : ProcessInv s m (g :: gs)) (hg : mainOf g = none) (hg' : mainOf g' = none)
    (hside : MainSide s' m)
    (hshared : s'.lockShared + (isConsole g).toNat = s.lockShared + (isConsole g').toNat)
    (hrunning : s'.running + (isDispatcher g).toNat = s.running + (isDispatcher g').toNat)
    (hexclusive : m.locked = true → s'.lockShared = 0) (hbeside : Beside m g') :
    ProcessInv s' m (g' :: gs) := by
  have hmain := h.main
  have hconsole := h.shared
  have hdispatcher := h.running
  rw [List.filterMap_cons_none hg] at hmain
  rw [countP_cons_toNat] at hconsole hdispatcher
  refine ⟨?_, hside, ?_, ?_, hexclusive, ?_⟩
  · rw [List.filterMap_cons_none hg']
    exact hmain
  · rw [countP_cons_toNat]
    omega
  · rw [countP_cons_toNat]
    omega
  · intro x hx
    rcases List.mem_cons.mp hx with rfl | hx
    · exact hbeside
    · exact h.beside x (List.mem_cons_of_mem _ hx)

theorem enter (h : ProcessInv s m gs) : ProcessInv s m (.outside :: gs) := by
  refine ⟨h.main, h.side, ?_, ?_, h.exclusive, List.forall_mem_cons.mpr ⟨trivial, h.beside⟩⟩
  · rw [List.countP_cons_of_neg (by decide)]
    exact h.shared
  · rw [List.countP_cons_of_neg (by decide)]
    exact h.running

theorem leave (h : ProcessInv s m (g :: gs)) (hsettled : g.Settled) : ProcessInv s m gs := by
  have hbeside := (List.forall_mem_cons.mp h.beside).2
  have hshared := h.shared
  have hrunning := h.running
  cases g with
  | main x =>
      rw [List.countP_cons_of_neg (by exact Bool.false_ne_true)] at hshared hrunning
      refine ⟨.inr ?_, h.side, hshared, hrunning, h.exclusive, hbeside⟩
      rcases h.main with hone | ⟨hnone, -⟩
      · obtain ⟨rfl, hnil⟩ := List.cons.inj hone
        exact ⟨hnil, hsettled⟩
      · cases hnone
  | outside =>
      rw [List.countP_cons_of_neg (by decide)] at hshared hrunning
      exact ⟨h.main, h.side, hshared, hrunning, h.exclusive, hbeside⟩
  | console pointer => exact hsettled.elim
  | dispatcher object => exact hsettled.elim

theorem main_step {x : MainAccount} (h : ProcessInv s m (.main x :: gs))
    (heffect : MainEffect s x s' m') : ProcessInv s' m' (.main m' :: gs) := by
  obtain ⟨rfl, hnil⟩ : x = m ∧ gs.filterMap mainOf = [] := by
    rcases h.main with hone | ⟨hnone, -⟩
    · exact List.cons.inj hone
    · cases hnone
  have hstep := h.side.step heffect
  have hshared := h.shared
  have hrunning := h.running
  rw [List.countP_cons_of_neg (by exact Bool.false_ne_true)] at hshared hrunning
  refine ⟨.inl (congrArg (List.cons m') hnil), hstep.side, ?_, ?_, fun hlocked => ?_, ?_⟩
  · rw [List.countP_cons_of_neg (by exact Bool.false_ne_true), hstep.shared]
    exact hshared
  · rw [List.countP_cons_of_neg (by exact Bool.false_ne_true), hstep.running]
    exact hrunning
  · rw [hstep.shared]
    exact (hstep.exclusive hlocked).elim h.exclusive id
  · refine List.forall_mem_cons.mpr ⟨trivial, fun g hg => ?_⟩
    have hmem := List.mem_cons_of_mem (.main x) hg
    have hbeside := h.beside g hmem
    cases g with
    | console pointer =>
        cases pointer with
        | none => trivial
        | some storageUnit =>
            rcases hstep.guarded with heq | hlocked
            · exact heq.trans hbeside
            · exact absurd rfl (h.no_console hlocked _ hmem)
    | dispatcher object =>
        rcases hstep.context with heq | hdispatching
        · exact heq.trans hbeside
        · exact absurd rfl (h.no_dispatcher hdispatching _ hmem)
    | main _ | outside => trivial

theorem outside_act {a : ProcessAction} {r : a.Answer} (h : ProcessInv s m (.outside :: gs))
    (hmay : ProcessAccount.May .outside a) (hexec : a.Exec s r s') :
    ProcessInv s' m (ProcessAccount.next .outside a r :: gs) := by
  obtain ⟨c, hexec⟩ := hexec
  cases a with
  | consoleCtrl =>
      obtain ⟨-, heq⟩ := Option.ite_none_right_eq_some.mp hexec
      cases heq
      exact h
  | acquireShared =>
      obtain ⟨hfree, heq⟩ := Option.ite_none_right_eq_some.mp hexec
      cases heq
      refine h.other rfl rfl (h.side.others rfl h.side.idle) rfl rfl (fun hlocked => ?_) trivial
      rw [h.side.locked, hlocked] at hfree
      cases hfree
  | beginThread =>
      simp only [ProcessAction.exec] at hexec
      split at hexec
      · cases hexec
      · next hready =>
          obtain ⟨object, hcontext, heq⟩ := Option.map_eq_some_iff.mp hexec
          cases heq
          refine h.other rfl rfl (h.side.others rfl fun hnot => ?_) rfl rfl h.exclusive ?_
          · exact absurd (h.side.idle hnot).1 hready
          · exact h.side.context.symm.trans hcontext
  | _ => cases hmay

theorem beside_guard (h : ProcessInv s m gs) : Beside m (.console s.guardPointer) := by
  rw [h.side.pointer]
  cases hguarded : m.guarded with
  | none => trivial
  | some storageUnit => exact hguarded

theorem console_act {a : ProcessAction} {r : a.Answer} {pointer : Option Nat}
    (h : ProcessInv s m (.console pointer :: gs)) (hmay : ProcessAccount.May (.console pointer) a)
    (hexec : a.Exec s r s') :
    ProcessInv s' m (ProcessAccount.next (.console pointer) a r :: gs) ∧
      ProcessAccount.Told (.console pointer) a r := by
  obtain ⟨c, hexec⟩ := hexec
  cases a with
  | readPointer =>
      cases hexec
      refine ⟨h.other rfl rfl h.side rfl rfl h.exclusive h.beside_guard, ?_⟩
      cases pointer with
      | none => trivial
      | some storageUnit =>
          have hguarded : m.guarded = some storageUnit := h.beside _ List.mem_cons_self
          exact h.side.pointer.trans hguarded
  | releaseShared =>
      cases hexec
      have hpos : 0 < s.lockShared := by
        rw [h.shared]
        exact List.countP_pos_iff.mpr ⟨_, List.mem_cons_self, rfl⟩
      refine ⟨h.other rfl rfl (h.side.others rfl h.side.idle) (Nat.sub_add_cancel hpos) rfl
        (fun hlocked => ?_) trivial, ?_⟩
      · exact congrArg (· - 1) (h.exclusive hlocked)
      · cases pointer <;> trivial
  | spdStorageUnitShutdown storageUnit =>
      cases hexec
      refine ⟨h, ?_⟩
      cases pointer <;> trivial
  | _ => cases hmay

theorem dispatcher_act {a : ProcessAction} {r : a.Answer} {object : RawDiskObject}
    (h : ProcessInv s m (.dispatcher object :: gs))
    (hmay : ProcessAccount.May (.dispatcher object) a) (hexec : a.Exec s r s') :
    ProcessInv s' m (ProcessAccount.next (.dispatcher object) a r :: gs) := by
  obtain ⟨c, hexec⟩ := hexec
  have hdispatching := (h.dispatcher_held List.mem_cons_self).1
  have hbeside := h.beside _ List.mem_cons_self
  cases a with
  | useUnit storageUnit =>
      cases hexec
      exact h
  | createThread storageUnit =>
      cases c with
      | ends error =>
          simp only [ProcessAction.exec] at hexec
          split at hexec
          · cases hexec
            refine h.other rfl rfl (h.side.others rfl fun hnot => ?_) rfl rfl h.exclusive hbeside
            cases hdispatching.symm.trans hnot
          · cases hexec
            exact h
      | _ => cases hexec
  | file pointer handle a =>
      cases c with
      | file c =>
          obtain ⟨x, ha, heq⟩ := Option.map_eq_some_iff.mp hexec
          cases heq
          exact h.other rfl rfl (h.side.others (FileAction.exec_size ha) h.side.idle) rfl rfl
            h.exclusive hbeside
      | _ => cases hexec
  | endThread =>
      cases hexec
      have hpos : 0 < s.running := by
        rw [h.running]
        exact List.countP_pos_iff.mpr ⟨_, List.mem_cons_self, rfl⟩
      refine h.other rfl rfl (h.side.others rfl fun hnot => ?_) rfl (Nat.sub_add_cancel hpos)
        h.exclusive trivial
      cases hdispatching.symm.trans hnot
  | _ => cases hmay

theorem act {a : ProcessAction} {r : a.Answer} (h : ProcessInv s m (g :: gs)) (hmay : g.May a)
    (hexec : a.Exec s r s') :
    (∃ m', ProcessInv s' m' (g.next a r :: gs)) ∧ g.Told a r := by
  cases g with
  | main x =>
      exact ⟨⟨_, h.main_step (MainAccount.effect hmay hexec)⟩, MainAccount.told hexec⟩
  | outside => exact ⟨⟨m, h.outside_act hmay hexec⟩, trivial⟩
  | console pointer =>
      obtain ⟨hinv, htold⟩ := h.console_act hmay hexec
      exact ⟨⟨m, hinv⟩, htold⟩
  | dispatcher object => exact ⟨⟨m, h.dispatcher_act hmay hexec⟩, trivial⟩

end ProcessInv

variable {args : RawDiskArgs} {file : RawDiskFile} {ls : List ProcessEvent} {w : ProcessThreads}

theorem process_start : ProcessInv (.init file) (creating [] .unknown .zero none)
    [.main (creating [] .unknown .zero none)] where
  main := .inl rfl
  side := ⟨.empty, trivial, rfl, rfl, fun _ h => absurd h.symm (Option.some_ne_none _), rfl,
    fun h => absurd h Bool.false_ne_true, fun _ => ⟨rfl, rfl⟩⟩
  shared := rfl
  running := rfl
  exclusive h := by cases h
  beside g hg := by
    obtain rfl := List.mem_singleton.mp hg
    trivial

theorem process_verified (hrun : Run ProcessStep (processStart args file) ls w) :
    Threads.Verified processRules (fun s gs => ∃ m, ProcessInv s m gs) w := by
  refine hrun.inv ⟨⟨_, process_start⟩, ?_⟩ fun hw hstep => ?_
  · intro t ht
    obtain rfl := List.mem_singleton.mp ht
    exact rawDiskMain_safe
  · refine hw.step (C := fun _ _ => True) ?_ ?_ ?_ processEntry_safe ?_ trivial hstep
    · rintro s gs gs' hperm ⟨m, h⟩
      exact ⟨m, h.perm hperm⟩
    · rintro s gs ⟨m, h⟩
      exact ⟨m, h.enter⟩
    · rintro s g gs hsettled ⟨m, h⟩
      exact ⟨m, h.leave hsettled⟩
    · rintro s us vs a k g r s' - - hmay ⟨m, h⟩ hexec
      exact h.act hmay hexec

/-! ## What is used is there -/

def processUses : ProcessAction → List Nat
  | .free (some memory) => [memory]
  | .setSparse handle | .getFileSizeEx handle | .setFilePointerEx handle _ | .setEndOfFile handle
  | .createFileMapping handle | .closeHandle handle => [handle]
  | .mapViewOfFile mapping => [mapping]
  | .unmapViewOfFile pointer | .spdDefinePartitionTable _ pointer => [pointer]
  | .file pointer handle _ => [pointer, handle]
  | .spdStorageUnitDelete storageUnit | .setUserContext storageUnit _
  | .spdStorageUnitStartDispatcher storageUnit _ | .spdStorageUnitWaitDispatcher storageUnit
  | .spdStorageUnitShutdown (some storageUnit) | .createThread storageUnit
  | .useUnit storageUnit => [storageUnit]
  | _ => []

/-- An action that can be made: what it is about has been acquired and not been
released. -/
structure UsesLive (s : RawDiskProcess) (a : ProcessAction) : Prop where
  live : ∀ r ∈ processUses a, lifetime r s.resources.events = some true
  pointer : a ≠ .spdStorageUnitShutdown none
  /-- The table is written into the view. -/
  table : ∀ partition pointer, a = .spdDefinePartitionTable partition pointer →
    (definesTable partition).1 = mbrSuccess →
      (definesTable partition).2.length ≤ s.file.size

theorem UsesLive.other {a : ProcessAction} (hpointer : a ≠ .spdStorageUnitShutdown none)
    (htable : ∀ partition pointer, a ≠ .spdDefinePartitionTable partition pointer)
    (hlive : ∀ r ∈ processUses a, lifetime r s.resources.events = some true) : UsesLive s a :=
  ⟨hlive, hpointer, fun partition pointer heq => absurd heq (htable partition pointer)⟩

theorem MainSide.live {r : Nat} (h : MainSide s m) (kind : ResourceKind)
    (hmem : (kind, r) ∈ m.held) : lifetime r s.resources.events = some true := by
  have hheld : r ∈ m.held.map Prod.snd := List.mem_map.mpr ⟨_, hmem, rfl⟩
  rw [h.holds.owns.lifetime r, decide_eq_true hheld]

theorem MainAccount.Frees.mem {kind : ResourceKind} {r : Nat} (h : m.Frees kind r) :
    (kind, r) ∈ m.held := by
  rw [h.held_eq]
  exact List.mem_cons_self

theorem MainSide.uses {a : ProcessAction} (h : MainSide s m) (hmay : m.May a) : UsesLive s a := by
  refine ⟨fun r hr => ?_, fun heq => ?_, ?_⟩
  · cases a with
    | free memory =>
        cases memory with
        | none => cases hr
        | some memory =>
            obtain rfl := List.mem_singleton.mp hr
            exact h.live _ (MainAccount.Frees.mem hmay)
    | setSparse _ | spdStorageUnitWaitDispatcher _ =>
        obtain rfl := List.mem_singleton.mp hr
        exact h.live _ hmay
    | getFileSizeEx _ | setFilePointerEx _ _ | setEndOfFile _ | createFileMapping _
    | mapViewOfFile _ | spdDefinePartitionTable _ _ =>
        obtain rfl := List.mem_singleton.mp hr
        exact h.live _ hmay.1
    | unmapViewOfFile _ | spdStorageUnitDelete _ =>
        obtain rfl := List.mem_singleton.mp hr
        exact h.live _ (MainAccount.Frees.mem hmay)
    | closeHandle _ =>
        obtain rfl := List.mem_singleton.mp hr
        exact hmay.elim (fun hfrees => h.live _ hfrees.mem) fun hfrees => h.live _ hfrees.mem
    | file pointer handle a =>
        obtain ⟨hview, hfile, -⟩ := hmay
        rcases List.mem_cons.mp hr with rfl | hr
        · exact h.live _ hview
        · obtain rfl := List.mem_singleton.mp hr
          exact h.live _ hfile
    | setUserContext _ object =>
        obtain rfl := List.mem_singleton.mp hr
        obtain ⟨rfl, hheld, -⟩ := hmay
        exact h.live .unit (hheld ▸ List.mem_cons_self)
    | spdStorageUnitStartDispatcher _ _ =>
        obtain rfl := List.mem_singleton.mp hr
        obtain ⟨-, object, -, rfl, hheld⟩ := hmay
        exact h.live .unit (hheld ▸ List.mem_cons_self)
    | spdStorageUnitShutdown _ | createThread _ | useUnit _ => cases hmay
    | _ => cases hr
  · subst heq
    cases hmay
  · rintro partition pointer rfl hok
    obtain ⟨-, newSize, hstage, hfits⟩ := hmay
    have hsized := h.sized
    rw [hstage] at hsized
    rw [show s.file.size = newSize.toNat from hsized]
    exact hfits hok

theorem ProcessInv.uses {a : ProcessAction} (h : ProcessInv s m gs) (hg : g ∈ gs)
    (hmay : g.May a) :
    UsesLive s a := by
  cases g with
  | main x =>
      have hmem : x ∈ gs.filterMap mainOf := List.mem_filterMap.mpr ⟨_, hg, rfl⟩
      rcases h.main with hone | ⟨hnone, -⟩
      · rw [hone] at hmem
        obtain rfl := List.mem_singleton.mp hmem
        exact h.side.uses hmay
      · rw [hnone] at hmem
        cases hmem
  | outside =>
      cases a with
      | consoleCtrl | acquireShared | beginThread =>
          exact .other (by simp) (by simp) fun r hr => absurd hr List.not_mem_nil
      | _ => cases hmay
  | console pointer =>
      cases a with
      | readPointer | releaseShared =>
          exact .other (by simp) (by simp) fun r hr => absurd hr List.not_mem_nil
      | spdStorageUnitShutdown storageUnit =>
          obtain ⟨rfl, hne⟩ := hmay
          cases storageUnit with
          | none => exact absurd rfl hne
          | some storageUnit =>
              refine .other (by simp) (by simp) fun r hr => ?_
              obtain rfl := List.mem_singleton.mp hr
              have hguarded : m.guarded = some r := h.beside _ hg
              exact h.side.live _ (h.side.guarded r hguarded)
      | _ => cases hmay
  | dispatcher object =>
      obtain ⟨-, hheld⟩ := h.dispatcher_held hg
      have hlive : ∀ kind r, (kind, r) ∈ objectHeld object →
          lifetime r s.resources.events = some true := by
        rw [← hheld]
        exact fun kind r => h.side.live kind
      cases a with
      | useUnit storageUnit | createThread storageUnit =>
          refine .other (by simp) (by simp) fun r hr => ?_
          obtain rfl := List.mem_singleton.mp hr
          obtain rfl : r = object.storageUnit := hmay
          exact hlive .unit _ List.mem_cons_self
      | file pointer handle a =>
          obtain ⟨rfl, rfl⟩ := hmay
          refine .other (by simp) (by simp) fun r hr => ?_
          rcases List.mem_cons.mp hr with rfl | hr
          · exact hlive .view _ (by simp [objectHeld])
          · obtain rfl := List.mem_singleton.mp hr
            exact hlive .file _ (by simp [objectHeld])
      | endThread =>
          exact .other (by simp) (by simp) fun r hr => absurd hr List.not_mem_nil
      | _ => cases hmay

/-- What holds in every run of the process. -/
structure ProcessLifetimes (w : ProcessThreads) : Prop where
  uses : ∀ t ∈ w.threads, ∀ a, t.prog.next = some a → UsesLive w.shared a
  /-- When the main thread has left. -/
  released : (∀ t ∈ w.threads, mainOf t.account = none) → AllFreed w.shared.resources.events

/-- In every run of the process only what is live is used, and everything has been released
when the main thread has left. -/
theorem rawdisk_lifetimes (hrun : Run ProcessStep (processStart args file) ls w) :
    ProcessLifetimes w := by
  have hverified := process_verified hrun
  obtain ⟨m, h⟩ := hverified.inv
  constructor
  · intro t ht a hnext
    exact h.uses (List.mem_map.mpr ⟨t, ht, rfl⟩) ((hverified.safe t ht).next hnext)
  · intro hleft
    have hnone : w.accounts.filterMap mainOf = [] := by
      rw [List.filterMap_eq_nil_iff]
      intro x hx
      obtain ⟨t, ht, rfl⟩ := List.mem_map.mp hx
      exact hleft t ht
    rcases h.main with hone | ⟨-, hheld⟩
    · rw [hnone] at hone
      cases hone
    · have howns := h.side.holds.owns
      rwa [hheld, List.map_nil, owns_nil_iff] at howns

/-! ## A run -/

abbrev ProcessMoves := List (Threads.Move ProcessEntry)

/-- The thread at a position takes so many steps. -/
def processTurns (i k : Nat) : ProcessMoves := List.replicate k (.turn i)

/-- A dispatcher thread begins, and a console event comes before it ends. Then the main
thread deletes the object. -/
def consoleEnds : ProcessMoves :=
  processTurns 0 21 ++ [.enter _ (.dispatcher [.unit, .file .flushFileBuffers, .unit])] ++
    processTurns 0 2 ++ [.enter _ .console] ++ processTurns 0 4 ++ processTurns 1 3 ++
    processTurns 0 4 ++ processTurns 0 12

theorem rawdisk_lifetimes_consoleEnds : ∃ ls w,
    Run ProcessStep (processStart sampleDiskArgs emptyFile) ls w ∧ w.threads.length = 0 ∧
      ProcessLifetimes w := by
  have hfinal : (Threads.moves processRules (fun s a => a.exec s (allSucceed a))
      (processStart sampleDiskArgs emptyFile) consoleEnds).map (fun x => x.2.threads.length) =
        some 0 := by decide +kernel
  obtain ⟨⟨ls, w⟩, hmoves, hlength⟩ := Option.map_eq_some_iff.mp hfinal
  have hexec : ∀ (s : RawDiskProcess) (a : ProcessAction) (s' : RawDiskProcess) (r : a.Answer),
      a.exec s (allSucceed a) = some (s', r) → a.Exec s r s' ∧ True :=
    fun s a s' r h => ⟨⟨allSucceed a, h⟩, trivial⟩
  have hrun : Run ProcessStep (processStart sampleDiskArgs emptyFile) ls w :=
    (Threads.moves_run hexec hmoves).mono fun h => h.1
  exact ⟨ls, w, hrun, hlength, rawdisk_lifetimes hrun⟩

end Winspd.Proofs
