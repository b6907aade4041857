import Winspd.Proofs.Handlers
import Winspd.Proofs.Ledger

/-!
# How long a unit lives

The driver as a whole: any number of threads, each running a handler, in any
interleaving. `driver_references` is about the counts. In every reachable state
a unit's `RefCount` is the number of references to it, one for its slot or for
the unprovision that took it out, and one for each that a handler took and did
not drop; a unit is freed once, when there is none. `driver_no_use_after_free`
says that no thread is about to touch a unit that has been freed.

Both need that `SpdStorageUnitUnprovision` does not read the owner of a unit
that has been freed since it found it. It drops the spin lock with no reference
to a unit its caller does not own, and reads the owner again.
-/

namespace Winspd.Proofs

open Winspd.Lib Winspd.Sys Winspd.Spec
open Winspd.Sys.Handler

/-! ## The system -/

abbrev DriverThreads := Threads UnitAction UnitAction.Answer DriverState UnitRefs

abbrev DriverEvent := ThreadEvent UnitAction UnitAction.Answer

def driverInit (capacity : UInt32) : DriverThreads := ⟨.init capacity, []⟩

/-- A reference that is taken can be counted. -/
def EventCounted (w : DriverThreads) : DriverEvent → Prop
  | .act a r => UnitAction.Counted w.shared w.accounts a r
  | _ => True

/-- One step of the driver, with fewer than `2 ^ 32` references to a unit. -/
structure DriverStep (w : DriverThreads) (ev : DriverEvent) (w' : DriverThreads) : Prop where
  step : Threads.Step unitRules UnitExec Entry w ev w'
  counted : EventCounted w ev

/-- An unprovision that reads the owner again reads it of the unit it found, or
does not read its caller. -/
def RereadsFound (w : DriverThreads) : DriverEvent → Prop
  | .act a _ => UnitAction.RereadOk w.shared a
  | _ => True

/-- A unit is not freed while an unprovision that found it is to read the
owner. -/
def FreesUnseen (w : DriverThreads) : DriverEvent → Prop
  | .act (.free unit) _ => ∀ t ∈ w.threads, ∀ ptr processId,
      t.prog.next = some (.ownerIs ptr processId) → ptr.addr ≠ unit.addr
  | _ => True

variable {w w' : DriverThreads} {ev : DriverEvent} {ls : List DriverEvent} {s s' : DriverState}
  {a : UnitAction} {r : a.Answer} {g : UnitRefs} {gs gs' : List UnitRefs} {p : Addr}
  {ptr : UnitPtr} {object : UnitObject} {es : List (MemoryEvent UnitBlock)} {capacity : UInt32}

/-! ## What an action leaves alone -/

def UnitAction.memory : (a : UnitAction) → a.Answer → List (MemoryEvent UnitBlock)
  | .provision _ _ (some p) none, _ => [.alloc (.unit p), .free (.unit p)]
  | .provision _ _ (some p) (some _), r =>
      if r.1 = .success then [.alloc (.unit p), .alloc (.ioq p)]
      else [.alloc (.unit p), .alloc (.ioq p), .free (.ioq p), .free (.unit p)]
  | .free unit, _ => [.free (.ioq unit.addr), .free (.unit unit.addr)]
  | _, _ => []

/-- The same units are in the pool, and they are the same units. -/
def SamePool (s s' : DriverState) : Prop :=
  s'.generation = s.generation ∧ SameUnits s.dx s'.dx

theorem samePool_refl : SamePool s s := ⟨rfl, fun _ => rfl⟩

theorem samePool_update {object' : UnitObject} {dx' : SpdDeviceExtension}
    {storageUnit : Addr → UnitPtr} (hobject : s.dx.pool p = some object)
    (hdx : dx'.pool = Function.update s.dx.pool p (some object')) :
    SamePool s { s with dx := dx', storageUnit := storageUnit } := by
  refine ⟨rfl, fun x => ?_⟩
  show (dx'.pool x).isSome = _
  rw [hdx]
  exact @sameUnits_update s.dx p object object' hobject x

theorem samePool_onIoq {α : Type} {f : SpdIoq → Option (SpdIoq × α)}
    {x : SpdDeviceExtension × α}
    {storageUnit : Addr → UnitPtr} (h : onIoq s.dx p f = some x) :
    SamePool s { s with dx := x.1, storageUnit := storageUnit } := by
  unfold Sys.onIoq at h
  simp only [Option.bind_eq_bind, Option.bind_eq_some_iff] at h
  obtain ⟨object, hobject, ⟨ioq, y⟩, -, h⟩ := h
  cases h
  exact samePool_update hobject rfl

theorem samePool_addRef {dx' : SpdDeviceExtension} (h : s.dx.addRef p = some dx') :
    SamePool s { s with dx := dx' } := by
  rw [SpdDeviceExtension.addRef, Option.bind_eq_bind, Option.bind_eq_some_iff] at h
  obtain ⟨object, hobject, h⟩ := h
  cases h
  exact samePool_update hobject rfl

/-- Only a provision and a free change what is in the pool. -/
theorem unitExec_samePool (hexec : UnitExec s a r s')
    (hprovision : ∀ params processId unitMem ioqMem,
      a ≠ .provision params processId unitMem ioqMem)
    (hfree : ∀ unit, a ≠ .free unit) : SamePool s s' := by
  have hrun := hexec.exec
  cases a with
  | provision => exact absurd rfl (hprovision _ _ _ _)
  | free => exact absurd rfl (hfree _)
  | unprovision key processId =>
      simp only [UnitAction.exec, unprovisionSection, Option.bind_eq_bind, Option.map_eq_some_iff,
        Option.bind_eq_some_iff] at hrun
      obtain ⟨x, ⟨found, -, hrun⟩, heq⟩ := hrun
      cases heq
      cases found with
      | none =>
          cases hrun
          exact samePool_refl
      | some y =>
          simp only [Option.bind_eq_some_iff] at hrun
          obtain ⟨object, -, hrun⟩ := hrun
          cases hrun
          refine ⟨rfl, fun x => ?_⟩
          show (SpdDeviceExtension.pool (if _ then _ else _) x).isSome = _
          split <;> rfl
  | ownerIs | read | ioqStopped | getUseBitmap =>
      simp only [UnitAction.exec, Option.map_eq_some_iff] at hrun
      obtain ⟨x, -, heq⟩ := hrun
      cases heq
      exact samePool_refl
  | referenceByBtl btl =>
      simp only [UnitAction.exec, Option.map_eq_some_iff] at hrun
      obtain ⟨x, hrun, heq⟩ := hrun
      cases heq
      unfold spdStorageUnitReferenceByBtl at hrun
      split at hrun
      · cases hrun
        exact samePool_refl
      · rw [Option.map_eq_some_iff] at hrun
        obtain ⟨dx', hadd, heq⟩ := hrun
        cases heq
        exact samePool_addRef hadd
  | referenceByDevice deviceObject =>
      simp only [UnitAction.exec, spdStorageUnitReferenceByDevice, Option.bind_eq_bind,
        Option.map_eq_some_iff, Option.bind_eq_some_iff] at hrun
      obtain ⟨x, ⟨found, -, hrun⟩, heq⟩ := hrun
      cases heq
      cases found with
      | none =>
          cases hrun
          exact samePool_refl
      | some y =>
          simp only [Option.map_eq_some_iff] at hrun
          obtain ⟨dx', hadd, heq⟩ := hrun
          cases heq
          exact samePool_addRef hadd
  | dereference unit =>
      simp only [UnitAction.exec, dereferenceSection, Option.bind_eq_bind, Option.map_eq_some_iff,
        Option.bind_eq_some_iff] at hrun
      obtain ⟨x, ⟨object, hobject, hrun⟩, heq⟩ := hrun
      cases hrun
      cases heq
      exact samePool_update hobject rfl
  | setDevice unit deviceObject =>
      simp only [UnitAction.exec, spdStorageUnitSetDevice, Option.bind_eq_bind,
        Option.map_eq_some_iff, Option.bind_eq_some_iff] at hrun
      obtain ⟨x, ⟨object, hobject, hset⟩, heq⟩ := hrun
      cases heq
      split at hset
      · cases hset
        exact samePool_update hobject rfl
      · cases hset
        exact samePool_refl
  | setTransactProcessId unit processId =>
      simp only [UnitAction.exec, spdIoctlSetTransactProcessIdStore, Option.bind_eq_bind,
        Option.map_eq_some_iff, Option.bind_eq_some_iff] at hrun
      obtain ⟨x, ⟨object, hobject, hset⟩, heq⟩ := hrun
      cases hset
      cases heq
      exact samePool_update hobject rfl
  | ioqReset | ioqCancelSrb | ioqPostSrb | ioqStartProcessingSrb | ioqEndProcessingSrb =>
      simp only [UnitAction.exec, Option.map_eq_some_iff] at hrun
      obtain ⟨x, hrun, heq⟩ := hrun
      cases heq
      exact samePool_onIoq hrun
  | wait => cases hrun

def eventMemory : DriverEvent → List (MemoryEvent UnitBlock)
  | .act a r => UnitAction.memory a r
  | _ => []

def driverMemory (ls : List DriverEvent) : List (MemoryEvent UnitBlock) := ls.flatMap eventMemory

theorem unitExec_memory (hinv : RefsInv s gs) (hm : MemoryOk es s.dx) (hexec : UnitExec s a r s') :
    MemoryOk (es ++ UnitAction.memory a r) s'.dx := by
  have hsame : (∀ params processId unitMem ioqMem,
      a ≠ .provision params processId unitMem ioqMem) → (∀ unit, a ≠ .free unit) →
      MemoryOk (es ++ []) s'.dx := by
    intro hprovision hfree
    rw [List.append_nil]
    exact hm.same (unitExec_samePool hexec hprovision hfree).2
  cases a with
  | provision params processId unitMem ioqMem =>
      obtain ⟨status, btl⟩ := r
      obtain ⟨p, rfl, -, hfresh, hcase⟩ := unitExec_provision hinv hexec
      cases hcase with
      | noQueue => exact hm.noQueue hfresh
      | refused hfailed =>
          simp only [UnitAction.memory, if_neg hfailed]
          exact hm.noPlace hfresh
      | filled => exact hm.provisioned hfresh rfl
  | free unit =>
      obtain ⟨object, hobject, rfl⟩ := unitExec_free hexec
      exact hm.freed hobject rfl
  | _ => exact hsame (fun _ _ _ _ h => by cases h) (fun _ h => by cases h)

/-! ## Every step -/

theorem outstanding_perm (h : gs.Perm gs') : outstanding s gs p = outstanding s gs' p :=
  congrArg (s.dx.storageUnits.count p + ·) ((h.flatMap_right UnitRefs.heldAddrs).count_eq p)

theorem counted_perm (h : gs.Perm gs') (hcounted : UnitAction.Counted s gs a r) :
    UnitAction.Counted s gs' a r := by
  cases a with
  | referenceByBtl | referenceByDevice =>
      cases r with
      | none => exact hcounted
      | some unit =>
          have hlt : outstanding s gs unit.addr + 1 < 2 ^ 32 := hcounted
          rw [outstanding_perm h] at hlt
          exact hlt
  | _ => exact hcounted

theorem driverStep_verified (hw : Threads.Verified unitRules RefsInv w) (hstep : DriverStep w ev w')
    (hreread : RereadsFound w ev) : Threads.Verified unitRules RefsInv w' := by
  refine hw.step (C := fun w ev => EventCounted w ev ∧ RereadsFound w ev)
    (fun h hinv => hinv.perm h) (fun hinv => hinv.enter) (fun hsettled hinv => ?_) entry_takes
    (fun _ hC hmay hinv hexec => ?_) ⟨hstep.counted, hreread⟩ hstep.step
  · rw [show _ = UnitRefs.none from hsettled] at hinv
    exact hinv.leave
  · exact hinv.exec hmay (counted_perm Threads.accounts_middle hC.1) hC.2 hexec

/-! ## References -/

def referenceAddrs (gs : List UnitRefs) : List Addr :=
  gs.flatMap fun g => g.references.map UnitPtr.addr

/-- The counts are right, and what was allocated has been freed once or is in
the pool. -/
structure ReferencesExact (ls : List DriverEvent) (w : DriverThreads) : Prop where
  /-- One for the slot, or for the unprovision that took the unit out of it, and
  one for every reference that was taken and not dropped. -/
  counts : ∀ p object, w.shared.dx.pool p = some object → object.unit.refCount.toNat =
    (if p ∈ w.shared.dx.storageUnits ∨ p ∈ removedAddrs w.accounts then 1 else 0) +
      (referenceAddrs w.accounts).count p
  /-- References are to the units that have their addresses now. -/
  current : ∀ t ∈ w.threads, ∀ unit ∈ t.account.held,
    w.shared.ptr unit.addr = unit ∧ ∃ object, w.shared.dx.pool unit.addr = some object
  slots : ∀ p ∈ w.shared.dx.storageUnits, p ≠ 0 →
    ∃ object, w.shared.dx.pool p = some object ∧ object.unit.refCount ≠ 0
  /-- A unit without references is being deleted by the thread that dropped the
  last one. -/
  deleting : ∀ p, (deletingAddrs w.accounts).count p = if dying w.shared.dx p then 1 else 0
  frees : ∀ t ∈ w.threads, ∀ unit, t.prog.next = some (.free unit) →
    dying w.shared.dx unit.addr = true
  memory : MemoryOk (driverMemory ls) w.shared.dx
  /-- A thread drops what it holds, and returns when it holds nothing. -/
  drops : ∀ t ∈ w.threads, ∀ unit, t.prog.next = some (.dereference unit) →
    unit ∈ t.account.held
  settled : ∀ t ∈ w.threads, t.prog.next = none → t.account = .none

theorem count_heldAddrs :
    (heldAddrs gs).count p = (removedAddrs gs).count p + (referenceAddrs gs).count p := by
  induction gs with
  | nil => rfl
  | cons g gs ih =>
      have hg : g.heldAddrs.count p =
          g.removedAddrs.count p + (g.references.map UnitPtr.addr).count p := by
        rw [UnitRefs.heldAddrs, UnitRefs.held, List.map_append, List.count_append]
        rfl
      rw [heldAddrs_cons, removedAddrs_cons, referenceAddrs, List.flatMap_cons,
        List.count_append, List.count_append, List.count_append]
      rw [referenceAddrs] at ih
      omega

theorem mem_accounts {t : Thread UnitAction UnitAction.Answer UnitRefs} (ht : t ∈ w.threads) :
    t.account ∈ w.accounts := List.mem_map_of_mem ht

theorem RefsInv.slot_count (hinv : RefsInv s gs) (hp : p ≠ 0) :
    (if p ∈ s.dx.storageUnits ∨ p ∈ removedAddrs gs then 1 else 0) =
      s.dx.storageUnits.count p + (removedAddrs gs).count p := by
  have honce := hinv.once p hp
  split
  · next h =>
      have hpos : 0 < s.dx.storageUnits.count p + (removedAddrs gs).count p := by
        rcases h with h | h
        · have := List.count_pos_iff.mpr h
          omega
        · have := List.count_pos_iff.mpr h
          omega
      omega
  · next h =>
      rw [not_or] at h
      rw [List.count_eq_zero.mpr h.1, List.count_eq_zero.mpr h.2]

theorem RefsInv.counts (hinv : RefsInv s gs) (hobject : s.dx.pool p = some object) :
    object.unit.refCount.toNat =
      (if p ∈ s.dx.storageUnits ∨ p ∈ removedAddrs gs then 1 else 0) +
        (referenceAddrs gs).count p := by
  have hp := hinv.ne_zero hobject
  rw [hinv.slot_count hp, Nat.add_assoc, ← count_heldAddrs]
  by_cases hne : object.unit.refCount = 0
  · have hnone : ¬ 0 < refs (alive s.dx) (heldAddrs gs) p := by
      intro hpos
      obtain ⟨y, hy⟩ := hinv.registry.present p hp hpos
      obtain ⟨hy, hy'⟩ := alive_pool_eq_some.mp hy
      rw [hobject, Option.some.injEq] at hy
      rw [hy] at hne
      exact hy' hne
    have hzero : s.dx.storageUnits.count p + (heldAddrs gs).count p = 0 :=
      Nat.eq_zero_of_not_pos hnone
    rw [hzero, hne]
    rfl
  · exact hinv.refCount hobject hne

theorem referencesExact (hw : Threads.Verified unitRules RefsInv w)
    (hm : MemoryOk (driverMemory ls) w.shared.dx) : ReferencesExact ls w where
  counts _ _ := hw.inv.counts
  current t ht unit hunit := ⟨hw.inv.current _ (mem_accounts ht) unit (.inl hunit),
    hw.inv.exists_object (mem_accounts ht) (.inl hunit)⟩
  slots p hp h0 := exists_alive hw.inv.registry h0 hp
  deleting := hw.inv.deleting
  frees t ht unit hnext :=
    hw.inv.dying_of_deleting (mem_accounts ht) ((hw.safe t ht).next hnext).2
  memory := hm
  drops t ht unit hnext := ((hw.safe t ht).next hnext).2.1
  settled t ht hnext := by
    have hsafe := hw.safe t ht
    obtain ⟨prog, account⟩ := t
    cases prog with
    | ret x => exact hsafe
    | act a k => cases hnext

theorem driverInit_verified (hcap : capacity.toNat ≤ 256) :
    Threads.Verified unitRules RefsInv (driverInit capacity) := by
  have halive : alive (spdDeviceExtensionInit capacity fun _ => none) =
      spdDeviceExtensionInit capacity fun _ => none := rfl
  refine ⟨⟨?_, rfl, ?_, ?_, fun _ => rfl, fun p hp => ?_, ?_⟩, ?_⟩
  · show RegistryInv (alive (spdDeviceExtensionInit capacity fun _ => none)) []
    rw [halive]
    exact registryInv_init hcap
  · exact fun g hg => absurd hg List.not_mem_nil
  · exact fun g hg => absurd hg List.not_mem_nil
  · show (List.replicate capacity.toNat (0 : Addr)).count p + 0 ≤ 1
    rw [List.count_eq_zero.mpr fun hmem => hp (List.eq_of_mem_replicate hmem)]
    exact Nat.zero_le _
  · exact fun p object h => by cases h
  · exact fun t ht => absurd ht List.not_mem_nil

theorem driverRun_verified (hcap : capacity.toNat ≤ 256)
    (hrun : Run (fun w ev w' => DriverStep w ev w' ∧ RereadsFound w ev)
      (driverInit capacity) ls w) :
    Threads.Verified unitRules RefsInv w ∧ MemoryOk (driverMemory ls) w.shared.dx := by
  refine hrun.history (I := fun ls w => Threads.Verified unitRules RefsInv w ∧
    MemoryOk (driverMemory ls) w.shared.dx) ⟨driverInit_verified hcap, fun _ =>
      ⟨rfl, rfl⟩⟩ ?_
  intro ls w ev w' _ ⟨hw, hm⟩ ⟨hstep, hreread⟩
  refine ⟨driverStep_verified hw hstep hreread, ?_⟩
  have hmemory : driverMemory (ls ++ [ev]) = driverMemory ls ++ eventMemory ev := by
    simp [driverMemory]
  rw [hmemory]
  have hnone : MemoryOk (driverMemory ls ++ []) w.shared.dx := by rwa [List.append_nil]
  cases hstep.step with
  | enter => exact hnone
  | act hexec => exact unitExec_memory hw.inv hm hexec
  | leave => exact hnone

/-! ## A unit that is provisioned again -/

/-- The parameters of a small disk, by the number of its GUID. -/
def smallDisk (n : UInt32) : StorageUnitParams :=
  { StorageUnitParams.zero with
    guid := ⟨n, 0, 0, Vector.replicate 8 0⟩
    blockCount := 16
    blockLength := 512
    maxTransferLength := 4096 }

/-- A process makes a service request. The pool has memory at `0x1000`. -/
def request (params : IoctlParams) (processId : UInt32) : Threads.Move Entry :=
  .enter _ (.serviceRequest ⟨some 0x1000, some zeroedIoq, none, 0, []⟩
    ⟨136, 136, 136, some params, processId⟩)

/-- Provisions and unprovisions, without references, posts and cancels. -/
def provisioningExec (s : DriverState) : (a : UnitAction) → Option (DriverState × a.Answer)
  | .provision params processId (some p) ioqMem =>
      if p ≠ 0 ∧ s.dx.pool p = none then
        UnitAction.exec s (.provision params processId (some p) ioqMem)
      else none
  | .referenceByBtl _ | .referenceByDevice _ | .ioqPostSrb _ _ _ | .ioqCancelSrb _ _ _
  | .provision _ _ none _ => none
  | a => a.exec s

instance (s : DriverState) (p : Addr) : Decidable (s.dx.pool p = none) :=
  decidable_of_iff _ Option.isNone_iff_eq_none

theorem provisioningExec_exec {x : DriverState × a.Answer} (h : provisioningExec s a = some x) :
    UnitExec s a x.2 x.1 ∧ ∀ s gs, UnitAction.Counted s gs a x.2 := by
  cases a with
  | provision params processId unitMem ioqMem =>
      cases unitMem with
      | none => cases h
      | some p =>
          simp only [provisioningExec] at h
          split at h
          · next hfresh =>
              refine ⟨⟨fun q hq => ?_, h⟩, fun _ _ => trivial⟩
              cases hq
              exact hfresh
          · cases h
  | referenceByBtl | referenceByDevice | ioqPostSrb | ioqCancelSrb => cases h
  | _ => exact ⟨⟨trivial, h⟩, fun _ _ => trivial⟩

theorem provisioning_run {ms : List (Threads.Move Entry)}
    (h : Threads.moves unitRules provisioningExec w ms = some (ls, w')) :
    Run DriverStep w ls w' := by
  have hexec : ∀ s a s' r, provisioningExec s a = some (s', r) →
      UnitExec s a r s' ∧ ∀ s gs, UnitAction.Counted s gs a r :=
    fun s a s' r h => provisioningExec_exec h
  refine (Threads.moves_run hexec h).mono fun {w ev w'} hstep => ⟨hstep.1, ?_⟩
  cases ev with
  | act a r => exact hstep.2 a r rfl _ _
  | _ => trivial

def provisionExec (s : DriverState) : (a : UnitAction) → Option (DriverState × a.Answer)
  | .provision params processId unitMem ioqMem =>
      provisioningExec s (.provision params processId unitMem ioqMem)
  | _ => none

theorem provisions_run {ms : List (Threads.Move Entry)}
    (h : Threads.moves unitRules provisionExec w ms = some (ls, w')) :
    Run (fun w ev w' => DriverStep w ev w' ∧ RereadsFound w ev ∧ FreesUnseen w ev) w ls w' := by
  have hexec : ∀ s a s' r, provisionExec s a = some (s', r) → UnitExec s a r s' ∧
      ∃ params processId unitMem ioqMem, a = .provision params processId unitMem ioqMem := by
    intro s a s' r h
    cases a with
    | provision params processId unitMem ioqMem =>
        exact ⟨(provisioningExec_exec h).1, params, processId, unitMem, ioqMem, rfl⟩
    | _ => cases h
  refine (Threads.moves_run hexec h).mono fun {w ev w'} hstep => ?_
  cases ev with
  | act a r =>
      obtain ⟨params, processId, unitMem, ioqMem, rfl⟩ := hstep.2 a r rfl
      exact ⟨⟨hstep.1, trivial⟩, trivial, trivial⟩
  | _ => exact ⟨⟨hstep.1, trivial⟩, trivial, trivial⟩

def unitIsProvisioned : List (Threads.Move Entry) :=
  [request (.provision (smallDisk 1)) 1, .turn 0, .turn 0]

theorem unitIsProvisioned_run :
    ∃ ls w, Run (fun w ev w' => DriverStep w ev w' ∧ RereadsFound w ev ∧ FreesUnseen w ev)
      (driverInit 16) ls w ∧ w.shared.dx.pool 0x1000 ≠ none := by
  have hfinal : (Threads.moves unitRules provisionExec (driverInit 16) unitIsProvisioned).map
      (fun x => (x.2.shared.dx.pool 0x1000).isSome) = some true := by rfl
  obtain ⟨⟨ls, w⟩, hmoves, hsome⟩ := Option.map_eq_some_iff.mp hfinal
  refine ⟨ls, w, provisions_run hmoves, fun hnone => ?_⟩
  simp only [hnone] at hsome
  cases hsome

/-- Process 2 finds the unit of process 1, which unprovisions it before process 2
has read the owner again. -/
def unitIsFreed : List (Threads.Move Entry) :=
  [request (.provision (smallDisk 1)) 1, .turn 0, .turn 0,
    request (.unprovision (smallDisk 1).guid) 2, .turn 0,
    request (.unprovision (smallDisk 1).guid) 1] ++ List.replicate 8 (.turn 0)

/-- Then process 2 provisions a unit that is given the same memory, and its first
thread goes on. -/
def unitIsReplaced : List (Threads.Move Entry) :=
  unitIsFreed ++ [request (.provision (smallDisk 2)) 2, .turn 0, .turn 0] ++
    List.replicate 4 (.turn 0)

/-- Whatever the threads do, the counts are right, as long as no unprovision
takes a unit that has replaced the one it found for its own. -/
theorem driver_references (hcap : capacity.toNat ≤ 256)
    (hrun : Run (fun w ev w' => DriverStep w ev w' ∧ RereadsFound w ev)
      (driverInit capacity) ls w) :
    ReferencesExact ls w := by
  obtain ⟨hw, hm⟩ := driverRun_verified hcap hrun
  exact referencesExact hw hm

theorem driver_references_provisioned :
    ∃ ls w, w.shared.dx.pool 0x1000 ≠ none ∧ ReferencesExact ls w :=
  let ⟨ls, w, hrun, hsome⟩ := unitIsProvisioned_run
  ⟨ls, w, hsome, driver_references (by decide) (hrun.mono fun h => ⟨h.1, h.2.1⟩)⟩

/-- The unit of process 2 loses its slot's reference, which nobody took. -/
theorem driver_references_replaced :
    ∃ ls w, Run DriverStep (driverInit 16) ls w ∧ ¬ ReferencesExact ls w := by
  have hfinal : (Threads.moves unitRules provisioningExec (driverInit 16) unitIsReplaced).map
      (fun x => ((x.2.shared.dx.pool 0x1000).map fun object => object.unit.refCount,
        x.2.shared.dx.storageUnits[0]?)) = some (some 0, some 0x1000) := by rfl
  obtain ⟨⟨ls, w⟩, hmoves, hfinal⟩ := Option.map_eq_some_iff.mp hfinal
  rw [Prod.mk.injEq] at hfinal
  obtain ⟨hcount, hslot⟩ := hfinal
  refine ⟨ls, w, provisioning_run hmoves, fun hexact => ?_⟩
  obtain ⟨object, hobject, hne⟩ := hexact.slots 0x1000 (List.mem_of_getElem? hslot) (by decide)
  simp only at hcount
  rw [hobject, Option.map_some, Option.some.injEq] at hcount
  exact hne hcount

/-! ## Use of a freed unit -/

/-- The unit is allocated, and is the one the pointer was to. -/
def Live (s : DriverState) (ptr : UnitPtr) : Prop :=
  s.ptr ptr.addr = ptr ∧ ∃ object, s.dx.pool ptr.addr = some object

/-- The unit an action reads or writes by a pointer its thread has. -/
def UnitAction.pointer : UnitAction → Option UnitPtr
  | .ownerIs unit _ | .dereference unit | .free unit | .read unit | .setDevice unit _
  | .setTransactProcessId unit _ | .ioqReset unit _ | .ioqStopped unit | .ioqCancelSrb unit _ _
  | .ioqPostSrb unit _ _ | .ioqStartProcessingSrb unit | .ioqEndProcessingSrb unit _ _ => some unit
  | _ => none

/-- The action looks at the units in the slots. -/
def UnitAction.Scans : UnitAction → Prop
  | .provision _ _ _ _ | .unprovision _ _ | .referenceByBtl _ | .referenceByDevice _
  | .getUseBitmap _ => True
  | _ => False

/-- The extension that `Prepare` or `Complete` is called for. -/
def calledExt : IoqCall → Option Addr
  | .prepare ext _ | .complete ext _ _ => some ext
  | .srbComplete _ _ => none

/-- The extensions of the SRBs an action prepares or completes. -/
def UnitAction.called : (a : UnitAction) → a.Answer → List Addr
  | .ioqStartProcessingSrb _, r | .ioqEndProcessingSrb _ _ _, r => r.1.filterMap calledExt
  | _, _ => []

/-- What an action reads or writes: the unit of its own pointer, the units in the
slots, and the units of the SRBs that `SpdSrbExecuteScsiPrepare` and
`SpdSrbExecuteScsiComplete` are called for. -/
inductive Uses (s : DriverState) (a : UnitAction) : UnitPtr → Prop
  | pointer {ptr : UnitPtr} : UnitAction.pointer a = some ptr → Uses s a ptr
  | slot {p : Addr} : UnitAction.Scans a → p ∈ s.dx.storageUnits → p ≠ 0 →
      Uses s a (s.ptr p)
  | extension {r : a.Answer} {s' : DriverState} {ext : Addr} :
      UnitExec s a r s' → ext ∈ UnitAction.called a r → Uses s a (s.storageUnit ext)

/-- No thread is about to use a unit that has been freed. -/
def NoUseAfterFree (w : DriverThreads) : Prop :=
  ∀ t ∈ w.threads, ∀ a, t.prog.next = some a → ∀ ptr, Uses w.shared a ptr →
    Live w.shared ptr

def FoundLive (s : DriverState) (gs : List UnitRefs) : Prop :=
  ∀ g ∈ gs, ∀ ptr owner, g.found = some (ptr, owner) → Live s ptr

theorem RefsInv.live (hinv : RefsInv s gs) (hg : g ∈ gs) (hptr : g.Has ptr) : Live s ptr :=
  ⟨hinv.current g hg ptr hptr, hinv.exists_object hg hptr⟩

theorem live_of_samePool (h : SamePool s s') (hlive : Live s ptr) : Live s' ptr := by
  obtain ⟨hgen, hpool⟩ := h
  obtain ⟨hcur, object, hobject⟩ := hlive
  refine ⟨?_, ?_⟩
  · rw [← hcur]
    exact congrArg (UnitPtr.mk ptr.addr) (congrFun hgen ptr.addr)
  · have hsome := hpool ptr.addr
    rw [hobject] at hsome
    exact Option.isSome_iff_exists.mp hsome

theorem unitExec_live (hinv : RefsInv s gs) (hexec : UnitExec s a r s')
    (hfree : ∀ unit, a = .free unit → ptr.addr ≠ unit.addr) (hlive : Live s ptr) :
    Live s' ptr := by
  cases a with
  | provision params processId unitMem ioqMem =>
      obtain ⟨status, btl⟩ := r
      obtain ⟨p, -, -, hfresh, hcase⟩ := unitExec_provision hinv hexec
      have hne : ptr.addr ≠ p := by
        intro heq
        obtain ⟨-, object, hobject⟩ := hlive
        rw [heq, hfresh] at hobject
        cases hobject
      cases hcase with
      | noQueue => exact hlive
      | refused => exact hlive
      | filled =>
          obtain ⟨hcur, object, hobject⟩ := hlive
          refine ⟨?_, object, (Function.update_of_ne hne _ _).trans hobject⟩
          rw [← hcur]
          exact congrArg (UnitPtr.mk ptr.addr) (Function.update_of_ne hne _ _)
  | free unit =>
      obtain ⟨object, -, rfl⟩ := unitExec_free hexec
      obtain ⟨hcur, y, hy⟩ := hlive
      exact ⟨hcur, y, (Function.update_of_ne (hfree unit rfl) _ _).trans hy⟩
  | _ => exact live_of_samePool (unitExec_samePool hexec (fun _ _ _ _ h => by cases h)
      fun _ h => by cases h) hlive

/-- What a call of a queue prepares or completes is in the queue. -/
theorem spec_called {q q' : Queue} {op : IoqOp} {calls : List IoqCall} {status : NtStatus}
    {ext : Addr} (h : op.spec q = some (q', calls, status))
    (hext : ext ∈ calls.filterMap calledExt) : ∃ i ∈ q.items, i.ext = ext := by
  cases op with
  | post i =>
      cases h
      cases hext
  | cancel i =>
      simp only [IoqOp.spec, Option.some.injEq, Queue.cancel] at h
      split at h
      · cases h
        cases hext
      · cases h
        cases hext
  | reset stop =>
      simp only [IoqOp.spec, Option.some.injEq, Queue.reset] at h
      split at h
      · cases h
        cases hext
      · cases h
        obtain ⟨c, hc, hce⟩ := List.mem_filterMap.mp hext
        obtain ⟨i, -, rfl⟩ := List.mem_map.mp hc
        cases hce
  | start =>
      simp only [IoqOp.spec, Option.map_eq_some_iff] at h
      obtain ⟨⟨q₁, w₁, calls₁, status₁⟩, hstart, heq⟩ := h
      cases heq
      obtain ⟨-, -, -, rfl, -⟩ | ⟨-, -, -, -, rfl, -⟩ | ⟨i, rest, -, hpending, -,
          -, rfl, -⟩ :=
        Queue.start_cases hstart
      · cases hext
      · cases hext
      · rw [List.mem_singleton.mp hext]
        exact ⟨i, List.mem_append_left _ (hpending ▸ List.mem_cons_self), rfl⟩
  | finish hint st =>
      simp only [IoqOp.spec, Option.map_eq_some_iff] at h
      obtain ⟨⟨q₁, w₁, calls₁⟩, hfinish, heq⟩ := h
      cases heq
      obtain ⟨-, -, -, rfl⟩ | ⟨i, st', -, hlookup, -, ⟨-, -, rfl⟩ | ⟨-, -, rfl⟩⟩ :=
        Queue.finish_cases hfinish
      · cases hext
      · rw [List.mem_singleton.mp hext]
        exact ⟨i, List.mem_append_right _ (List.mem_of_find?_eq_some hlookup), rfl⟩
      · rw [List.mem_singleton.mp hext]
        exact ⟨i, List.mem_append_right _ (List.mem_of_find?_eq_some hlookup), rfl⟩

/-- The SRBs in the queue of a unit a thread holds are that unit's. -/
theorem RefsInv.called_live {op : IoqOp} {x : SpdDeviceExtension × List IoqCall × NtStatus}
    {ext : Addr} (hinv : RefsInv s gs) (hg : g ∈ gs) (hptr : ptr ∈ g.held)
    (hallowed : ∀ live, op.Allowed live) (h : Sys.onIoq s.dx ptr.addr op.exec = some x)
    (hext : ext ∈ x.2.1.filterMap calledExt) : Live s (s.storageUnit ext) := by
  unfold Sys.onIoq at h
  simp only [Option.bind_eq_bind, Option.bind_eq_some_iff] at h
  obtain ⟨object, hobject, ⟨ioq, calls, status⟩, hcall, h⟩ := h
  cases h
  obtain ⟨q, hq, hitems⟩ := hinv.queues ptr.addr object hobject
  have hagree := exec_agree hq (hallowed q.items)
  rw [hcall] at hagree
  obtain ⟨q', hspec, -⟩ := hagree.of_some
  obtain ⟨i, hi, rfl⟩ := spec_called hspec hext
  rw [hitems i hi, hinv.current g hg ptr (.inl hptr)]
  exact hinv.live hg (.inl hptr)

theorem RefsInv.uses_live (hinv : RefsInv s gs) (hfound : FoundLive s gs) (hg : g ∈ gs)
    (hmay : g.May a) (huses : Uses s a ptr) : Live s ptr := by
  cases huses with
  | pointer h =>
      cases a with
      | ownerIs =>
          cases h
          obtain ⟨owner, heq, -⟩ := hmay
          exact hfound g hg ptr owner heq
      | dereference =>
          cases h
          exact hinv.live hg (.inl hmay.2.1)
      | free =>
          cases h
          exact hinv.live hg (.inr hmay.2)
      | read =>
          cases h
          exact hinv.live hg hmay.2
      | setDevice | setTransactProcessId | ioqReset | ioqStopped | ioqCancelSrb | ioqPostSrb
      | ioqStartProcessingSrb | ioqEndProcessingSrb =>
          cases h
          exact hinv.live hg (.inl hmay.2)
      | _ => cases h
  | slot _ hp h0 =>
      obtain ⟨object, hobject, -⟩ := exists_alive hinv.registry h0 hp
      exact ⟨rfl, object, hobject⟩
  | extension hexec hext =>
      have hrun := hexec.exec
      cases a with
      | ioqStartProcessingSrb unit =>
          simp only [UnitAction.exec, Option.map_eq_some_iff] at hrun
          obtain ⟨x, hrun, heq⟩ := hrun
          cases heq
          exact @RefsInv.called_live s g gs unit .start x _ hinv hg hmay.2 (fun _ => trivial)
            hrun hext
      | ioqEndProcessingSrb unit hint status =>
          simp only [UnitAction.exec, Option.map_eq_some_iff] at hrun
          obtain ⟨x, hrun, heq⟩ := hrun
          cases heq
          exact @RefsInv.called_live s g gs unit (.finish hint status) x _ hinv hg hmay.2
            (fun _ => trivial) hrun hext
      | _ => cases hext

/-- What an unprovision found stays allocated until it has read the owner. -/
theorem foundLive_step (hinv : RefsInv s (g :: gs)) (hexec : UnitExec s a r s')
    (hfree : ∀ unit, a = .free unit → ∀ h ∈ gs, ∀ ptr owner,
      h.found = some (ptr, owner) →
      ptr.addr ≠ unit.addr)
    (hmay : g.May a) (hlive : FoundLive s (g :: gs)) :
    FoundLive s' (UnitRefs.track a r g :: gs) := by
  intro h hh ptr owner heq
  rcases List.mem_cons.mp hh with rfl | hh
  · cases a with
    | unprovision key processId =>
        have hrun := hexec.exec
        have hsame := unitExec_samePool hexec (fun _ _ _ _ h => by cases h) fun _ h => by cases h
        simp only [UnitAction.exec, unprovisionSection, Option.bind_eq_bind,
          Option.map_eq_some_iff, Option.bind_eq_some_iff] at hrun
        obtain ⟨x, ⟨found, hlookup, hrun⟩, hx⟩ := hrun
        cases found with
        | none =>
            cases hrun
            cases hx
            have heq' : g.found = some (ptr, owner) := heq
            rw [show g.found = none from hmay] at heq'
            cases heq'
        | some y =>
            simp only [Option.bind_eq_some_iff] at hrun
            obtain ⟨object, hobject, hrun⟩ := hrun
            cases hrun
            cases hx
            cases heq
            exact live_of_samePool hsame ⟨rfl, object, hobject⟩
    | referenceByBtl | referenceByDevice =>
        rw [show (UnitRefs.track _ r g).found = g.found by cases r <;> rfl,
          show g.found = none from hmay] at heq
        cases heq
    | ownerIs => cases heq
    | dereference unit =>
        rw [show (UnitRefs.track (.dereference unit) r g).found = g.found from
          UnitRefs.drop_found, hmay.1] at heq
        cases heq
    | free | read | setDevice | setTransactProcessId | ioqReset | ioqStopped | ioqCancelSrb
    | ioqPostSrb | ioqStartProcessingSrb | ioqEndProcessingSrb =>
        rw [show (UnitRefs.track _ r g).found = g.found from rfl, hmay.1] at heq
        cases heq
    | provision | getUseBitmap | wait =>
        rw [show (UnitRefs.track _ r g).found = g.found from rfl,
          show g.found = none from hmay] at heq
        cases heq
  · exact unitExec_live hinv hexec (fun unit hunit => hfree unit hunit h hh ptr owner heq)
      (hlive h (List.mem_cons_of_mem _ hh) ptr owner heq)

/-- What it found is allocated, so that it is the unit it found. -/
theorem rereadOk_of_live (hlive : FoundLive s (g :: gs)) (hmay : g.May a) :
    UnitAction.RereadOk s a := by
  cases a with
  | ownerIs unit processId =>
      obtain ⟨owner, heq, -⟩ := hmay
      exact .inl (hlive g List.mem_cons_self unit owner heq).1
  | _ => trivial

/-- A thread that found a unit is about to read the owner. -/
theorem next_of_found {t : Thread UnitAction UnitAction.Answer UnitRefs} {owner : UInt32}
    (hsafe : unitRules.Safe (fun _ => unitRules.Settled) t.account t.prog)
    (hfound : t.account.found = some (ptr, owner)) :
    ∃ processId, t.prog.next = some (.ownerIs ptr processId) := by
  obtain ⟨prog, account⟩ := t
  cases prog with
  | ret x =>
      rw [show account = .none from hsafe] at hfound
      cases hfound
  | act a k =>
      have hmay : account.May a := hsafe.1
      have hfound' : account.found = some (ptr, owner) := hfound
      cases a with
      | ownerIs unit processId =>
          obtain ⟨owner', heq, -⟩ := hmay
          rw [hfound'] at heq
          cases heq
          exact ⟨processId, rfl⟩
      | dereference | free | read | setDevice | setTransactProcessId | ioqReset | ioqStopped
      | ioqCancelSrb | ioqPostSrb | ioqStartProcessingSrb | ioqEndProcessingSrb =>
          rw [hmay.1] at hfound'
          cases hfound'
      | _ =>
          rw [show account.found = none from hmay] at hfound'
          cases hfound'

theorem driverRun_live (hcap : capacity.toNat ≤ 256)
    (hrun : Run (fun w ev w' => DriverStep w ev w' ∧ FreesUnseen w ev)
      (driverInit capacity) ls w) :
    Threads.Verified unitRules (fun s gs => RefsInv s gs ∧ FoundLive s gs) w := by
  have hinit := driverInit_verified hcap
  refine hrun.inv ⟨⟨hinit.inv, fun g hg => absurd hg List.not_mem_nil⟩, hinit.safe⟩ ?_
  intro w ev w' hw ⟨hstep, hfrees⟩
  refine hw.step (C := fun w ev => EventCounted w ev ∧ FreesUnseen w ev)
    (fun h hinv => ⟨hinv.1.perm h, fun g hg => hinv.2 g (h.mem_iff.mpr hg)⟩)
    (fun hinv => ⟨hinv.1.enter, fun g hg ptr owner heq => ?_⟩) (fun hsettled hinv => ?_)
    entry_takes (fun hothers hC hmay hinv hexec => ?_) ⟨hstep.counted, hfrees⟩ hstep.step
  · rcases List.mem_cons.mp hg with rfl | hg
    · cases heq
    · exact hinv.2 g hg ptr owner heq
  · rw [show _ = UnitRefs.none from hsettled] at hinv
    exact ⟨hinv.1.leave, fun g hg => hinv.2 g (List.mem_cons_of_mem _ hg)⟩
  · obtain ⟨hinv, hlive⟩ := hinv
    obtain ⟨hinv', hans⟩ := hinv.exec hmay (counted_perm Threads.accounts_middle hC.1)
      (rereadOk_of_live hlive hmay) hexec
    refine ⟨⟨hinv', ?_⟩, hans⟩
    refine foundLive_step hinv hexec (fun unit hunit h hh ptr owner heq => ?_) hmay hlive
    subst hunit
    obtain ⟨t, ht, rfl⟩ := List.mem_map.mp hh
    obtain ⟨processId, hnext⟩ := next_of_found (hothers t ht) heq
    exact hC.2 t (Threads.mem_middle ht) ptr processId hnext

/-- Whatever the threads do, none of them uses a unit after it has been freed,
as long as no unit is freed between the two halves of an unprovision. -/
theorem driver_no_use_after_free (hcap : capacity.toNat ≤ 256)
    (hrun : Run (fun w ev w' => DriverStep w ev w' ∧ FreesUnseen w ev)
      (driverInit capacity) ls w) :
    NoUseAfterFree w := by
  have hw := driverRun_live hcap hrun
  intro t ht a hnext ptr huses
  exact hw.inv.1.uses_live hw.inv.2 (mem_accounts ht) ((hw.safe t ht).next hnext) huses

theorem driver_no_use_after_free_provisioned :
    ∃ w : DriverThreads, w.shared.dx.pool 0x1000 ≠ none ∧ NoUseAfterFree w :=
  let ⟨_, w, hrun, hsome⟩ := unitIsProvisioned_run
  ⟨w, hsome, driver_no_use_after_free (by decide) (hrun.mono fun h => ⟨h.1, h.2.2⟩)⟩

/-- Process 2 is about to read the owner of the unit that process 1 has freed. -/
theorem driver_use_after_free :
    ∃ ls w, Run DriverStep (driverInit 16) ls w ∧ ¬ NoUseAfterFree w := by
  have hfinal : (Threads.moves unitRules provisioningExec (driverInit 16) unitIsFreed).map
      (fun x => (x.2.threads.map fun t => t.prog.next, (x.2.shared.dx.pool 0x1000).isNone)) =
      some ([some (.ownerIs ⟨0x1000, 1⟩ 2)], true) := by rfl
  obtain ⟨⟨ls, w⟩, hmoves, hfinal⟩ := Option.map_eq_some_iff.mp hfinal
  rw [Prod.mk.injEq] at hfinal
  obtain ⟨hnext, hnone⟩ := hfinal
  refine ⟨ls, w, provisioning_run hmoves, fun hsafe => ?_⟩
  obtain ⟨t, ht, hnext⟩ :
      ∃ t ∈ w.threads, t.prog.next = some (.ownerIs ⟨0x1000, 1⟩ 2) := by
    have hmem : some (.ownerIs ⟨0x1000, 1⟩ 2) ∈ w.threads.map fun t => t.prog.next := by
      rw [hnext]
      exact List.mem_singleton_self _
    exact List.mem_map.mp hmem
  obtain ⟨-, object, hobject⟩ := hsafe t ht _ hnext ⟨0x1000, 1⟩ (.pointer rfl)
  simp only [hobject] at hnone
  cases hnone

end Winspd.Proofs
