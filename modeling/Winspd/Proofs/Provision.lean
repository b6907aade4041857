import Winspd.Proofs.Posting
import Winspd.Proofs.Registry
import Winspd.Sys.Provision

/-!
# A provision that fails

`SpdStorageUnitProvision` has four ways to fail and one exit path for them. The
exit path gives back what the call has allocated so far, and what that is it
reads off the unit: its field `Ioq` is null until there is a queue. So when the
unit itself could not be allocated there is nothing to read this from, and the
exit path reads it all the same. With a unit every failure leaves everything as
it was (`provision_failure`).

Here a unit and its queue are two blocks, as they are in the pool, and the exit path
is taken apart. For units that have their queues this is `Sys.spdStorageUnitProvision`,
on which the registry is built (`spdStorageUnitProvision_objects`).
-/

namespace Winspd.Proofs

open Winspd.Lib Winspd.Sys
open ProvisionMem (storageUnitAt ioqAt spdAllocNonPaged spdFree storeIoq scan provisionExit)

variable {s s' : ProvisionMem} {p q : Addr} {unit : SpdStorageUnit} {ioq mem : SpdIoq}
  {guid : Guid} {unitMem : Option Addr} {ioqMem : Option (Addr × SpdIoq)}
  {params : StorageUnitParams} {processId : UInt32} {i btl : UInt32} {ps : List Addr}

/-! ## What a call may rely on -/

def SlotsAllocated (s : ProvisionMem) : Prop :=
  ∀ p ∈ s.storageUnits, p ≠ 0 → ∃ unit q, s.pool p = some (.storageUnit unit q)

/-- The pool hands out what is not allocated. -/
structure FreshBlocks (s : ProvisionMem) (unitMem : Option Addr)
    (ioqMem : Option (Addr × SpdIoq)) : Prop where
  unit : ∀ p, unitMem = some p → p ≠ 0 ∧ s.pool p = none
  ioq : ∀ q mem, ioqMem = some (q, mem) → q ≠ 0 ∧ s.pool q = none ∧ unitMem ≠ some q

/-- A unit with the GUID is at `p`. -/
def hasGuid (s : ProvisionMem) (guid : Guid) (p : Addr) : Bool :=
  match s.storageUnitAt p with
  | some (unit, _) => guid = unit.storageUnitParams.guid
  | none => false

/-- The status that a provision is to return. -/
def provisionStatus (s : ProvisionMem) (guid : Guid) :
    Option Addr → Option (Addr × SpdIoq) → NtStatus
  | some _, some _ =>
      if s.storageUnits.any (hasGuid s guid) then .objectNameCollision
      else if 0 ∈ s.storageUnits then .success
      else .cannotMake
  | _, _ => .insufficientResources

/-- Nothing is different, and what was allocated was freed once. -/
structure LeavesNothing (s s' : ProvisionMem) : Prop where
  storageUnits : s'.storageUnits = s.storageUnits
  storageUnitCount : s'.storageUnitCount = s.storageUnitCount
  storageUnitCapacity : s'.storageUnitCapacity = s.storageUnitCapacity
  pool : s'.pool = s.pool
  events : ∃ es, s'.events = s.events ++ es ∧ AllFreed es

/-! ## Memory -/

theorem storageUnitAt_eq (hp : p ≠ 0) (h : s.pool p = some (.storageUnit unit q)) :
    s.storageUnitAt p = some (unit, q) := by
  rw [storageUnitAt, if_neg hp]
  simp only [h]

theorem ioqAt_eq (hq : q ≠ 0) (h : s.pool q = some (.ioq ioq)) : s.ioqAt q = some ioq := by
  rw [ioqAt, if_neg hq]
  simp only [h]

theorem spdFree_eq {block : PoolBlock} (hp : p ≠ 0) (h : s.pool p = some block) :
    s.spdFree p =
      some { s with pool := Function.update s.pool p none, events := s.events ++ [.free p] } := by
  rw [spdFree, if_neg hp, h, Option.map_some]

theorem update_unallocated (h : s.pool p = none) : Function.update s.pool p none = s.pool := by
  rw [← h]
  exact Function.update_eq_self p s.pool

/-- Memory with a new unit and its queue. -/
def withUnit (s : ProvisionMem) (p q : Addr) (unit : SpdStorageUnit)
    (ioq : SpdIoq) : ProvisionMem :=
  { s with
    pool := Function.update (Function.update s.pool p (some (.storageUnit unit q))) q
      (some (.ioq ioq))
    events := s.events ++ [.alloc p, .alloc q] }

theorem withUnit_storageUnitAt (hp : p ≠ 0) (hpq : p ≠ q) :
    (withUnit s p q unit ioq).storageUnitAt p = some (unit, q) :=
  storageUnitAt_eq hp ((Function.update_of_ne hpq _ _).trans (Function.update_self _ _ _))

theorem withUnit_other {p' : Addr} (hp : s.pool p = none) (hq : s.pool q = none)
    (h : s.pool p' ≠ none) : (withUnit s p q unit ioq).pool p' = s.pool p' := by
  have hp' : p' ≠ p := fun heq => h (by rw [heq, hp])
  have hq' : p' ≠ q := fun heq => h (by rw [heq, hq])
  exact (Function.update_of_ne hq' _ _).trans (Function.update_of_ne hp' _ _)

theorem storageUnitAt_congr {p' : Addr} (h : s'.pool p' = s.pool p') :
    s'.storageUnitAt p' = s.storageUnitAt p' := by
  simp only [storageUnitAt, h]

theorem spdIoqCreate_none (hp : p ≠ 0) :
    (s.spdAllocNonPaged p (.storageUnit unit 0)).spdIoqCreate p none =
      some (s.spdAllocNonPaged p (.storageUnit unit 0), .insufficientResources) := by
  have hat : (s.spdAllocNonPaged p (.storageUnit unit 0)).storageUnitAt p = some (unit, 0) :=
    storageUnitAt_eq hp (Function.update_self _ _ _)
  simp only [ProvisionMem.spdIoqCreate, storeIoq, hat, Option.map_some, Option.bind_eq_bind,
    Option.bind_some]
  simp only [spdAllocNonPaged, Function.update_idem]

theorem spdIoqCreate_some (hp : p ≠ 0) (hpq : p ≠ q) :
    (s.spdAllocNonPaged p (.storageUnit unit 0)).spdIoqCreate p (some (q, mem)) =
      some (withUnit s p q unit (Sys.spdIoqCreate mem), .success) := by
  have hat : (s.spdAllocNonPaged p (.storageUnit unit 0)).storageUnitAt p = some (unit, 0) :=
    storageUnitAt_eq hp (Function.update_self _ _ _)
  have hat' : ((s.spdAllocNonPaged p (.storageUnit unit 0)).spdAllocNonPaged q
      (.ioq (Sys.spdIoqCreate mem))).storageUnitAt p = some (unit, 0) :=
    storageUnitAt_eq hp ((Function.update_of_ne hpq _ _).trans (Function.update_self _ _ _))
  have hstore : (s.spdAllocNonPaged p (.storageUnit unit 0)).storeIoq p 0 =
      some (s.spdAllocNonPaged p (.storageUnit unit 0)) := by
    rw [storeIoq, hat, Option.map_some]
    simp only [spdAllocNonPaged, Function.update_idem]
  simp only [ProvisionMem.spdIoqCreate, hstore, Option.bind_eq_bind, Option.bind_some]
  simp only [storeIoq, hat', Option.map_some, Option.bind_some]
  simp only [spdAllocNonPaged, withUnit, List.append_assoc, List.singleton_append]
  rw [Function.update_comm hpq.symm, Function.update_idem]

/-! ## The exit path -/

theorem provisionExit_null : s.provisionExit 0 = none := rfl

theorem provisionExit_unit (unit : SpdStorageUnit) (hp : p ≠ 0) (hfree : s.pool p = none) :
    ∃ s', (s.spdAllocNonPaged p (.storageUnit unit 0)).provisionExit p = some s' ∧
      LeavesNothing s s' := by
  have hpool : (s.spdAllocNonPaged p (.storageUnit unit 0)).pool p =
      some (.storageUnit unit 0) := Function.update_self _ _ _
  refine ⟨{ s with events := s.events ++ [.alloc p] ++ [.free p] }, ?_, rfl, rfl, rfl, rfl,
    [.alloc p, .free p], List.append_assoc .., fun b => ?_⟩
  · simp only [provisionExit, storageUnitAt_eq hp hpool, Option.bind_eq_bind, Option.bind_some,
      ne_eq, not_true_eq_false, if_false, if_pos hp, spdFree_eq hp hpool]
    simp only [spdAllocNonPaged, Function.update_idem, update_unallocated hfree]
  · by_cases hb : p = b
    · simp [lifetime, MemoryEvent.next, hb]
    · simp [lifetime, MemoryEvent.next, hb]

theorem provisionExit_queue (unit : SpdStorageUnit) (mem : SpdIoq) (hp : p ≠ 0) (hq : q ≠ 0)
    (hpq : p ≠ q) (hfree : s.pool p = none)
    (hfree' : s.pool q = none) :
    ∃ s', (withUnit s p q unit (Sys.spdIoqCreate mem)).provisionExit p = some s' ∧
      LeavesNothing s s' := by
  obtain ⟨ioq, hreset, -⟩ := (spdIoqReset_agree (spdIoqCreate_refines mem) false).exists_some
  have hioq : (withUnit s p q unit (Sys.spdIoqCreate mem)).ioqAt q =
      some (Sys.spdIoqCreate mem) := ioqAt_eq hq (Function.update_self _ _ _)
  refine ⟨{ s with events := s.events ++ [.alloc p, .alloc q] ++ [.free q] ++ [.free p] }, ?_,
    rfl, rfl, rfl, rfl, [.alloc p, .alloc q, .free q, .free p], ?_, fun b => ?_⟩
  · simp only [provisionExit, withUnit_storageUnitAt hp hpq, Option.bind_eq_bind,
      Option.bind_some, ne_eq, hq, hp, not_false_eq_true, if_true, ProvisionMem.spdIoqDelete, hioq,
      hreset]
    rw [spdFree_eq hq (Function.update_self _ _ _)]
    simp only [Option.bind_some]
    have hpool : Function.update (Function.update (withUnit s p q unit
        (Sys.spdIoqCreate mem)).pool q (some (.ioq ioq))) q none p =
        some (.storageUnit unit q) := by
      rw [Function.update_of_ne hpq, Function.update_of_ne hpq]
      exact (Function.update_of_ne hpq _ _).trans (Function.update_self _ _ _)
    rw [spdFree_eq hp hpool]
    simp only [withUnit, Function.update_idem]
    rw [Function.update_comm hpq.symm, Function.update_idem, update_unallocated hfree,
      update_unallocated hfree']
  · simp only [List.append_assoc, List.cons_append, List.nil_append]
  · by_cases hb : p = b
    · subst hb
      simp [lifetime, MemoryEvent.next, hpq.symm]
    · by_cases hb' : q = b
      · simp [lifetime, MemoryEvent.next, hb, hb']
      · simp [lifetime, MemoryEvent.next, hb, hb']

/-! ## The loop -/

theorem spdBtlFromIndex_ne_minusOne : spdBtlFromIndex i ≠ -1 := by
  intro heq
  have hlow : spdIoctlBtlL (spdBtlFromIndex i) = 0 := by
    rw [← UInt32.toNat_inj, spdIoctlBtlL, toNat_and_ff, spdBtlFromIndex, spdIoctlBtl]
    simp only [UInt32.toNat_or, UInt32.toNat_shiftLeft]
    simp
    omega
  rw [heq] at hlow
  exact absurd hlow (by decide)

/-- It finds a unit with the GUID if there is one, and a free slot if not. -/
theorem scan_spec (guid : Guid) (btl : UInt32)
    (hslots : ∀ p ∈ ps, p ≠ 0 → ∃ unit q, s.storageUnitAt p = some (unit, q)) :
    (ps.any (hasGuid s guid) = true ∧ ∃ duplicate btl',
        s.scan guid i btl ps = some (some duplicate, btl')) ∨
      (ps.any (hasGuid s guid) = false ∧ ∃ btl', s.scan guid i btl ps = some (none, btl') ∧
        (btl' = -1 ↔ btl = -1 ∧ 0 ∉ ps)) := by
  induction ps generalizing i btl with
  | nil => exact .inr ⟨rfl, btl, rfl, by simp⟩
  | cons p ps ih =>
      have hrest : ∀ p ∈ ps, p ≠ 0 → ∃ unit q, s.storageUnitAt p = some (unit, q) :=
        fun p hp => hslots p (List.mem_cons_of_mem _ hp)
      by_cases h0 : p = 0
      · subst h0
        have hno : hasGuid s guid 0 = false := rfl
        rw [List.any_cons, hno, Bool.false_or, scan, if_pos rfl]
        refine (ih _ hrest).imp id fun ⟨hany, btl', hscan, hbtl⟩ => ⟨hany, btl', hscan, ?_⟩
        rw [hbtl]
        by_cases hfirst : btl = -1
        · simp [hfirst, spdBtlFromIndex_ne_minusOne]
        · simp [hfirst]
      · obtain ⟨unit, q, hat⟩ := hslots p List.mem_cons_self h0
        have hhas : hasGuid s guid p = decide (guid = unit.storageUnitParams.guid) := by
          simp only [hasGuid, hat]
        rw [List.any_cons, hhas, scan, if_neg h0]
        simp only [hat]
        by_cases hguid : guid = unit.storageUnitParams.guid
        · exact .inl ⟨by simp [hguid], p, btl, if_pos hguid⟩
        · rw [if_neg hguid, decide_eq_false hguid, Bool.false_or]
          refine (ih _ hrest).imp id fun ⟨hany, btl', hscan, hbtl⟩ =>
            ⟨hany, btl', hscan, ?_⟩
          rw [hbtl, List.mem_cons, not_or]
          simp [Ne.symm h0]

theorem scan_congr (h : ∀ p ∈ ps, p ≠ 0 → s'.storageUnitAt p = s.storageUnitAt p) :
    s'.scan guid i btl ps = s.scan guid i btl ps := by
  induction ps generalizing i btl with
  | nil => rfl
  | cons p ps ih =>
      have hrest := fun p hp => h p (List.mem_cons_of_mem _ hp)
      by_cases h0 : p = 0
      · rw [scan, scan, if_pos h0, if_pos h0, ih hrest]
      · rw [scan, scan, if_neg h0, if_neg h0, h p List.mem_cons_self h0]
        cases s.storageUnitAt p with
        | none => rfl
        | some r => simp only [ih hrest]

/-! ## The calls -/

theorem ProvisionMem.storageUnitAt_of_slots (hslots : SlotsAllocated s) :
    ∀ p ∈ s.storageUnits, p ≠ 0 → ∃ unit q, s.storageUnitAt p = some (unit, q) := by
  intro p hp hne
  obtain ⟨unit, q, hpool⟩ := hslots p hp hne
  exact ⟨unit, q, storageUnitAt_eq hne hpool⟩

theorem scan_withUnit (hslots : SlotsAllocated s) (hp : s.pool p = none) (hq : s.pool q = none) :
    (withUnit s p q unit ioq).scan guid i btl s.storageUnits =
      s.scan guid i btl s.storageUnits := by
  refine scan_congr fun p' hp' hne => storageUnitAt_congr (withUnit_other hp hq ?_)
  obtain ⟨unit', q', hpool⟩ := hslots p' hp' hne
  rw [hpool]
  exact Option.some_ne_none _

/-- With a unit and a queue the call goes on to the loop. -/
theorem spdStorageUnitProvision_scanned (hslots : SlotsAllocated s)
    (hfresh : FreshBlocks s (some p) (some (q, mem))) {duplicate : Option Addr}
    (hscan : s.scan params.guid 0 (-1) s.storageUnits = some (duplicate, btl)) :
    s.spdStorageUnitProvision params processId (some p) (some (q, mem)) =
      if duplicate ≠ none then
        ((withUnit s p q (newStorageUnit params processId) (Sys.spdIoqCreate mem)).provisionExit
          p).map fun s => (s, .objectNameCollision, -1)
      else if btl = -1 then
        ((withUnit s p q (newStorageUnit params processId) (Sys.spdIoqCreate mem)).provisionExit
          p).map fun s => (s, .cannotMake, -1)
      else
        some
          ({ withUnit s p q (newStorageUnit params processId) (Sys.spdIoqCreate mem) with
              storageUnits := s.storageUnits.set (spdIndexFromBtl btl).toNat p
              storageUnitCount := s.storageUnitCount + 1 },
            .success, btl) := by
  obtain ⟨hp, hfree⟩ := hfresh.unit p rfl
  obtain ⟨-, hfree', hne⟩ := hfresh.ioq q mem rfl
  have hpq : p ≠ q := fun heq => hne (congrArg some heq)
  have hscan' : (withUnit s p q (newStorageUnit params processId)
      (Sys.spdIoqCreate mem)).scan (newStorageUnit params processId).storageUnitParams.guid 0 (-1)
        (withUnit s p q (newStorageUnit params processId) (Sys.spdIoqCreate mem)).storageUnits =
      some (duplicate, btl) := (scan_withUnit hslots hfree hfree').trans hscan
  simp only [ProvisionMem.spdStorageUnitProvision, spdIoqCreate_some hp hpq,
    withUnit_storageUnitAt hp hpq, hscan', Option.bind_eq_bind, Option.bind_some]
  rw [if_neg (by decide)]
  by_cases hdup : duplicate = none
  · by_cases hbtl : btl = -1
    · simp [hdup, hbtl]
    · simp [hdup, hbtl, withUnit]
  · simp [hdup]

/-- A provision that fails returns its status, with `*PBtl` -1, and leaves
nothing behind, exactly when the unit could be allocated. -/
theorem provision_failure (hslots : SlotsAllocated s) (hfresh : FreshBlocks s unitMem ioqMem) :
    (∃ s' btl, s.spdStorageUnitProvision params processId unitMem ioqMem =
        some (s', provisionStatus s params.guid unitMem ioqMem, btl) ∧
      (provisionStatus s params.guid unitMem ioqMem ≠ .success →
        btl = -1 ∧ LeavesNothing s s')) ↔ unitMem ≠ none := by
  cases unitMem with
  | none =>
      refine ⟨fun ⟨s', btl, hcall, _⟩ => ?_, fun hne => absurd rfl hne⟩
      rw [ProvisionMem.spdStorageUnitProvision, provisionExit_null] at hcall
      cases hcall
  | some p =>
      refine ⟨fun _ => Option.some_ne_none p, fun _ => ?_⟩
      obtain ⟨hp, hfree⟩ := hfresh.unit p rfl
      cases ioqMem with
      | none =>
          obtain ⟨s', hexit, hleft⟩ :=
            provisionExit_unit (newStorageUnit params processId) hp hfree
          refine ⟨s', -1, ?_, fun _ => ⟨rfl, hleft⟩⟩
          simp only [ProvisionMem.spdStorageUnitProvision, spdIoqCreate_none hp,
            Option.bind_eq_bind, Option.bind_some]
          rw [if_pos (by decide), hexit]
          rfl
      | some block =>
          obtain ⟨q, mem⟩ := block
          obtain ⟨hq, hfree', hne⟩ := hfresh.ioq q mem rfl
          have hpq : p ≠ q := fun heq => hne (congrArg some heq)
          obtain ⟨s', hexit, hleft⟩ := provisionExit_queue
            (newStorageUnit params processId) mem hp hq hpq hfree hfree'
          rcases @scan_spec s 0 s.storageUnits params.guid (-1)
            (ProvisionMem.storageUnitAt_of_slots hslots) with
            ⟨hany, duplicate, btl, hscan⟩ | ⟨hany, btl, hscan, hbtl⟩
          · -- a unit has the GUID
            refine ⟨s', -1, ?_, fun _ => ⟨rfl, hleft⟩⟩
            rw [spdStorageUnitProvision_scanned hslots hfresh hscan,
              if_pos (Option.some_ne_none _), hexit, provisionStatus, if_pos hany]
            rfl
          · by_cases hhole : 0 ∈ s.storageUnits
            · have hstatus :
                  provisionStatus s params.guid (some p) (some (q, mem)) = .success := by
                rw [provisionStatus, if_neg (by simp [hany]), if_pos hhole]
              have hcall := @spdStorageUnitProvision_scanned s p q mem params processId _
                hslots hfresh
                _ hscan
              rw [if_neg fun hno => hno rfl, if_neg fun hno => (hbtl.mp hno).2 hhole] at hcall
              exact ⟨_, btl, hcall.trans (by rw [hstatus]), fun hfail => absurd hstatus hfail⟩
            · -- all slots are occupied
              refine ⟨s', -1, ?_, fun _ => ⟨rfl, hleft⟩⟩
              rw [spdStorageUnitProvision_scanned hslots hfresh hscan,
                if_neg fun hno => hno rfl, if_pos (hbtl.mpr ⟨rfl, hhole⟩), hexit,
                provisionStatus, if_neg (by simp [hany]), if_neg hhole]
              rfl

/-! ## Units with their queues -/

def QueuesAllocated (s : ProvisionMem) : Prop :=
  ∀ p unit q, s.pool p = some (.storageUnit unit q) → ∃ ioq, s.pool q = some (.ioq ioq)

theorem objects_eq (h : s.pool p = some (.storageUnit unit q)) (h' : s.pool q = some (.ioq ioq)) :
    s.objects p = some ⟨unit, ioq⟩ := by
  simp only [ProvisionMem.objects, h, h', Option.bind_eq_bind, Option.bind_some]

theorem objects_withUnit (unit : SpdStorageUnit) (ioq : SpdIoq) (hqueues : QueuesAllocated s)
    (hpq : p ≠ q) (hfree : s.pool p = none)
    (hfree' : s.pool q = none) : (withUnit s p q unit ioq).objects =
      Function.update s.objects p (some ⟨unit, ioq⟩) := by
  funext p'
  by_cases hp' : p' = p
  · subst hp'
    rw [Function.update_self]
    exact objects_eq ((Function.update_of_ne hpq _ _).trans (Function.update_self _ _ _))
      (Function.update_self _ _ _)
  · rw [Function.update_of_ne hp']
    by_cases hq' : p' = q
    · subst hq'
      have hpool : (withUnit s p p' unit ioq).pool p' = some (.ioq ioq) :=
        Function.update_self _ _ _
      simp only [ProvisionMem.objects, hpool, hfree', Option.bind_eq_bind, Option.bind_some,
        Option.bind_none]
    · have hsame : (withUnit s p q unit ioq).pool p' = s.pool p' :=
        (Function.update_of_ne hq' _ _).trans (Function.update_of_ne hp' _ _)
      cases hblock : s.pool p' with
      | none => simp only [ProvisionMem.objects, hsame, hblock, Option.bind_eq_bind,
          Option.bind_none]
      | some block =>
          cases block with
          | ioq ioq' => simp only [ProvisionMem.objects, hsame, hblock, Option.bind_eq_bind,
              Option.bind_some]
          | storageUnit unit' q' =>
              obtain ⟨ioq', hioq'⟩ := hqueues p' unit' q' hblock
              have hother : (withUnit s p q unit ioq).pool q' = s.pool q' :=
                withUnit_other hfree hfree' (by rw [hioq']; exact Option.some_ne_none _)
              rw [objects_eq (hsame.trans hblock) (hother.trans hioq'), objects_eq hblock hioq']

theorem scan_objects (guid : Guid) (btl : UInt32) (hqueues : QueuesAllocated s)
    (hslots : ∀ p ∈ ps, p ≠ 0 → ∃ unit q, s.pool p = some (.storageUnit unit q)) :
    s.scan guid i btl ps = provisionScan s.objects guid i btl ps := by
  induction ps generalizing i btl with
  | nil => rfl
  | cons p ps ih =>
      have hrest := fun p hp => hslots p (List.mem_cons_of_mem _ hp)
      by_cases h0 : p = 0
      · rw [scan, provisionScan, if_pos h0, if_pos h0, ih _ hrest]
      · obtain ⟨unit, q, hpool⟩ := hslots p List.mem_cons_self h0
        obtain ⟨ioq, hioq⟩ := hqueues p unit q hpool
        rw [scan, provisionScan, if_neg h0, if_neg h0, storageUnitAt_eq h0 hpool,
          objects_eq hpool hioq]
        simp only [ih _ hrest, eq_comm]

theorem LeavesNothing.deviceExtension (hleft : LeavesNothing s s') :
    s'.deviceExtension = s.deviceExtension := by
  have hobjects : s'.objects = s.objects := by
    funext p
    simp only [ProvisionMem.objects, hleft.pool]
  simp only [ProvisionMem.deviceExtension, hobjects, hleft.storageUnits, hleft.storageUnitCount,
    hleft.storageUnitCapacity]

/-- What a call does to units that come with their queues is what
`Sys.Stgunit` says. -/
theorem spdStorageUnitProvision_objects (hslots : SlotsAllocated s) (hqueues : QueuesAllocated s)
    (hfresh : FreshBlocks s unitMem ioqMem) :
    (s.spdStorageUnitProvision params processId unitMem ioqMem).map
        (fun r => (r.1.deviceExtension, r.2)) =
      Sys.spdStorageUnitProvision s.deviceExtension params processId unitMem
        (ioqMem.map Prod.snd) := by
  cases unitMem with
  | none =>
      rw [ProvisionMem.spdStorageUnitProvision, provisionExit_null]
      rfl
  | some p =>
      obtain ⟨hp, hfree⟩ := hfresh.unit p rfl
      cases ioqMem with
      | none =>
          obtain ⟨s', hexit, hleft⟩ :=
            provisionExit_unit (newStorageUnit params processId) hp hfree
          simp only [ProvisionMem.spdStorageUnitProvision, spdIoqCreate_none hp,
            Option.bind_eq_bind, Option.bind_some]
          rw [if_pos (by decide), hexit, Option.map_some, Option.map_some,
            hleft.deviceExtension]
          rfl
      | some block =>
          obtain ⟨q, mem⟩ := block
          obtain ⟨hq, hfree', hne⟩ := hfresh.ioq q mem rfl
          have hpq : p ≠ q := fun heq => hne (congrArg some heq)
          obtain ⟨s', hexit, hleft⟩ := provisionExit_queue
            (newStorageUnit params processId) mem hp hq hpq hfree hfree'
          obtain ⟨calls, hdelete⟩ := spdIoqDelete_create mem
          have hscan' := @scan_objects s 0 s.storageUnits params.guid (-1) hqueues hslots
          have hspec := @scan_spec s 0 s.storageUnits params.guid (-1)
            (ProvisionMem.storageUnitAt_of_slots hslots)
          obtain ⟨duplicate, btl, hscan⟩ : ∃ duplicate btl,
              s.scan params.guid 0 (-1) s.storageUnits = some (duplicate, btl) := by
            rcases hspec with ⟨-, duplicate, btl, hscan⟩ | ⟨-, btl, hscan, -⟩
            · exact ⟨_, _, hscan⟩
            · exact ⟨_, _, hscan⟩
          rw [spdStorageUnitProvision_scanned hslots hfresh hscan, hexit]
          rw [hscan] at hscan'
          simp only [Option.map_some, Sys.spdStorageUnitProvision, ProvisionMem.deviceExtension,
            ← hscan', hdelete,
            Option.bind_eq_bind, Option.bind_some]
          have hdx := hleft.deviceExtension
          simp only [ProvisionMem.deviceExtension] at hdx
          cases duplicate with
          | some duplicate => simp [hdx]
          | none =>
              by_cases hbtl : btl = -1
              · simp [hbtl, hdx]
              · have hobjects := objects_withUnit (newStorageUnit params processId)
                  (Sys.spdIoqCreate mem) hqueues hpq hfree hfree'
                simp only [ne_eq, not_true_eq_false, if_false, hbtl, Option.map_some]
                rw [← hobjects]
                rfl

/-! ## A unit that is there already -/

def sampleProvisionMem : ProvisionMem where
  storageUnitCount := 1
  storageUnitCapacity := 1
  storageUnits := [0x5000]
  pool p :=
    if p = 0x5000 then some (.storageUnit (newStorageUnit sampleUnit 7) 0x6000)
    else if p = 0x6000 then some (.ioq (Sys.spdIoqCreate zeroedIoq))
    else none
  events := []

theorem sampleProvisionMem_slots : SlotsAllocated sampleProvisionMem := by
  intro p hp _
  obtain rfl : p = 0x5000 := List.mem_singleton.mp hp
  exact ⟨_, _, rfl⟩

theorem sampleProvisionMem_fresh :
    FreshBlocks sampleProvisionMem (some 0x7000) (some (0x8000, zeroedIoq)) := by
  refine ⟨fun p hp => ?_, fun q mem hq => ?_⟩
  · cases hp
    exact ⟨by decide, rfl⟩
  · cases hq
    exact ⟨by decide, rfl, by decide⟩

/-- Its GUID is provisioned again. -/
theorem provision_failure_duplicate :
    (∃ s' btl, sampleProvisionMem.spdStorageUnitProvision sampleUnit 9 (some 0x7000)
        (some (0x8000, zeroedIoq)) = some (s', .objectNameCollision, btl) ∧
      (NtStatus.objectNameCollision ≠ .success →
        btl = -1 ∧ LeavesNothing sampleProvisionMem s')) ↔ some (0x7000 : Addr) ≠ none :=
  provision_failure sampleProvisionMem_slots sampleProvisionMem_fresh

/-- There is no memory for the unit. -/
theorem provision_failure_null :
    SlotsAllocated sampleProvisionMem ∧ FreshBlocks sampleProvisionMem none none ∧
      provisionStatus sampleProvisionMem sampleUnit.guid none none = .insufficientResources ∧
      sampleProvisionMem.spdStorageUnitProvision sampleUnit 9 none none = none := by
  refine ⟨sampleProvisionMem_slots, ⟨fun p hp => ?_, fun q mem hq => ?_⟩, rfl, rfl⟩
  · cases hp
  · cases hq

end Winspd.Proofs
