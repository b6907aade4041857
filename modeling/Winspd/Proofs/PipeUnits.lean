import Winspd.Proofs.Registry
import Winspd.Shared.PipeUnits

/-!
# The table of pipe units

A call that opens a unit leaves the table, the memory and the resources as they
were, or it puts the new unit into the lowest free slot (`OpenFailed`, `Opened`).
What the exit path infers from its two variables is what has been done: the slot
is cleared exactly when it was filled (`openExit_failed`).

Over a run the callers' handles say what there is: every unit in the table has a
handle that is in use, and what is held is what the handles have not closed
(`PipeInv`). A handle is shut down with the GUID it was opened with, no other unit
in the table has it, and so it is not in the table any more when it is closed.
-/

namespace Winspd.Proofs

open Winspd.Lib Winspd.Sys Winspd.Shared

variable {s s' : PipeUnits} {memory memory' : Nat → Option PipeUnit} {guid : Guid} {t : Slots Nat}
  {params : StorageUnitParams} {c : OpenChoice} {r : OpenResult} {unit i : Nat}

/-! ## Searches -/

def unitGuid (memory : Nat → Option PipeUnit) (unit : Nat) : Option Guid :=
  (memory unit).map fun u => u.storageUnitParams.guid

def Present (memory : Nat → Option PipeUnit) (t : Slots Nat) : Prop :=
  ∀ i unit, t.content i = some unit → ∃ u, memory unit = some u

theorem Present.tail {slot : Option Nat} (h : Present memory (slot :: t)) : Present memory t :=
  fun i unit hi => h (i + 1) unit hi

/-- The BTL that the loop ends with, if it finds no duplicate. -/
def freeBtl (k : Nat) (btl : UInt32) (t : Slots Nat) : UInt32 :=
  if btl = -1 then
    match t.lowestFree with
    | some j => spdBtlFromIndex (UInt32.ofNat (k + j))
    | none => -1
  else btl

theorem freeBtl_none {k : Nat} {btl : UInt32} (hk : k < 256) :
    freeBtl k btl (none :: t) =
      freeBtl (k + 1) (if btl = -1 then spdBtlFromIndex (UInt32.ofNat k) else btl) t := by
  unfold freeBtl
  by_cases h : btl = -1
  · rw [if_pos h, if_pos h, if_neg (spdBtlFromIndex_ne hk), Slots.lowestFree_free]
    rfl
  · rw [if_neg h, if_neg h, if_neg h]

theorem freeBtl_some {k : Nat} {btl : UInt32} :
    freeBtl k btl (some unit :: t) = freeBtl (k + 1) btl t := by
  unfold freeBtl
  rw [Slots.lowestFree_cons]
  cases t.lowestFree with
  | none => rfl
  | some j =>
      have hnext : k + (j + 1) = k + 1 + j := by omega
      simp only [Option.map_some, hnext]

theorem openScan_eq (guid : Guid) {k : Nat} (btl : UInt32) (hpresent : Present memory t)
    (hk : k + t.length ≤ 256) :
    (∃ duplicate btl',
        openScan memory guid (UInt32.ofNat k) btl t = some (some duplicate, btl')) ∨
      (∀ j other, t.content j = some other → unitGuid memory other ≠ some guid) ∧
        openScan memory guid (UInt32.ofNat k) btl t = some (none, freeBtl k btl t) := by
  induction t generalizing k btl with
  | nil =>
      refine .inr ⟨fun j other hj => by simp [Slots.content] at hj, ?_⟩
      rw [openScan, freeBtl]
      by_cases hbtl : btl = -1
      · rw [if_pos hbtl, hbtl]
        rfl
      · rw [if_neg hbtl]
  | cons slot t ih =>
      rw [List.length_cons] at hk
      cases slot with
      | none =>
          rw [freeBtl_none (by omega), openScan, ofNat_add_one]
          rcases ih _ hpresent.tail (k := k + 1) (by omega) with hdup | ⟨hnew, heq⟩
          · exact .inl hdup
          · refine .inr ⟨fun j other hj => ?_, heq⟩
            cases j with
            | zero => cases hj
            | succ j => exact hnew j other hj
      | some unit =>
          obtain ⟨u, hu⟩ := hpresent 0 unit rfl
          rw [freeBtl_some, openScan, hu, ofNat_add_one]
          by_cases hguid : guid = u.storageUnitParams.guid
          · exact .inl ⟨unit, btl, if_pos hguid⟩
          · simp only [Option.bind_eq_bind, Option.bind_some, if_neg hguid]
            rcases ih _ hpresent.tail (k := k + 1) (by omega) with hdup | ⟨hnew, heq⟩
            · exact .inl hdup
            · refine .inr ⟨fun j other hj => ?_, heq⟩
              cases j with
              | zero =>
                  cases hj
                  rw [unitGuid, hu]
                  intro heq
                  exact hguid (Option.some.inj heq).symm
              | succ j => exact hnew j other hj

theorem shutdownScan_eq (guid : Guid) {k : Nat} (hpresent : Present memory t) :
    shutdownScan memory guid k t =
      some ((t.slotWith fun unit => unitGuid memory unit = some guid).map (k + ·)) := by
  induction t generalizing k with
  | nil => rfl
  | cons slot t ih =>
      cases slot with
      | none =>
          rw [shutdownScan, ih hpresent.tail, Slots.slotWith_free, Option.map_map]
          congr 2
          funext j
          show k + 1 + j = k + (j + 1)
          omega
      | some unit =>
          obtain ⟨u, hu⟩ := hpresent 0 unit rfl
          have hkey : unitGuid memory unit = some guid ↔ guid = u.storageUnitParams.guid := by
            rw [unitGuid, hu, Option.map_some, Option.some.injEq, eq_comm]
          rw [shutdownScan, hu, Slots.slotWith_cons]
          simp only [Option.bind_eq_bind, Option.bind_some, hkey]
          by_cases hguid : guid = u.storageUnitParams.guid
          · simp [hguid]
          · rw [if_neg hguid, if_neg (by simpa using hguid), ih hpresent.tail, Option.map_map]
            congr 2
            funext j
            show k + 1 + j = k + (j + 1)
            omega

/-! ## Open -/

/-- A state in which the table can be read, and what is allocated next is new. -/
structure TableOk (s : PipeUnits) : Prop where
  length : s.table.length = spdIoctlStorageUnitMaxCapacity.toNat
  present : Present s.memory s.table
  fresh : ∀ unit u, s.memory unit = some u → unit < s.log.next

/-- Nothing has changed, except that there may be an empty table now. What the
call has acquired it has released. -/
structure OpenFailed (s s' : PipeUnits) (r : OpenResult) : Prop where
  error : r.error ≠ errorSuccess
  handle : r.handle = none
  btl : r.btl = -1
  storageUnits : s'.storageUnits = s.storageUnits ∨
    s.storageUnits = none ∧ s'.storageUnits = some PipeUnits.newTable
  memory : s'.memory = s.memory
  released : ∀ rs, s.log.Holds rs → s'.log.Holds rs

/-- The unit is new, it is in the lowest slot that was free, and it has an event
and a pipe. -/
structure Opened (s : PipeUnits) (params : StorageUnitParams) (s' : PipeUnits) (r : OpenResult)
    (i unit event pipe : Nat) : Prop where
  error : r.error = errorSuccess
  handle : r.handle = some unit
  btl : r.btl = spdBtlFromIndex (UInt32.ofNat i)
  lowest : s.table.lowestFree = some i
  storageUnits : s'.storageUnits = some (s.table.fill i unit)
  new : ∀ j other, s.table.content j = some other →
    unitGuid s.memory other ≠ some params.guid
  unallocated : s.memory unit = none
  memory : s'.memory = Function.update s.memory unit (some ⟨params, some event, some pipe⟩)
  acquired : ∀ rs, s.log.Holds rs → s'.log.Holds (pipe :: event :: unit :: rs)

def OpenAtomic (s : PipeUnits) (params : StorageUnitParams) (s' : PipeUnits) (r : OpenResult) :
    Prop :=
  OpenFailed s s' r ∨ ∃ i unit event pipe, Opened s params s' r i unit event pipe

/-! The exit path. -/

theorem openExitUnit_eq {u : PipeUnit} (hu : s.memory unit = some u) :
    ∃ log, openExitUnit s unit =
        some ⟨s.storageUnits, Function.update s.memory unit none, log⟩ ∧
      ∀ rs, s.log.Holds (u.pipe.toList ++ (u.event.toList ++ unit :: rs)) → log.Holds rs := by
  obtain ⟨params, event, pipe⟩ := u
  unfold openExitUnit
  rw [hu]
  cases event with
  | none =>
      cases pipe with
      | none => exact ⟨_, rfl, fun rs h => h.release⟩
      | some pipe => exact ⟨_, rfl, fun rs h => h.release.release⟩
  | some event =>
      cases pipe with
      | none => exact ⟨_, rfl, fun rs h => h.release.release⟩
      | some pipe => exact ⟨_, rfl, fun rs h => h.release.release.release⟩

theorem setSlot_eq (slot : Option Nat) (hs : s.storageUnits = some t) (hi : i < t.length)
    (hlen : t.length ≤ 256) :
    s.setSlot (spdIndexFromBtl (spdBtlFromIndex (UInt32.ofNat i))) slot =
      some { s with storageUnits := some (t.set i slot) } := by
  have hindex : (spdIndexFromBtl (spdBtlFromIndex (UInt32.ofNat i))).toNat = i :=
    spdIoctlBtlT_spdBtlFromIndex (by omega)
  simp only [PipeUnits.setSlot, hs, Option.bind_eq_bind, Option.bind_some, hindex]
  rw [if_pos hi]

/-- The slot was not filled: there is a duplicate, or no free slot. -/
theorem openExit_kept {u : PipeUnit} {x : OpenLocals} (hr : r.error ≠ errorSuccess)
    (hx : ¬ (x.duplicateUnit = none ∧ x.btl ≠ -1)) (hunit : x.storageUnit = some unit)
    (hu : s.memory unit = some u) :
    ∃ log, openExit s x r =
        some (⟨s.storageUnits, Function.update s.memory unit none, log⟩, r) ∧
      ∀ rs, s.log.Holds (u.pipe.toList ++ (u.event.toList ++ unit :: rs)) → log.Holds rs := by
  obtain ⟨log, heq, hlog⟩ := openExitUnit_eq hu
  refine ⟨log, ?_, hlog⟩
  rw [openExit, if_pos (Ne.symm hr), if_neg hx, hunit]
  simp only [Option.bind_eq_bind, Option.bind_some, heq]

theorem openExit_cleared {u : PipeUnit} (hr : r.error ≠ errorSuccess)
    (hs : s.storageUnits = some t) (hi : i < t.length) (hlen : t.length ≤ 256)
    (hu : s.memory unit = some u) :
    ∃ log, openExit s ⟨spdBtlFromIndex (UInt32.ofNat i), some unit, none⟩ r =
        some (⟨some (t.set i none), Function.update s.memory unit none, log⟩, r) ∧
      ∀ rs, s.log.Holds (u.pipe.toList ++ (u.event.toList ++ unit :: rs)) → log.Holds rs := by
  have hbtl : spdBtlFromIndex (UInt32.ofNat i) ≠ -1 := spdBtlFromIndex_ne (by omega)
  obtain ⟨log, heq, hlog⟩ :=
    openExitUnit_eq (s := { s with storageUnits := some (t.set i none) }) hu
  refine ⟨log, ?_, hlog⟩
  rw [openExit, if_pos (Ne.symm hr), if_pos ⟨rfl, hbtl⟩, setSlot_eq none hs hi hlen]
  simp only [Option.bind_eq_bind, Option.bind_some, heq]

theorem unallocated_next (h : TableOk s) : s.memory s.log.next = none := by
  cases hmem : s.memory s.log.next with
  | none => rfl
  | some u => exact absurd (h.fresh _ _ hmem) (Nat.lt_irrefl _)

theorem update_next (h : TableOk s) : Function.update s.memory s.log.next none = s.memory := by
  rw [← unallocated_next h, Function.update_eq_self]

theorem length_table_le (h : TableOk s) : s.table.length ≤ 256 := by
  rw [h.length]
  decide

/-- The unit is in its slot, and has no event and no pipe. -/
def slotFilled (s : PipeUnits) (params : StorageUnitParams) (i : Nat) : PipeUnits where
  storageUnits := some (s.table.fill i s.log.next)
  memory := Function.update s.memory s.log.next (some ⟨params, none, none⟩)
  log := s.log.acquire.1

theorem openHandles_atomic (h : TableOk s) (hs : s.storageUnits = some s.table)
    (hfree : s.table.lowestFree = some i)
    (hnew : ∀ j other, s.table.content j = some other →
      unitGuid s.memory other ≠ some params.guid) :
    ∃ s' r, openHandles (slotFilled s params i)
        ⟨spdBtlFromIndex (UInt32.ofNat i), some s.log.next, none⟩ s.log.next params c =
          some (s', r) ∧ OpenAtomic s params s' r := by
  have hi := Slots.lt_length_of_lowestFree hfree
  have hrestore := update_next h
  have hfill : (s.table.fill i s.log.next).set i none = s.table := by
    obtain ⟨_, hslot⟩ := List.getElem?_eq_some_iff.mp (Slots.lowestFree_eq_some.mp hfree).1
    have hself := List.set_getElem_self hi
    rw [hslot] at hself
    rw [Slots.fill, List.set_set, hself]
  have hfilli : i < (s.table.fill i s.log.next).length := by
    rw [Slots.fill, List.length_set]
    exact hi
  have hfilllen : (s.table.fill i s.log.next).length ≤ 256 := by
    rw [Slots.fill, List.length_set]
    exact length_table_le h
  unfold openHandles
  cases c.eventError with
  | some error =>
      obtain ⟨log, heq, hlog⟩ := openExit_cleared (s := slotFilled s params i)
        (r := .fails error) error.property rfl hfilli hfilllen (Function.update_self ..)
      refine ⟨_, _, heq, .inl ⟨error.property, rfl, rfl, .inl ?_, ?_, fun rs hrs => ?_⟩⟩
      · rw [hs, hfill]
      · simp only [slotFilled, Function.update_idem, hrestore]
      · exact hlog rs hrs.acquire
  | none =>
      dsimp only
      cases c.pipeError with
      | some error =>
          obtain ⟨log, heq, hlog⟩ := openExit_cleared (t := s.table.fill i s.log.next)
            (s := PipeUnits.setUnit
              { slotFilled s params i with log := (slotFilled s params i).log.acquire.1 }
              s.log.next (some ⟨params, some (slotFilled s params i).log.acquire.2, none⟩))
            (r := .fails error) error.property rfl hfilli hfilllen (Function.update_self ..)
          refine ⟨_, _, heq, .inl ⟨error.property, rfl, rfl, .inl ?_, ?_, fun rs hrs => ?_⟩⟩
          · rw [hs, hfill]
          · simp only [slotFilled, PipeUnits.setUnit, Function.update_idem, hrestore]
          · exact hlog rs hrs.acquire.acquire
      | none =>
          refine ⟨_, _, rfl, .inr ⟨i, s.log.next, _, _, rfl, rfl, rfl, hfree, rfl, hnew,
            unallocated_next h, ?_, fun rs hrs => hrs.acquire.acquire.acquire⟩⟩
          simp only [slotFilled, PipeUnits.setUnit, Function.update_idem]

/-! The whole call. -/

/-- The unit is allocated, and not in a slot. -/
def unitAllocated (s : PipeUnits) (params : StorageUnitParams) : PipeUnits where
  storageUnits := s.storageUnits
  memory := Function.update s.memory s.log.next (some ⟨params, none, none⟩)
  log := s.log.acquire.1

theorem openUnit_eq {duplicateUnit : Option Nat} {btl : UInt32} (hmem : c.unitAllocated = true)
    (hscan : openScan (unitAllocated s params).memory params.guid 0 (-1) s.table =
      some (duplicateUnit, btl)) :
    openUnit s params c = openSlot (unitAllocated s params)
      ⟨btl, some s.log.next, duplicateUnit⟩
      s.log.next params c := by
  rw [openUnit, hmem, if_neg (by decide)]
  show (openScan (unitAllocated s params).memory params.guid 0 (-1) s.table).bind _ = _
  rw [hscan]
  rfl

theorem openSlot_duplicate {x : OpenLocals} (hx : x.duplicateUnit ≠ none) :
    openSlot s x unit params c = openExit s x (.fails errorAlreadyExists) := by
  rw [openSlot, if_neg (fun hnot => hx hnot.1)]
  simp only [Option.bind_eq_bind, Option.bind_some, if_pos hx]

theorem openSlot_full {x : OpenLocals} (hx : x.duplicateUnit = none) (hbtl : x.btl = -1) :
    openSlot s x unit params c = openExit s x (.fails errorCannotMake) := by
  rw [openSlot, if_neg (fun hnot => hnot.2 hbtl)]
  simp only [Option.bind_eq_bind, Option.bind_some, if_neg (not_not.mpr hx), if_pos hbtl]

theorem openSlot_free (hs : s.storageUnits = some s.table) (hi : i < s.table.length)
    (hlen : s.table.length ≤ 256) :
    openSlot (unitAllocated s params) ⟨spdBtlFromIndex (UInt32.ofNat i), some s.log.next, none⟩
        s.log.next params c =
      openHandles (slotFilled s params i)
        ⟨spdBtlFromIndex (UInt32.ofNat i), some s.log.next, none⟩ s.log.next params c := by
  have hne : spdBtlFromIndex (UInt32.ofNat i) ≠ -1 := spdBtlFromIndex_ne (by omega)
  have hset := setSlot_eq (s := unitAllocated s params) (some s.log.next) hs hi hlen
  rw [openSlot, if_pos ⟨rfl, hne⟩]
  simp only [hset, Option.bind_eq_bind, Option.bind_some, if_neg hne]
  rw [if_neg (not_not.mpr rfl)]
  rfl

theorem openExit_atomic {x : OpenLocals} {error : UInt32} (h : TableOk s)
    (herror : error ≠ errorSuccess) (hx : ¬ (x.duplicateUnit = none ∧ x.btl ≠ -1))
    (hunit : x.storageUnit = some s.log.next) :
    ∃ s' r, openExit (unitAllocated s params) x (.fails error) = some (s', r) ∧
      OpenAtomic s params s' r := by
  obtain ⟨log, heq, hlog⟩ := openExit_kept (s := unitAllocated s params) (r := .fails error)
    herror hx hunit (Function.update_self ..)
  refine ⟨_, _, heq,
    .inl ⟨herror, rfl, rfl, .inl rfl, ?_, fun rs hrs => hlog rs hrs.acquire⟩⟩
  simp only [unitAllocated, Function.update_idem, update_next h]

theorem openUnit_atomic (params : StorageUnitParams) (c : OpenChoice) (h : TableOk s)
    (hs : s.storageUnits = some s.table) :
    ∃ s' r, openUnit s params c = some (s', r) ∧ OpenAtomic s params s' r := by
  by_cases hmem : c.unitAllocated = false
  · rw [openUnit, if_pos hmem]
    exact ⟨s, .fails errorNoSystemResources, rfl,
      .inl ⟨by decide, rfl, rfl, .inl rfl, rfl, fun rs hrs => hrs⟩⟩
  · have hmem : c.unitAllocated = true := by simpa using hmem
    -- the units of the table are not the new one
    have hother : ∀ i other, s.table.content i = some other →
        (unitAllocated s params).memory other = s.memory other := by
      intro i other hi
      obtain ⟨u, hu⟩ := h.present i other hi
      exact Function.update_of_ne (Nat.ne_of_lt (h.fresh other u hu)) _ _
    have hpresent : Present (unitAllocated s params).memory s.table := by
      intro i other hi
      rw [hother i other hi]
      exact h.present i other hi
    have hlen := length_table_le h
    rcases openScan_eq params.guid (k := 0) (-1) hpresent (by omega) with
      ⟨duplicate, btl, hscan⟩ | ⟨hnew, hscan⟩
    · rw [openUnit_eq hmem hscan, openSlot_duplicate (Option.some_ne_none _)]
      exact openExit_atomic h (by decide) (fun hnot => Option.some_ne_none _ hnot.1) rfl
    · rw [openUnit_eq hmem hscan]
      cases hfree : s.table.lowestFree with
      | none =>
          have hbtl : freeBtl 0 (-1) s.table = -1 := by simp [freeBtl, hfree]
          rw [hbtl, openSlot_full rfl rfl]
          exact openExit_atomic h (by decide) (fun hnot => hnot.2 rfl) rfl
      | some i =>
          have hi := Slots.lt_length_of_lowestFree hfree
          have hbtl : freeBtl 0 (-1) s.table = spdBtlFromIndex (UInt32.ofNat i) := by
            simp [freeBtl, hfree]
          rw [hbtl, openSlot_free hs hi hlen]
          refine openHandles_atomic h hs hfree fun j other hj => ?_
          rw [unitGuid, ← hother j other hj]
          exact hnew j other hj

theorem open_atomic (params : StorageUnitParams) (c : OpenChoice) (h : TableOk s) :
    ∃ s' r, spdStorageUnitHandleOpenPipe s params c = some (s', r) ∧
      OpenAtomic s params s' r := by
  unfold spdStorageUnitHandleOpenPipe
  by_cases hnone : s.storageUnits = none ∧ c.tableAllocated = false
  · rw [if_pos hnone]
    exact ⟨s, .fails errorNoSystemResources, rfl,
      .inl ⟨by decide, rfl, rfl, .inl rfl, rfl, fun rs hrs => hrs⟩⟩
  · rw [if_neg hnone]
    have hok : TableOk { s with storageUnits := some s.table } := ⟨h.length, h.present, h.fresh⟩
    obtain ⟨s', r, heq, hatomic⟩ := openUnit_atomic params c hok rfl
    refine ⟨s', r, heq, ?_⟩
    rcases hatomic with hfailed | ⟨i, unit, event, pipe, hopened⟩
    · refine .inl ⟨hfailed.error, hfailed.handle, hfailed.btl, ?_, hfailed.memory,
        hfailed.released⟩
      have htable : s'.storageUnits = some s.table := by
        rcases hfailed.storageUnits with htable | ⟨hnot, -⟩
        · exact htable
        · cases hnot
      rw [htable, PipeUnits.table]
      cases s.storageUnits with
      | none => exact .inr ⟨rfl, rfl⟩
      | some t => exact .inl rfl
    · exact .inr ⟨i, unit, event, pipe, hopened.error, hopened.handle, hopened.btl,
        hopened.lowest,
        hopened.storageUnits, hopened.new, hopened.unallocated, hopened.memory, hopened.acquired⟩

/-! ## Shutdown -/

/-- A shutdown that empties the slot of its unit, or none. -/
inductive ShutdownOwn (s : PipeUnits) (unit : Nat) (guid : Guid) (s' : PipeUnits)
    (error : UInt32) : Prop
  | emptied (i : Nat) (hslot : s.table.content i = some unit)
      (hguid : unitGuid s.memory unit = some guid)
      (hs' : s' = { s with storageUnits := some (s.table.clear i) }) (herror : error = errorSuccess)
  | kept (hs' : s' = s) (herror : error = errorFileNotFound)
      (hother : ∀ i,
        s.table.slotWith (fun other => unitGuid s.memory other = some guid) = some i →
        s.table.content i ≠ some unit)

theorem shutdown_own {u : PipeUnit} {event : Nat} (hpresent : Present s.memory s.table)
    (hs : s.storageUnits = some s.table) (hu : s.memory unit = some u)
    (hevent : u.event = some event) :
    ∃ s' error, spdStorageUnitHandleShutdownPipe s unit guid = some (s', error) ∧
      ShutdownOwn s unit guid s' error := by
  have hscan := shutdownScan_eq guid (k := 0) hpresent
  unfold spdStorageUnitHandleShutdownPipe
  simp only [hs, Option.bind_eq_bind, Option.bind_some, hscan]
  cases hslot : s.table.slotWith fun other => unitGuid s.memory other = some guid with
  | none =>
      refine ⟨s, errorFileNotFound, rfl, .kept rfl rfl fun i hi => ?_⟩
      rw [hslot] at hi
      cases hi
  | some i =>
      simp only [Option.map_some, Nat.zero_add]
      by_cases hown : s.table.content i = some unit
      · obtain ⟨⟨other, hother, hguid⟩, -⟩ := Slots.slotWith_eq_some.mp hslot
        rw [hown, Option.some.injEq] at hother
        subst hother
        refine ⟨{ s with storageUnits := some (s.table.clear i) }, errorSuccess, ?_,
          .emptied i hown (by simpa using hguid) rfl rfl⟩
        simp [hown, hu, hevent]
      · refine ⟨s, errorFileNotFound, by rw [if_neg hown], .kept rfl rfl fun j hj => ?_⟩
        rw [hslot, Option.some.injEq] at hj
        rwa [← hj]

/-! ## Runs -/

/-- What belongs to a handle, and was not closed. -/
def handleResources (memory : Nat → Option PipeUnit) (h : CallerHandle) : List Nat :=
  match memory h.storageUnit with
  | none => []
  | some u =>
      match h.stage with
      | .inUse | .shutDown => u.pipe.toList ++ (u.event.toList ++ [h.storageUnit])
      | .pipeClosed => u.event.toList ++ [h.storageUnit]
      | .eventClosed => [h.storageUnit]

/-- The unit of a handle, with its event and its pipe. -/
def UnitOf (memory : Nat → Option PipeUnit) (h : CallerHandle) : Prop :=
  ∃ params event pipe, memory h.storageUnit = some ⟨params, some event, some pipe⟩ ∧
    params.guid = h.guid

variable {x x' : PipeSystem} {call : PipeCall} {calls : List PipeCall} {h h' : CallerHandle}
  {handles handles' : List CallerHandle}

/-- The units and the handles, between two steps. -/
structure PipeInv (s : PipeUnits) (handles : List CallerHandle) : Prop where
  length : s.table.length = spdIoctlStorageUnitMaxCapacity.toNat
  allocated : handles ≠ [] → s.storageUnits = some s.table
  guids : s.table.KeysDistinct (unitGuid s.memory)
  distinct : (handles.map CallerHandle.storageUnit).Nodup
  units : ∀ h ∈ handles, UnitOf s.memory h
  alive : ∀ unit u, s.memory unit = some u → ∃ h ∈ handles, h.storageUnit = unit
  listed : ∀ i unit, s.table.content i = some unit →
    ∃ h ∈ handles, h.storageUnit = unit ∧ h.stage = .inUse
  held : s.log.Holds (handles.flatMap (handleResources s.memory))

theorem storageUnit_mem_resources (h : UnitOf memory h') :
    h'.storageUnit ∈ handleResources memory h' := by
  obtain ⟨params, event, pipe, hmem, -⟩ := h
  simp only [handleResources, hmem]
  cases h'.stage <;> simp

namespace PipeInv

theorem init : PipeInv .init [] where
  length := List.length_replicate
  allocated h := absurd rfl h
  guids := Slots.keysDistinct_empty _
  distinct := List.nodup_nil
  units h hh := absurd hh List.not_mem_nil
  alive unit u hu := by cases hu
  listed i unit hi := by
    rw [Slots.content_eq_some] at hi
    cases List.eq_of_mem_replicate (List.mem_of_getElem? hi)
  held := .empty

theorem perm (hinv : PipeInv s handles) (hperm : handles.Perm handles') : PipeInv s handles' where
  length := hinv.length
  allocated hne := hinv.allocated fun hnil => hne (by simpa [hnil] using hperm)
  guids := hinv.guids
  distinct := (hperm.map _).nodup_iff.mp hinv.distinct
  units h hh := hinv.units h (hperm.mem_iff.mpr hh)
  alive unit u hu := by
    obtain ⟨h, hh, heq⟩ := hinv.alive unit u hu
    exact ⟨h, hperm.mem_iff.mp hh, heq⟩
  listed i unit hi := by
    obtain ⟨h, hh, heq⟩ := hinv.listed i unit hi
    exact ⟨h, hperm.mem_iff.mp hh, heq⟩
  held := hinv.held.perm (hperm.flatMap_right _)

theorem present (hinv : PipeInv s handles) : Present s.memory s.table := by
  intro i unit hi
  obtain ⟨h, hh, rfl, -⟩ := hinv.listed i unit hi
  obtain ⟨params, event, pipe, hmem, -⟩ := hinv.units h hh
  exact ⟨_, hmem⟩

theorem ok (hinv : PipeInv s handles) : TableOk s where
  length := hinv.length
  present := hinv.present
  fresh unit u hu := by
    obtain ⟨h, hh, rfl⟩ := hinv.alive unit u hu
    apply hinv.held.old
    exact List.mem_flatMap.mpr ⟨h, hh, storageUnit_mem_resources (hinv.units h hh)⟩

end PipeInv

theorem OpenFailed.table (h : OpenFailed s s' r) : s'.table = s.table := by
  unfold PipeUnits.table
  rcases h.storageUnits with heq | ⟨hnone, heq⟩
  · rw [heq]
  · rw [hnone, heq]
    rfl

theorem resources_update {u : Option PipeUnit} (h : h'.storageUnit ≠ unit) :
    handleResources (Function.update memory unit u) h' = handleResources memory h' := by
  unfold handleResources
  rw [Function.update_of_ne h]

theorem unitOf_update {u : Option PipeUnit} (h : h'.storageUnit ≠ unit) :
    UnitOf (Function.update memory unit u) h' ↔ UnitOf memory h' := by
  unfold UnitOf
  rw [Function.update_of_ne h]

theorem flatMap_resources_update {u : Option PipeUnit}
    (h : ∀ h' ∈ handles, h'.storageUnit ≠ unit) :
    handles.flatMap (handleResources (Function.update memory unit u)) =
      handles.flatMap (handleResources memory) := by
  unfold List.flatMap
  congr 1
  exact List.map_congr_left fun h' hh' => resources_update (h h' hh')

namespace PipeInv

theorem openPipe (hinv : PipeInv s handles)
    (hopen : spdStorageUnitHandleOpenPipe s params c = some (s', r)) :
    PipeInv s' (r.handle.toList.map (fun unit => ⟨unit, params.guid, .inUse⟩) ++ handles) := by
  obtain ⟨s₁, r₁, heq, hatomic⟩ := open_atomic params c hinv.ok
  rw [hopen, Option.some.injEq, Prod.mk.injEq] at heq
  obtain ⟨rfl, rfl⟩ := heq
  rcases hatomic with hfailed | ⟨i, unit, event, pipe, hopened⟩
  · have htable := hfailed.table
    have hmemory := hfailed.memory
    rw [hfailed.handle, Option.toList_none, List.map_nil, List.nil_append]
    constructor
    · rw [htable]
      exact hinv.length
    · intro hne
      have hsome := hinv.allocated hne
      rcases hfailed.storageUnits with hsame | ⟨hnone, -⟩
      · rw [hsame, htable, hsome]
      · rw [hnone] at hsome
        cases hsome
    · rw [htable, hmemory]
      exact hinv.guids
    · exact hinv.distinct
    · rw [hmemory]
      exact hinv.units
    · rw [hmemory]
      exact hinv.alive
    · rw [htable]
      exact hinv.listed
    · rw [hmemory]
      exact hfailed.released _ hinv.held
  · have hi := Slots.lt_length_of_lowestFree hopened.lowest
    have htable : s'.table = s.table.fill i unit := by
      rw [PipeUnits.table, hopened.storageUnits]
      rfl
    have hself : s'.memory unit = some ⟨params, some event, some pipe⟩ := by
      rw [hopened.memory, Function.update_self]
    -- the units of the other handles are others
    have hother : ∀ h ∈ handles, h.storageUnit ≠ unit := by
      intro h hh heq
      obtain ⟨params', event', pipe', hmem, -⟩ := hinv.units h hh
      rw [heq, hopened.unallocated] at hmem
      cases hmem
    have hkey : ∀ j other, s.table.content j = some other →
        unitGuid s'.memory other = unitGuid s.memory other := by
      intro j other hj
      obtain ⟨h, hh, rfl, -⟩ := hinv.listed j other hj
      rw [unitGuid, hopened.memory, Function.update_of_ne (hother h hh), unitGuid]
    rw [hopened.handle, Option.toList_some, List.map_singleton, List.singleton_append]
    constructor
    · rw [htable, Slots.fill, List.length_set]
      exact hinv.length
    · intro _
      rw [hopened.storageUnits, htable]
    · rw [htable]
      refine Slots.KeysDistinct.fill (hinv.guids.congr hkey) hi fun j other hj => ?_
      have hguid : unitGuid s'.memory unit = some params.guid := by
        rw [unitGuid, hself]
        rfl
      rw [hkey j other hj, hguid]
      exact hopened.new j other hj
    · rw [List.map_cons, List.nodup_cons]
      refine ⟨fun hmem => ?_, hinv.distinct⟩
      obtain ⟨h, hh, heq⟩ := List.mem_map.mp hmem
      exact hother h hh heq
    · intro h hh
      rcases List.mem_cons.mp hh with rfl | hh
      · exact ⟨params, event, pipe, hself, rfl⟩
      · rw [hopened.memory, unitOf_update (hother h hh)]
        exact hinv.units h hh
    · intro other u hu
      by_cases hnew : other = unit
      · exact ⟨_, List.mem_cons_self, hnew.symm⟩
      · rw [hopened.memory, Function.update_of_ne hnew] at hu
        obtain ⟨h, hh, heq⟩ := hinv.alive other u hu
        exact ⟨h, List.mem_cons_of_mem _ hh, heq⟩
    · intro j other hj
      rw [htable] at hj
      by_cases hji : j = i
      · rw [hji, Slots.content_fill_self hi, Option.some.injEq] at hj
        exact ⟨_, List.mem_cons_self, hj, rfl⟩
      · rw [Slots.content_fill_ne hji] at hj
        obtain ⟨h, hh, heq⟩ := hinv.listed j other hj
        exact ⟨h, List.mem_cons_of_mem _ hh, heq⟩
    · have hnew :
          handleResources s'.memory ⟨unit, params.guid, .inUse⟩ = [pipe, event, unit] := by
        simp [handleResources, hself]
      rw [List.flatMap_cons, hnew, hopened.memory, flatMap_resources_update hother]
      exact hopened.acquired _ hinv.held

theorem shutdownPipe {error : UInt32} (hinv : PipeInv s (h :: handles))
    (hstage : h.stage = .inUse ∨ h.stage = .shutDown)
    (hown : ShutdownOwn s h.storageUnit guid s' error) :
    PipeInv s' ({ h with stage := if guid = h.guid then .shutDown else h.stage } :: handles) := by
  obtain ⟨params, event, pipe, hmem, hguid⟩ := hinv.units h List.mem_cons_self
  have hkey : unitGuid s.memory h.storageUnit = some h.guid := by
    rw [unitGuid, hmem, ← hguid]
    rfl
  -- the table is the same or has one slot less, and nothing else changes
  have hsame : s'.memory = s.memory ∧ s'.log = s.log ∧ s'.storageUnits = some s'.table ∧
      s'.table.length = s.table.length ∧
      ∀ i unit, s'.table.content i = some unit → s.table.content i = some unit := by
    cases hown with
    | emptied i hslot _ hs' _ =>
        rw [hs']
        exact ⟨rfl, rfl, rfl, List.length_set, fun j unit hj => Slots.content_of_clear hj⟩
    | kept hs' _ _ =>
        rw [hs']
        exact ⟨rfl, rfl, hinv.allocated (List.cons_ne_nil _ _), rfl, fun i unit hi => hi⟩
  obtain ⟨hmemory, hlog, hallocated, hlength, hcontent⟩ := hsame
  -- with its own GUID the unit is not in the table any more
  have hgone : guid = h.guid → ∀ i, s'.table.content i ≠ some h.storageUnit := by
    intro hg i hi
    have hbefore := hcontent i _ hi
    cases hown with
    | emptied j hslot _ hs' _ =>
        have hij := hinv.guids i j _ _ hbefore hslot rfl
        rw [hs', hij] at hi
        have hclear : (s.table.clear j).content j = some h.storageUnit := hi
        rw [Slots.content_clear_self] at hclear
        cases hclear
    | kept _ _ hother =>
        have hfound := Slots.KeysDistinct.slotWith hinv.guids hbefore
        rw [hkey, ← hg] at hfound
        exact hother i hfound hbefore
  constructor
  · rw [hlength]
    exact hinv.length
  · intro _
    exact hallocated
  · intro i j a b ha hb heq
    rw [hmemory] at heq
    exact hinv.guids i j a b (hcontent i a ha) (hcontent j b hb) heq
  · exact hinv.distinct
  · intro h' hh'
    rw [hmemory]
    rcases List.mem_cons.mp hh' with rfl | hh'
    · exact ⟨params, event, pipe, hmem, hguid⟩
    · exact hinv.units h' (List.mem_cons_of_mem _ hh')
  · intro unit u hu
    rw [hmemory] at hu
    obtain ⟨h', hh', heq⟩ := hinv.alive unit u hu
    rcases List.mem_cons.mp hh' with rfl | hh'
    · exact ⟨_, List.mem_cons_self, heq⟩
    · exact ⟨h', List.mem_cons_of_mem _ hh', heq⟩
  · intro i unit hi
    obtain ⟨h', hh', heq, huse⟩ := hinv.listed i unit (hcontent i unit hi)
    rcases List.mem_cons.mp hh' with rfl | hh'
    · refine ⟨_, List.mem_cons_self, heq, ?_⟩
      rw [← heq] at hi
      exact (if_neg fun hg => hgone hg i hi).trans huse
    · exact ⟨h', List.mem_cons_of_mem _ hh', heq, huse⟩
  · have hheld : handleResources s.memory
        { h with stage := if guid = h.guid then .shutDown else h.stage } =
          handleResources s.memory h := by
      unfold handleResources
      simp only [hmem]
      rcases hstage with hstage | hstage <;> by_cases hg : guid = h.guid <;> simp [hstage, hg]
    rw [hmemory, hlog, List.flatMap_cons, hheld, ← List.flatMap_cons]
    exact hinv.held

/-- A handle is closed that is not in use: what it holds gets less, and nothing
else changes. -/
theorem closed {stage : HandleStage} {log : ResourceLog} (hinv : PipeInv s (h :: handles))
    (hstage : h.stage ≠ .inUse)
    (hheld : log.Holds (handleResources s.memory { h with stage := stage } ++
      handles.flatMap (handleResources s.memory))) :
    PipeInv { s with log := log } ({ h with stage := stage } :: handles) := by
  refine ⟨hinv.length, fun _ => hinv.allocated (List.cons_ne_nil _ _), hinv.guids, hinv.distinct,
    fun h' hh' => ?_, fun unit u hu => ?_, fun i unit hi => ?_, hheld⟩
  · rcases List.mem_cons.mp hh' with rfl | hh'
    · exact hinv.units h List.mem_cons_self
    · exact hinv.units h' (List.mem_cons_of_mem _ hh')
  · obtain ⟨h', hh', heq⟩ := hinv.alive unit u hu
    rcases List.mem_cons.mp hh' with rfl | hh'
    · exact ⟨_, List.mem_cons_self, heq⟩
    · exact ⟨h', List.mem_cons_of_mem _ hh', heq⟩
  · obtain ⟨h', hh', heq, huse⟩ := hinv.listed i unit hi
    rcases List.mem_cons.mp hh' with rfl | hh'
    · exact absurd huse hstage
    · exact ⟨h', List.mem_cons_of_mem _ hh', heq, huse⟩

theorem closePipe (hinv : PipeInv s (h :: handles)) (hstage : h.stage = .shutDown)
    (hclose : closeUnitPipe s h.storageUnit = some s') :
    PipeInv s' ({ h with stage := .pipeClosed } :: handles) := by
  obtain ⟨params, event, pipe, hmem, -⟩ := hinv.units h List.mem_cons_self
  simp only [closeUnitPipe, hmem, Option.bind_eq_bind, Option.bind_some, Option.some.injEq]
    at hclose
  subst hclose
  refine hinv.closed (by rw [hstage]; decide) ?_
  have hheld := hinv.held
  simp only [List.flatMap_cons, handleResources, hmem, hstage] at hheld ⊢
  exact hheld.release

theorem closeEvent (hinv : PipeInv s (h :: handles)) (hstage : h.stage = .pipeClosed)
    (hclose : closeUnitEvent s h.storageUnit = some s') :
    PipeInv s' ({ h with stage := .eventClosed } :: handles) := by
  obtain ⟨params, event, pipe, hmem, -⟩ := hinv.units h List.mem_cons_self
  simp only [closeUnitEvent, hmem, Option.bind_eq_bind, Option.bind_some, Option.some.injEq]
    at hclose
  subst hclose
  refine hinv.closed (by rw [hstage]; decide) ?_
  have hheld := hinv.held
  simp only [List.flatMap_cons, handleResources, hmem, hstage] at hheld ⊢
  exact hheld.release

theorem memFree (hinv : PipeInv s (h :: handles)) (hstage : h.stage = .eventClosed)
    (hfree : freeUnit s h.storageUnit = some s') : PipeInv s' handles := by
  obtain ⟨params, event, pipe, hmem, -⟩ := hinv.units h List.mem_cons_self
  simp only [freeUnit, hmem, Option.bind_eq_bind, Option.bind_some, Option.some.injEq] at hfree
  subst hfree
  have hdistinct := hinv.distinct
  rw [List.map_cons, List.nodup_cons] at hdistinct
  have hother : ∀ h' ∈ handles, h'.storageUnit ≠ h.storageUnit := by
    intro h' hh' heq
    exact hdistinct.1 (List.mem_map.mpr ⟨h', hh', heq⟩)
  -- the unit is in no slot, as its handle is not in use
  have hlisted : ∀ i unit, s.table.content i = some unit →
      ∃ h' ∈ handles, h'.storageUnit = unit ∧ h'.stage = .inUse := by
    intro i unit hi
    obtain ⟨h', hh', heq, huse⟩ := hinv.listed i unit hi
    rcases List.mem_cons.mp hh' with rfl | hh'
    · rw [hstage] at huse
      cases huse
    · exact ⟨h', hh', heq, huse⟩
  refine ⟨hinv.length, fun _ => hinv.allocated (List.cons_ne_nil _ _),
    hinv.guids.congr fun i unit hi => ?_, hdistinct.2, fun h' hh' => ?_, fun unit u hu => ?_,
    hlisted, ?_⟩
  · obtain ⟨h', hh', rfl, -⟩ := hlisted i unit hi
    simp only [unitGuid, PipeUnits.setUnit, Function.update_of_ne (hother h' hh')]
  · exact (unitOf_update (hother h' hh')).mpr (hinv.units h' (List.mem_cons_of_mem _ hh'))
  · by_cases hown : unit = h.storageUnit
    · rw [hown] at hu
      simp [PipeUnits.setUnit] at hu
    · simp only [PipeUnits.setUnit, Function.update_of_ne hown] at hu
      obtain ⟨h', hh', heq⟩ := hinv.alive unit u hu
      rcases List.mem_cons.mp hh' with rfl | hh'
      · exact absurd heq.symm hown
      · exact ⟨h', hh', heq⟩
  · have hheld := hinv.held
    have hown : handleResources s.memory h = [h.storageUnit] := by
      simp only [handleResources, hmem, hstage]
    rw [List.flatMap_cons, hown] at hheld
    simp only [PipeUnits.setUnit, flatMap_resources_update hother]
    exact hheld.release

theorem step (hinv : PipeInv x.units x.handles) (hstep : PipeSystemStep x call x') :
    PipeInv x'.units x'.handles := by
  cases hstep with
  | openPipe hopen => exact hinv.openPipe hopen
  | shutdownPipe hperm hstage hshutdown =>
      have hinv := hinv.perm hperm
      obtain ⟨params, event, pipe, hmem, -⟩ := hinv.units _ List.mem_cons_self
      obtain ⟨s, error, heq, hown⟩ :=
        shutdown_own hinv.present (hinv.allocated (List.cons_ne_nil _ _)) hmem rfl
      rw [hshutdown, Option.some.injEq, Prod.mk.injEq] at heq
      obtain ⟨rfl, rfl⟩ := heq
      exact hinv.shutdownPipe hstage hown
  | closePipe hperm hstage hclose => exact (hinv.perm hperm).closePipe hstage hclose
  | closeEvent hperm hstage hclose => exact (hinv.perm hperm).closeEvent hstage hclose
  | memFree hperm hstage hfree => exact (hinv.perm hperm).memFree hstage hfree

theorem run (hr : Run PipeSystemStep .init calls x) : PipeInv x.units x.handles :=
  hr.inv (I := fun x => PipeInv x.units x.handles) init fun hinv hstep => hinv.step hstep

end PipeInv

/-! ## The result -/

/-- The units in every state of a run: no GUID is there twice, every call that can
come next is defined and does what it is to do, and what is open is what the
handles have not closed. -/
structure UnitsSafe (x : PipeSystem) : Prop where
  guids : x.units.table.KeysDistinct (unitGuid x.units.memory)
  openPipe : ∀ params c, ∃ s r, spdStorageUnitHandleOpenPipe x.units params c = some (s, r) ∧
    OpenAtomic x.units params s r
  shutdownPipe : ∀ h ∈ x.handles, h.stage = .inUse ∨ h.stage = .shutDown →
    ∀ guid, ∃ s error,
    spdStorageUnitHandleShutdownPipe x.units h.storageUnit guid = some (s, error) ∧
      ShutdownOwn x.units h.storageUnit guid s error
  close : ∀ h ∈ x.handles, (∃ s, closeUnitPipe x.units h.storageUnit = some s) ∧
    (∃ s, closeUnitEvent x.units h.storageUnit = some s) ∧
    ∃ s, freeUnit x.units h.storageUnit = some s
  held : x.units.log.Holds (x.handles.flatMap (handleResources x.units.memory))

theorem PipeInv.safe (hinv : PipeInv x.units x.handles) : UnitsSafe x where
  guids := hinv.guids
  openPipe params c := open_atomic params c hinv.ok
  shutdownPipe h hh _ guid := by
    obtain ⟨params, event, pipe, hmem, -⟩ := hinv.units h hh
    exact shutdown_own hinv.present (hinv.allocated (List.ne_nil_of_mem hh)) hmem rfl
  close h hh := by
    obtain ⟨params, event, pipe, hmem, -⟩ := hinv.units h hh
    simp [closeUnitPipe, closeUnitEvent, freeUnit, hmem]
  held := hinv.held

/-- An open is atomic in every state of the table, and so are the units over
every sequence of calls. -/
theorem pipe_units :
    (∀ s, TableOk s → ∀ params c, ∃ s' r,
      spdStorageUnitHandleOpenPipe s params c = some (s', r) ∧ OpenAtomic s params s' r) ∧
    ∀ calls x, Run PipeSystemStep .init calls x → UnitsSafe x :=
  ⟨fun _ hok params c => open_atomic params c hok, fun _ _ hr => (PipeInv.run hr).safe⟩

def opensAll : OpenChoice := ⟨true, true, none, none⟩

theorem pipe_units_first :
    ∃ x : PipeSystem, x.handles = [⟨0, nullGuid, .inUse⟩] ∧ UnitsSafe x := by
  have hfirst : (spdStorageUnitHandleOpenPipe .init .zero opensAll).map
      (fun result => result.2.handle) = some (some 0) := by decide
  obtain ⟨⟨s, r⟩, hopen, hhandle⟩ := Option.map_eq_some_iff.mp hfirst
  have hhandle : r.handle = some 0 := hhandle
  have hrun : Run PipeSystemStep .init [.openPipe .zero opensAll r] _ := .single (.openPipe hopen)
  refine ⟨_, ?_, pipe_units.2 _ _ hrun⟩
  rw [hhandle]
  rfl

end Winspd.Proofs
