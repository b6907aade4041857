import Mathlib.Logic.Function.Basic
import Winspd.Lib.Lifetimes
import Winspd.Lib.Run
import Winspd.Lib.Slots
import Winspd.Shared.Stghandle

/-!
# shared/stghandle.c: the storage units on pipes

The table `StorageUnits`, and the calls that open, shut down and close the unit
of a pipe. Opening and shutting down hold `StorageUnitLock` for as long as they
read or write the table, so each of them is one step of a run. Closing does not
take the lock: it is three steps, and other calls can come between them.

A unit is known by the number of its allocation, so that memory that is used
again is not mistaken for what it was, and so are events and pipes by theirs. A
call is `none` when it follows a null pointer or one to a unit that was freed.

What the environment decides is an `OpenChoice`: whether there is memory, and how
the system calls end. Of the callers it is modelled what `stgunit.c` does: a
handle that was opened can be shut down, many times, and when that has been done
with its own GUID it is closed, once.
-/

namespace Winspd.Shared

open Winspd.Lib Winspd.Sys

def errorCannotMake : UInt32 := 82
def errorAlreadyExists : UInt32 := 183

/-- What `GetLastError` says once a call has failed. -/
abbrev LastError := { error : UInt32 // error ≠ errorSuccess }

/-- `STORAGE_UNIT`, as far as it is used here. The event can be null, and the pipe
`INVALID_HANDLE_VALUE`. -/
structure PipeUnit where
  storageUnitParams : StorageUnitParams
  event : Option Nat
  pipe : Option Nat

structure PipeUnits where
  /-- `StorageUnits`, which is null at first. -/
  storageUnits : Option (Slots Nat)
  memory : Nat → Option PipeUnit
  log : ResourceLog

namespace PipeUnits

def init : PipeUnits := ⟨none, fun _ => none, .empty⟩

def newTable : Slots Nat := Slots.empty spdIoctlStorageUnitMaxCapacity.toNat

/-- The table, or the one that would be allocated. -/
def table (s : PipeUnits) : Slots Nat := s.storageUnits.getD newTable

/-- `StorageUnits[Index] = StorageUnit`. -/
def setSlot (s : PipeUnits) (index : UInt32) (storageUnit : Option Nat) : Option PipeUnits := do
  let t ← s.storageUnits
  if index.toNat < t.length then
    some { s with storageUnits := some (t.set index.toNat storageUnit) }
  else none

def setUnit (s : PipeUnits) (storageUnit : Nat) (u : Option PipeUnit) : PipeUnits :=
  { s with memory := Function.update s.memory storageUnit u }

end PipeUnits

/-! ## Open -/

structure OpenChoice where
  /-- Is there memory for a table? -/
  tableAllocated : Bool
  /-- Is there memory for a unit? -/
  unitAllocated : Bool
  /-- How `CreateEventW` fails. -/
  eventError : Option LastError
  /-- How `CreateNamedPipeW` fails. -/
  pipeError : Option LastError

/-- The error, `*PHandle` and `*PBtl`. -/
structure OpenResult where
  error : UInt32
  handle : Option Nat
  btl : UInt32

/-- What they are set to at first. -/
def OpenResult.fails (error : UInt32) : OpenResult := ⟨error, none, -1⟩

/-- The variables that the exit path looks at. -/
structure OpenLocals where
  btl : UInt32
  storageUnit : Option Nat
  duplicateUnit : Option Nat

/-- The loop of `SpdStorageUnitHandleOpenPipe`: the first unit with the GUID, and
the BTL of the first free slot seen before it. -/
def openScan (memory : Nat → Option PipeUnit) (guid : Guid) :
    UInt32 → UInt32 → Slots Nat → Option (Option Nat × UInt32)
  | _, btl, [] => some (none, btl)
  | i, btl, none :: t =>
      openScan memory guid (i + 1) (if btl = -1 then spdBtlFromIndex i else btl) t
  | i, btl, some unit :: t => do
      let u ← memory unit
      if guid = u.storageUnitParams.guid then some (some unit, btl)
      else openScan memory guid (i + 1) btl t

/-- What the exit path does with the unit. -/
def openExitUnit (s : PipeUnits) (storageUnit : Nat) : Option PipeUnits := do
  let u ← s.memory storageUnit
  let log := match u.pipe with
    | some pipe => s.log.release pipe
    | none => s.log
  let log := match u.event with
    | some event => log.release event
    | none => log
  some (PipeUnits.setUnit { s with log := log.release storageUnit } storageUnit none)

/-- From `exit` on. -/
def openExit (s : PipeUnits) (x : OpenLocals) (r : OpenResult) : Option (PipeUnits × OpenResult) :=
  if errorSuccess ≠ r.error then do
    let s ←
      if x.duplicateUnit = none ∧ x.btl ≠ -1 then s.setSlot (spdIndexFromBtl x.btl) none
      else some s
    match x.storageUnit with
    | none => some (s, r)
    | some storageUnit => do
        let s ← openExitUnit s storageUnit
        some (s, r)
  else some (s, r)

/-- From `CreateEventW` on, with a slot. -/
def openHandles (s : PipeUnits) (x : OpenLocals) (storageUnit : Nat)
    (params : StorageUnitParams) (c : OpenChoice) : Option (PipeUnits × OpenResult) :=
  match c.eventError with
  | some error => openExit s x (.fails error)
  | none =>
      let event := s.log.acquire.2
      let s := PipeUnits.setUnit { s with log := s.log.acquire.1 } storageUnit
        (some ⟨params, some event, none⟩)
      match c.pipeError with
      | some error => openExit s x (.fails error)
      | none =>
          let pipe := s.log.acquire.2
          let s := PipeUnits.setUnit { s with log := s.log.acquire.1 } storageUnit
            (some ⟨params, some event, some pipe⟩)
          openExit s x ⟨errorSuccess, some storageUnit, x.btl⟩

/-- From the end of the loop on. -/
def openSlot (s : PipeUnits) (x : OpenLocals) (storageUnit : Nat) (params : StorageUnitParams)
    (c : OpenChoice) : Option (PipeUnits × OpenResult) := do
  let s ←
    if x.duplicateUnit = none ∧ x.btl ≠ -1 then
      s.setSlot (spdIndexFromBtl x.btl) (some storageUnit)
    else some s
  if x.duplicateUnit ≠ none then openExit s x (.fails errorAlreadyExists)
  else if x.btl = -1 then openExit s x (.fails errorCannotMake)
  else openHandles s x storageUnit params c

/-- From the allocation of the unit on, with a table. -/
def openUnit (s : PipeUnits) (params : StorageUnitParams) (c : OpenChoice) :
    Option (PipeUnits × OpenResult) :=
  if c.unitAllocated = false then
    openExit s ⟨-1, none, none⟩ (.fails errorNoSystemResources)
  else do
    let storageUnit := s.log.acquire.2
    let s := PipeUnits.setUnit { s with log := s.log.acquire.1 } storageUnit
      (some ⟨params, none, none⟩)
    let (duplicateUnit, btl) ← openScan s.memory params.guid 0 (-1) s.table
    openSlot s ⟨btl, some storageUnit, duplicateUnit⟩ storageUnit params c

def spdStorageUnitHandleOpenPipe (s : PipeUnits) (params : StorageUnitParams) (c : OpenChoice) :
    Option (PipeUnits × OpenResult) :=
  if s.storageUnits = none ∧ c.tableAllocated = false then
    openExit s ⟨-1, none, none⟩ (.fails errorNoSystemResources)
  else openUnit { s with storageUnits := some s.table } params c

/-! ## Shutdown and close -/

/-- The loop of `SpdStorageUnitHandleShutdownPipe`. -/
def shutdownScan (memory : Nat → Option PipeUnit) (guid : Guid) :
    Nat → Slots Nat → Option (Option Nat)
  | _, [] => some none
  | i, none :: t => shutdownScan memory guid (i + 1) t
  | i, some unit :: t => do
      let u ← memory unit
      if guid = u.storageUnitParams.guid then some (some i)
      else shutdownScan memory guid (i + 1) t

def spdStorageUnitHandleShutdownPipe (s : PipeUnits) (storageUnit : Nat) (guid : Guid) :
    Option (PipeUnits × UInt32) := do
  let t ← s.storageUnits
  let index ← shutdownScan s.memory guid 0 t
  match index with
  | none => some (s, errorFileNotFound)
  | some index =>
      if t.content index = some storageUnit then do
        -- SetEvent(StorageUnit->Event)
        let u ← s.memory storageUnit
        let _ ← u.event
        some ({ s with storageUnits := some (t.clear index) }, errorSuccess)
      else some (s, errorFileNotFound)

/-! `SpdStorageUnitHandleClosePipe`, in its three steps. -/

def closeUnitPipe (s : PipeUnits) (storageUnit : Nat) : Option PipeUnits := do
  let u ← s.memory storageUnit
  let pipe ← u.pipe
  some { s with log := s.log.release pipe }

def closeUnitEvent (s : PipeUnits) (storageUnit : Nat) : Option PipeUnits := do
  let u ← s.memory storageUnit
  let event ← u.event
  some { s with log := s.log.release event }

def freeUnit (s : PipeUnits) (storageUnit : Nat) : Option PipeUnits := do
  let _ ← s.memory storageUnit
  some (PipeUnits.setUnit { s with log := s.log.release storageUnit } storageUnit none)

/-! ## The callers -/

/-- How far a handle is. -/
inductive HandleStage
  | inUse
  | shutDown
  | pipeClosed
  | eventClosed
  deriving DecidableEq, Repr

/-- A handle, with the GUID it was opened with. -/
structure CallerHandle where
  storageUnit : Nat
  guid : Guid
  stage : HandleStage
  deriving DecidableEq, Repr

/-- The units, and the handles that the callers have. -/
structure PipeSystem where
  units : PipeUnits
  handles : List CallerHandle

def PipeSystem.init : PipeSystem := ⟨.init, []⟩

inductive PipeCall
  | openPipe (params : StorageUnitParams) (c : OpenChoice) (r : OpenResult)
  | shutdownPipe (h : CallerHandle) (guid : Guid) (error : UInt32)
  | closePipe (h : CallerHandle)
  | closeEvent (h : CallerHandle)
  | memFree (h : CallerHandle)

/-- A step of a run. The order of the handles means nothing. -/
inductive PipeSystemStep : PipeSystem → PipeCall → PipeSystem → Prop
  | openPipe {x : PipeSystem} {params : StorageUnitParams} {c : OpenChoice} {s : PipeUnits}
      {r : OpenResult} :
      spdStorageUnitHandleOpenPipe x.units params c = some (s, r) →
      PipeSystemStep x (.openPipe params c r)
        ⟨s, r.handle.toList.map (fun unit => ⟨unit, params.guid, .inUse⟩) ++ x.handles⟩
  | shutdownPipe {x : PipeSystem} {h : CallerHandle} {handles : List CallerHandle} {guid : Guid}
      {s : PipeUnits} {error : UInt32} :
      x.handles.Perm (h :: handles) → h.stage = .inUse ∨ h.stage = .shutDown →
      spdStorageUnitHandleShutdownPipe x.units h.storageUnit guid = some (s, error) →
      PipeSystemStep x (.shutdownPipe h guid error)
        ⟨s, { h with stage := if guid = h.guid then .shutDown else h.stage } :: handles⟩
  | closePipe {x : PipeSystem} {h : CallerHandle} {handles : List CallerHandle} {s : PipeUnits} :
      x.handles.Perm (h :: handles) → h.stage = .shutDown →
      closeUnitPipe x.units h.storageUnit = some s →
      PipeSystemStep x (.closePipe h) ⟨s, { h with stage := .pipeClosed } :: handles⟩
  | closeEvent {x : PipeSystem} {h : CallerHandle} {handles : List CallerHandle} {s : PipeUnits} :
      x.handles.Perm (h :: handles) → h.stage = .pipeClosed →
      closeUnitEvent x.units h.storageUnit = some s →
      PipeSystemStep x (.closeEvent h) ⟨s, { h with stage := .eventClosed } :: handles⟩
  | memFree {x : PipeSystem} {h : CallerHandle} {handles : List CallerHandle} {s : PipeUnits} :
      x.handles.Perm (h :: handles) → h.stage = .eventClosed →
      freeUnit x.units h.storageUnit = some s → PipeSystemStep x (.memFree h) ⟨s, handles⟩

end Winspd.Shared
