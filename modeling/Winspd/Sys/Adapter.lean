import Winspd.Lib.RwLock
import Winspd.Sys.Dispatch

/-!
# The global device extension: `stgunit.c`, `dispatch.c`

The functions that find the adapter through `SpdGlobalDeviceExtension`, which
`SpdGlobalDeviceResource` protects: `SpdDeviceExtensionInit` and
`SpdDeviceExtensionFini`, the process notify routine, and `SpdDispatchPnp` with
the `SpdStorageUnitGlobal*` functions it calls. `AdapterThread` is where a
thread is in one of them. A thread at an acquisition goes on when the lock is
granted (`acquires`), a thread at a release when it has given the lock back
(`releases`), and everything between is `adapterRun`.

`SpdDeviceExtensionAcquire` is the same code for its four callers, which are
`GlobalCall`; what they do with the extension is `GlobalUse`. A function that
reads `SpdGlobalDeviceExtension` again reads it here again, and one that keeps
the pointer it was given keeps it. A null pointer stops the machine.
-/

namespace Winspd.Sys

open Winspd.Lib

/-- `SPD_DEVICE_EXTENSION` with the adapter's device object. -/
structure AdapterExtension where
  dx : SpdDeviceExtension
  deviceObject : Addr

/-- The globals, the device extensions in memory, and whether the process
manager has the notify routine. -/
structure AdapterGlobals where
  spdGlobalDeviceExtension : Addr
  extensions : Addr → AdapterExtension
  registered : Bool

/-- What the system answers: `PsSetCreateProcessNotifyRoutine`, and the BTL of
`SpdGetScsiAddress`. -/
structure SystemResult where
  notifyRoutine : NtStatus
  scsiAddress : Option UInt32

inductive PnpMinorFunction
  | queryCapabilities
  | startDevice
  | removeDevice
  | other
  deriving DecidableEq, Repr

/-- Who has called `SpdDeviceExtensionAcquire`, and for what. -/
inductive GlobalCall
  | queryCapabilities (deviceObject : Addr)
  | setDevice (deviceObject : Addr) (btl : UInt32)
  | referenceByDevice (deviceObject : Addr)
  | unprovision (provisionGuid : Guid) (provisionPid : UInt32)

/-- What is done with the extension between `SpdDeviceExtensionAcquire` and
`SpdDeviceExtensionRelease`. A `deviceExtension` is the pointer that was
returned. -/
inductive GlobalUse
  | compare (deviceExtension deviceObject : Addr)
  | referenceByBtl (deviceObject : Addr) (btl : UInt32)
  | setDevice (deviceObject p : Addr)
  | dereference (p : Addr)
  | referenceByDevice (deviceObject : Addr)
  | copyNames (p : Addr)
  | globalDereference (p : Addr) (provisionGuid : Guid) (provisionPid : UInt32)
  | unprovision (deviceExtension : Addr) (provisionGuid : Guid) (provisionPid : UInt32)
  | dereferenceUnprovisioned (deviceExtension p : Addr)

/-- Where `SpdDispatchPnp` goes on after it has released the lock. A
`provisionPid` of `-1` stands for no unit. -/
inductive AfterRelease
  | storPort (provisionGuid : Guid) (provisionPid : UInt32)
  | returned

inductive AdapterThread
  | initAcquire (deviceExtension busInformation : Addr)
  | initCheck (deviceExtension busInformation : Addr)
  | initStore (deviceExtension busInformation : Addr)
  | initRelease (result : NtStatus)
  | finiAcquire (deviceExtension : Addr)
  | finiCheck (deviceExtension : Addr)
  /-- In `PsSetCreateProcessNotifyRoutine`, which returns when the routine is
  not running. -/
  | finiRemove
  | finiClear
  | finiRelease
  | notifyEntered (create : Bool) (processId : UInt32)
  | notifyAcquire (processId : UInt32)
  | notify (processId : UInt32) (routine : NotifyRoutine)
  | pnpEntered (minorFunction : PnpMinorFunction) (deviceObject : Addr)
  | getScsiAddress (deviceObject : Addr)
  | acquire (call : GlobalCall)
  /-- `SpdDeviceExtensionAcquire` has the lock. -/
  | check (call : GlobalCall)
  /-- There is no extension, and `SpdDeviceExtensionAcquire` gives the lock
  back. -/
  | acquireNone (after : AfterRelease)
  | use (work : GlobalUse)
  /-- In `SpdDeviceExtensionRelease`. -/
  | release (after : AfterRelease)
  | storPortDispatchPnp (provisionGuid : Guid) (provisionPid : UInt32)

def AfterRelease.thread : AfterRelease → Option AdapterThread
  | .storPort provisionGuid provisionPid =>
      some (.storPortDispatchPnp provisionGuid provisionPid)
  | .returned => none

/-- The lock a thread is about to acquire, and where it goes on with it. -/
def AdapterThread.acquires : AdapterThread → Option (LockMode × AdapterThread)
  | .initAcquire deviceExtension busInformation =>
      some (.exclusive, .initCheck deviceExtension busInformation)
  | .finiAcquire deviceExtension => some (.exclusive, .finiCheck deviceExtension)
  | .notifyAcquire processId => some (.shared, .notify processId .entered)
  | .acquire call => some (.shared, .check call)
  | _ => none

/-- Where a thread that is about to release the lock goes on; without a place to
go on the function returns. -/
def AdapterThread.releases : AdapterThread → Option (Option AdapterThread)
  | .initRelease _ | .finiRelease | .notify _ .returned => some none
  | .acquireNone after | .release after => some after.thread
  | _ => none

/-- The extension at an address. -/
def AdapterGlobals.extension (g : AdapterGlobals) (p : Addr) : Option AdapterExtension :=
  if p = 0 then none else some (g.extensions p)

def AdapterGlobals.setDx (g : AdapterGlobals) (p : Addr) (dx : SpdDeviceExtension) :
    AdapterGlobals :=
  { g with extensions := Function.update g.extensions p { g.extensions p with dx := dx } }

/-- The work of the callers, with `after` where each goes on. -/
def GlobalUse.run (g : AdapterGlobals) : GlobalUse → Option (AdapterGlobals × AdapterThread)
  -- what the comparison decides is the IRP's capabilities
  | .compare deviceExtension _ =>
      (g.extension deviceExtension).map fun _ => (g, .release (.storPort nullGuid (-1)))
  | .referenceByBtl deviceObject btl => do
      let extension ← g.extension g.spdGlobalDeviceExtension
      let (dx, storageUnit) ← spdStorageUnitReferenceByBtl extension.dx btl
      let g := g.setDx g.spdGlobalDeviceExtension dx
      match storageUnit with
      | none => some (g, .release (.storPort nullGuid (-1)))
      | some p => some (g, .use (.setDevice deviceObject p))
  | .setDevice deviceObject p => do
      let extension ← g.extension g.spdGlobalDeviceExtension
      let (dx, _) ← spdStorageUnitSetDevice extension.dx p deviceObject
      some (g.setDx g.spdGlobalDeviceExtension dx, .use (.dereference p))
  | .dereference p => do
      let extension ← g.extension g.spdGlobalDeviceExtension
      let (dx, _) ← spdStorageUnitDereference extension.dx p
      some (g.setDx g.spdGlobalDeviceExtension dx, .release (.storPort nullGuid (-1)))
  | .referenceByDevice deviceObject => do
      let extension ← g.extension g.spdGlobalDeviceExtension
      let (dx, storageUnit) ← spdStorageUnitReferenceByDevice extension.dx deviceObject
      let g := g.setDx g.spdGlobalDeviceExtension dx
      match storageUnit with
      | none => some (g, .release (.storPort nullGuid (-1)))
      | some p => some (g, .use (.copyNames p))
  | .copyNames p => do
      let extension ← g.extension g.spdGlobalDeviceExtension
      let object ← extension.dx.pool p
      some (g, .use (.globalDereference p object.unit.storageUnitParams.guid
        object.unit.ownerProcessId))
  | .globalDereference p provisionGuid provisionPid => do
      let extension ← g.extension g.spdGlobalDeviceExtension
      let (dx, _) ← spdStorageUnitDereference extension.dx p
      some (g.setDx g.spdGlobalDeviceExtension dx, .release (.storPort provisionGuid provisionPid))
  | .unprovision deviceExtension provisionGuid provisionPid => do
      let extension ← g.extension deviceExtension
      let (dx, _, unit, _) ←
        spdStorageUnitUnprovision extension.dx (.guid provisionGuid) provisionPid
      let g := g.setDx deviceExtension dx
      match unit with
      | none => some (g, .release .returned)
      | some p => some (g, .use (.dereferenceUnprovisioned deviceExtension p))
  | .dereferenceUnprovisioned deviceExtension p => do
      let extension ← g.extension deviceExtension
      let (dx, _) ← spdStorageUnitDereference extension.dx p
      some (g.setDx deviceExtension dx, .release .returned)

/-- What a caller of `SpdDeviceExtensionAcquire` goes on with. -/
def GlobalCall.found (deviceExtension : Addr) : GlobalCall → GlobalUse
  | .queryCapabilities deviceObject => .compare deviceExtension deviceObject
  | .setDevice deviceObject btl => .referenceByBtl deviceObject btl
  | .referenceByDevice deviceObject => .referenceByDevice deviceObject
  | .unprovision provisionGuid provisionPid =>
      .unprovision deviceExtension provisionGuid provisionPid

def GlobalCall.none : GlobalCall → AfterRelease
  | .queryCapabilities _ | .setDevice _ _ | .referenceByDevice _ => .storPort nullGuid (-1)
  | .unprovision _ _ => .returned

/-- One step of a thread that is neither at an acquisition nor at a release.
Without a place to go on the function returns. -/
def adapterRun (spdStorageUnitCapacity : UInt32) (g : AdapterGlobals) (r : SystemResult) :
    AdapterThread → Option (AdapterGlobals × Option AdapterThread)
  -- SpdDeviceExtensionInit
  | .initCheck deviceExtension busInformation =>
      if g.spdGlobalDeviceExtension ≠ 0 then
        some (g, some (.initRelease
          (if deviceExtension = g.spdGlobalDeviceExtension then .success else .invalidParameter)))
      else if ntSuccess r.notifyRoutine then
        some ({ g with registered := true }, some (.initStore deviceExtension busInformation))
      else some (g, some (.initRelease r.notifyRoutine))
  | .initStore deviceExtension busInformation => do
      let extension ← g.extension deviceExtension
      let extension : AdapterExtension :=
        { dx := { extension.dx with storageUnitCapacity := spdStorageUnitCapacity }
          deviceObject := busInformation }
      some
        ({ g with
            spdGlobalDeviceExtension := deviceExtension
            extensions := Function.update g.extensions deviceExtension extension },
          some (.initRelease .success))
  -- SpdDeviceExtensionFini
  | .finiCheck deviceExtension =>
      if deviceExtension = g.spdGlobalDeviceExtension then
        some ({ g with registered := false }, some .finiRemove)
      else some (g, some .finiRelease)
  | .finiRemove => some (g, some .finiClear)
  | .finiClear => some ({ g with spdGlobalDeviceExtension := 0 }, some .finiRelease)
  -- SpdDeviceExtensionNotifyRoutine
  | .notifyEntered create processId =>
      if create then some (g, none) else some (g, some (.notifyAcquire processId))
  | .notify processId routine => do
      let extension ← g.extension g.spdGlobalDeviceExtension
      let (dx, routine) ← spdDeviceExtensionNotifyRoutine extension.dx processId routine
      some (g.setDx g.spdGlobalDeviceExtension dx, some (.notify processId routine))
  -- SpdDispatchPnp
  | .pnpEntered .queryCapabilities deviceObject =>
      some (g, some (.acquire (.queryCapabilities deviceObject)))
  | .pnpEntered .startDevice deviceObject => some (g, some (.getScsiAddress deviceObject))
  | .pnpEntered .removeDevice deviceObject =>
      some (g, some (.acquire (.referenceByDevice deviceObject)))
  | .pnpEntered .other _ => some (g, some (.storPortDispatchPnp nullGuid (-1)))
  | .getScsiAddress deviceObject =>
      match r.scsiAddress with
      | none => some (g, some (.storPortDispatchPnp nullGuid (-1)))
      | some btl => some (g, some (.acquire (.setDevice deviceObject btl)))
  | .check call =>
      if g.spdGlobalDeviceExtension ≠ 0 then
        some (g, some (.use (call.found g.spdGlobalDeviceExtension)))
      else some (g, some (.acquireNone call.none))
  | .use work => (work.run g).map fun r => (r.1, some r.2)
  | .storPortDispatchPnp provisionGuid provisionPid =>
      if provisionPid = -1 then some (g, none)
      else some (g, some (.acquire (.unprovision provisionGuid provisionPid)))
  | .initAcquire _ _ | .initRelease _ | .finiAcquire _ | .finiRelease | .notifyAcquire _
  | .acquire _ | .acquireNone _ | .release _ => none

end Winspd.Sys
