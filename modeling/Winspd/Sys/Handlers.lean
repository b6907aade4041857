import Winspd.Lib.Threads
import Winspd.Sys.Ioctl
import Winspd.Sys.Io
import Winspd.Sys.Dispatch

/-!
# The handlers, action by action

`Sys.Stgunit` takes a function of `stgunit.c` in one go. Here a thread can be
interrupted wherever it drops the spin lock: a section under the lock is an
action, so is every read of a unit outside the lock and every call of the
unit's queue, and the functions that work on units are programs of such
actions. What a handler does besides is not here. What its environment decides,
the memory it gets, how the wait for an SRB ends, is an argument.

A pointer to a unit is kept with the generation of the unit, which tells the
units apart that were given the same address. The machine follows the address.
-/

namespace Winspd.Sys

open Winspd.Lib

structure UnitPtr where
  addr : Addr
  generation : Nat
  deriving DecidableEq, Repr

/-- The device extension and its pool, how many units every address has been
given to, and `StorageUnit` of the SRB extensions. -/
structure DriverState where
  dx : SpdDeviceExtension
  generation : Addr → Nat
  storageUnit : Addr → UnitPtr

/-- A pointer to the unit that has the address now. -/
def DriverState.ptr (s : DriverState) (p : Addr) : UnitPtr := ⟨p, s.generation p⟩

def DriverState.init (capacity : UInt32) : DriverState :=
  ⟨spdDeviceExtensionInit capacity fun _ => none, fun _ => 0, fun _ => ⟨0, 0⟩⟩

/-! ## Sections -/

/-- `SpdStorageUnitUnprovision` under the lock: the unit it found, and the owner
it compared with, which is not kept. -/
def unprovisionSection (dx : SpdDeviceExtension) (key : UnitKey) (processId : UInt32) :
    Option (SpdDeviceExtension × Option (Addr × UInt32)) := do
  let found ← unprovisionLookup dx key
  match found with
  | none => some (dx, none)
  | some (index, p) => do
      let object ← dx.pool p
      let dx :=
        if processId = object.unit.ownerProcessId then
          { dx with
            storageUnitCount := dx.storageUnitCount - 1
            storageUnits := dx.storageUnits.set index 0 }
        else dx
      some (dx, some (p, object.unit.ownerProcessId))

/-- `SpdStorageUnitDereference` under the lock: its `Delete`. -/
def dereferenceSection (dx : SpdDeviceExtension) (p : Addr) :
    Option (SpdDeviceExtension × Bool) := do
  let object ← dx.pool p
  let refCount := object.unit.refCount - 1
  some
    ({ dx with
        pool := Function.update dx.pool p
          (some { object with unit := { object.unit with refCount := refCount } }) },
      refCount = 0)

/-- `SpdIoqDelete(StorageUnit->Ioq)` and `SpdFree(StorageUnit)`. -/
def freeUnit (dx : SpdDeviceExtension) (p : Addr) :
    Option (SpdDeviceExtension × List IoqCall) := do
  let object ← dx.pool p
  let calls ← spdIoqDelete object.ioq
  some ({ dx with pool := Function.update dx.pool p none }, calls)

/-- A call of the queue of the unit at `p`. -/
def onIoq {α : Type} (dx : SpdDeviceExtension) (p : Addr) (f : SpdIoq → Option (SpdIoq × α)) :
    Option (SpdDeviceExtension × α) := do
  let object ← dx.pool p
  let (ioq, r) ← f object.ioq
  some ({ dx with pool := Function.update dx.pool p (some { object with ioq := ioq }) }, r)

/-! ## Actions -/

inductive UnitAction
  | provision (params : StorageUnitParams) (processId : UInt32) (unitMem : Option Addr)
      (ioqMem : Option SpdIoq)
  | unprovision (key : UnitKey) (processId : UInt32)
  /-- `ProcessId == StorageUnit->OwnerProcessId`, after the lock. -/
  | ownerIs (unit : UnitPtr) (processId : UInt32)
  | referenceByBtl (btl : UInt32)
  | referenceByDevice (deviceObject : Addr)
  | dereference (unit : UnitPtr)
  | free (unit : UnitPtr)
  | getUseBitmap (processId : Option UInt32)
  /-- A read of a field. -/
  | read (unit : UnitPtr)
  | setDevice (unit : UnitPtr) (deviceObject : Addr)
  | setTransactProcessId (unit : UnitPtr) (processId : UInt32)
  | ioqReset (unit : UnitPtr) (stop : Bool)
  | ioqStopped (unit : UnitPtr)
  | ioqCancelSrb (unit : UnitPtr) (srb ext : Addr)
  /-- `SrbExtension->StorageUnit` has been set. -/
  | ioqPostSrb (unit : UnitPtr) (srb ext : Addr)
  | ioqStartProcessingSrb (unit : UnitPtr)
  /-- `status` is what `Complete` returns, should it be called. -/
  | ioqEndProcessingSrb (unit : UnitPtr) (hint : UInt64) (status : UInt8)
  /-- A wait that does not end. -/
  | wait

namespace UnitAction

abbrev Answer : UnitAction → Type
  | .provision .. => NtStatus × UInt32
  | .unprovision .. => Option (UnitPtr × UInt32)
  | .ownerIs .. => Bool
  | .referenceByBtl _ => Option UnitPtr
  | .referenceByDevice _ => Option UnitPtr
  | .dereference _ => Bool
  | .free _ => List IoqCall
  | .getUseBitmap _ => List UInt8 × UInt32
  | .read _ => SpdStorageUnit
  | .setDevice .. => NtStatus
  | .setTransactProcessId .. => Unit
  | .ioqReset .. => List IoqCall × NtStatus
  | .ioqStopped _ => Bool
  | .ioqCancelSrb .. => List IoqCall × NtStatus
  | .ioqPostSrb .. => List IoqCall × NtStatus
  | .ioqStartProcessingSrb _ => List IoqCall × NtStatus
  | .ioqEndProcessingSrb .. => List IoqCall × NtStatus
  | .wait => Unit

/-- The address has been given to another unit. -/
def bump (s : DriverState) (unitMem : Option Addr) (status : NtStatus) : Addr → Nat :=
  match unitMem, status with
  | some p, .success => Function.update s.generation p (s.generation p + 1)
  | _, _ => s.generation

def exec (s : DriverState) : (a : UnitAction) → Option (DriverState × a.Answer)
  | .provision params processId unitMem ioqMem =>
      (spdStorageUnitProvision s.dx params processId unitMem ioqMem).map fun r =>
        ({ s with dx := r.1, generation := bump s unitMem r.2.1 }, r.2)
  | .unprovision key processId =>
      (unprovisionSection s.dx key processId).map fun r =>
        ({ s with dx := r.1 }, r.2.map fun x => (s.ptr x.1, x.2))
  | .ownerIs unit processId =>
      (s.dx.pool unit.addr).map fun object => (s, processId = object.unit.ownerProcessId)
  | .referenceByBtl btl =>
      (spdStorageUnitReferenceByBtl s.dx btl).map fun r => ({ s with dx := r.1 }, r.2.map s.ptr)
  | .referenceByDevice deviceObject =>
      (spdStorageUnitReferenceByDevice s.dx deviceObject).map fun r =>
        ({ s with dx := r.1 }, r.2.map s.ptr)
  | .dereference unit =>
      (dereferenceSection s.dx unit.addr).map fun r => ({ s with dx := r.1 }, r.2)
  | .free unit => (freeUnit s.dx unit.addr).map fun r => ({ s with dx := r.1 }, r.2)
  | .getUseBitmap processId => (spdStorageUnitGetUseBitmap s.dx processId).map fun r => (s, r)
  | .read unit => (s.dx.pool unit.addr).map fun object => (s, object.unit)
  | .setDevice unit deviceObject =>
      (spdStorageUnitSetDevice s.dx unit.addr deviceObject).map fun r => ({ s with dx := r.1 }, r.2)
  | .setTransactProcessId unit processId =>
      (spdIoctlSetTransactProcessIdStore s.dx unit.addr processId).map fun dx =>
        ({ s with dx := dx }, ())
  | .ioqReset unit stop =>
      (onIoq s.dx unit.addr fun ioq => (spdIoqReset ioq stop).map fun r =>
        (r.1, r.2, .success)).map fun r => ({ s with dx := r.1 }, r.2)
  | .ioqStopped unit =>
      (s.dx.pool unit.addr).map fun object => (s, spdIoqStopped object.ioq)
  | .ioqCancelSrb unit srb ext =>
      (onIoq s.dx unit.addr fun ioq => spdIoqCancelSrb ioq srb ext).map fun r =>
        ({ s with dx := r.1 }, r.2)
  | .ioqPostSrb unit srb ext =>
      (onIoq s.dx unit.addr fun ioq => (spdIoqPostSrb ioq srb ext).map fun r =>
        (r.1, [], r.2)).map fun r =>
          ({ s with dx := r.1, storageUnit := Function.update s.storageUnit ext unit }, r.2)
  | .ioqStartProcessingSrb unit =>
      (onIoq s.dx unit.addr fun ioq =>
        (spdIoqStartProcessingSrb (fun _ _ w => some w) ioq ()).map fun r =>
          (r.1, r.2.2)).map fun r => ({ s with dx := r.1 }, r.2)
  | .ioqEndProcessingSrb unit hint status =>
      (onIoq s.dx unit.addr fun ioq =>
        (spdIoqEndProcessingSrb (fun _ _ w => some (status, w)) ioq () hint).map fun r =>
          (r.1, r.2.2, .success)).map fun r => ({ s with dx := r.1 }, r.2)
  | .wait => none

end UnitAction

/-! ## stgunit.c -/

/-- A function that works on units. -/
abbrev Handler := Prog UnitAction UnitAction.Answer

namespace Handler

abbrev action (a : UnitAction) : Handler a.Answer := Prog.perform a

def spdStorageUnitDereference (unit : UnitPtr) : Handler Unit := do
  let delete ← action (.dereference unit)
  if delete then do
    let _ ← action (.read unit)
    let _ ← action (.free unit)
    pure ()
  else pure ()

def spdStorageUnitUnprovision (key : UnitKey) (processId : UInt32) : Handler NtStatus := do
  let found ← action (.unprovision key processId)
  match found with
  | none => pure .objectNameNotFound
  | some (unit, _) => do
      let owner ← action (.ownerIs unit processId)
      if owner then do
        -- stop the ioq and dereference the storage unit
        let _ ← action (.read unit)
        let _ ← action (.ioqReset unit true)
        spdStorageUnitDereference unit
        pure .success
      else pure .accessDenied

/-- `SpdStorageUnitGlobalSetDevice`, with the BTL of the device's SCSI
address. -/
def spdStorageUnitGlobalSetDevice (deviceObject : Addr) (btl : UInt32) : Handler NtStatus := do
  let found ← action (.referenceByBtl btl)
  match found with
  | none => pure .objectNameNotFound
  | some unit => do
      let result ← action (.setDevice unit deviceObject)
      spdStorageUnitDereference unit
      pure result

/-- The loop of `SpdDeviceExtensionNotifyRoutine`, from `i` on. -/
def notifyLoop (processId : UInt32) (bitmap : List UInt8) : Nat → Nat → UInt32 → Handler Unit
  | 0, _, _ => pure ()
  | n + 1, i, count =>
      if 0 < count then
        if flagOn bitmap i then do
          let _ ← spdStorageUnitUnprovision (.index (UInt32.ofNat i)) processId
          notifyLoop processId bitmap n (i + 1) (count - 1)
        else notifyLoop processId bitmap n (i + 1) count
      else pure ()

/-- `SpdDeviceExtensionNotifyRoutine`, called with `Create` false. -/
def spdDeviceExtensionNotifyRoutine (processId : UInt32) : Handler Unit := do
  let (bitmap, count) ← action (.getUseBitmap (some processId))
  notifyLoop processId bitmap (sizeofBitmap * 8) 0 count

/-! ## ioctl.c -/

def spdIoctlProvision (irp : Irp) (params : StorageUnitParams) (unitMem : Option Addr)
    (ioqMem : Option SpdIoq) : Handler NtStatus :=
  if sizeofProvisionParams > irp.inputBufferLength ∨
      sizeofProvisionParams > irp.outputBufferLength then
    pure .invalidParameter
  else if params.Invalid then pure .invalidParameter
  else do
    let (result, _) ← action (.provision params irp.requestorProcessId unitMem ioqMem)
    pure result

def spdIoctlUnprovision (irp : Irp) (guid : Guid) : Handler NtStatus :=
  if sizeofUnprovisionParams > irp.inputBufferLength then pure .invalidParameter
  else spdStorageUnitUnprovision (.guid guid) irp.requestorProcessId

/-- `SpdIoctlGetList`. Room for the BTLs is the buffer's. -/
def spdIoctlGetList (irp : Irp) : Handler NtStatus :=
  if sizeofListParams > irp.inputBufferLength then pure .invalidParameter
  else do
    let (_, count) ← action (.getUseBitmap none)
    if count * 4 > irp.outputBufferLength then pure .bufferTooSmall else pure .success

/-- How mapping user mode's data buffer ends. -/
inductive MapOutcome
  | probeRaised (code : NtStatus)
  | noMdl
  | lockRaised (code : NtStatus)
  | noAddress
  | mapped

def MapOutcome.status : MapOutcome → NtStatus
  | .probeRaised code | .lockRaised code => code
  | .noMdl | .noAddress => .insufficientResources
  | .mapped => .success

/-- The `try` of `SpdIoctlTransact`: it reads `MaxTransferLength` for
`ProbeForWrite` and for `IoAllocateMdl`. The second result is whether the
handler goes on. -/
def mapDataBuffer (unit : UnitPtr) : Option MapOutcome → Handler (NtStatus × Bool)
  | none => pure (.success, true)
  | some (.probeRaised code) => do
      let _ ← action (.read unit)
      pure (code, false)
  | some outcome => do
      let _ ← action (.read unit)
      let _ ← action (.read unit)
      pure (outcome.status, outcome matches .mapped)

/-- The loop that waits for an SRB to arrive. `waits` are the ends of the waits
for the queue's event: `none` is success. -/
def waitForSrb (unit : UnitPtr) : List (Option NtStatus) → Handler NtStatus
  | [] => do
      let _ ← action (.read unit)
      let _ ← action .wait
      pure .cancelled
  | some status :: _ => do
      let _ ← action (.read unit)
      -- a timeout is STATUS_SUCCESS
      pure (if status = .timeout then .success else status)
  | none :: waits => do
      let _ ← action (.read unit)
      let (_, status) ← action (.ioqStartProcessingSrb unit)
      if status = .unsuccessful then do
        let _ ← action (.read unit)
        let stopped ← action (.ioqStopped unit)
        if stopped then pure .cancelled else waitForSrb unit waits
      else pure status

/-- What the environment decides about a service request. `completeStatus` is
what `SpdSrbExecuteScsiComplete` returns. -/
structure ServiceEnv where
  unitMem : Option Addr
  ioqMem : Option SpdIoq
  map : Option MapOutcome
  completeStatus : UInt8
  waits : List (Option NtStatus)

/-- `SpdIoctlTransact` with the unit, up to `exit`. -/
def transactUnit (env : ServiceEnv) (irp : Irp) (reqValid rspValid : Bool) (rsp : TransactRsp)
    (unit : UnitPtr) : Handler NtStatus := do
  let fields ← action (.read unit)
  if irp.requestorProcessId ≠ fields.transactProcessId then pure .accessDenied
  else do
    let (status, ok) ← mapDataBuffer unit env.map
    if ok then do
      if rspValid then do
        let _ ← action (.read unit)
        let _ ← action (.ioqEndProcessingSrb unit rsp.hint env.completeStatus)
        if reqValid then waitForSrb unit env.waits else pure .success
      else if reqValid then waitForSrb unit env.waits
      else pure .success
    else pure status

def spdIoctlTransact (env : ServiceEnv) (irp : Irp) (btl : UInt32) (reqValid rspValid : Bool)
    (dataBuffer : Option (List UInt8)) (rsp : TransactRsp) : Handler NtStatus :=
  if sizeofTransactParams > irp.inputBufferLength ∨
      sizeofTransactParams > irp.outputBufferLength then
    pure .invalidParameter
  else if (!reqValid ∧ !rspValid) ∨ (reqValid ∧ dataBuffer = none) then pure .invalidParameter
  else do
    let found ← action (.referenceByBtl btl)
    match found with
    | none => pure .cancelled
    | some unit => do
        let status ← transactUnit env irp reqValid rspValid rsp unit
        spdStorageUnitDereference unit
        pure status

def spdIoctlSetTransactProcessId (irp : Irp) (btl processId : UInt32) : Handler NtStatus :=
  if sizeofSetTransactPidParams > irp.inputBufferLength then pure .invalidParameter
  else do
    let found ← action (.referenceByBtl btl)
    match found with
    | none => pure .cancelled
    | some unit => do
        action (.setTransactProcessId unit processId)
        spdStorageUnitDereference unit
        pure .success

def spdHwProcessServiceRequest (env : ServiceEnv) (irp : Irp) : Handler NtStatus :=
  match serviceRequest irp with
  | none => pure .invalidParameter
  | some (.provision params) => spdIoctlProvision irp params env.unitMem env.ioqMem
  | some (.unprovision guid) => spdIoctlUnprovision irp guid
  | some .list => spdIoctlGetList irp
  | some (.transact btl reqValid rspValid dataBuffer rsp) =>
      spdIoctlTransact env irp btl reqValid rspValid dataBuffer rsp
  | some (.setTransactPid btl processId) => spdIoctlSetTransactProcessId irp btl processId
  | some .other => pure .invalidParameter

/-- The body of the loops over all units, and of the resets of one. -/
def resetUnit (stop : Bool) (btl : UInt32) : Handler Bool := do
  let found ← action (.referenceByBtl btl)
  match found with
  | none => pure false
  | some unit => do
      let _ ← action (.read unit)
      let _ ← action (.ioqReset unit stop)
      spdStorageUnitDereference unit
      pure true

/-- The loops over the units from `i` on. -/
def resetUnits (stop : Bool) : Nat → Nat → Handler Unit
  | 0, _ => pure ()
  | n + 1, i => do
      let _ ← resetUnit stop (spdIoctlBtl 0 (UInt32.ofNat i) 0)
      resetUnits stop n (i + 1)

def spdHwCompleteServiceIrp (capacity : UInt32) : Handler Unit := resetUnits true capacity.toNat 0

/-! ## io.c, adapter.c -/

def spdHwResetBus (capacity pathId : UInt32) : Handler Bool :=
  if pathId = 0 then do
    resetUnits false capacity.toNat 0
    pure true
  else pure false

/-- `SpdStorageUnitReference`. -/
def spdStorageUnitReference (srb : Srb) : Handler (Option UnitPtr) :=
  action (.referenceByBtl (spdIoctlBtl srb.pathId.toUInt32 srb.targetId.toUInt32 srb.lun.toUInt32))

/-- Reads of a unit's fields. -/
def readFields (unit : UnitPtr) : Nat → Handler Unit
  | 0 => pure ()
  | n + 1 => do
      let _ ← action (.read unit)
      readFields unit n

/-- Does the command get as far as `SpdIoqPostSrb`? It does if it is pending
with a queue that takes it. -/
def postsSrb (storResult : StorStatus) (unit : SpdStorageUnit) (a : Addr) (m : ScsiMem)
    (mem : SpdIoq) : Bool :=
  match Sys.spdSrbExecuteScsi storResult (some unit) a m (spdIoqCreate mem) with
  | some (status, _, _) => srbStatus status = srbStatusPending
  | none => false

/-- An SRB that is started, with the memory it is in. `reads` is how often its
command reads the unit, and `mem` is an empty queue's memory. -/
structure ScsiEnv where
  capacity : UInt32
  storResult : StorStatus
  m : ScsiMem
  mem : SpdIoq
  reads : Nat

/-- `SpdSrbExecuteScsi`, on the units. -/
def spdSrbExecuteScsi (env : ScsiEnv) (a : Addr) : Handler Unit := do
  let found ← spdStorageUnitReference (env.m.srb a)
  match found with
  | none => pure ()
  | some unit => do
      readFields unit env.reads
      let fields ← action (.read unit)
      if postsSrb env.storResult fields a env.m env.mem then do
        let _ ← action (.ioqPostSrb unit a (env.m.srb a).miniportContext)
        spdStorageUnitDereference unit
      else spdStorageUnitDereference unit

def spdSrbAbortCommand (env : ScsiEnv) (a : Addr) : Handler UInt8 := do
  let found ← spdStorageUnitReference (env.m.srb a)
  match found with
  | none => pure srbStatusNoDevice
  | some unit => do
      let _ ← action (.read unit)
      let (_, result) ← action (.ioqCancelSrb unit a (env.m.srb a).miniportContext)
      spdStorageUnitDereference unit
      pure (if ntSuccess result then srbStatusSuccess else srbStatusAbortFailed)

def spdSrbResetBus (env : ScsiEnv) (a : Addr) : Handler UInt8 :=
  if (env.m.srb a).pathId ≠ 0 then pure srbStatusNoDevice
  else do
    let _ ← spdHwResetBus env.capacity 0
    pure srbStatusSuccess

/-- The reset of one unit. -/
def resetStatus (btl : UInt32) : Handler UInt8 := do
  let found ← resetUnit false btl
  pure (if found then srbStatusSuccess else srbStatusNoDevice)

def spdSrbResetDevice (env : ScsiEnv) (a : Addr) : Handler UInt8 :=
  resetStatus (spdIoctlBtl (env.m.srb a).pathId.toUInt32 (env.m.srb a).targetId.toUInt32 0)

def spdSrbResetLogicalUnit (env : ScsiEnv) (a : Addr) : Handler UInt8 :=
  resetStatus (spdIoctlBtl (env.m.srb a).pathId.toUInt32 (env.m.srb a).targetId.toUInt32
    (env.m.srb a).lun.toUInt32)

/-- `SpdHwStartIo`, on the units: the other functions do not touch one. -/
def spdHwStartIo (env : ScsiEnv) (a : Addr) : Handler Unit :=
  if (env.m.srb a).function = srbFunctionExecuteScsi then spdSrbExecuteScsi env a
  else if (env.m.srb a).function = srbFunctionAbortCommand then do
    let _ ← spdSrbAbortCommand env a
    pure ()
  else if (env.m.srb a).function = srbFunctionResetBus then do
    let _ ← spdSrbResetBus env a
    pure ()
  else if (env.m.srb a).function = srbFunctionResetDevice then do
    let _ ← spdSrbResetDevice env a
    pure ()
  else if (env.m.srb a).function = srbFunctionResetLogicalUnit then do
    let _ ← spdSrbResetLogicalUnit env a
    pure ()
  else pure ()

/-! ## dispatch.c -/

/-- `SpdDispatchPnp` on `IRP_MN_REMOVE_DEVICE`. -/
def spdDispatchPnpRemove (deviceObject : Addr) : Handler Unit := do
  let found ← action (.referenceByDevice deviceObject)
  match found with
  | none => pure ()
  | some unit => do
      let provisionGuid ← action (.read unit)
      let provisionPid ← action (.read unit)
      spdStorageUnitDereference unit
      if provisionPid.ownerProcessId = -1 then pure ()
      else do
        let _ ← spdStorageUnitUnprovision (.guid provisionGuid.storageUnitParams.guid)
          provisionPid.ownerProcessId
        pure ()

/-- What a thread of the driver runs. -/
inductive Entry : Handler Unit → Prop
  | serviceRequest (env : ServiceEnv) (irp : Irp) :
      Entry (spdHwProcessServiceRequest env irp >>= fun _ => pure ())
  | completeServiceIrp (capacity : UInt32) : Entry (spdHwCompleteServiceIrp capacity)
  | startIo (env : ScsiEnv) (a : Addr) : Entry (spdHwStartIo env a)
  | resetBus (capacity pathId : UInt32) :
      Entry (spdHwResetBus capacity pathId >>= fun _ => pure ())
  | setDevice (deviceObject : Addr) (btl : UInt32) :
      Entry (spdStorageUnitGlobalSetDevice deviceObject btl >>= fun _ => pure ())
  | removeDevice (deviceObject : Addr) : Entry (spdDispatchPnpRemove deviceObject)
  | processExit (processId : UInt32) : Entry (spdDeviceExtensionNotifyRoutine processId)

end Handler

end Winspd.Sys
