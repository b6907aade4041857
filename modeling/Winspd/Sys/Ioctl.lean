import Winspd.Sys.Scsi
import Winspd.Sys.Stgunit

/-!
# Service requests: `ioctl.c`

A service request is the buffer an IRP carries, read by its code. `PROVISION`
and `UNPROVISION` are one call of `stgunit.c` each, and so is `LIST`, which puts
the bits of the bitmap into that buffer as BTLs. `TRANSACT` and
`SET_TRANSACT_PID` hold a reference to a unit while they work on it, and other
requests run in between, so that they are given by their pieces: what leads to
the reference, the access check or the store, and the dereference at the end.
The queue's part of `TRANSACT` is `spdIoqEndProcessingSrb` with
`spdSrbExecuteScsiComplete`, then `spdIoqStartProcessingSrb` with
`spdSrbExecuteScsiPrepare`.
-/

namespace Winspd.Sys

open Winspd.Lib

/-- The parameters of a service request, by its code. A data buffer is user
mode's own, which the driver has mapped. -/
inductive IoctlParams
  | provision (storageUnitParams : StorageUnitParams)
  | unprovision (guid : Guid)
  | list
  | transact (btl : UInt32) (reqValid rspValid : Bool) (dataBuffer : Option (List UInt8))
      (rsp : TransactRsp)
  | setTransactPid (btl : UInt32) (processId : UInt32)
  | other
  deriving DecidableEq, Repr

/-- The fields of an `IRP` the driver reads. `size` is the buffer's own
`Base.Size`. -/
structure Irp where
  inputBufferLength : UInt32
  outputBufferLength : UInt32
  size : UInt16
  systemBuffer : Option IoctlParams
  requestorProcessId : UInt32
  deriving DecidableEq, Repr

def sizeofBaseParams : UInt32 := 8
def sizeofProvisionParams : UInt32 := 136
def sizeofUnprovisionParams : UInt32 := 24
def sizeofTransactParams : UInt32 := 72
def sizeofSetTransactPidParams : UInt32 := 16

def sizeofUnmapDescriptor : UInt32 := 16
def directAccessDevice : UInt8 := 0x00

/-- `SpdHwProcessServiceRequest` before its switch: the parameters, or
`STATUS_INVALID_PARAMETER`. -/
def serviceRequest (irp : Irp) : Option IoctlParams :=
  match irp.systemBuffer with
  | none => none
  | some params =>
      if sizeofBaseParams > irp.inputBufferLength ∨ irp.size.toUInt32 > irp.inputBufferLength then
        none
      else some params

/-! ## Provision and unprovision -/

/-- The parameters `SpdIoctlProvision` turns down. -/
def StorageUnitParams.Invalid (params : StorageUnitParams) : Prop :=
  nullGuid = params.guid ∨ params.blockCount = 0 ∨
  sizeofUnmapDescriptor > params.blockLength ∨
    directAccessDevice ≠ params.deviceType ∨ params.maxTransferLength = 0 ∨
    params.maxTransferLength % params.blockLength ≠ 0

instance (params : StorageUnitParams) : Decidable params.Invalid := by
  unfold StorageUnitParams.Invalid
  infer_instance

/-- `SpdIoctlProvision`. The last result is the BTL of the answer. -/
def spdIoctlProvision (dx : SpdDeviceExtension) (irp : Irp) (params : StorageUnitParams)
    (unitMem : Option Addr) (ioqMem : Option SpdIoq) :
    Option (SpdDeviceExtension × NtStatus × UInt32) :=
  if sizeofProvisionParams > irp.inputBufferLength ∨
      sizeofProvisionParams > irp.outputBufferLength then
    some (dx, .invalidParameter, -1)
  else if params.Invalid then some (dx, .invalidParameter, -1)
  else spdStorageUnitProvision dx params irp.requestorProcessId unitMem ioqMem

/-- `SpdIoctlUnprovision`, up to the dereference. -/
def spdIoctlUnprovision (dx : SpdDeviceExtension) (irp : Irp) (guid : Guid) :
    Option (SpdDeviceExtension × NtStatus × Option Addr × List IoqCall) :=
  if sizeofUnprovisionParams > irp.inputBufferLength then some (dx, .invalidParameter, none, [])
  else spdStorageUnitUnprovision dx (.guid guid) irp.requestorProcessId

/-! ## List -/

def sizeofListParams : UInt32 := 8

/-- The loop of `SpdIoctlGetList`, `n` rounds from `i` on. `btlP` and `btlEnd`
are `BtlP` and `BtlEndP` in bytes from `BtlBgnP`, and `buf` is the system
buffer. -/
def getListScan (bitmap : List UInt8) (btlEnd : Nat) :
    Nat → Nat → UInt32 → Nat → List UInt8 → Option (NtStatus × Nat × List UInt8)
  | _, 0, _, btlP, buf => some (.success, btlP, buf)
  | i, n + 1, count, btlP, buf =>
      if 0 < count then
        if flagOn bitmap i then
          if btlP + 4 > btlEnd then some (.bufferTooSmall, btlP, buf)
          else do
            let buf ← writeAt buf btlP (toLe 4 (spdBtlFromIndex (UInt32.ofNat i)).toNat)
            getListScan bitmap btlEnd (i + 1) n (count - 1) (btlP + 4) buf
        else getListScan bitmap btlEnd (i + 1) n count btlP buf
      else some (.success, btlP, buf)

/-- `SpdIoctlGetList`: the status, the information when it is set, and the
system buffer. -/
def spdIoctlGetList (dx : SpdDeviceExtension) (irp : Irp) (buf : List UInt8) :
    Option (NtStatus × Option Nat × List UInt8) :=
  if sizeofListParams > irp.inputBufferLength then some (.invalidParameter, none, buf)
  else do
    let (bitmap, count) ← spdStorageUnitGetUseBitmap dx none
    let (status, btlP, buf) ←
      getListScan bitmap irp.outputBufferLength.toNat 0 (sizeofBitmap * 8) count 0 buf
    some (status, if status = .success then some btlP else none, buf)

/-! ## Transact -/

/-- `SpdIoctlTransact` up to its reference to the unit. -/
def spdIoctlTransactReference (dx : SpdDeviceExtension) (irp : Irp) (btl : UInt32)
    (reqValid rspValid : Bool) (dataBuffer : Option (List UInt8)) :
    Option (SpdDeviceExtension × NtStatus × Option Addr) :=
  if sizeofTransactParams > irp.inputBufferLength ∨
      sizeofTransactParams > irp.outputBufferLength then
    some (dx, .invalidParameter, none)
  else if (!reqValid ∧ !rspValid) ∨ (reqValid ∧ dataBuffer = none) then
    some (dx, .invalidParameter, none)
  else do
    let (dx, storageUnit) ← spdStorageUnitReferenceByBtl dx btl
    match storageUnit with
    | none => some (dx, .cancelled, none)
    | some p => some (dx, .success, some p)

/-- The access check of `SpdIoctlTransact`, on the unit it holds. -/
def spdIoctlTransactAccess (dx : SpdDeviceExtension) (p : Addr) (processId : UInt32) :
    Option NtStatus := do
  let object ← dx.pool p
  some (if processId ≠ object.unit.transactProcessId then .accessDenied else .success)

/-- `SpdIoctlSetTransactProcessId` up to its reference to the unit. -/
def spdIoctlSetTransactProcessIdReference (dx : SpdDeviceExtension) (irp : Irp) (btl : UInt32) :
    Option (SpdDeviceExtension × NtStatus × Option Addr) :=
  if sizeofSetTransactPidParams > irp.inputBufferLength then some (dx, .invalidParameter, none)
  else do
    let (dx, storageUnit) ← spdStorageUnitReferenceByBtl dx btl
    match storageUnit with
    | none => some (dx, .cancelled, none)
    | some p => some (dx, .success, some p)

/-- The store of `SpdIoctlSetTransactProcessId`, on the unit it holds. -/
def spdIoctlSetTransactProcessIdStore (dx : SpdDeviceExtension) (p : Addr) (processId : UInt32) :
    Option SpdDeviceExtension := do
  let object ← dx.pool p
  some
    { dx with
      pool := Function.update dx.pool p
        (some { object with unit := { object.unit with transactProcessId := processId } }) }

end Winspd.Sys
