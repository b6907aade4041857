import Winspd.Sys.Ioctl

/-!
# User mode: `shared/ioctl.c` and `shared/stgunit.c`

What the library sends to the driver. Each function of `shared/ioctl.c` is the
IRP its `DeviceIoControl` becomes. A storage unit object of `shared/stgunit.c`
that was made with the driver transport keeps the parameters it was created
with and the BTL the driver gave it, and everything it asks of the driver is
addressed by these.
-/

namespace Winspd.Sys.Shared

open Winspd.Sys

/-- The response of `SPD_IOCTL_TRANSACT_PARAMS` while `RspValid` is zero. -/
def zeroRsp : TransactRsp := ⟨0, 0, ⟨0, 0, 0, 0, 0, false⟩⟩

def spdIoctlProvision (processId : UInt32) (storageUnitParams : StorageUnitParams) : Irp where
  inputBufferLength := sizeofProvisionParams
  outputBufferLength := sizeofProvisionParams
  size := sizeofProvisionParams.toUInt16
  systemBuffer := some (.provision storageUnitParams)
  requestorProcessId := processId

def spdIoctlUnprovision (processId : UInt32) (guid : Guid) : Irp where
  inputBufferLength := sizeofUnprovisionParams
  outputBufferLength := 0
  size := sizeofUnprovisionParams.toUInt16
  systemBuffer := some (.unprovision guid)
  requestorProcessId := processId

/-- `rsp` and `req` are null pointers when they are not passed. -/
def spdIoctlTransact (processId btl : UInt32) (rsp : Option TransactRsp) (req : Bool)
    (dataBuffer : Option (List UInt8)) : Irp where
  inputBufferLength := sizeofTransactParams
  outputBufferLength := sizeofTransactParams
  size := sizeofTransactParams.toUInt16
  systemBuffer := some (.transact btl req rsp.isSome dataBuffer (rsp.getD zeroRsp))
  requestorProcessId := processId

def spdIoctlSetTransactProcessId (processId btl transactProcessId : UInt32) : Irp where
  inputBufferLength := sizeofSetTransactPidParams
  outputBufferLength := 0
  size := sizeofSetTransactPidParams.toUInt16
  systemBuffer := some (.setTransactPid btl transactProcessId)
  requestorProcessId := processId

def scsiIoctlDataOut : UInt8 := 0
def scsiIoctlDataIn : UInt8 := 1
def scsiIoctlDataUnspecified : UInt8 := 2
def sizeofScsiPassThroughDirect : UInt16 := 56
def sizeofSenseInfoBuffer : UInt8 := 32

/-- `SCSI_PASS_THROUGH_DIRECT`. -/
structure ScsiPassThroughDirect where
  length : UInt16
  pathId : UInt8
  targetId : UInt8
  lun : UInt8
  cdbLength : UInt8
  senseInfoLength : UInt8
  dataIn : UInt8
  dataTransferLength : UInt32
  timeOutValue : UInt32
  dataBuffer : Option (List UInt8)
  senseInfoOffset : UInt32
  cdb : Cdb

/-- The switch over the group of the operation code. -/
def cdbLength (cdb : Cdb) : Option UInt8 :=
  let group := cdb.asByte 0 &&& 0xe0
  if group = 0x00 then some 6
  else if group = 0x20 ∨ group = 0x40 then some 10
  else if group = 0x80 then some 16
  else if group = 0xa0 then some 12
  else none

/-- What `SpdIoctlScsiExecute` passes through, or it fails with
`ERROR_INVALID_PARAMETER`. -/
def spdIoctlScsiExecute (btl : UInt32) (cdb : Cdb) (dataDirection : Int)
    (dataBuffer : Option (List UInt8)) (dataLength : Option UInt32) :
    Option ScsiPassThroughDirect :=
  (cdbLength cdb).map fun cdbLength =>
    { length := sizeofScsiPassThroughDirect
      pathId := (btl >>> 16).toUInt8
      targetId := (btl >>> 8).toUInt8
      lun := btl.toUInt8
      cdbLength := cdbLength
      senseInfoLength := sizeofSenseInfoBuffer
      dataIn :=
        if 0 < dataDirection then scsiIoctlDataIn
        else if 0 > dataDirection then scsiIoctlDataOut
        else scsiIoctlDataUnspecified
      dataTransferLength := dataLength.getD 0
      timeOutValue := 10
      dataBuffer := dataBuffer
      senseInfoOffset := 64
      cdb := cdb }

/-! ## Storage unit objects -/

/-- `SPD_STORAGE_UNIT` of user mode, on a device handle. -/
structure StorageUnit where
  storageUnitParams : StorageUnitParams
  btl : UInt32

/-- `SpdStorageUnitHandleOpen`, once the device is open. -/
def spdStorageUnitHandleOpen (processId : UInt32) (storageUnitParams : StorageUnitParams) : Irp :=
  spdIoctlProvision processId storageUnitParams

/-- `SpdStorageUnitHandleTransact`. -/
def spdStorageUnitHandleTransact (processId : UInt32) (storageUnit : StorageUnit)
    (rsp : Option TransactRsp) (req : Bool) (dataBuffer : Option (List UInt8)) : Irp :=
  spdIoctlTransact processId storageUnit.btl rsp req dataBuffer

/-- `SpdStorageUnitHandleShutdown`. -/
def spdStorageUnitHandleShutdown (processId : UInt32) (storageUnit : StorageUnit) : Irp :=
  spdIoctlUnprovision processId storageUnit.storageUnitParams.guid

end Winspd.Sys.Shared
