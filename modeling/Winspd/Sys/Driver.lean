import Mathlib.Algebra.GroupWithZero.Nat
import Mathlib.Logic.Function.Basic

/-!
# The driver's data: `driver.h`, `ioctl.h`, `srbcompat.h`

Addresses are those of the 64-bit build, null is `0`, and `SpdHashMixPointer`
is its 64-bit branch. `ULONG` and `UINT32` are `UInt32`, `UINT64` is `UInt64`,
`UCHAR` is `UInt8`; a one-bit field is a `Bool`.

A byte buffer is the list of its bytes. A pointer to a buffer that may be null
is an `Option`. The part of the WDK the driver relies on is written down where
it is used: the SRB status byte and its flags, the CDB as sixteen bytes, and
the queue event of `SPD_QEVENT`, which is one token.
-/

namespace Winspd.Sys

abbrev Addr := UInt64

/-! ## Status codes -/

/-- The `NTSTATUS` values the driver returns. -/
inductive NtStatus
  | success
  | timeout
  | unsuccessful
  | cancelled
  | invalidParameter
  | insufficientResources
  | accessDenied
  | objectNameCollision
  | objectNameNotFound
  | cannotMake
  | bufferTooSmall
  | notImplemented
  | invalidDeviceRequest
  | invalidDeviceState
  | invalidBufferSize
  deriving DecidableEq, Repr

/-- `NT_SUCCESS`: success and informational values, `STATUS_TIMEOUT` included. -/
def ntSuccess : NtStatus → Bool
  | .success | .timeout => true
  | _ => false

/-- The `STOR_STATUS` values of `StorPortGetSystemAddress`. -/
inductive StorStatus
  | success
  | unsuccessful
  | notImplemented
  | insufficientResources
  | bufferTooSmall
  | accessDenied
  | invalidParameter
  | invalidDeviceRequest
  | invalidIrql
  | invalidDeviceState
  | invalidBufferSize
  | unsupportedVersion
  | busy
  deriving DecidableEq, Repr

def srbStatusPending : UInt8 := 0x00
def srbStatusSuccess : UInt8 := 0x01
def srbStatusAborted : UInt8 := 0x02
def srbStatusAbortFailed : UInt8 := 0x03
def srbStatusError : UInt8 := 0x04
def srbStatusInvalidRequest : UInt8 := 0x06
def srbStatusNoDevice : UInt8 := 0x08
def srbStatusDataOverrun : UInt8 := 0x12
def srbStatusInternalError : UInt8 := 0x30
def srbStatusQueueFrozen : UInt8 := 0x40
def srbStatusAutosenseValid : UInt8 := 0x80

/-- `SRB_STATUS`: the status byte without its two flags. -/
def srbStatus (status : UInt8) : UInt8 :=
  status &&& ~~~(srbStatusAutosenseValid ||| srbStatusQueueFrozen)

def scsistatGood : UInt8 := 0x00
def scsistatCheckCondition : UInt8 := 0x02

/-! ## Storage units -/

structure Guid where
  data1 : UInt32
  data2 : UInt16
  data3 : UInt16
  data4 : Vector UInt8 8
  deriving DecidableEq, Repr

/-- The all-zero GUID, `NullGuid`. -/
def nullGuid : Guid := ⟨0, 0, 0, Vector.replicate 8 0⟩

/-- `SPD_IOCTL_STORAGE_UNIT_PARAMS`, without its reserved words. -/
structure StorageUnitParams where
  guid : Guid
  blockCount : UInt64
  blockLength : UInt32
  productId : Vector UInt8 16
  productRevisionLevel : Vector UInt8 4
  deviceType : UInt8
  writeProtected : Bool
  cacheSupported : Bool
  unmapSupported : Bool
  ejectDisabled : Bool
  maxTransferLength : UInt32
  deriving DecidableEq, Repr

/-- All fields zero, as `RtlZeroMemory` leaves them. -/
def StorageUnitParams.zero : StorageUnitParams :=
  ⟨nullGuid, 0, 0, Vector.replicate 16 0, Vector.replicate 4 0, 0, false, false,
    false, false, 0⟩

/-- `SPD_STORAGE_UNIT`, without the pointer to its queue. -/
structure SpdStorageUnit where
  refCount : UInt32
  storageUnitParams : StorageUnitParams
  serialNumber : Vector UInt8 36
  ownerProcessId : UInt32
  deviceObject : Addr
  transactProcessId : UInt32
  deriving DecidableEq, Repr

/-- `SPD_IOCTL_BTL` and its projections. -/
def spdIoctlBtl (b t l : UInt32) : UInt32 := b <<< 16 ||| t <<< 8 ||| l
def spdIoctlBtlB (btl : UInt32) : UInt32 := btl >>> 16 &&& 0xff
def spdIoctlBtlT (btl : UInt32) : UInt32 := btl >>> 8 &&& 0xff
def spdIoctlBtlL (btl : UInt32) : UInt32 := btl &&& 0xff

/-- `SPD_INDEX_FROM_BTL`. -/
def spdIndexFromBtl (btl : UInt32) : UInt32 := spdIoctlBtlT btl

/-- `SPD_BTL_FROM_INDEX`. -/
def spdBtlFromIndex (index : UInt32) : UInt32 := spdIoctlBtl 0 index 0

def spdIoctlStorageUnitCapacity : UInt32 := 16
def spdIoctlStorageUnitMaxCapacity : UInt32 := 64

/-! ## Requests and responses -/

/-- `SPD_IOCTL_TRANSACT_REQ::Op`, tagged by the request's `Kind`. -/
inductive TransactOp
  | reserved
  | read (blockAddress : UInt64) (blockCount : UInt32) (forceUnitAccess : Bool)
  | write (blockAddress : UInt64) (blockCount : UInt32) (forceUnitAccess : Bool)
  | flush (blockAddress : UInt64) (blockCount : UInt32)
  | unmap (count : UInt32)
  deriving DecidableEq, Repr

/-- `SPD_IOCTL_TRANSACT_REQ`. -/
structure TransactReq where
  hint : UInt64
  op : TransactOp
  deriving DecidableEq, Repr

/-- The request `SpdIoctlTransact` zeroes before it waits. -/
def TransactReq.zero : TransactReq := ⟨0, .reserved⟩

/-- `SPD_IOCTL_STORAGE_UNIT_STATUS`, without its reserved fields. -/
structure StorageUnitStatus where
  scsiStatus : UInt8
  senseKey : UInt8
  asc : UInt8
  ascq : UInt8
  information : UInt64
  informationValid : Bool
  deriving DecidableEq, Repr

/-- `SPD_IOCTL_TRANSACT_RSP`. The driver does not read its `Kind`. -/
structure TransactRsp where
  hint : UInt64
  kind : UInt8
  status : StorageUnitStatus
  deriving DecidableEq, Repr

/-! ## SRBs -/

abbrev Cdb := Vector UInt8 16

instance sixteen_neZero : NeZero 16 := ⟨by decide⟩

/-- `CDB::AsByte`. -/
def Cdb.asByte (cdb : Cdb) (i : Fin 16) : UInt8 := cdb.get i

/-- The fields of a `SCSI_REQUEST_BLOCK` the driver reads or writes, the SRB that
an abort is for, and the two fields it reads of a `SCSI_PNP_REQUEST_BLOCK`. -/
structure Srb where
  function : UInt8
  pathId : UInt8
  targetId : UInt8
  lun : UInt8
  cdb : Cdb
  dataBuffer : Option (List UInt8)
  dataTransferLength : UInt32
  senseInfoBuffer : Option (List UInt8)
  senseInfoBufferLength : UInt8
  srbFlags : UInt32
  srbStatus : UInt8
  scsiStatus : UInt8
  systemStatus : NtStatus
  miniportContext : Addr
  nextSrb : Addr
  pnpAction : UInt32
  srbPnPFlags : UInt32
  deriving DecidableEq, Repr

/-- The part of `SPD_SRB_EXTENSION` the SCSI code owns. The rest, `ListEntry`,
`HashNext` and `Srb`, belongs to the queue (`SpdIoq`). `systemDataBuffer` is
the address of the SRB whose data buffer it maps. -/
structure SrbExtension where
  storageUnit : StorageUnitParams
  systemDataBuffer : Addr
  systemDataLength : UInt32
  chunkOffset : UInt32
  deriving DecidableEq, Repr

def SrbExtension.zero : SrbExtension := ⟨.zero, 0, 0, 0⟩

/-! ## Hash mix -/

def spdHashMix64 (k : UInt64) : UInt64 :=
  let k := k ^^^ k >>> 33
  let k := k * 0xff51afd7ed558ccd
  let k := k ^^^ k >>> 33
  let k := k * 0xc4ceb9fe1a85ec53
  k ^^^ k >>> 33

def spdHashMixPointer (pointer : Addr) : UInt32 := (spdHashMix64 pointer).toUInt32

/-! ## Queued events

`SPD_QEVENT` is a kernel queue that holds at most its one dummy entry, which
makes it an auto-reset event: setting it twice is setting it once, and a wait
that succeeds takes the entry out. -/

/-- `SpdQeventSetNoLock`: insert the dummy entry unless it is there. -/
def spdQeventSetNoLock (qevent : Bool) : Bool := if qevent = false then true else qevent

@[simp] theorem spdQeventSetNoLock_eq (qevent : Bool) : spdQeventSetNoLock qevent = true := by
  cases qevent <;> rfl

/-- `SpdQeventWait`: the state after a successful wait, `none` while the wait
blocks. -/
def spdQeventWait (qevent : Bool) : Option Bool := if qevent then some false else none

end Winspd.Sys
