import Winspd.Sys.ScsiData

/-!
# StartIo: `io.c`, and the dispatch of `scsi.c`

`SpdHwStartIo`, as one storage unit sees it: a `Disk` is the unit with its bus
address, and `ioq` is its queue. An SRB that is addressed elsewhere finds no
unit here. What the call completes, be it the SRB itself or the ones a reset
takes out of the queue, is the list of calls it returns.
-/

namespace Winspd.Sys

open Winspd.Lib

def srbFunctionExecuteScsi : UInt8 := 0x00
def srbFunctionShutdown : UInt8 := 0x07
def srbFunctionFlush : UInt8 := 0x08
def srbFunctionAbortCommand : UInt8 := 0x10
def srbFunctionResetBus : UInt8 := 0x12
def srbFunctionResetDevice : UInt8 := 0x13
def srbFunctionWmi : UInt8 := 0x17
def srbFunctionResetLogicalUnit : UInt8 := 0x20
def srbFunctionPnp : UInt8 := 0x25

def serviceActionReadCapacity16 : UInt8 := 0x10

/-- `SpdSrbExecuteScsi`. -/
def spdSrbExecuteScsi (storResult : StorStatus) (storageUnit : Option SpdStorageUnit) (a : Addr)
    (m : ScsiMem) (ioq : SpdIoq) : Option ScsiResult :=
  let srb := m.srb a
  match storageUnit with
  | none =>
      if srb.cdb.asByte 0 = scsiopReportLuns then
        (spdScsiReportLuns none srb).map (srbResult a m ioq)
      else some (srbStatusNoDevice, m, ioq)
  | some unit =>
      match scsiOp srb.cdb with
      | .reportLuns => (spdScsiReportLuns (some unit) srb).map (srbResult a m ioq)
      | .testUnitReady => some (srbStatusSuccess, m, ioq)
      | .inquiry => (spdScsiInquiry unit srb).map (srbResult a m ioq)
      | .modeSense => (spdScsiModeSense unit srb).map (srbResult a m ioq)
      | .readCapacity => (spdScsiReadCapacity unit srb).map (srbResult a m ioq)
      | .read | .write | .synchronizeCache =>
          spdScsiPostRangeSrb storResult unit.storageUnitParams a m ioq
      | .unmap => spdScsiPostUnmapSrb storResult unit.storageUnitParams a m ioq
      | .serviceActionIn16 =>
          if srb.cdb.asByte 1 &&& 0x1f = serviceActionReadCapacity16 then
            (spdScsiReadCapacity unit srb).map (srbResult a m ioq)
          else some (srbStatusInvalidRequest, m, ioq)
      | .other => some (srbStatusInvalidRequest, m, ioq)

/-! ## The other functions -/

/-- A storage unit and the bus, target and LUN it was given. -/
structure Disk where
  btl : UInt32
  unit : SpdStorageUnit

/-- `SpdStorageUnitReferenceByBtl`, for this unit. -/
def Disk.referenceByBtl (disk : Disk) (btl : UInt32) : Option SpdStorageUnit :=
  if btl = disk.btl then some disk.unit else none

/-- `SpdStorageUnitReference`. -/
def Disk.reference (disk : Disk) (srb : Srb) : Option SpdStorageUnit :=
  disk.referenceByBtl (spdIoctlBtl srb.pathId.toUInt32 srb.targetId.toUInt32 srb.lun.toUInt32)

/-- The SRB status, the memory, the queue, and what was completed. -/
abbrev SrbResult := UInt8 × ScsiMem × SpdIoq × List IoqCall

/-- `SrbGetNextSrb`: the SRB that an abort is for. -/
def srbGetNextSrb (srb : Srb) : Addr := srb.nextSrb

/-- `SpdSrbAbortCommand`. -/
def spdSrbAbortCommand (disk : Disk) (a : Addr) (m : ScsiMem) (ioq : SpdIoq) :
    Option SrbResult :=
  match disk.reference (m.srb a) with
  | none => some (srbStatusNoDevice, m, ioq, [])
  | some _ => do
      let (ioq, calls, result) ← spdIoqCancelSrb ioq a (m.srb a).miniportContext
      some
        (if ntSuccess result then srbStatusSuccess else srbStatusAbortFailed, m, ioq, calls)

/-- `SpdIoqReset(StorageUnit->Ioq, FALSE)` and success. -/
def resetQueue (m : ScsiMem) (ioq : SpdIoq) : Option SrbResult := do
  let (ioq, calls) ← spdIoqReset ioq false
  some (srbStatusSuccess, m, ioq, calls)

/-- `SpdSrbResetBus`. `SpdHwResetBus` resets the queue of every unit. -/
def spdSrbResetBus (a : Addr) (m : ScsiMem) (ioq : SpdIoq) : Option SrbResult :=
  if (m.srb a).pathId ≠ 0 then some (srbStatusNoDevice, m, ioq, []) else resetQueue m ioq

/-- `SpdSrbResetDevice`. The SRB's LUN is not valid. -/
def spdSrbResetDevice (disk : Disk) (a : Addr) (m : ScsiMem) (ioq : SpdIoq) : Option SrbResult :=
  let srb := m.srb a
  match disk.referenceByBtl (spdIoctlBtl srb.pathId.toUInt32 srb.targetId.toUInt32 0) with
  | none => some (srbStatusNoDevice, m, ioq, [])
  | some _ => resetQueue m ioq

/-- `SpdSrbResetLogicalUnit`. -/
def spdSrbResetLogicalUnit (disk : Disk) (a : Addr) (m : ScsiMem) (ioq : SpdIoq) :
    Option SrbResult :=
  match disk.reference (m.srb a) with
  | none => some (srbStatusNoDevice, m, ioq, [])
  | some _ => resetQueue m ioq

/-- `SpdSrbFlush`: must have already received SYNCHRONIZE CACHE. -/
def spdSrbFlush : UInt8 := srbStatusSuccess

/-- `SpdSrbShutdown`. -/
def spdSrbShutdown : UInt8 := srbStatusSuccess

/-- `SpdSrbWmi`. -/
def spdSrbWmi : UInt8 := srbStatusInvalidRequest

def storQueryCapabilities : UInt32 := 0x9
def srbPnpFlagsAdapterRequest : UInt32 := 0x1

/-- `SpdSrbPnp`. The capabilities are three bits of the second half of
`STOR_DEVICE_CAPABILITIES`. -/
def spdSrbPnp (srb : Srb) : Option (UInt8 × Srb) :=
  if srb.pnpAction = storQueryCapabilities ∧
    srb.srbPnPFlags &&& srbPnpFlagsAdapterRequest = 0 then
    match srb.dataBuffer with
    | none => some (srbStatusInvalidRequest, srb)
    | some buf =>
        if srb.dataTransferLength < 8 then some (srbStatusInvalidRequest, srb)
        else do
          let bits ← readAt buf 4 2
          let buf ← writeAt buf 4 [bits.getD 0 0 ||| 0x90, bits.getD 1 0 ||| 0x01]
          some (srbStatusSuccess, { srb with dataBuffer := some buf })
  else some (srbStatusInvalidRequest, srb)

/-! ## SpdHwStartIo -/

/-- The first switch of `SpdHwStartIo`. -/
def startIoDispatch (storResult : StorStatus) (disk : Disk) (a : Addr) (m : ScsiMem)
    (ioq : SpdIoq) : Option SrbResult :=
  let srb := m.srb a
  if srb.function = srbFunctionExecuteScsi then do
    let (srbStatus, m, ioq) ← spdSrbExecuteScsi storResult (disk.reference srb) a m ioq
    some (srbStatus, m, ioq, [])
  else if srb.function = srbFunctionAbortCommand then spdSrbAbortCommand disk a m ioq
  else if srb.function = srbFunctionResetBus then spdSrbResetBus a m ioq
  else if srb.function = srbFunctionResetDevice then spdSrbResetDevice disk a m ioq
  else if srb.function = srbFunctionResetLogicalUnit then spdSrbResetLogicalUnit disk a m ioq
  else if srb.function = srbFunctionFlush then some (spdSrbFlush, m, ioq, [])
  else if srb.function = srbFunctionShutdown then some (spdSrbShutdown, m, ioq, [])
  else if srb.function = srbFunctionPnp then do
    let (srbStatus, srb) ← spdSrbPnp srb
    some (srbStatus, m.setSrb a srb, ioq, [])
  else if srb.function = srbFunctionWmi then some (spdSrbWmi, m, ioq, [])
  else some (srbStatusInvalidRequest, m, ioq, [])

/-- `SpdHwStartIo`: dispatch, and complete the SRB unless it is pending. -/
def spdHwStartIo (storResult : StorStatus) (disk : Disk) (a : Addr) (m : ScsiMem)
    (ioq : SpdIoq) : Option (ScsiMem × SpdIoq × List IoqCall) := do
  let (status, m, ioq, calls) ← startIoDispatch storResult disk a m ioq
  if srbStatus status = srbStatusPending then some (m, ioq, calls)
  else
    let m :=
      if srbStatus status = srbStatusInternalError ∧ (m.srb a).systemStatus = .success then
        m.setSrb a { m.srb a with systemStatus := .invalidParameter }
      else m
    some (m, ioq, calls ++ [.srbComplete a status])

end Winspd.Sys
