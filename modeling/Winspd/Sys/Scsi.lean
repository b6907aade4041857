import Winspd.Lib.Bytes
import Winspd.Sys.Ioq

/-!
# SCSI commands that go through the queue: `scsi.c`

A READ, WRITE or SYNCHRONIZE CACHE is checked and posted by
`SpdScsiPostRangeSrb`, an UNMAP by `SpdScsiPostUnmapSrb`. The request user mode
gets is made later, under the queue's lock, by `SpdSrbExecuteScsiPrepare`, from
the CDB and the SRB extension; its answer is taken in by
`SpdSrbExecuteScsiComplete`. A transfer longer than the unit's
`MaxTransferLength` is made of chunks: `ChunkOffset` in the extension is how far
it got, and the SRB goes round the queue once for each.

`ScsiMem` is the memory these functions work on, the SRBs and the extensions.
An extension's `SystemDataBuffer` is another mapping of the data buffer of an
SRB, so it is that SRB's address, or null. `none` is a machine that stopped: a
read or write through null or outside a buffer, a division by zero, or a
variable used that was never set.

What the driver asks of StorPort is passed in: the status
`StorPortGetSystemAddress` returns.
-/

namespace Winspd.Sys

open Winspd.Lib

/-! ## Commands -/

/-- The cases of the switches over the operation code. -/
inductive ScsiOp
  | read
  | write
  | synchronizeCache
  | unmap
  | reportLuns
  | testUnitReady
  | inquiry
  | modeSense
  | readCapacity
  | serviceActionIn16
  | other
  deriving DecidableEq, Repr

def scsiopTestUnitReady : UInt8 := 0x00
def scsiopRead6 : UInt8 := 0x08
def scsiopWrite6 : UInt8 := 0x0a
def scsiopInquiry : UInt8 := 0x12
def scsiopModeSense : UInt8 := 0x1a
def scsiopReadCapacity : UInt8 := 0x25
def scsiopRead : UInt8 := 0x28
def scsiopWrite : UInt8 := 0x2a
def scsiopSynchronizeCache : UInt8 := 0x35
def scsiopUnmap : UInt8 := 0x42
def scsiopModeSense10 : UInt8 := 0x5a
def scsiopRead16 : UInt8 := 0x88
def scsiopWrite16 : UInt8 := 0x8a
def scsiopSynchronizeCache16 : UInt8 := 0x91
def scsiopServiceActionIn16 : UInt8 := 0x9e
def scsiopReportLuns : UInt8 := 0xa0
def scsiopRead12 : UInt8 := 0xa8
def scsiopWrite12 : UInt8 := 0xaa

/-- The case labels. The same labels stand together in every switch. -/
def scsiOp (cdb : Cdb) : ScsiOp :=
  if cdb.asByte 0 = scsiopRead6 ∨ cdb.asByte 0 = scsiopRead ∨
    cdb.asByte 0 = scsiopRead12 ∨ cdb.asByte 0 = scsiopRead16 then .read
  else if cdb.asByte 0 = scsiopWrite6 ∨ cdb.asByte 0 = scsiopWrite ∨
    cdb.asByte 0 = scsiopWrite12 ∨ cdb.asByte 0 = scsiopWrite16 then .write
  else if cdb.asByte 0 = scsiopSynchronizeCache ∨ cdb.asByte 0 = scsiopSynchronizeCache16
  then .synchronizeCache
  else if cdb.asByte 0 = scsiopUnmap then .unmap
  else if cdb.asByte 0 = scsiopReportLuns then .reportLuns
  else if cdb.asByte 0 = scsiopTestUnitReady then .testUnitReady
  else if cdb.asByte 0 = scsiopInquiry then .inquiry
  else if cdb.asByte 0 = scsiopModeSense ∨ cdb.asByte 0 = scsiopModeSense10 then .modeSense
  else if cdb.asByte 0 = scsiopReadCapacity then .readCapacity
  else if cdb.asByte 0 = scsiopServiceActionIn16 then .serviceActionIn16
  else .other

/-- What `SpdCdbGetRange` reads out of a CDB. -/
structure CdbRange where
  blockAddress : UInt64
  blockCount : UInt32
  forceUnitAccess : Bool
  deriving DecidableEq, Repr

/-- `SpdCdbGetRange`, by the group of the operation code. The results are not
set for the other groups. -/
def spdCdbGetRange (cdb : Cdb) : Option CdbRange :=
  let group := cdb.asByte 0 &&& 0xe0
  if group = 0x00 then
    -- CDB6: the block address has 21 bits, no blocks means 256
    some
      { blockAddress :=
          (cdb.asByte 1 &&& 0x1f).toUInt64 <<< 16 ||| (cdb.asByte 2).toUInt64 <<< 8 |||
            (cdb.asByte 3).toUInt64
        blockCount := if cdb.asByte 4 ≠ 0 then (cdb.asByte 4).toUInt32 else 256
        forceUnitAccess := false }
  else if group = 0x20 ∨ group = 0x40 then
    -- CDB10
    some
      { blockAddress :=
          (cdb.asByte 2).toUInt64 <<< 24 ||| (cdb.asByte 3).toUInt64 <<< 16 |||
            (cdb.asByte 4).toUInt64 <<< 8 ||| (cdb.asByte 5).toUInt64
        blockCount := (cdb.asByte 7).toUInt32 <<< 8 ||| (cdb.asByte 8).toUInt32
        forceUnitAccess := cdb.asByte 1 &&& 0x08 ≠ 0 }
  else if group = 0x80 then
    -- CDB16
    some
      { blockAddress :=
          (cdb.asByte 2).toUInt64 <<< 56 ||| (cdb.asByte 3).toUInt64 <<< 48 |||
            (cdb.asByte 4).toUInt64 <<< 40 ||| (cdb.asByte 5).toUInt64 <<< 32 |||
            (cdb.asByte 6).toUInt64 <<< 24 ||| (cdb.asByte 7).toUInt64 <<< 16 |||
            (cdb.asByte 8).toUInt64 <<< 8 ||| (cdb.asByte 9).toUInt64
        blockCount :=
          (cdb.asByte 10).toUInt32 <<< 24 ||| (cdb.asByte 11).toUInt32 <<< 16 |||
            (cdb.asByte 12).toUInt32 <<< 8 ||| (cdb.asByte 13).toUInt32
        forceUnitAccess := cdb.asByte 1 &&& 0x08 ≠ 0 }
  else if group = 0xa0 then
    -- CDB12
    some
      { blockAddress :=
          (cdb.asByte 2).toUInt64 <<< 24 ||| (cdb.asByte 3).toUInt64 <<< 16 |||
            (cdb.asByte 4).toUInt64 <<< 8 ||| (cdb.asByte 5).toUInt64
        blockCount :=
          (cdb.asByte 6).toUInt32 <<< 24 ||| (cdb.asByte 7).toUInt32 <<< 16 |||
            (cdb.asByte 8).toUInt32 <<< 8 ||| (cdb.asByte 9).toUInt32
        forceUnitAccess := cdb.asByte 1 &&& 0x08 ≠ 0 }
  else none

/-! ## Sense data -/

def scsiSenseIllegalRequest : UInt8 := 0x05
def scsiSenseDataProtect : UInt8 := 0x07
def scsiAdsenseIllegalBlock : UInt8 := 0x21
def scsiAdsenseInvalidCdb : UInt8 := 0x24
def scsiAdsenseInvalidFieldParameterList : UInt8 := 0x26
def scsiAdsenseWriteProtect : UInt8 := 0x27
def srbFlagsDisableAutosense : UInt32 := 0x20
def sizeofSenseData : Nat := 18

/-- The `SENSE_DATA` of `SpdScsiErrorEx`: current error, fixed format, the four
lowest bytes of the information, which is marked valid, and ten more bytes
after the eighth. -/
def senseData (senseKey asc ascq : UInt8) (information : Option UInt64) : List UInt8 :=
  let info := information.getD 0
  [if information.isSome then 0xf0 else 0x70, 0, senseKey &&& 0x0f,
    (info >>> 24).toUInt8, (info >>> 16).toUInt8, (info >>> 8).toUInt8, info.toUInt8,
    10, 0, 0, 0, 0, asc, ascq, 0, 0, 0, 0]

def spdScsiErrorEx (srb : Srb) (senseKey asc ascq : UInt8) (information : Option UInt64) :
    Option (UInt8 × Srb) :=
  match srb.senseInfoBuffer with
  | none => some (srbStatusError, srb)
  | some buf =>
      if sizeofSenseData ≤ srb.senseInfoBufferLength.toNat ∧
          srb.srbFlags &&& srbFlagsDisableAutosense = 0 then do
        let buf ← writeAt buf 0 (List.replicate srb.senseInfoBufferLength.toNat 0)
        let buf ← writeAt buf 0 (senseData senseKey asc ascq information)
        some
          (srbStatusError ||| srbStatusAutosenseValid,
            { srb with senseInfoBuffer := some buf, scsiStatus := scsistatCheckCondition })
      else some (srbStatusError, srb)

def spdScsiError (srb : Srb) (senseKey asc : UInt8) : Option (UInt8 × Srb) :=
  spdScsiErrorEx srb senseKey asc 0 none

/-! ## Memory -/

/-- The SRBs and the SCSI code's fields of the extensions. -/
structure ScsiMem where
  srb : Addr → Srb
  ext : Addr → SrbExtension

def ScsiMem.setSrb (m : ScsiMem) (a : Addr) (srb : Srb) : ScsiMem :=
  { m with srb := Function.update m.srb a srb }

def ScsiMem.setExt (m : ScsiMem) (e : Addr) (ext : SrbExtension) : ScsiMem :=
  { m with ext := Function.update m.ext e ext }

@[simp] theorem ScsiMem.setSrb_srb (m : ScsiMem) (a : Addr) (srb : Srb) :
    (m.setSrb a srb).srb = Function.update m.srb a srb := rfl

@[simp] theorem ScsiMem.setExt_srb (m : ScsiMem) (e : Addr) (ext : SrbExtension) :
    (m.setExt e ext).srb = m.srb := rfl

@[simp] theorem ScsiMem.setExt_ext (m : ScsiMem) (e : Addr) (ext : SrbExtension) :
    (m.setExt e ext).ext = Function.update m.ext e ext := rfl

/-- Read `len` bytes at `SystemDataBuffer + off`. -/
def ScsiMem.readSystem (m : ScsiMem) (ext : SrbExtension) (off len : Nat) :
    Option (List UInt8) :=
  if len = 0 then some []
  else if ext.systemDataBuffer = 0 then none
  else do
    let buf ← (m.srb ext.systemDataBuffer).dataBuffer
    readAt buf off len

/-- Write the bytes at `SystemDataBuffer + off`. -/
def ScsiMem.writeSystem (m : ScsiMem) (ext : SrbExtension) (off : Nat) (bytes : List UInt8) :
    Option ScsiMem :=
  if bytes = [] then some m
  else if ext.systemDataBuffer = 0 then none
  else do
    let buf ← (m.srb ext.systemDataBuffer).dataBuffer
    let buf ← writeAt buf off bytes
    some
      (m.setSrb ext.systemDataBuffer
        { m.srb ext.systemDataBuffer with dataBuffer := some buf })

/-! ## Posting -/

/-- What a function that answers StorPort leaves: the SRB status, the memory
and the queue. -/
abbrev ScsiResult := UInt8 × ScsiMem × SpdIoq

/-- The caller returned with the SRB changed and nothing else. -/
def srbResult (a : Addr) (m : ScsiMem) (ioq : SpdIoq) (r : UInt8 × Srb) : ScsiResult :=
  (r.1, m.setSrb a r.2, ioq)

def spdNtStatusFromStorStatus : StorStatus → NtStatus
  | .success => .success
  | .unsuccessful => .unsuccessful
  | .notImplemented => .notImplemented
  | .insufficientResources => .insufficientResources
  | .bufferTooSmall => .bufferTooSmall
  | .accessDenied => .accessDenied
  | .invalidParameter => .invalidParameter
  | .invalidDeviceRequest => .invalidDeviceRequest
  | .invalidIrql => .invalidParameter
  | .invalidDeviceState => .invalidDeviceState
  | .invalidBufferSize => .invalidBufferSize
  | .unsupportedVersion => .invalidParameter
  | .busy => .invalidParameter

/-- `SpdScsiPostSrb`, of the SRB at `a`. -/
def spdScsiPostSrb (storResult : StorStatus) (unit : StorageUnitParams) (a : Addr)
    (dataLength : UInt32) (m : ScsiMem) (ioq : SpdIoq) : Option ScsiResult :=
  let e := (m.srb a).miniportContext
  if e = 0 then none
  else
    let ioq := ioq.zeroExtension e
    let ext := { SrbExtension.zero with storageUnit := unit }
    if dataLength ≠ 0 ∧ storResult ≠ .success then
      some
        (srbStatusInternalError,
          (m.setExt e ext).setSrb a
            { m.srb a with systemStatus := spdNtStatusFromStorStatus storResult },
          ioq)
    else
      let ext :=
        if dataLength ≠ 0 then { ext with systemDataBuffer := a, systemDataLength := dataLength }
        else ext
      do
        let (ioq, result) ← spdIoqPostSrb ioq a e
        some
          (if ntSuccess result then srbStatusPending else srbStatusAborted, m.setExt e ext, ioq)

/-- The end of `SpdScsiPostRangeSrb`: nothing to do, a range outside the unit,
or a post. -/
def spdScsiPostRange (storResult : StorStatus) (unit : StorageUnitParams) (a : Addr)
    (range : CdbRange) (dataLength : UInt32) (m : ScsiMem) (ioq : SpdIoq) : Option ScsiResult :=
  if range.blockCount = 0 then some (srbStatusSuccess, m, ioq)
  else
    let endBlockAddress := range.blockAddress + range.blockCount.toUInt64
    if endBlockAddress < range.blockAddress ∨ endBlockAddress > unit.blockCount then
      (spdScsiError (m.srb a) scsiSenseIllegalRequest scsiAdsenseIllegalBlock).map
        (srbResult a m ioq)
    else spdScsiPostSrb storResult unit a dataLength m ioq

def spdScsiPostRangeSrb (storResult : StorStatus) (unit : StorageUnitParams) (a : Addr)
    (m : ScsiMem) (ioq : SpdIoq) : Option ScsiResult :=
  let srb := m.srb a
  match scsiOp srb.cdb with
  | .read => do
      let range ← spdCdbGetRange srb.cdb
      let dataLength := range.blockCount * unit.blockLength
      if srb.dataTransferLength < dataLength then some (srbStatusInternalError, m, ioq)
      else spdScsiPostRange storResult unit a range dataLength m ioq
  | .write =>
      if unit.writeProtected then
        (spdScsiError srb scsiSenseDataProtect scsiAdsenseWriteProtect).map (srbResult a m ioq)
      else do
        let range ← spdCdbGetRange srb.cdb
        let dataLength := range.blockCount * unit.blockLength
        if srb.dataTransferLength < dataLength then some (srbStatusInternalError, m, ioq)
        else spdScsiPostRange storResult unit a range dataLength m ioq
  | .synchronizeCache =>
      if !unit.cacheSupported then some (srbStatusInvalidRequest, m, ioq)
      else if unit.writeProtected then
        (spdScsiError srb scsiSenseDataProtect scsiAdsenseWriteProtect).map (srbResult a m ioq)
      else do
        let range ← spdCdbGetRange srb.cdb
        spdScsiPostRange storResult unit a range 0 m ioq
  | _ => some (srbStatusInvalidRequest, m, ioq)

def sizeofUnmapListHeader : Nat := 8
def sizeofUnmapBlockDescriptor : Nat := 16

/-- `Descriptors[i]` of the parameter list at the front of a buffer. -/
def unmapBlockDescriptor (buf : List UInt8) (i : Nat) : Option (List UInt8) :=
  readAt buf (sizeofUnmapListHeader + sizeofUnmapBlockDescriptor * i) sizeofUnmapBlockDescriptor

/-- `StartingLba` of a descriptor. -/
def startingLba (d : List UInt8) : UInt64 :=
  (d.getD 0 0).toUInt64 <<< 56 ||| (d.getD 1 0).toUInt64 <<< 48 ||| (d.getD 2 0).toUInt64 <<< 40 |||
    (d.getD 3 0).toUInt64 <<< 32 ||| (d.getD 4 0).toUInt64 <<< 24 |||
    (d.getD 5 0).toUInt64 <<< 16 ||| (d.getD 6 0).toUInt64 <<< 8 ||| (d.getD 7 0).toUInt64

/-- `LbaCount` of a descriptor. -/
def lbaCount (d : List UInt8) : UInt32 :=
  (d.getD 8 0).toUInt32 <<< 24 ||| (d.getD 9 0).toUInt32 <<< 16 ||| (d.getD 10 0).toUInt32 <<< 8 |||
    (d.getD 11 0).toUInt32

/-- The loop over the descriptors: is one of them outside the unit? -/
def unmapOutside (unit : StorageUnitParams) (buf : List UInt8) : Nat → Nat → Option Bool
  | _, 0 => some false
  | i, n + 1 => do
      let d ← unmapBlockDescriptor buf i
      let endBlockAddress := startingLba d + (lbaCount d).toUInt64
      if endBlockAddress < startingLba d ∨ endBlockAddress > unit.blockCount then some true
      else unmapOutside unit buf (i + 1) n

def spdScsiPostUnmapSrb (storResult : StorStatus) (unit : StorageUnitParams) (a : Addr)
    (m : ScsiMem) (ioq : SpdIoq) : Option ScsiResult :=
  let srb := m.srb a
  if !unit.unmapSupported then some (srbStatusInvalidRequest, m, ioq)
  else if unit.writeProtected then
    (spdScsiError srb scsiSenseDataProtect scsiAdsenseWriteProtect).map (srbResult a m ioq)
  else
    match srb.dataBuffer with
    | none => some (srbStatusInternalError, m, ioq)
    | some buf =>
        if srb.dataTransferLength < 8 then some (srbStatusInternalError, m, ioq)
        else do
          let length ← readAt buf 2 2
          let dataLength := (length.getD 0 0).toUInt32 <<< 8 ||| (length.getD 1 0).toUInt32
          if srb.dataTransferLength < 8 + dataLength then some (srbStatusInternalError, m, ioq)
          else if dataLength > unit.maxTransferLength then
            (spdScsiError srb scsiSenseIllegalRequest scsiAdsenseInvalidFieldParameterList).map
              (srbResult a m ioq)
          else if srb.cdb.asByte 1 &&& 0x01 ≠ 0 then
            (spdScsiError srb scsiSenseIllegalRequest scsiAdsenseInvalidCdb).map (srbResult a m ioq)
          else if dataLength = 0 then some (srbStatusSuccess, m, ioq)
          else do
            let outside ← unmapOutside unit buf 0 (dataLength / 16).toNat
            if outside then
              (spdScsiError srb scsiSenseIllegalRequest scsiAdsenseIllegalBlock).map
                (srbResult a m ioq)
            else spdScsiPostSrb storResult unit a dataLength m ioq

/-! ## Requests and answers -/

/-- The rest of the transfer, and at most what user mode takes at once. -/
def chunkLength (unit : StorageUnitParams) (ext : SrbExtension) : UInt32 :=
  let chunkLength := ext.systemDataLength - ext.chunkOffset
  if chunkLength > unit.maxTransferLength then unit.maxTransferLength else chunkLength

/-- `SPD_IOCTL_UNMAP_DESCRIPTOR`, made of an `UNMAP_BLOCK_DESCRIPTOR`. -/
def unmapDescriptor (d : List UInt8) : List UInt8 :=
  toLe 8 (startingLba d).toNat ++ toLe 4 (lbaCount d).toNat ++ toLe 4 0

/-- The loop that copies `n` descriptors from `i` on into user mode's buffer. -/
def copyUnmapDescriptors (m : ScsiMem) (ext : SrbExtension) :
    Nat → Nat → List UInt8 → Option (List UInt8)
  | _, 0, dataBuffer => some dataBuffer
  | i, n + 1, dataBuffer => do
      let d ← m.readSystem ext (sizeofUnmapListHeader + sizeofUnmapBlockDescriptor * i)
        sizeofUnmapBlockDescriptor
      let dataBuffer ← writeAt dataBuffer (16 * i) (unmapDescriptor d)
      copyUnmapDescriptors m ext (i + 1) n dataBuffer

/-- What `Prepare` works on: the memory, the request `Context` points to, and
user mode's buffer. -/
structure Transact where
  mem : ScsiMem
  req : TransactReq
  dataBuffer : List UInt8

def spdSrbExecuteScsiPrepare (e a : Addr) (t : Transact) : Option Transact :=
  let ext := t.mem.ext e
  let unit := ext.storageUnit
  let cdb := (t.mem.srb a).cdb
  match scsiOp cdb with
  | .read => do
      let range ← spdCdbGetRange cdb
      if unit.blockLength = 0 then none
      else
        some
          { t with
            req :=
              { hint := e
                op := .read
                  (range.blockAddress + (ext.chunkOffset / unit.blockLength).toUInt64)
                  (chunkLength unit ext / unit.blockLength)
                  (if unit.cacheSupported then range.forceUnitAccess else true) } }
  | .write => do
      let range ← spdCdbGetRange cdb
      if unit.blockLength = 0 then none
      else do
        let bytes ← t.mem.readSystem ext ext.chunkOffset.toNat (chunkLength unit ext).toNat
        let dataBuffer ← writeAt t.dataBuffer 0 bytes
        some
          { t with
            req :=
              { hint := e
                op := .write
                  (range.blockAddress + (ext.chunkOffset / unit.blockLength).toUInt64)
                  (chunkLength unit ext / unit.blockLength)
                  (if unit.cacheSupported then range.forceUnitAccess else true) }
            dataBuffer := dataBuffer }
  | .synchronizeCache => do
      let range ← spdCdbGetRange cdb
      some { t with req := ⟨e, .flush range.blockAddress range.blockCount⟩ }
  | .unmap => do
      let count := ext.systemDataLength / 16
      let dataBuffer ← copyUnmapDescriptors t.mem ext 0 count.toNat t.dataBuffer
      some { t with req := ⟨e, .unmap count⟩, dataBuffer := dataBuffer }
  | _ => some t

/-- `dataBuffer` is user mode's buffer, which an answer may come without. -/
def spdSrbExecuteScsiComplete (rsp : TransactRsp) (dataBuffer : Option (List UInt8))
    (e a : Addr) (m : ScsiMem) : Option (UInt8 × ScsiMem) :=
  let ext := m.ext e
  let unit := ext.storageUnit
  if rsp.status.scsiStatus ≠ scsistatGood then do
    let (srbStatus, srb) ← spdScsiErrorEx (m.srb a) rsp.status.senseKey rsp.status.asc
      rsp.status.ascq (if rsp.status.informationValid then some rsp.status.information else none)
    some (srbStatus, m.setSrb a srb)
  else
    let chunkOffset := ext.chunkOffset + chunkLength unit ext
    let done := if chunkOffset ≥ ext.systemDataLength then srbStatusSuccess else srbStatusPending
    match scsiOp (m.srb a).cdb with
    | .read => do
        let bytes ←
          match dataBuffer with
          | some buf => readAt buf 0 (chunkLength unit ext).toNat
          | none => some (List.replicate (chunkLength unit ext).toNat 0)
        let m ← m.writeSystem ext ext.chunkOffset.toNat bytes
        some (done, m.setExt e { ext with chunkOffset := chunkOffset })
    | .write => some (done, m.setExt e { ext with chunkOffset := chunkOffset })
    | .synchronizeCache | .unmap => some (srbStatusSuccess, m)
    | _ => some (srbStatusAborted, m)

end Winspd.Sys
