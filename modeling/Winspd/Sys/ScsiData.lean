import Winspd.Sys.Scsi

/-!
# SCSI commands answered at once: `scsi.c`

REPORT LUNS, INQUIRY, MODE SENSE and READ CAPACITY are answered from the unit's
parameters. Each of them zeroes the data buffer, refuses what it does not
support, refuses a buffer too short for its page, and otherwise fills the page
in and says how long it is. A page is written down here as its bytes, in the
layout of the WDK structure named beside it; fields the driver does not set are
zero.
-/

namespace Winspd.Sys

open Winspd.Lib

/-- A 32-bit and a 64-bit number, highest byte first. -/
def be32 (x : UInt32) : List UInt8 :=
  [(x >>> 24).toUInt8, (x >>> 16).toUInt8, (x >>> 8).toUInt8, x.toUInt8]

def be64 (x : UInt64) : List UInt8 :=
  [(x >>> 56).toUInt8, (x >>> 48).toUInt8, (x >>> 40).toUInt8, (x >>> 32).toUInt8,
    (x >>> 24).toUInt8, (x >>> 16).toUInt8, (x >>> 8).toUInt8, x.toUInt8]

/-- The check of `DataBuffer` and `RtlZeroMemory`, then the rest. -/
def withZeroedBuffer (srb : Srb) (rest : Srb → Option (UInt8 × Srb)) : Option (UInt8 × Srb) :=
  match srb.dataBuffer with
  | none => some (srbStatusInternalError, srb)
  | some buf => do
      let buf ← writeAt buf 0 (List.replicate srb.dataTransferLength.toNat 0)
      rest { srb with dataBuffer := some buf }

/-- The check of `DataTransferLength`, the page, and `SrbSetDataTransferLength`. -/
def putPage (srb : Srb) (page : List UInt8) : Option (UInt8 × Srb) :=
  if page.length > srb.dataTransferLength.toNat then some (srbStatusDataOverrun, srb)
  else do
    let buf ← srb.dataBuffer
    let buf ← writeAt buf 0 page
    some
      (srbStatusSuccess,
        { srb with
          dataBuffer := some buf
          dataTransferLength := UInt32.ofNat page.length })

/-! ## REPORT LUNS -/

/-- `LUN_LIST`: the length and, for a unit, its one LUN, which is 0. -/
def lunList (present : Bool) : List UInt8 :=
  if present then be32 8 ++ List.replicate 4 0 ++ List.replicate 8 0
  else be32 0 ++ List.replicate 4 0

def spdScsiReportLuns (storageUnit : Option SpdStorageUnit) (srb : Srb) : Option (UInt8 × Srb) :=
  withZeroedBuffer srb fun srb => putPage srb (lunList storageUnit.isSome)

/-! ## INQUIRY -/

/-- `SPD_IOCTL_VENDOR_ID`. -/
def spdIoctlVendorId : List UInt8 := [0x57, 0x69, 0x6e, 0x53, 0x70, 0x64, 0x20, 0x20]

def vpdSupportedPages : UInt8 := 0x00
def vpdSerialNumber : UInt8 := 0x80
def vpdDeviceIdentifiers : UInt8 := 0x83
def vpdBlockLimits : UInt8 := 0xb0
def vpdLogicalBlockProvisioning : UInt8 := 0xb2

/-- The first byte of every page: device type and qualifier. -/
def deviceTypeByte (unit : SpdStorageUnit) : UInt8 := unit.storageUnitParams.deviceType &&& 0x1f

/-- `INQUIRYDATA`, to `INQUIRYDATABUFFERSIZE`. -/
def inquiryData (unit : SpdStorageUnit) : List UInt8 :=
  [deviceTypeByte unit, 0, 5, 2, 31, 0, 0, 0x02] ++ spdIoctlVendorId ++
    unit.storageUnitParams.productId.toList ++ unit.storageUnitParams.productRevisionLevel.toList

/-- `VPD_SUPPORTED_PAGES_PAGE`. -/
def vpdSupportedPagesPage (unit : SpdStorageUnit) : List UInt8 :=
  [deviceTypeByte unit, vpdSupportedPages, 0, 5, vpdSupportedPages, vpdSerialNumber,
    vpdDeviceIdentifiers, vpdBlockLimits, vpdLogicalBlockProvisioning]

/-- `VPD_SERIAL_NUMBER_PAGE`. -/
def vpdSerialNumberPage (unit : SpdStorageUnit) : List UInt8 :=
  [deviceTypeByte unit, vpdSerialNumber, 0, 36] ++ unit.serialNumber.toList

/-- `VPD_IDENTIFICATION_PAGE` with its two `VPD_IDENTIFICATION_DESCRIPTOR`s: a
vendor identifier in ASCII, and the owner's process id. -/
def vpdIdentificationPage (unit : SpdStorageUnit) : List UInt8 :=
  [deviceTypeByte unit, vpdDeviceIdentifiers, 0, 80] ++
    ([0x02, 0x01, 0, 64] ++ spdIoctlVendorId ++ unit.storageUnitParams.productId.toList ++
      unit.storageUnitParams.productRevisionLevel.toList ++ unit.serialNumber.toList) ++
    ([0x01, 0x00, 0, 8] ++
      [0x50, 0x49, 0x44, if unit.storageUnitParams.ejectDisabled then 0x58 else 0x20] ++
      be32 unit.ownerProcessId)

/-- `VPD_BLOCK_LIMITS_PAGE`. -/
def vpdBlockLimitsPage (unit : SpdStorageUnit) : List UInt8 :=
  let params := unit.storageUnitParams
  [deviceTypeByte unit, vpdBlockLimits, 0, 60, 0, 0, 0, 0] ++
    be32 (params.maxTransferLength / params.blockLength) ++ List.replicate 8 0 ++
    (if params.unmapSupported then
      be32 0xffffffff ++ be32 (params.maxTransferLength / 16)
    else List.replicate 8 0) ++
    List.replicate 36 0

/-- `VPD_LOGICAL_BLOCK_PROVISIONING_PAGE`. -/
def vpdLogicalBlockProvisioningPage (unit : SpdStorageUnit) : List UInt8 :=
  if unit.storageUnitParams.unmapSupported then
    [deviceTypeByte unit, vpdLogicalBlockProvisioning, 0, 4, 0, 0x80, 0x02, 0]
  else [deviceTypeByte unit, vpdLogicalBlockProvisioning, 0, 4, 0, 0, 0, 0]

def spdScsiInquiry (unit : SpdStorageUnit) (srb : Srb) : Option (UInt8 × Srb) :=
  withZeroedBuffer srb fun srb =>
    if srb.cdb.asByte 1 &&& 0x01 = 0 then
      if srb.cdb.asByte 2 ≠ 0 then spdScsiError srb scsiSenseIllegalRequest scsiAdsenseInvalidCdb
      else putPage srb (inquiryData unit)
    else if srb.cdb.asByte 2 = vpdSupportedPages then putPage srb (vpdSupportedPagesPage unit)
    else if srb.cdb.asByte 2 = vpdSerialNumber then putPage srb (vpdSerialNumberPage unit)
    else if srb.cdb.asByte 2 = vpdDeviceIdentifiers then putPage srb (vpdIdentificationPage unit)
    else if srb.cdb.asByte 2 = vpdBlockLimits then
      if 64 ≤ srb.dataTransferLength.toNat ∧ unit.storageUnitParams.blockLength = 0 then none
      else putPage srb (vpdBlockLimitsPage unit)
    else if srb.cdb.asByte 2 = vpdLogicalBlockProvisioning then
      putPage srb (vpdLogicalBlockProvisioningPage unit)
    else spdScsiError srb scsiSenseIllegalRequest scsiAdsenseInvalidCdb

/-! ## MODE SENSE -/

def modePageCaching : UInt8 := 0x08
def modeSenseReturnAll : UInt8 := 0x3f
def modeSenseChangeableValues : UInt8 := 0x40

/-- `DeviceSpecificParameter` of both mode parameter headers. -/
def deviceSpecificParameter (params : StorageUnitParams) : UInt8 :=
  (if params.writeProtected then 0x80 else 0) ||| (if params.cacheSupported then 0x10 else 0)

/-- `MODE_CACHING_PAGE`. -/
def modeCachingPage (params : StorageUnitParams) : List UInt8 :=
  [modePageCaching, 10, if params.cacheSupported then 0x04 else 0x01] ++ List.replicate 9 0

def spdScsiModeSense (unit : SpdStorageUnit) (srb : Srb) : Option (UInt8 × Srb) :=
  let params := unit.storageUnitParams
  withZeroedBuffer srb fun srb =>
    let pc := srb.cdb.asByte 2 >>> 6
    let pageCode := srb.cdb.asByte 2 &&& 0x3f
    if modeSenseChangeableValues = pc ∨
        (modePageCaching ≠ pageCode ∧ modeSenseReturnAll ≠ pageCode) then
      spdScsiError srb scsiSenseIllegalRequest scsiAdsenseInvalidCdb
    else if srb.cdb.asByte 0 = scsiopModeSense then
      -- MODE_PARAMETER_HEADER
      putPage srb ([15, 0, deviceSpecificParameter params, 0] ++ modeCachingPage params)
    else
      -- MODE_PARAMETER_HEADER10
      putPage srb
        ([0, 18, 0, deviceSpecificParameter params, 0, 0, 0, 0] ++ modeCachingPage params)

/-! ## READ CAPACITY -/

/-- `READ_CAPACITY_DATA`. The last block's address is cut to 32 bits of ones. -/
def readCapacityData (params : StorageUnitParams) : List UInt8 :=
  be32 (if 0x100000000 > params.blockCount then params.blockCount.toUInt32 - 1 else 0xffffffff) ++
    be32 params.blockLength

/-- `READ_CAPACITY_DATA_EX`. -/
def readCapacityDataEx (params : StorageUnitParams) : List UInt8 :=
  be64 (params.blockCount - 1) ++ be32 params.blockLength

/-- The rest of `READ_CAPACITY16_DATA`. -/
def readCapacity16Rest (params : StorageUnitParams) : List UInt8 :=
  [0, 0, if params.unmapSupported then 0x80 else 0] ++ List.replicate 17 0

def spdScsiReadCapacity (unit : SpdStorageUnit) (srb : Srb) : Option (UInt8 × Srb) :=
  let params := unit.storageUnitParams
  withZeroedBuffer srb fun srb =>
    if srb.cdb.asByte 0 = scsiopReadCapacity then putPage srb (readCapacityData params)
    else if 32 ≤ srb.dataTransferLength.toNat then
      putPage srb (readCapacityDataEx params ++ readCapacity16Rest params)
    else putPage srb (readCapacityDataEx params)

end Winspd.Sys
