import Mathlib.Data.UInt

/-!
# The owner of a volume: `launcher.c`

The launcher finds out which process serves a volume by asking for the device
identifiers of the volume's disk. They are the descriptors of the driver's page
83h, which the class driver passes on, one `STORAGE_IDENTIFIER` for each.
`GetVolumeOwnerProcessId` takes the first of them that has the form the driver
gives a process id.
-/

namespace Winspd.Launcher

/-- `STORAGE_IDENTIFIER`. `IdentifierSize` is the length of the identifier. -/
structure StorageIdentifier where
  codeSet : UInt8
  type : UInt8
  association : UInt8
  identifier : List UInt8
  deriving DecidableEq, Repr

def storageIdCodeSetBinary : UInt8 := 1
def storageIdTypeVendorSpecific : UInt8 := 0
def storageIdAssocDevice : UInt8 := 0

/-- The test in the loop, and the process id of an identifier that passes it. -/
def StorageIdentifier.processId (id : StorageIdentifier) : Option UInt32 :=
  if storageIdCodeSetBinary = id.codeSet ∧ storageIdTypeVendorSpecific = id.type ∧
      storageIdAssocDevice = id.association ∧ 8 = id.identifier.length ∧
      0x50 = id.identifier.getD 0 0 ∧ 0x49 = id.identifier.getD 1 0 ∧
      0x44 = id.identifier.getD 2 0 ∧
      -- volumes that have EjectDisabled are allowed
      (0x20 = id.identifier.getD 3 0 ∨ 0x58 = id.identifier.getD 3 0) then
    some
      ((id.identifier.getD 4 0).toUInt32 <<< 24 ||| (id.identifier.getD 5 0).toUInt32 <<< 16 |||
        (id.identifier.getD 6 0).toUInt32 <<< 8 ||| (id.identifier.getD 7 0).toUInt32)
  else none

/-- The loop of `GetVolumeOwnerProcessId`. `none` is `ERROR_NO_ASSOCIATION`. -/
def getVolumeOwnerProcessId : List StorageIdentifier → Option UInt32
  | [] => none
  | id :: ids =>
      match id.processId with
      | some processId => some processId
      | none => getVolumeOwnerProcessId ids

end Winspd.Launcher
