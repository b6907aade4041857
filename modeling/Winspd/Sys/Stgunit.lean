import Mathlib.Data.List.Basic
import Winspd.Lib.Bitmap
import Winspd.Sys.Ioq

/-!
# Storage units: `stgunit.c`

The device extension keeps the storage units in an array of pointers, which is
the list `storageUnits` here, null being `0`. The units live in nonpaged pool:
`pool` holds the allocated ones, each with its queue. Every function is its
section under the device extension's spin lock with what it does to the queue
of the unit; `none` is a machine that stopped, by following a pointer to a unit
that is not there or in the queue.

Allocation is the caller's: `spdStorageUnitProvision` is given the addresses
the pool returned, or that it returned none.
-/

namespace Winspd.Sys

open Winspd.Lib

/-- A unit in the pool, and its queue. -/
structure UnitObject where
  unit : SpdStorageUnit
  ioq : SpdIoq

/-- `SPD_DEVICE_EXTENSION`, and the pool. -/
structure SpdDeviceExtension where
  storageUnitCount : UInt32
  storageUnitCapacity : UInt32
  storageUnits : List Addr
  pool : Addr → Option UnitObject

/-- `SpdStorageUnitCapacity`, after `DriverEntry` has read the registry value. -/
def spdStorageUnitCapacity (value : Option UInt32) : UInt32 :=
  match value with
  | none => spdIoctlStorageUnitCapacity
  | some value =>
      if spdIoctlStorageUnitCapacity ≤ value ∧ value ≤ spdIoctlStorageUnitMaxCapacity then
        value
      else spdIoctlStorageUnitCapacity

/-- `SpdDeviceExtensionInit`: the extension StorPort allocated is zero. -/
def spdDeviceExtensionInit (capacity : UInt32) (pool : Addr → Option UnitObject) :
    SpdDeviceExtension where
  storageUnitCount := 0
  storageUnitCapacity := capacity
  storageUnits := List.replicate capacity.toNat 0
  pool := pool

/-- `SpdHwFreeAdapterResources`, on the units: `SpdDeviceExtensionFini` does not
touch them. -/
def spdHwFreeAdapterResources (dx : SpdDeviceExtension) : SpdDeviceExtension := dx

/-! ## Construction of a unit -/

/-- The loop that left aligns a text field: from the first byte that is not
printable on, spaces. -/
def leftAlign (spaces : Bool) : List UInt8 → List UInt8
  | [] => []
  | b :: bs =>
      if spaces ∨ 0x20 > b ∨ b ≥ 0x7f then
        0x20 :: leftAlign true bs
      else b :: leftAlign spaces bs

/-- Left align a field, unless its first byte is NUL. -/
def leftAlignField {n : Nat} (field : Vector UInt8 n) : Vector UInt8 n :=
  match field.toList with
  | 0 :: _ => field
  | bytes => Vector.ofFn fun i => (leftAlign false bytes).getD i 0

/-- A hexadecimal digit, in lower case. -/
def hexDigit (x : Nat) : UInt8 := if x < 10 then UInt8.ofNat (0x30 + x) else UInt8.ofNat (0x57 + x)

/-- The lowest `n` hexadecimal digits of a number, highest first. -/
def hexDigits : Nat → Nat → List UInt8
  | 0, _ => []
  | n + 1, x => hexDigit (x / 16 ^ n % 16) :: hexDigits n x

/-- `%08lx-%04x-%04x-%02x%02x-%02x%02x%02x%02x%02x%02x`, of the GUID. -/
def serialNumberText (guid : Guid) : List UInt8 :=
  let hyphen : List UInt8 := [0x2d]
  let byte i := hexDigits 2 (guid.data4.toList.getD i 0).toNat
  hexDigits 8 guid.data1.toNat ++ hyphen ++ hexDigits 4 guid.data2.toNat ++ hyphen ++
    hexDigits 4 guid.data3.toNat ++ hyphen ++ byte 0 ++ byte 1 ++ hyphen ++
    byte 2 ++ byte 3 ++ byte 4 ++ byte 5 ++ byte 6 ++ byte 7

def serialNumber (guid : Guid) : Vector UInt8 36 :=
  Vector.ofFn fun i => (serialNumberText guid).getD i 0

/-- The unit `SpdStorageUnitProvision` constructs. -/
def newStorageUnit (params : StorageUnitParams) (processId : UInt32) : SpdStorageUnit where
  refCount := 1
  storageUnitParams :=
    { params with
      productId := leftAlignField params.productId
      productRevisionLevel := leftAlignField params.productRevisionLevel }
  serialNumber := serialNumber params.guid
  ownerProcessId := processId
  deviceObject := 0
  transactProcessId := processId

/-! ## Provision and unprovision -/

/-- The loop of `SpdStorageUnitProvision`: the first unit with the GUID, and the
BTL of the first free slot seen before it. -/
def provisionScan (pool : Addr → Option UnitObject) (guid : Guid) :
    UInt32 → UInt32 → List Addr → Option (Option Addr × UInt32)
  | _, btl, [] => some (none, btl)
  | i, btl, p :: ps =>
      if p = 0 then
        provisionScan pool guid (i + 1) (if btl = -1 then spdBtlFromIndex i else btl) ps
      else
        match pool p with
        | none => none
        | some object =>
            if object.unit.storageUnitParams.guid = guid then some (some p, btl)
            else provisionScan pool guid (i + 1) btl ps

/-- `SpdIoqDelete`: what is left in the queue is completed. -/
def spdIoqDelete (ioq : SpdIoq) : Option (List IoqCall) := (spdIoqReset ioq false).map Prod.snd

/-- `SpdStorageUnitProvision`. `unitMem` is where the unit was allocated, and
`ioqMem` the memory of the queue. The last result is `*PBtl`. -/
def spdStorageUnitProvision (dx : SpdDeviceExtension) (params : StorageUnitParams)
    (processId : UInt32) (unitMem : Option Addr) (ioqMem : Option SpdIoq) :
    Option (SpdDeviceExtension × NtStatus × UInt32) :=
  match unitMem with
  -- the exit path reads StorageUnit->Ioq
  | none => none
  | some p =>
      match ioqMem with
      | none => some (dx, .insufficientResources, -1)
      | some mem => do
          let (duplicate, btl) ←
            provisionScan dx.pool params.guid 0 (-1) dx.storageUnits
          match duplicate with
          | some _ => do
              let _ ← spdIoqDelete (spdIoqCreate mem)
              some (dx, .objectNameCollision, -1)
          | none =>
              if btl = -1 then do
                let _ ← spdIoqDelete (spdIoqCreate mem)
                some (dx, .cannotMake, -1)
              else
                some
                  ({ dx with
                      storageUnits := dx.storageUnits.set (spdIndexFromBtl btl).toNat p
                      storageUnitCount := dx.storageUnitCount + 1
                      pool := Function.update dx.pool p
                        (some ⟨newStorageUnit params processId, spdIoqCreate mem⟩) },
                    .success, btl)

/-- The loop that finds a unit by a property, and its slot. -/
def findUnit (pool : Addr → Option UnitObject) (P : SpdStorageUnit → Bool) :
    Nat → List Addr → Option (Option (Nat × Addr))
  | _, [] => some none
  | i, p :: ps =>
      if p = 0 then findUnit pool P (i + 1) ps
      else
        match pool p with
        | none => none
        | some object =>
            if P object.unit then some (some (i, p)) else findUnit pool P (i + 1) ps

/-- The slot at `index`, if there is a unit in it. -/
def SpdDeviceExtension.unitAt (dx : SpdDeviceExtension) (index : Nat) : Option Addr :=
  match dx.storageUnits[index]? with
  | some p => if p = 0 then none else some p
  | none => none

/-- The unit `SpdStorageUnitUnprovision` is asked to remove. -/
inductive UnitKey
  | guid (guid : Guid)
  | index (index : UInt32)
  deriving DecidableEq, Repr

/-- The lookup of `SpdStorageUnitUnprovision`. -/
def unprovisionLookup (dx : SpdDeviceExtension) : UnitKey → Option (Option (Nat × Addr))
  | .guid guid =>
      findUnit dx.pool (fun unit => guid = unit.storageUnitParams.guid) 0 dx.storageUnits
  | .index index => some ((dx.unitAt index.toNat).map fun p => (index.toNat, p))

/-- `SpdStorageUnitUnprovision`, up to its `SpdStorageUnitDereference`: the
unit that has been taken out is returned, and the caller still holds the
reference the array had. -/
def spdStorageUnitUnprovision (dx : SpdDeviceExtension) (key : UnitKey) (processId : UInt32) :
    Option (SpdDeviceExtension × NtStatus × Option Addr × List IoqCall) := do
  let found ← unprovisionLookup dx key
  match found with
  | none => some (dx, .objectNameNotFound, none, [])
  | some (index, p) => do
      let object ← dx.pool p
      if processId ≠ object.unit.ownerProcessId then some (dx, .accessDenied, none, [])
      else do
        let (ioq, calls) ← spdIoqReset object.ioq true
        some
          ({ dx with
              storageUnitCount := dx.storageUnitCount - 1
              storageUnits := dx.storageUnits.set index 0
              pool := Function.update dx.pool p (some { object with ioq := ioq }) },
            .success, some p, calls)

/-! ## References -/

/-- `RefCount++`, under the lock. -/
def SpdDeviceExtension.addRef (dx : SpdDeviceExtension) (p : Addr) : Option SpdDeviceExtension := do
  let object ← dx.pool p
  some
    { dx with
      pool := Function.update dx.pool p
        (some { object with unit := { object.unit with refCount := object.unit.refCount + 1 } }) }

/-- The unit `SpdStorageUnitReferenceByBtl` finds. -/
def SpdDeviceExtension.unitByBtl (dx : SpdDeviceExtension) (btl : UInt32) : Option Addr :=
  if spdIoctlBtlB btl ≠ 0 ∨ spdIoctlBtlL btl ≠ 0 then none
  else dx.unitAt (spdIoctlBtlT btl).toNat

def spdStorageUnitReferenceByBtl (dx : SpdDeviceExtension) (btl : UInt32) :
    Option (SpdDeviceExtension × Option Addr) :=
  match dx.unitByBtl btl with
  | none => some (dx, none)
  | some p => (dx.addRef p).map fun dx => (dx, some p)

def spdStorageUnitReferenceByDevice (dx : SpdDeviceExtension) (deviceObject : Addr) :
    Option (SpdDeviceExtension × Option Addr) := do
  let found ← findUnit dx.pool (fun unit => deviceObject = unit.deviceObject) 0 dx.storageUnits
  match found with
  | none => some (dx, none)
  | some (_, p) => (dx.addRef p).map fun dx => (dx, some p)

/-- `SpdStorageUnitDereference`. The last reference deletes the unit. -/
def spdStorageUnitDereference (dx : SpdDeviceExtension) (p : Addr) :
    Option (SpdDeviceExtension × List IoqCall) := do
  let object ← dx.pool p
  let refCount := object.unit.refCount - 1
  if refCount = 0 then do
    let calls ← spdIoqDelete object.ioq
    some ({ dx with pool := Function.update dx.pool p none }, calls)
  else
    some
      ({ dx with
          pool := Function.update dx.pool p
            (some { object with unit := { object.unit with refCount := refCount } }) }, [])

/-- The store of `SpdStorageUnitGlobalSetDevice`, on the unit it holds: the
first device stays. -/
def spdStorageUnitSetDevice (dx : SpdDeviceExtension) (p deviceObject : Addr) :
    Option (SpdDeviceExtension × NtStatus) := do
  let object ← dx.pool p
  if object.unit.deviceObject = 0 then
    some
      ({ dx with
          pool := Function.update dx.pool p
            (some { object with unit := { object.unit with deviceObject := deviceObject } }) },
        .success)
  else some (dx, .objectNameCollision)

/-! ## Process exit -/

/-- `sizeof Bitmap` of `UINT8 Bitmap[32]`. -/
def sizeofBitmap : Nat := 32

/-- The loop of `SpdStorageUnitGetUseBitmap`. It ends early when it has counted
as many units as there are. -/
def useBitmapScan (pool : Addr → Option UnitObject) (processId : Option UInt32)
    (storageUnitCount : UInt32) : Nat → List UInt8 → UInt32 → List Addr →
      Option (List UInt8 × UInt32)
  | _, bitmap, count, [] => some (bitmap, count)
  | i, bitmap, count, p :: ps =>
      if storageUnitCount > count then
        if p = 0 then useBitmapScan pool processId storageUnitCount (i + 1) bitmap count ps
        else
          match pool p with
          | none => none
          | some object =>
              if processId = none ∨ processId = some object.unit.ownerProcessId then
                useBitmapScan pool processId storageUnitCount (i + 1) (setFlag bitmap i)
                  (count + 1) ps
              else useBitmapScan pool processId storageUnitCount (i + 1) bitmap count ps
      else some (bitmap, count)

/-- `SpdStorageUnitGetUseBitmap`: the bitmap, and how many bits are set. -/
def spdStorageUnitGetUseBitmap (dx : SpdDeviceExtension) (processId : Option UInt32) :
    Option (List UInt8 × UInt32) :=
  useBitmapScan dx.pool processId dx.storageUnitCount 0 (List.replicate sizeofBitmap 0) 0
    dx.storageUnits

/-- Where `SpdDeviceExtensionNotifyRoutine` is when no lock is held: about to
take its snapshot, in its loop, in the `SpdStorageUnitDereference` of a unit it
took out, or returned. -/
inductive NotifyRoutine
  | entered
  | loop (bitmap : List UInt8) (count : UInt32) (i : Nat)
  | release (p : Addr) (bitmap : List UInt8) (count : UInt32) (i : Nat)
  | returned

/-- One step of `SpdDeviceExtensionNotifyRoutine`, called with `Create` false. -/
def spdDeviceExtensionNotifyRoutine (dx : SpdDeviceExtension) (processId : UInt32) :
    NotifyRoutine → Option (SpdDeviceExtension × NotifyRoutine)
  | .entered =>
      (spdStorageUnitGetUseBitmap dx (some processId)).map fun r => (dx, .loop r.1 r.2 0)
  | .loop bitmap count i =>
      if 0 < count ∧ sizeofBitmap * 8 > i then
        if flagOn bitmap i then do
          let (dx, _, unit, _) ← spdStorageUnitUnprovision dx (.index (UInt32.ofNat i)) processId
          match unit with
          | some p => some (dx, .release p bitmap (count - 1) (i + 1))
          | none => some (dx, .loop bitmap (count - 1) (i + 1))
        else some (dx, .loop bitmap count (i + 1))
      else some (dx, .returned)
  | .release p bitmap count i =>
      (spdStorageUnitDereference dx p).map fun r => (r.1, .loop bitmap count i)
  | .returned => none

end Winspd.Sys
