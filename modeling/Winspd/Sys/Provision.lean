import Winspd.Lib.Lifetimes
import Winspd.Sys.Stgunit

/-!
# `SpdStorageUnitProvision`, pointer by pointer

In `Sys.Stgunit` a unit comes with its queue and is there from the start. Here
the two are blocks of nonpaged pool that refer to each other by address, as they
do in the source, and every access goes through a pointer: `none` is an access
through a null pointer or to a block that is not allocated. The calls of
`SpdAllocNonPaged` and `SpdFree` are kept in the order they were made.
-/

namespace Winspd.Sys

open Winspd.Lib

/-- A block of nonpaged pool. -/
inductive PoolBlock
  /-- `SPD_STORAGE_UNIT`, with its field `Ioq`. -/
  | storageUnit (unit : SpdStorageUnit) (ioq : Addr)
  | ioq (ioq : SpdIoq)

/-- `SPD_DEVICE_EXTENSION`, the pool, and what was allocated and freed. -/
structure ProvisionMem where
  storageUnitCount : UInt32
  storageUnitCapacity : UInt32
  storageUnits : List Addr
  pool : Addr → Option PoolBlock
  events : List (MemoryEvent Addr)

namespace ProvisionMem

/-- `StorageUnit->...`. -/
def storageUnitAt (s : ProvisionMem) (p : Addr) : Option (SpdStorageUnit × Addr) :=
  if p = 0 then none
  else
    match s.pool p with
    | some (.storageUnit unit ioq) => some (unit, ioq)
    | _ => none

/-- `Ioq->...`. -/
def ioqAt (s : ProvisionMem) (p : Addr) : Option SpdIoq :=
  if p = 0 then none
  else
    match s.pool p with
    | some (.ioq ioq) => some ioq
    | _ => none

/-- `SpdAllocNonPaged`, when it returns `p`, and what is stored there. -/
def spdAllocNonPaged (s : ProvisionMem) (p : Addr) (block : PoolBlock) : ProvisionMem :=
  { s with pool := Function.update s.pool p (some block), events := s.events ++ [.alloc p] }

def spdFree (s : ProvisionMem) (p : Addr) : Option ProvisionMem :=
  if p = 0 then none
  else
    (s.pool p).map fun _ =>
      { s with pool := Function.update s.pool p none, events := s.events ++ [.free p] }

/-- `StorageUnit->Ioq = Ioq`. -/
def storeIoq (s : ProvisionMem) (p ioq : Addr) : Option ProvisionMem :=
  (s.storageUnitAt p).map fun r =>
    { s with pool := Function.update s.pool p (some (.storageUnit r.1 ioq)) }

/-- `SpdIoqCreate(DeviceExtension, &StorageUnit->Ioq)`. `ioqMem` is the block
that was allocated for the queue, and what it held. -/
def spdIoqCreate (s : ProvisionMem) (p : Addr) (ioqMem : Option (Addr × SpdIoq)) :
    Option (ProvisionMem × NtStatus) := do
  let s ← s.storeIoq p 0
  match ioqMem with
  | none => some (s, .insufficientResources)
  | some (q, mem) => do
      let s ← (s.spdAllocNonPaged q (.ioq (Sys.spdIoqCreate mem))).storeIoq p q
      some (s, .success)

def spdIoqDelete (s : ProvisionMem) (q : Addr) : Option ProvisionMem := do
  let ioq ← s.ioqAt q
  let (ioq, _) ← spdIoqReset ioq false
  { s with pool := Function.update s.pool q (some (.ioq ioq)) }.spdFree q

/-- The loop over the array, under the spin lock. -/
def scan (s : ProvisionMem) (guid : Guid) : UInt32 → UInt32 → List Addr →
    Option (Option Addr × UInt32)
  | _, btl, [] => some (none, btl)
  | i, btl, p :: ps =>
      if p = 0 then s.scan guid (i + 1) (if btl = -1 then spdBtlFromIndex i else btl) ps
      else
        match s.storageUnitAt p with
        | none => none
        | some (unit, _) =>
            if guid = unit.storageUnitParams.guid then some (some p, btl)
            else s.scan guid (i + 1) btl ps

/-- From `exit` on, without success. -/
def provisionExit (s : ProvisionMem) (storageUnit : Addr) : Option ProvisionMem := do
  let (_, ioq) ← s.storageUnitAt storageUnit
  let s ← if ioq ≠ 0 then s.spdIoqDelete ioq else some s
  if storageUnit ≠ 0 then s.spdFree storageUnit else some s

/-- `SpdStorageUnitProvision`. `unitMem` is where the unit was allocated. The
last result is `*PBtl`. -/
def spdStorageUnitProvision (s : ProvisionMem) (params : StorageUnitParams) (processId : UInt32)
    (unitMem : Option Addr) (ioqMem : Option (Addr × SpdIoq)) :
    Option (ProvisionMem × NtStatus × UInt32) :=
  match unitMem with
  | none => (s.provisionExit 0).map fun s => (s, .insufficientResources, -1)
  | some p => do
      let s := s.spdAllocNonPaged p (.storageUnit (newStorageUnit params processId) 0)
      let (s, result) ← s.spdIoqCreate p ioqMem
      if ¬ ntSuccess result then (s.provisionExit p).map fun s => (s, result, -1)
      else do
        let (unit, _) ← s.storageUnitAt p
        let (duplicate, btl) ← s.scan unit.storageUnitParams.guid 0 (-1) s.storageUnits
        let s :=
          if duplicate = none ∧ btl ≠ -1 then
            { s with
              storageUnits := s.storageUnits.set (spdIndexFromBtl btl).toNat p
              storageUnitCount := s.storageUnitCount + 1 }
          else s
        if duplicate ≠ none then
          (s.provisionExit p).map fun s => (s, .objectNameCollision, -1)
        else if btl = -1 then (s.provisionExit p).map fun s => (s, .cannotMake, -1)
        else some (s, .success, btl)

/-- The units with their queues, as `Sys.Stgunit` has them. -/
def objects (s : ProvisionMem) (p : Addr) : Option UnitObject := do
  let .storageUnit unit q ← s.pool p | none
  let .ioq ioq ← s.pool q | none
  some ⟨unit, ioq⟩

def deviceExtension (s : ProvisionMem) : SpdDeviceExtension :=
  ⟨s.storageUnitCount, s.storageUnitCapacity, s.storageUnits, s.objects⟩

end ProvisionMem

end Winspd.Sys
