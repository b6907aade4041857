import Winspd.Sys.Stgunit

/-!
# PnP requests: `dispatch.c`

`SpdDispatchPnp` on the `IRP_MN_REMOVE_DEVICE` of a disk. It looks the unit up
by the device object, keeps its GUID and owner, lets StorPort remove the
device, and unprovisions the unit of that GUID and owner. No lock is held
between these steps.
-/

namespace Winspd.Sys

/-- Where `SpdDispatchPnp` is: about to look the unit up, about to dereference
it, in `StorPortDispatchPnp`, back from it, in the dereference of the unit it
unprovisioned, or returned. A `provisionPid` of `-1` stands for no unit. -/
inductive RemoveDevice
  | entered
  | found (p : Addr) (provisionGuid : Guid) (provisionPid : UInt32)
  | calling (provisionGuid : Guid) (provisionPid : UInt32)
  | called (provisionGuid : Guid) (provisionPid : UInt32)
  | release (p : Addr)
  | returned

/-- One step of `SpdDispatchPnp`. A unit's GUID and owner are not written while
it is allocated, and the reference keeps it allocated until they are copied. -/
def spdDispatchPnpRemove (dx : SpdDeviceExtension) (deviceObject : Addr) :
    RemoveDevice → Option (SpdDeviceExtension × RemoveDevice)
  | .entered => do
      let (dx, unit) ← spdStorageUnitReferenceByDevice dx deviceObject
      match unit with
      | none => some (dx, .calling nullGuid (-1))
      | some p => do
          let object ← dx.pool p
          some (dx, .found p object.unit.storageUnitParams.guid object.unit.ownerProcessId)
  | .found p provisionGuid provisionPid =>
      (spdStorageUnitDereference dx p).map fun r => (r.1, .calling provisionGuid provisionPid)
  | .calling provisionGuid provisionPid => some (dx, .called provisionGuid provisionPid)
  | .called provisionGuid provisionPid =>
      if provisionPid = -1 then some (dx, .returned)
      else do
        let (dx, _, unit, _) ← spdStorageUnitUnprovision dx (.guid provisionGuid) provisionPid
        match unit with
        | none => some (dx, .returned)
        | some p => some (dx, .release p)
  | .release p => (spdStorageUnitDereference dx p).map fun r => (r.1, .returned)
  | .returned => none

end Winspd.Sys
