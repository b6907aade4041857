import Winspd.Launcher.Instance
import Winspd.Launcher.Volume
import Winspd.Lib.Lifetimes

/-!
# The volumes of an instance: `launcher.c`

Before a process is stopped its volumes are dismounted. A volume stays locked
for as long as the handle is open that it was locked with, so the handles are
kept in the instance until it is released, when there is memory for that.

A handle is known by the number of its opening, so that a value the system uses
again is not mistaken for what it was. What the environment decides is given
with every call: how it ends to query, open, lock and dismount each of the
volumes, and whether there is memory.
-/

namespace Winspd.Launcher

open Winspd.Lib

def errorAccessDenied : UInt32 := 5
def errorNoAssociation : UInt32 := 1155
def errorDeviceInUse : UInt32 := 2404

/-- What `GetLastError` says once a call has failed. -/
abbrev LastError := { error : UInt32 // error ≠ errorSuccess }

abbrev HandleLog := ResourceLog

/-- A handle that is closed again where it was opened. -/
def HandleLog.opened (log : HandleLog) : HandleLog := log.acquire.1.release log.acquire.2

/-! ## One volume -/

/-- How the calls of `GetVolumeOwnerProcessId` end. -/
inductive VolumeQuery
  | openFails (error : LastError)
  | deviceFails (error : LastError)
  /-- The vendor is another one, or none. -/
  | otherVendor
  | deviceIdFails (error : LastError)
  | identifiers (ids : List StorageIdentifier)

/-- `GetVolumeOwnerProcessId`, with its handle. -/
def getVolumeOwnerProcessIdCall (log : HandleLog) :
    VolumeQuery → HandleLog × Except UInt32 UInt32
  | .openFails error => (log, .error error)
  | .deviceFails error | .deviceIdFails error => (HandleLog.opened log, .error error)
  | .otherVendor => (HandleLog.opened log, .error errorNoAssociation)
  | .identifiers ids =>
      match getVolumeOwnerProcessId ids with
      | some processId => (HandleLog.opened log, .ok processId)
      | none => (HandleLog.opened log, .error errorNoAssociation)

/-- How the calls of `OpenAndDismountVolume` end. -/
inductive VolumeDismount
  | openFails (error : LastError)
  | lockFails (error : LastError)
  | dismountFails (error : LastError)
  | dismounted

/-- `Error`, once the lock or the dismount has failed. -/
def dismountError (error : LastError) : UInt32 :=
  if errorAccessDenied = error then errorDeviceInUse else error

def openAndDismountVolume (log : HandleLog) : VolumeDismount → HandleLog × Except UInt32 Nat
  | .openFails error => (log, .error error)
  | .lockFails error | .dismountFails error =>
      (HandleLog.opened log, .error (dismountError error))
  | .dismounted => (log.acquire.1, .ok log.acquire.2)

/-! ## All volumes -/

/-- A volume that was found. -/
structure VisitedVolume where
  query : VolumeQuery
  dismount : VolumeDismount

/-- `FindFirstVolumeW` and what `FindNextVolumeW` goes on with. -/
inductive VolumeEnumeration
  | fails (error : LastError)
  | volumes (visits : List VisitedVolume)

/-- `CloseHandles`. -/
def closeHandles : HandleLog → List Nat → HandleLog
  | log, [] => log
  | log, handle :: handles => closeHandles (log.release handle) handles

/-- The variables of the loop. `handles` is `Handles`, up to `Index`. -/
structure DismountLoop where
  log : HandleLog
  handles : List Nat
  devicesInUse : Nat

/-- The loop of `OpenAndDismountVolumesForProcessId`. -/
def dismountLoop (processId : UInt32) (count : Nat) :
    List VisitedVolume → DismountLoop → DismountLoop
  | [], s => s
  | visit :: visits, s =>
      if count ≤ s.handles.length then s
      else
        let owner := getVolumeOwnerProcessIdCall s.log visit.query
        if owner.2.toOption ≠ some processId then
          dismountLoop processId count visits { s with log := owner.1 }
        else
          match openAndDismountVolume owner.1 visit.dismount with
          | (log, .ok handle) =>
              dismountLoop processId count visits
                { s with log := log, handles := s.handles ++ [handle] }
          | (log, .error error) =>
              dismountLoop processId count visits
                { s with
                  log := log
                  devicesInUse :=
                    if errorDeviceInUse = error then s.devicesInUse + 1 else s.devicesInUse }

/-- What `OpenAndDismountVolumesForProcessId` returns, with `Handles` and
`*PCount`. -/
structure DismountResult where
  log : HandleLog
  error : UInt32
  handles : List Nat
  count : Nat

def openAndDismountVolumesForProcessId (log : HandleLog) (processId : UInt32) (count : Nat) :
    VolumeEnumeration → DismountResult
  | .fails error => ⟨log, error, [], 0⟩
  | .volumes visits =>
      let s := dismountLoop processId count visits ⟨log, [], 0⟩
      -- treat only non-zero DevicesInUse as error
      let error := if 0 = s.devicesInUse then errorSuccess else errorDeviceInUse
      ⟨if errorSuccess ≠ error then closeHandles s.log s.handles else s.log, error, s.handles,
        s.handles.length⟩

/-! ## The instance -/

/-- `VolumeHandles`, which can be null, up to `VolumeHandleCount`. -/
structure InstanceVolumes where
  log : HandleLog
  volumeHandles : Option (List Nat)

def InstanceVolumes.init : InstanceVolumes := ⟨.empty, none⟩

/-- A call of `SvcInstanceKill`: how the enumeration goes, if there is one, and
whether there is memory for the handles. -/
structure KillCall where
  forced : Bool
  enumeration : VolumeEnumeration
  allocated : Bool

/-- `sizeof Handles / sizeof Handles[0]`. -/
def killHandles : Nat := 256

/-- `SvcInstanceKill`: the error, and whether the process is killed. -/
def svcInstanceKill (processId : UInt32) (s : InstanceVolumes) (call : KillCall) :
    InstanceVolumes × UInt32 × Bool :=
  match s.volumeHandles with
  -- if we already have volume handles we are not going to try dismounting again!
  | some _ => (s, errorSuccess, true)
  | none =>
      let r := openAndDismountVolumesForProcessId s.log processId killHandles call.enumeration
      let killed := decide (errorSuccess = r.error) || call.forced
      if errorSuccess = r.error ∧ 0 < r.count ∧ call.allocated = true then
        (⟨closeHandles r.log [], some (r.handles.take r.count)⟩, r.error, killed)
      else (⟨closeHandles r.log (r.handles.take r.count), none⟩, r.error, killed)

/-- `SvcInstanceKill`, again and again. -/
def svcInstanceKills (processId : UInt32) (calls : List KillCall) : InstanceVolumes :=
  calls.foldl (fun s call => (svcInstanceKill processId s call).1) .init

/-- What the last `SvcInstanceRelease` does with `VolumeHandles`. -/
def svcInstanceReleaseVolumes (s : InstanceVolumes) : HandleLog :=
  match s.volumeHandles with
  | some handles => closeHandles s.log handles
  | none => s.log

end Winspd.Launcher
