import Winspd.Lib.Lifetimes
import Winspd.Rawdisk.Rawdisk
import Winspd.Shared.Mbr
import Winspd.Shared.Stghandle
import Winspd.Shared.Strings

/-!
# The process of the raw disk: `rawdisk.c` and the guards of `winspd.h`

`RawDiskCreate`, `RawDiskDelete` and what `wmain` does with them, with the handler of
console events, which comes in a thread of its own, and with the dispatcher threads.

Memory, handles, views and storage units are numbered, and a `ResourceLog` says which
are there. The functions of the storage unit are one action each: that
`SpdStorageUnitWaitDispatcher` returns when no dispatcher thread is left is about
`stgunit.c`. What a dispatcher thread does between its beginning and its end is any
sequence of uses of the unit, of the view and of the file.

Nothing comes after `ExitProcess`. The file is new and empty, or it was there; nobody
else has it open. The names of the file and of the pipe go to system calls only.
-/

namespace Winspd.Rawdisk

open Winspd.Lib Winspd.Sys Winspd.Shared

/-- `RAWDISK`, and where it is. -/
structure RawDiskObject where
  rawDisk : RawDisk
  memory : Nat
  storageUnit : Nat
  handle : Nat
  mapping : Nat
  pointer : Nat
  deriving DecidableEq, Repr

structure RawDiskProcess where
  file : RawDiskFile
  /-- The file pointer of `Handle`. -/
  position : UInt64
  resources : ResourceLog
  /-- `StorageUnitParams` of the unit. -/
  params : StorageUnitParams
  /-- `UserContext` of the unit. -/
  userContext : Option RawDiskObject
  /-- The dispatcher threads that have not begun. -/
  ready : Nat
  running : Nat
  /-- Is `ConsoleCtrlHandler` set? -/
  handlerSet : Bool
  /-- `ConsoleCtrlGuard`: its lock, and `Pointer`. -/
  lockShared : Nat
  lockExclusive : Bool
  guardPointer : Option Nat

def RawDiskProcess.init (file : RawDiskFile) : RawDiskProcess where
  file := file
  position := 0
  resources := .empty
  params := .zero
  userContext := none
  ready := 0
  running := 0
  handlerSet := false
  lockShared := 0
  lockExclusive := false
  guardPointer := none

/-! ## Actions -/

inductive ProcessAction
  | uuidCreate
  | wideCharToMultiByte (chars : List UInt16) (size : Nat)
  | malloc
  | free (memory : Option Nat)
  | createFile
  /-- `DeviceIoControl(..., FSCTL_SET_SPARSE, ...)`. -/
  | setSparse (handle : Nat)
  | getFileSizeEx (handle : Nat)
  | setFilePointerEx (handle : Nat) (distance : UInt64)
  | setEndOfFile (handle : Nat)
  | createFileMapping (handle : Nat)
  | mapViewOfFile (mapping : Nat)
  | unmapViewOfFile (pointer : Nat)
  | closeHandle (handle : Nat)
  | spdDefinePartitionTable (partition : SpdPartition) (pointer : Nat)
  /-- An access to the view, or a system call with the view or the handle. -/
  | file (pointer handle : Nat) (a : FileAction)
  | spdStorageUnitCreate (params : StorageUnitParams)
  | spdStorageUnitDelete (storageUnit : Nat)
  | setUserContext (storageUnit : Nat) (rawDisk : RawDiskObject)
  | spdStorageUnitStartDispatcher (storageUnit : Nat) (threadCount : UInt32)
  | spdStorageUnitWaitDispatcher (storageUnit : Nat)
  | spdStorageUnitShutdown (storageUnit : Option Nat)
  | exitProcess (error : UInt32)
  | acquireExclusive
  | releaseExclusive
  | acquireShared
  | releaseShared
  | readPointer
  | setPointer (pointer : Option Nat)
  | setConsoleCtrlHandler
  /-- A thread comes for a console event. -/
  | consoleCtrl
  /-- A dispatcher thread begins. -/
  | beginThread
  | createThread (storageUnit : Nat)
  /-- `SpdStorageUnitHandleTransact`, and so on. -/
  | useUnit (storageUnit : Nat)
  | endThread

namespace ProcessAction

abbrev Answer : ProcessAction → Type
  | .uuidCreate => Guid
  | .wideCharToMultiByte .. => Option (List UInt8)
  | .malloc => Option Nat
  | .createFile => Except UInt32 Nat
  | .setSparse _ => Bool
  | .getFileSizeEx _ => Except UInt32 UInt64
  | .setFilePointerEx .. | .setEndOfFile _ => UInt32
  | .createFileMapping _ | .mapViewOfFile _ => Except UInt32 Nat
  | .spdDefinePartitionTable .. => UInt32
  | .file _ _ a => a.Answer
  | .spdStorageUnitCreate _ => Except UInt32 Nat
  | .spdStorageUnitStartDispatcher .. => UInt32
  | .exitProcess _ => Empty
  | .readPointer => Option Nat
  | .beginThread => RawDiskObject
  | _ => Unit

end ProcessAction

/-- What the environment decides about an action. -/
inductive ProcessChoice
  /-- A system call ends with an error, or with zero. -/
  | ends (error : UInt32)
  | file (c : FileChoice)
  | creates (guid : Guid)
  | converts (bytes : List UInt8)

namespace RawDiskFile

/-- The end of the file is set. What comes new is zero. -/
def setEnd (file : RawDiskFile) (size : Nat) : RawDiskFile :=
  let extend (bytes : Nat → UInt8) (p : Nat) : UInt8 := if p < file.size then bytes p else 0
  ⟨size, extend file.view, extend file.written, extend file.durable⟩

/-- Bytes at the beginning of the view. -/
def overwrite (file : RawDiskFile) (bytes : List UInt8) : RawDiskFile :=
  { file with view := fun p => bytes.getD p (file.view p) }

end RawDiskFile

namespace RawDiskProcess

/-- A resource that is new. -/
def acquire (s : RawDiskProcess) : RawDiskProcess × Nat :=
  ({ s with resources := s.resources.acquire.1 }, s.resources.acquire.2)

def release (s : RawDiskProcess) (r : Nat) : RawDiskProcess :=
  { s with resources := s.resources.release r }

/-- It is acquired, if there is no error. -/
def tryAcquire (s : RawDiskProcess) (error : UInt32) : RawDiskProcess × Except UInt32 Nat :=
  if error = 0 then (s.acquire.1, .ok s.acquire.2) else (s, .error error)

end RawDiskProcess

namespace ProcessAction

/-- `none` when the action cannot be executed, or cannot end so. -/
def exec (s : RawDiskProcess) :
    (a : ProcessAction) → ProcessChoice → Option (RawDiskProcess × a.Answer)
  | .uuidCreate, .creates guid => some (s, guid)
  | .wideCharToMultiByte _ size, .converts bytes =>
      if bytes ≠ [] ∧ bytes.length ≤ size then some (s, some bytes) else none
  | .wideCharToMultiByte .., .ends _ => some (s, none)
  | .malloc, .ends error =>
      if error = 0 then some (s.acquire.1, some s.acquire.2) else some (s, none)
  | .free none, _ => some (s, ())
  | .free (some memory), _ => some (s.release memory, ())
  | .createFile, .ends error => some (s.tryAcquire error)
  | .setSparse _, .ends error => some (s, error = 0)
  | .getFileSizeEx _, .ends error =>
      if error = 0 then
        if s.file.size < 2 ^ 63 then some (s, .ok (UInt64.ofNat s.file.size)) else none
      else some (s, .error error)
  | .setFilePointerEx _ distance, .ends error =>
      if error = 0 then
        -- a distance that is negative is an error
        if distance.toNat < 2 ^ 63 then some ({ s with position := distance }, 0) else none
      else some (s, error)
  | .setEndOfFile _, .ends error =>
      if error = 0 then some ({ s with file := s.file.setEnd s.position.toNat }, 0)
      else some (s, error)
  | .createFileMapping _, .ends error => some (s.tryAcquire error)
  | .mapViewOfFile _, .ends error => some (s.tryAcquire error)
  | .unmapViewOfFile pointer, _ => some (s.release pointer, ())
  | .closeHandle handle, _ => some (s.release handle, ())
  | .spdDefinePartitionTable partition _, _ =>
      let r := Shared.spdDefinePartitionTable (fun _ => partition) 1 []
      if r.1 ≠ mbrSuccess then some (s, r.1)
      -- an access outside of the view is an access violation
      else if r.2.length ≤ s.file.size then
        some ({ s with file := s.file.overwrite r.2 }, r.1)
      else none
  | .file _ _ a, .file c => (a.exec s.file c).map fun x => ({ s with file := x.1 }, x.2)
  | .spdStorageUnitCreate params, .ends error =>
      some ({ s with params := params }.tryAcquire error)
  | .spdStorageUnitDelete storageUnit, _ => some (s.release storageUnit, ())
  | .setUserContext _ rawDisk, _ => some ({ s with userContext := some rawDisk }, ())
  | .spdStorageUnitStartDispatcher _ _, .ends error =>
      if error = 0 then some ({ s with ready := s.ready + 1 }, 0) else some (s, error)
  | .spdStorageUnitWaitDispatcher _, _ =>
      if s.ready = 0 ∧ s.running = 0 then some (s, ()) else none
  | .spdStorageUnitShutdown _, _ => some (s, ())
  | .acquireExclusive, _ =>
      if s.lockShared = 0 ∧ s.lockExclusive = false then
        some ({ s with lockExclusive := true }, ())
      else none
  | .releaseExclusive, _ => some ({ s with lockExclusive := false }, ())
  | .acquireShared, _ =>
      if s.lockExclusive = false then some ({ s with lockShared := s.lockShared + 1 }, ())
      else none
  | .releaseShared, _ => some ({ s with lockShared := s.lockShared - 1 }, ())
  | .readPointer, _ => some (s, s.guardPointer)
  | .setPointer pointer, _ => some ({ s with guardPointer := pointer }, ())
  | .setConsoleCtrlHandler, _ => some ({ s with handlerSet := true }, ())
  | .consoleCtrl, _ => if s.handlerSet then some (s, ()) else none
  | .beginThread, _ =>
      if s.ready = 0 then none
      else s.userContext.map fun rawDisk =>
        ({ s with ready := s.ready - 1, running := s.running + 1 }, rawDisk)
  | .createThread _, .ends error =>
      some (if error = 0 then { s with ready := s.ready + 1 } else s, ())
  | .useUnit _, _ => some (s, ())
  | .endThread, _ => some ({ s with running := s.running - 1 }, ())
  | _, _ => none

/-- What the action can do. -/
def Exec (s : RawDiskProcess) (a : ProcessAction) (r : a.Answer) (s' : RawDiskProcess) : Prop :=
  ∃ c, a.exec s c = some (s', r)

end ProcessAction

/-! ## RawDiskCreate -/

abbrev ProcessProg := Prog ProcessAction ProcessAction.Answer

abbrev processAction (a : ProcessAction) : ProcessProg a.Answer := Prog.perform a

def errorNotEnoughMemory : UInt32 := 8

/-- The arguments of `RawDiskCreate`, without names. -/
structure RawDiskArgs where
  blockCount : UInt64
  blockLength : UInt32
  productId : WString
  productRevision : WString
  writeProtected : Bool
  cacheSupported : Bool
  unmapSupported : Bool

namespace RawDiskArgs

variable (args : RawDiskArgs)

/-- `BlockCount * BlockLength`. -/
def size : UInt64 := args.blockCount * args.blockLength.toUInt64

/-- `Partition`. `BlockLength` is not zero there, or the size would be. -/
def partition : SpdPartition :=
  let blockAddress : UInt32 := if args.blockLength ≤ 4096 then 4096 / args.blockLength else 1
  ⟨7, 0, blockAddress.toUInt64, args.blockCount - blockAddress.toUInt64⟩

/-- An array of a structure that was zero. -/
def field (n : Nat) (bytes : List UInt8) : Vector UInt8 n := Vector.ofFn fun i => bytes.getD i 0

end RawDiskArgs

/-- `StorageUnitParams`. -/
def rawDiskParams (args : RawDiskArgs) : ProcessProg (Option StorageUnitParams) := do
  let guid ← processAction .uuidCreate
  let productId ← processAction (.wideCharToMultiByte args.productId.chars 16)
  match productId with
  | none => pure none
  | some productId => do
      let productRevision ← processAction (.wideCharToMultiByte args.productRevision.chars 4)
      match productRevision with
      | none => pure none
      | some productRevision =>
          pure (some
            { StorageUnitParams.zero with
              guid := guid
              blockCount := args.blockCount
              blockLength := args.blockLength
              maxTransferLength := 64 * 1024
              productId := RawDiskArgs.field 16 productId
              productRevisionLevel := RawDiskArgs.field 4 productRevision
              writeProtected := args.writeProtected
              cacheSupported := args.cacheSupported
              unmapSupported := args.unmapSupported })

/-- `if (0 != Pointer)`, and so on. -/
def ifThere (a : Nat → ProcessProg Unit) : Option Nat → ProcessProg Unit
  | none => pure ()
  | some r => a r

/-- The variables that `exit` looks at. -/
structure RawDiskLocals where
  rawDisk : Option Nat
  handle : Option Nat
  mapping : Option Nat
  pointer : Option Nat
  storageUnit : Option Nat

/-- From `exit` on, with an error. -/
def rawDiskExit (v : RawDiskLocals) (error : UInt32) :
    ProcessProg (Except UInt32 RawDiskObject) := do
  ifThere (fun r => processAction (.spdStorageUnitDelete r)) v.storageUnit
  ifThere (fun r => processAction (.unmapViewOfFile r)) v.pointer
  ifThere (fun r => processAction (.closeHandle r)) v.mapping
  ifThere (fun r => processAction (.closeHandle r)) v.handle
  processAction (.free v.rawDisk)
  pure (.error error)

/-- `if (ZeroSize)`. -/
def rawDiskTable (args : RawDiskArgs) (handle pointer : Nat) (zeroSize : Bool) :
    ProcessProg Unit :=
  if zeroSize then do
    let error ← processAction (.spdDefinePartitionTable args.partition pointer)
    if error = mbrSuccess then do
      let _ ← processAction (.file pointer handle (.flushViewOfFile 0 0))
      let _ ← processAction (.file pointer handle .flushFileBuffers)
      pure ()
    else pure ()
  else pure ()

/-- From `SpdStorageUnitCreate` on. -/
def rawDiskUnit (args : RawDiskArgs) (params : StorageUnitParams) (sparse : Bool)
    (rawDisk handle mapping pointer : Nat) : ProcessProg (Except UInt32 RawDiskObject) := do
  let r ← processAction (.spdStorageUnitCreate params)
  match r with
  | .error error =>
      rawDiskExit ⟨some rawDisk, some handle, some mapping, some pointer, none⟩ error
  | .ok storageUnit => do
      let object : RawDiskObject :=
        ⟨⟨args.blockCount, args.blockLength, sparse⟩, rawDisk, storageUnit, handle,
          mapping, pointer⟩
      processAction (.setUserContext storageUnit object)
      pure (.ok object)

/-- From `CreateFileMappingW` on. -/
def rawDiskMap (args : RawDiskArgs) (params : StorageUnitParams) (sparse zeroSize : Bool)
    (rawDisk handle : Nat) : ProcessProg (Except UInt32 RawDiskObject) := do
  let r ← processAction (.createFileMapping handle)
  match r with
  | .error error => rawDiskExit ⟨some rawDisk, some handle, none, none, none⟩ error
  | .ok mapping => do
      let r ← processAction (.mapViewOfFile mapping)
      match r with
      | .error error => rawDiskExit ⟨some rawDisk, some handle, some mapping, none, none⟩ error
      | .ok pointer => do
          rawDiskTable args handle pointer zeroSize
          rawDiskUnit args params sparse rawDisk handle mapping pointer

/-- From `SetFilePointerEx` on. -/
def rawDiskResize (args : RawDiskArgs) (params : StorageUnitParams) (sparse zeroSize : Bool)
    (fileSize : UInt64) (rawDisk handle : Nat) : ProcessProg (Except UInt32 RawDiskObject) := do
  let error ← processAction (.setFilePointerEx handle fileSize)
  if error ≠ errorSuccess then rawDiskExit ⟨some rawDisk, some handle, none, none, none⟩ error
  else do
    let error ← processAction (.setEndOfFile handle)
    if error ≠ errorSuccess then
      rawDiskExit ⟨some rawDisk, some handle, none, none, none⟩ error
    else rawDiskMap args params sparse zeroSize rawDisk handle

def rawDiskOpened (args : RawDiskArgs) (params : StorageUnitParams) (rawDisk handle : Nat) :
    ProcessProg (Except UInt32 RawDiskObject) := do
  let sparse ← processAction (.setSparse handle)
  let r ← processAction (.getFileSizeEx handle)
  match r with
  | .error error => rawDiskExit ⟨some rawDisk, some handle, none, none, none⟩ error
  | .ok size =>
      let zeroSize : Bool := size = 0
      let fileSize := if zeroSize then args.size else size
      if fileSize = 0 ∨ args.size ≠ fileSize then
        rawDiskExit ⟨some rawDisk, some handle, none, none, none⟩ errorInvalidParameter
      else rawDiskResize args params sparse zeroSize fileSize rawDisk handle

def rawDiskCreate (args : RawDiskArgs) : ProcessProg (Except UInt32 RawDiskObject) := do
  let params ← rawDiskParams args
  match params with
  | none => rawDiskExit ⟨none, none, none, none, none⟩ errorInvalidParameter
  | some params => do
      let rawDisk ← processAction .malloc
      match rawDisk with
      | none => rawDiskExit ⟨none, none, none, none, none⟩ errorNotEnoughMemory
      | some rawDisk => do
          let r ← processAction .createFile
          match r with
          | .error error => rawDiskExit ⟨some rawDisk, none, none, none, none⟩ error
          | .ok handle => rawDiskOpened args params rawDisk handle

def rawDiskDelete (rawDisk : RawDiskObject) : ProcessProg Unit := do
  processAction (.spdStorageUnitDelete rawDisk.storageUnit)
  let _ ← processAction (.file rawDisk.pointer rawDisk.handle (.flushViewOfFile 0 0))
  let _ ← processAction (.file rawDisk.pointer rawDisk.handle .flushFileBuffers)
  processAction (.unmapViewOfFile rawDisk.pointer)
  processAction (.closeHandle rawDisk.mapping)
  processAction (.closeHandle rawDisk.handle)
  processAction (.free (some rawDisk.memory))

/-! ## Threads -/

def spdGuardSet (pointer : Option Nat) : ProcessProg Unit := do
  processAction .acquireExclusive
  processAction (.setPointer pointer)
  processAction .releaseExclusive

/-- `SpdGuardExecute`, with `SpdStorageUnitShutdown`. -/
def spdGuardExecute : ProcessProg Unit := do
  processAction .acquireShared
  let pointer ← processAction .readPointer
  if pointer ≠ none then do
    let pointer ← processAction .readPointer
    processAction (.spdStorageUnitShutdown pointer)
  else pure ()
  processAction .releaseShared

def consoleCtrlHandler : ProcessProg Unit := do
  processAction .consoleCtrl
  spdGuardExecute

/-- `fail`. -/
def failProcess (error : UInt32) : ProcessProg Unit := do
  let never ← processAction (.exitProcess error)
  never.elim

/-- `wmain`, from `RawDiskCreate` on. -/
def rawDiskMain (args : RawDiskArgs) : ProcessProg Unit := do
  let r ← rawDiskCreate args
  match r with
  | .error error => failProcess error
  | .ok rawDisk => do
      let error ← processAction (.spdStorageUnitStartDispatcher rawDisk.storageUnit 2)
      if error ≠ errorSuccess then failProcess error
      else do
        spdGuardSet (some rawDisk.storageUnit)
        processAction .setConsoleCtrlHandler
        processAction (.spdStorageUnitWaitDispatcher rawDisk.storageUnit)
        spdGuardSet none
        rawDiskDelete rawDisk

/-- What a dispatcher thread can do. -/
inductive DispatcherUse
  | unit
  | file (a : FileAction)
  | create

def DispatcherUse.prog (rawDisk : RawDiskObject) : DispatcherUse → ProcessProg Unit
  | .unit => processAction (.useUnit rawDisk.storageUnit)
  | .file a => do
      let _ ← processAction (.file rawDisk.pointer rawDisk.handle a)
      pure ()
  | .create => processAction (.createThread rawDisk.storageUnit)

def dispatcherUses (rawDisk : RawDiskObject) : List DispatcherUse → ProcessProg Unit
  | [] => pure ()
  | use :: uses => do
      use.prog rawDisk
      dispatcherUses rawDisk uses

def diskDispatcherThread (uses : List DispatcherUse) : ProcessProg Unit := do
  let rawDisk ← processAction .beginThread
  dispatcherUses rawDisk uses
  processAction .endThread

end Winspd.Rawdisk
