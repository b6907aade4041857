import Mathlib.Logic.Function.Basic
import Winspd.Lib.Threads
import Winspd.Shared.Strings

/-!
# launcher/launcher.c: service instances

The functions that create, list and release `SVC_INSTANCE`s as programs, and
the machine their actions run on. Threads can be interrupted between any two
actions; what is done under `SvcInstanceLock` to things that only change under
it is one action: a walk of the list, the reads of an instance.

An instance is known by the number of its allocation, so that memory that is
used again is not mistaken for what it was. An action on an instance that has
been freed cannot be executed.

What the environment decides is a `Choice`: how a system call or a check ends,
the process that was created, and when the callback of a wait is called.
-/

namespace Winspd.Launcher

open Winspd.Lib Winspd.Shared

def errorSuccess : UInt32 := 0
def errorFileNotFound : UInt32 := 2
def errorInvalidParameter : UInt32 := 87
def errorInsufficientBuffer : UInt32 := 122
def errorAlreadyExists : UInt32 := 183
def errorNoSystemResources : UInt32 := 1450

/-- `SVC_INSTANCE`, as far as it is used here. -/
structure SvcInstance where
  refCount : Int32
  className : WString
  instanceName : WString
  commandLine : WString
  processId : UInt32
  deriving DecidableEq, Repr

/-- `L".pid."`. -/
def pidClass : WString := ⟨[0x2e, 0x70, 0x69, 0x64, 0x2e], by decide⟩

/-! ## Lookup -/

/-- Two instances of one class have the same name, up to case. -/
def SvcInstance.Named (x : SvcInstance) (className instanceName : WString) : Prop :=
  className.Same x.className ∧ instanceName.Same x.instanceName

instance (x : SvcInstance) (className instanceName : WString) :
    Decidable (x.Named className instanceName) := by
  unfold SvcInstance.Named
  infer_instance

/-- `SvcInstanceLookupByPid`, in the instances of the list. -/
def svcInstanceLookupByPid (listed : List (Nat × SvcInstance)) (processId : UInt32) : Option Nat :=
  (listed.find? fun x => processId = x.2.processId).map Prod.fst

/-- `SvcInstanceLookup`. -/
def svcInstanceLookup (listed : List (Nat × SvcInstance)) (className instanceName : WString)
    (allowPidLookup : Bool) : Option Nat :=
  if allowPidLookup ∧ className.Same pidClass then
    let processId := (wcstoint instanceName.chars 0 false).1.toInt32.toUInt32
    svcInstanceLookupByPid listed processId
  else (listed.find? fun x => x.2.Named className instanceName).map Prod.fst

/-! ## The machine -/

structure LauncherState where
  /-- Is `SvcInstanceLock` held? -/
  locked : Bool
  /-- Is `SvcInstanceEvent` signalled? -/
  event : Bool
  /-- `SvcInstanceList`. -/
  list : List Nat
  memory : Nat → Option SvcInstance
  /-- The number of the next allocation. -/
  next : Nat
  /-- Was `SvcInstanceTerminated` registered for it, and not called yet? -/
  waiting : Nat → Bool

/-- After `SvcOnStart`. -/
def LauncherState.init : LauncherState := ⟨false, true, [], fun _ => none, 0, fun _ => false⟩

namespace LauncherState

/-- The instances of the list, when all of them are there. -/
def listed (s : LauncherState) : Option (List (Nat × SvcInstance)) :=
  s.list.mapM fun id => (s.memory id).map fun x => (id, x)

/-- A read of an instance and a write to it. -/
def access {α : Type} (s : LauncherState) (id : Nat) (f : SvcInstance → SvcInstance × α) :
    Option (LauncherState × α) :=
  (s.memory id).map fun x =>
    ({ s with memory := Function.update s.memory id (some (f x).1) }, (f x).2)

end LauncherState

inductive InstanceAction
  /-- `EnterCriticalSection`. -/
  | enterLock
  | leaveLock
  | lookup (className instanceName : WString) (allowPidLookup : Bool)
  /-- The entries of the list, in a loop over it. -/
  | entries
  /-- What `SvcInstanceCreate` reads from the registry, and its checks. -/
  | configure
  /-- `MemAlloc`, and what is stored before anything can fail. -/
  | memAlloc (className instanceName : WString)
  /-- `SvcInstanceReplaceArguments`, into `CommandLine`. -/
  | replaceArguments (id : Nat)
  /-- `SvcInstanceCreateProcess`, and `ProcessId`. -/
  | createProcess (id : Nat)
  /-- `RegisterWaitForSingleObject`. -/
  | registerWait (id : Nat)
  | insertTail (id : Nat)
  | resetEvent
  | setEvent
  /-- `InterlockedDecrement(&SvcInstance->RefCount)`. -/
  | decrement (id : Nat)
  /-- `RemoveEntryList`: is the list empty now? -/
  | removeEntry (id : Nat)
  | read (id : Nat)
  | accessCheck (id : Nat)
  /-- `SvcInstanceKill`. -/
  | kill (id : Nat) (forced : Bool)
  /-- `SvcInstanceSetPersistent`, into `Persistent`. -/
  | setPersistent (id : Nat)
  | deletePersistent (id : Nat)
  /-- What `SvcInstanceRelease` closes and frees of the instance. -/
  | closeHandles (id : Nat)
  | memFree (id : Nat)
  /-- `WaitForSingleObject(SvcInstanceEvent, ...)`. -/
  | waitEvent
  /-- The system calls `SvcInstanceTerminated`. -/
  | terminated

namespace InstanceAction

abbrev Answer : InstanceAction → Type
  | .lookup .. => Option Nat
  | .entries => List Nat
  | .configure => UInt32
  | .memAlloc .. => Option Nat
  | .replaceArguments _ => UInt32
  | .createProcess _ => UInt32
  | .registerWait _ => UInt32
  | .decrement _ => Int32
  | .removeEntry _ => Bool
  | .read _ => SvcInstance
  | .accessCheck _ => UInt32
  | .kill .. => UInt32
  -- the `Context` of the callback
  | .terminated => Nat
  | _ => Unit

/-- The instances an action reads or writes. -/
def uses (s : LauncherState) : InstanceAction → List Nat
  | .lookup .. | .entries => s.list
  | .insertTail id | .removeEntry id => id :: s.list
  | .replaceArguments id | .createProcess id | .registerWait id | .decrement id | .read id
  | .accessCheck id | .kill id _ | .setPersistent id | .deletePersistent id | .closeHandles id
  | .memFree id => [id]
  | _ => []

end InstanceAction

/-- What the environment decides about an action. -/
inductive Choice
  /-- A call or a check ends with an error, or with zero. -/
  | ends (error : UInt32)
  | replaces (commandLine : WString)
  | creates (processId : UInt32)
  | calls (id : Nat)

namespace InstanceAction

/-- `none` when the action cannot be executed, or cannot end so. -/
def exec (s : LauncherState) :
    (a : InstanceAction) → Choice → Option (LauncherState × a.Answer)
  | .enterLock, _ => if s.locked then none else some ({ s with locked := true }, ())
  | .leaveLock, _ => some ({ s with locked := false }, ())
  | .lookup className instanceName allowPidLookup, _ =>
      s.listed.map fun listed => (s, svcInstanceLookup listed className instanceName allowPidLookup)
  | .entries, _ => s.listed.map fun _ => (s, s.list)
  | .configure, .ends error => some (s, error)
  | .memAlloc className instanceName, .ends error =>
      if error = errorSuccess then
        let x : SvcInstance := ⟨2, className, instanceName, .empty, 0⟩
        some ({ s with memory := Function.update s.memory s.next (some x), next := s.next + 1 },
          some s.next)
      else some (s, none)
  | .replaceArguments id, .replaces commandLine =>
      s.access id fun x => ({ x with commandLine := commandLine }, errorSuccess)
  | .replaceArguments id, .ends error =>
      if error = errorSuccess then none else s.access id fun x => (x, error)
  | .createProcess id, .creates processId =>
      s.access id fun x => ({ x with processId := processId }, errorSuccess)
  | .createProcess id, .ends error =>
      if error = errorSuccess then none else s.access id fun x => (x, error)
  | .registerWait id, .ends error =>
      if error = errorSuccess then
        (s.memory id).map fun _ => ({ s with waiting := Function.update s.waiting id true }, error)
      else (s.memory id).map fun _ => (s, error)
  | .insertTail id, _ =>
      if (s.memory id).isSome ∧ s.listed.isSome then some ({ s with list := s.list ++ [id] }, ())
      else none
  | .resetEvent, _ => some ({ s with event := false }, ())
  | .setEvent, _ => some ({ s with event := true }, ())
  | .decrement id, _ =>
      s.access id fun x => ({ x with refCount := x.refCount - 1 }, x.refCount - 1)
  | .removeEntry id, _ =>
      if (s.memory id).isSome ∧ s.listed.isSome then
        some ({ s with list := s.list.erase id }, (s.list.erase id).isEmpty)
      else none
  | .read id, _ => s.access id fun x => (x, x)
  | .accessCheck id, .ends error => s.access id fun x => (x, error)
  | .kill id _, .ends error => s.access id fun x => (x, error)
  | .setPersistent id, _ => s.access id fun x => (x, ())
  | .deletePersistent id, _ => s.access id fun x => (x, ())
  | .closeHandles id, _ => s.access id fun x => (x, ())
  | .memFree id, _ =>
      (s.memory id).map fun _ => ({ s with memory := Function.update s.memory id none }, ())
  | .waitEvent, _ => some (s, ())
  | .terminated, .calls id =>
      if s.waiting id then some ({ s with waiting := Function.update s.waiting id false }, id)
      else none
  | _, _ => none

end InstanceAction

/-! ## The functions -/

abbrev LauncherProg := Prog InstanceAction InstanceAction.Answer

abbrev launcherAction (a : InstanceAction) : LauncherProg a.Answer := Prog.perform a

/-- From `exit` on, with an instance. -/
def svcInstanceDiscard (id : Nat) (error : UInt32) : LauncherProg (Except UInt32 Nat) := do
  launcherAction (.memFree id)
  pure (.error error)

/-- Once there is an instance. -/
def svcInstanceFill (id : Nat) : LauncherProg (Except UInt32 Nat) := do
  let error ← launcherAction (.replaceArguments id)
  if error ≠ errorSuccess then svcInstanceDiscard id error
  else do
    let error ← launcherAction (.createProcess id)
    if error ≠ errorSuccess then svcInstanceDiscard id error
    else do
      let error ← launcherAction (.registerWait id)
      if error ≠ errorSuccess then svcInstanceDiscard id error
      else do
        launcherAction (.insertTail id)
        launcherAction .resetEvent
        pure (.ok id)

/-- What `SvcInstanceCreate` does under the lock. -/
def svcInstanceCreateLocked (className instanceName : WString) :
    LauncherProg (Except UInt32 Nat) :=
  if className.Same pidClass then pure (.error errorInvalidParameter)
  else do
    let found ← launcherAction (.lookup className instanceName false)
    match found with
    | some _ => pure (.error errorAlreadyExists)
    | none => do
        let error ← launcherAction .configure
        if error ≠ errorSuccess then pure (.error error)
        else do
          let block ← launcherAction (.memAlloc className instanceName)
          match block with
          | none => pure (.error errorNoSystemResources)
          | some id => svcInstanceFill id

/-- `SvcInstanceCreate`: the error, or the instance. -/
def svcInstanceCreate (className instanceName : WString) : LauncherProg (Except UInt32 Nat) := do
  launcherAction .enterLock
  let r ← svcInstanceCreateLocked className instanceName
  launcherAction .leaveLock
  pure r

/-- `if (RemoveEntryList(...)) SetEvent(SvcInstanceEvent)`. -/
def svcInstanceUnlink (id : Nat) : LauncherProg Unit := do
  let empty ← launcherAction (.removeEntry id)
  if empty then launcherAction .setEvent else pure ()

/-- `SvcInstanceRelease`, once the count is zero. -/
def svcInstanceRemove (id : Nat) : LauncherProg Unit := do
  launcherAction .enterLock
  svcInstanceUnlink id
  launcherAction .leaveLock
  launcherAction (.closeHandles id)
  launcherAction (.memFree id)

def svcInstanceRelease (id : Nat) : LauncherProg Unit := do
  let refCount ← launcherAction (.decrement id)
  if refCount ≠ 0 then pure () else svcInstanceRemove id

def svcInstanceTerminated : LauncherProg Unit := do
  let id ← launcherAction .terminated
  let _ ← launcherAction (.read id)
  svcInstanceRelease id

def svcInstanceStart (className instanceName : WString) : LauncherProg UInt32 := do
  let r ← svcInstanceCreate className instanceName
  match r with
  | .error error => pure error
  | .ok id => do
      launcherAction (.setPersistent id)
      svcInstanceRelease id
      pure errorSuccess

/-- `SvcInstanceStartAllPersistent`, with what the registry says. -/
def svcInstanceStartAllPersistent : List (WString × WString) → LauncherProg Unit
  | [] => pure ()
  | (className, instanceName) :: records => do
      let r ← svcInstanceCreate className instanceName
      match r with
      | .error _ => svcInstanceStartAllPersistent records
      | .ok id => do
          svcInstanceRelease id
          svcInstanceStartAllPersistent records

def svcInstanceStopFound (forced : Bool) (id : Nat) : LauncherProg UInt32 := do
  let error ← launcherAction (.accessCheck id)
  if error ≠ errorSuccess then pure error
  else do
    let error ← launcherAction (.kill id forced)
    if error ≠ errorSuccess then pure error
    else do
      launcherAction (.deletePersistent id)
      pure errorSuccess

/-- `SvcInstanceGetInfo`, when there is such an instance. -/
def svcInstanceGetInfoFound (size : Nat) (id : Nat) :
    LauncherProg (Except UInt32 (List UInt16)) := do
  let error ← launcherAction (.accessCheck id)
  if error ≠ errorSuccess then pure (.error error)
  else do
    let x ← launcherAction (.read id)
    let info := x.className.terminated ++ x.instanceName.terminated ++ x.commandLine.terminated
    pure (if size < info.length * 2 then .error errorInsufficientBuffer else .ok info)

/-- A lookup under the lock, and what is done with what it finds. -/
def withInstance {α : Type} (className instanceName : WString) (missing : α)
    (found : Nat → LauncherProg α) : LauncherProg α := do
  launcherAction .enterLock
  let r ← launcherAction (.lookup className instanceName true)
  match r with
  | none => do
      launcherAction .leaveLock
      pure missing
  | some id => do
      let x ← found id
      launcherAction .leaveLock
      pure x

def svcInstanceStop (className instanceName : WString) (forced : Bool) : LauncherProg UInt32 :=
  withInstance className instanceName errorFileNotFound (svcInstanceStopFound forced)

def svcInstanceGetInfo (className instanceName : WString) (size : Nat) :
    LauncherProg (Except UInt32 (List UInt16)) :=
  withInstance className instanceName (.error errorFileNotFound) (svcInstanceGetInfoFound size)

/-- The loop of `SvcInstanceGetNameList`, with room for so many characters. -/
def svcNameList : Nat → List Nat → LauncherProg (List UInt16)
  | _, [] => pure []
  | room, id :: rest => do
      let x ← launcherAction (.read id)
      let names := x.className.terminated ++ x.instanceName.terminated
      if room < names.length then pure []
      else do
        let more ← svcNameList (room - names.length) rest
        pure (names ++ more)

def svcInstanceGetNameList (size : Nat) : LauncherProg (List UInt16) := do
  launcherAction .enterLock
  let entries ← launcherAction .entries
  let names ← svcNameList (size / 2) entries
  launcherAction .leaveLock
  pure names

/-- The loop of `SvcInstanceStopAndWaitAll`. -/
def svcKillAll : List Nat → LauncherProg Unit
  | [] => pure ()
  | id :: rest => do
      let _ ← launcherAction (.kill id true)
      svcKillAll rest

def svcInstanceStopAndWaitAll : LauncherProg Unit := do
  launcherAction .enterLock
  let entries ← launcherAction .entries
  svcKillAll entries
  launcherAction .leaveLock
  launcherAction .waitEvent

/-- What the threads of the launcher run. -/
inductive LauncherEntry : LauncherProg Unit → Prop
  | start (className instanceName : WString) :
      LauncherEntry (do let _ ← svcInstanceStart className instanceName)
  | startAllPersistent (records : List (WString × WString)) :
      LauncherEntry (svcInstanceStartAllPersistent records)
  | stop (className instanceName : WString) (forced : Bool) :
      LauncherEntry (do let _ ← svcInstanceStop className instanceName forced)
  | getInfo (className instanceName : WString) (size : Nat) :
      LauncherEntry (do let _ ← svcInstanceGetInfo className instanceName size)
  | getNameList (size : Nat) : LauncherEntry (do let _ ← svcInstanceGetNameList size)
  | stopAndWaitAll : LauncherEntry svcInstanceStopAndWaitAll
  | terminated : LauncherEntry svcInstanceTerminated

/-- An action can answer `r` and leave state `s'`. -/
def InstanceAction.Exec (s : LauncherState) (a : InstanceAction) (r : a.Answer)
    (s' : LauncherState) : Prop := ∃ c, a.exec s c = some (s', r)

abbrev LauncherEvent := ThreadEvent InstanceAction InstanceAction.Answer

end Winspd.Launcher
