import Winspd.Shared.Stghandle

/-!
# shared/stgunit.c: dispatcher threads

`SpdStorageUnitStartDispatcher`, the threads it starts, and user code that
answers requests. A dispatcher thread creates the next one before it goes into
its loop, and waits for it after. Threads can be interrupted between any two
actions; a read or a write of a field of the unit is one.

The transport is any: a transact call answers what it likes, and a request gets
the number it is known by when it is handed out. An action says which thread
makes it, by the number of the thread; threads are numbered in the order in
which they are created, and a number is a handle and a thread id too. A thread
that was created runs when its program comes and makes its first action,
`begin`.
-/

namespace Winspd.Shared

open Winspd.Lib Winspd.Sys

inductive ThreadStatus
  | none
  | suspended
  | ready
  | running
  | ended
  deriving DecidableEq, Repr

structure DispatcherUnit where
  /-- `DispatcherThreadCount`. -/
  threadCount : UInt32
  /-- `DispatcherError`. -/
  error : UInt32
  /-- `DispatcherThread`. -/
  thread : Option Nat
  /-- `DispatcherThreadId`. -/
  threadId : Option Nat
  status : Nat → ThreadStatus
  /-- The number of the next thread. -/
  next : Nat
  /-- The data buffers that are allocated. -/
  buffers : List Nat
  /-- The number of the next request. -/
  nextRequest : Nat
  /-- The requests whose operation returned `FALSE`, until user code takes them
  to answer them. -/
  pending : List Request

/-- After `SpdStorageUnitCreate`. -/
def DispatcherUnit.init : DispatcherUnit where
  threadCount := 0
  error := 0
  thread := none
  threadId := none
  status := fun _ => .none
  next := 0
  buffers := []
  nextRequest := 0
  pending := []

/-! ## Actions -/

inductive DispatcherAction
  | readThread
  | storeThread (thread : Option Nat)
  | processAffinityMask
  | readThreadCount
  | storeThreadCount (count : UInt32)
  /-- `CreateThread(..., CREATE_SUSPENDED, &DispatcherThreadId)`, into
  `DispatcherThread`. -/
  | createFirstThread
  | resumeThread (thread : Nat)
  | closeHandle (handle : Option Nat)
  | getLastError
  /-- `WaitForSingleObject(..., INFINITE)`. -/
  | waitThread (thread : Option Nat)
  /-- A thread starts: its number. -/
  | begin
  | bufferAlloc (self : Nat)
  | createThread (self : Nat)
  | transact (self : Nat) (response : Option Response) (dataBuffer : Nat)
  | operation (self : Nat) (call : OperationCall) (request : Request) (status : StorageUnitStatus)
      (dataBuffer : Nat)
  /-- `InterlockedCompareExchange(&DispatcherError, error, ERROR_SUCCESS)`. -/
  | exchangeError (error : UInt32)
  /-- `SpdStorageUnitHandleShutdown`; without a number it is user code. -/
  | shutdown (self : Option Nat)
  | readThreadId (self : Nat)
  /-- `Interface->Flush(StorageUnit, 0, 0, ...)` after the loop. -/
  | finalFlush (self : Nat)
  | bufferFree (dataBuffer : Option Nat)
  /-- The thread returns from its start function. -/
  | endThread (self : Nat)
  /-- User code takes a request to answer it. -/
  | takePending
  /-- A transact call of `SpdStorageUnitSendResponse`. -/
  | sendResponse (response : Response) (dataBuffer : Option Nat)
  /-- A call that does not end. -/
  | wait

namespace DispatcherAction

abbrev Answer : DispatcherAction → Type
  | .readThread => Option Nat
  | .processAffinityMask => Except UInt32 UInt64
  | .readThreadCount => UInt32
  | .createFirstThread => Except UInt32 Nat
  -- what the suspend count was
  | .resumeThread _ => UInt32
  | .getLastError => UInt32
  | .begin => Nat
  | .bufferAlloc _ => Option Nat
  | .createThread _ => Except UInt32 Nat
  | .transact .. => UInt32 × Option Request
  | .operation .. => Bool × StorageUnitStatus
  | .readThreadId _ => Option Nat
  | .takePending => Request × StorageUnitStatus × Option Nat
  | .sendResponse .. => UInt32
  | _ => Unit

end DispatcherAction

/-- What the environment decides about an action. -/
inductive DispatcherChoice
  /-- A call ends with an error, or with zero. -/
  | ends (error : UInt32)
  /-- The process may run on these processors. -/
  | affinity (mask : UInt64)
  | allocates (dataBuffer : Nat)
  | starts (thread : Nat)
  /-- There is a request. -/
  | requests (req : SpdIoctlTransactReq)
  /-- An operation returns, and what it has set `Status` to. -/
  | returns (complete : Bool) (status : Option StorageUnitStatus)
  /-- User code takes a request, to answer it with this. -/
  | takes (index : Nat) (status : StorageUnitStatus) (dataBuffer : Option Nat)

namespace DispatcherUnit

def setStatus (s : DispatcherUnit) (thread : Nat) (status : ThreadStatus) : DispatcherUnit :=
  { s with status := Function.update s.status thread status }

def newThread (s : DispatcherUnit) (status : ThreadStatus) : DispatcherUnit :=
  { s.setStatus s.next status with next := s.next + 1 }

end DispatcherUnit

namespace DispatcherAction

/-- `none` when the action cannot be executed, or cannot end so. -/
def exec (s : DispatcherUnit) :
    (a : DispatcherAction) → DispatcherChoice → Option (DispatcherUnit × a.Answer)
  | .readThread, _ => some (s, s.thread)
  | .storeThread thread, _ => some ({ s with thread := thread }, ())
  | .processAffinityMask, .affinity mask => some (s, .ok mask)
  | .processAffinityMask, .ends error => some (s, .error error)
  | .readThreadCount, _ => some (s, s.threadCount)
  | .storeThreadCount count, _ => some ({ s with threadCount := count }, ())
  | .createFirstThread, .ends error =>
      if error = 0 then
        some ({ s.newThread .suspended with thread := some s.next, threadId := some s.next },
          .ok s.next)
      else some ({ s with thread := none }, .error error)
  | .resumeThread thread, .ends error =>
      if error ≠ 0 then some (s, 0xffffffff)
      else if s.status thread = .suspended then some (s.setStatus thread .ready, 1)
      else some (s, 0)
  | .closeHandle _, _ => some (s, ())
  | .getLastError, .ends error => some (s, error)
  | .waitThread thread, _ =>
      -- without a handle the call fails at once
      if thread.all fun thread => s.status thread = .ended then some (s, ()) else none
  | .begin, .starts thread =>
      if s.status thread = .ready then some (s.setStatus thread .running, thread) else none
  | .bufferAlloc _, .allocates dataBuffer =>
      if dataBuffer ∈ s.buffers then none
      else some ({ s with buffers := dataBuffer :: s.buffers }, some dataBuffer)
  | .bufferAlloc _, .ends _ => some (s, none)
  | .createThread _, .ends error =>
      if error = 0 then some (s.newThread .ready, .ok s.next) else some (s, .error error)
  | .transact .., .requests req =>
      some ({ s with nextRequest := s.nextRequest + 1 }, 0, some ⟨req, ⟨0, s.nextRequest⟩⟩)
  | .transact .., .ends error => some (s, error, none)
  | .operation _ _ request status _, .returns complete set =>
      some ({ s with pending := if complete then s.pending else request :: s.pending },
        complete, set.getD status)
  | .exchangeError error, _ =>
      some ({ s with error := if s.error = 0 then error else s.error }, ())
  | .shutdown _, _ => some (s, ())
  | .readThreadId _, _ => some (s, s.threadId)
  | .finalFlush _, _ => some (s, ())
  | .bufferFree dataBuffer, _ =>
      some ({ s with buffers := s.buffers.filter fun b => some b ≠ dataBuffer }, ())
  | .endThread thread, _ => some (s.setStatus thread .ended, ())
  | .takePending, .takes index status dataBuffer =>
      s.pending[index]?.map fun request =>
        ({ s with pending := s.pending.eraseIdx index }, request, status, dataBuffer)
  | .sendResponse .., .ends error => some (s, error)
  | _, _ => none

end DispatcherAction

/-! ## The functions -/

abbrev DispatcherProg := Prog DispatcherAction DispatcherAction.Answer

abbrev dispatcherAction (a : DispatcherAction) : DispatcherProg a.Answer := Prog.perform a

def spdStorageUnitSetDispatcherError (dispatcherError : UInt32) : DispatcherProg Unit :=
  if dispatcherError = errorSuccess then pure ()
  else dispatcherAction (.exchangeError dispatcherError)

/-- What the loop of a thread calls. -/
def dispatcherCalls (self : Nat) :
    DispatcherCalls DispatcherAction DispatcherAction.Answer Nat where
  transact response dataBuffer := do
    let (error, req) ← dispatcherAction (.transact self response dataBuffer)
    pure ⟨error, req, dataBuffer⟩
  operation call request status dataBuffer := do
    let (complete, status) ← dispatcherAction (.operation self call request status dataBuffer)
    pure (complete, status, dataBuffer)
  forever := do
    dispatcherAction .wait
    pure errorSuccess

/-- `if (1 < StorageUnit->DispatcherThreadCount)`: `DispatcherThread`, or the
error. -/
def createNextThread (self : Nat) : DispatcherProg (Except UInt32 (Option Nat)) := do
  let count ← dispatcherAction .readThreadCount
  if 1 < count then do
    let count ← dispatcherAction .readThreadCount
    dispatcherAction (.storeThreadCount (count - 1))
    let r ← dispatcherAction (.createThread self)
    pure (r.map some)
  else pure (.ok none)

/-- Up to `exit`: `Error`, `DispatcherThread` and `DataBuffer`. -/
def dispatcherBody (interface : Interface) (fuel : Nat) (self : Nat) :
    DispatcherProg (UInt32 × Option Nat × Option Nat) := do
  let buffer ← dispatcherAction (.bufferAlloc self)
  match buffer with
  | none => pure (errorNoSystemResources, none, none)
  | some dataBuffer => do
      let created ← createNextThread self
      match created with
      | .error error => pure (error, none, some dataBuffer)
      | .ok thread => do
          let error ← dispatcherLoop (dispatcherCalls self) interface fuel none dataBuffer
          pure (error, thread, some dataBuffer)

/-- `if (0 != DispatcherThread)`. -/
def waitNextThread : Option Nat → DispatcherProg Unit
  | none => pure ()
  | some thread => do
      dispatcherAction (.waitThread (some thread))
      dispatcherAction (.closeHandle (some thread))

/-- `if (GetCurrentThreadId() == StorageUnit->DispatcherThreadId)`. -/
def flushIfFirst (cacheSupported : Bool) (interface : Interface) (self : Nat) :
    DispatcherProg Unit := do
  let threadId ← dispatcherAction (.readThreadId self)
  if threadId = some self ∧ cacheSupported ∧ interface.flush then
    dispatcherAction (.finalFlush self)
  else pure ()

/-- From `exit` on. -/
def dispatcherExit (cacheSupported : Bool) (interface : Interface) (self : Nat) (error : UInt32)
    (thread dataBuffer : Option Nat) : DispatcherProg Unit := do
  spdStorageUnitSetDispatcherError error
  dispatcherAction (.shutdown (some self))
  waitNextThread thread
  flushIfFirst cacheSupported interface self
  dispatcherAction (.bufferFree dataBuffer)

/-- The start function of a dispatcher thread. -/
def spdStorageUnitDispatcherThread (cacheSupported : Bool) (interface : Interface) (fuel : Nat) :
    DispatcherProg Unit := do
  let self ← dispatcherAction .begin
  let (error, thread, dataBuffer) ← dispatcherBody interface fuel self
  dispatcherExit cacheSupported interface self error thread dataBuffer
  dispatcherAction (.endThread self)

/-- `for (ThreadCount = 0; 0 != ProcessMask; ProcessMask >>= 1)`, for so many
rounds. -/
def processorCount : Nat → UInt64 → UInt32
  | 0, _ => 0
  | rounds + 1, processMask =>
      if processMask = 0 then 0
      else (processMask &&& 1).toUInt32 + processorCount rounds (processMask >>> 1)

/-- Once `ThreadCount` is known. -/
def startDispatcherThread (threadCount : UInt32) : DispatcherProg UInt32 := do
  dispatcherAction (.storeThreadCount threadCount)
  let created ← dispatcherAction .createFirstThread
  match created with
  | .error error => pure error
  | .ok thread => do
      let count ← dispatcherAction (.resumeThread thread)
      if count = 0 then do
        dispatcherAction (.closeHandle (some thread))
        dispatcherAction .getLastError
      else pure errorSuccess

def spdStorageUnitStartDispatcher (threadCount : UInt32) : DispatcherProg UInt32 := do
  let thread ← dispatcherAction .readThread
  if thread ≠ none then pure errorInvalidParameter
  else if threadCount = 0 then do
    let mask ← dispatcherAction .processAffinityMask
    match mask with
    | .error error => pure error
    | .ok processMask => startDispatcherThread (processorCount 64 processMask)
  else startDispatcherThread threadCount

def spdStorageUnitWaitDispatcher : DispatcherProg Unit := do
  let thread ← dispatcherAction .readThread
  if thread = none then pure ()
  else do
    let thread ← dispatcherAction .readThread
    dispatcherAction (.waitThread thread)
    let thread ← dispatcherAction .readThread
    dispatcherAction (.closeHandle thread)
    dispatcherAction (.storeThread none)

/-- User code that answers a request with `SpdStorageUnitSendResponse`. -/
def sendPendingResponse : DispatcherProg Unit := do
  let (request, status, dataBuffer) ← dispatcherAction .takePending
  let error ← dispatcherAction (.sendResponse (responseTo request status) dataBuffer)
  if error ≠ errorSuccess then do
    spdStorageUnitSetDispatcherError error
    dispatcherAction (.shutdown none)
  else pure ()

/-- What comes besides the thread that starts the dispatcher. -/
inductive DispatcherEntry (cacheSupported : Bool) (interface : Interface) :
    DispatcherProg Unit → Prop
  | dispatcher (fuel : Nat) :
      DispatcherEntry cacheSupported interface
        (spdStorageUnitDispatcherThread cacheSupported interface fuel)
  | sendResponse : DispatcherEntry cacheSupported interface sendPendingResponse
  | setDispatcherError (error : UInt32) :
      DispatcherEntry cacheSupported interface (spdStorageUnitSetDispatcherError error)
  | shutdown : DispatcherEntry cacheSupported interface (dispatcherAction (.shutdown none))
  | waitDispatcher : DispatcherEntry cacheSupported interface spdStorageUnitWaitDispatcher

/-- An action can answer `r` and leave state `s'`. -/
def DispatcherAction.Exec (s : DispatcherUnit) (a : DispatcherAction) (r : a.Answer)
    (s' : DispatcherUnit) : Prop := ∃ c, a.exec s c = some (s', r)

abbrev DispatcherEvent := ThreadEvent DispatcherAction DispatcherAction.Answer

end Winspd.Shared
