import Winspd.Shared.Stgunit

/-!
# shared/stghandle.c: the pipe transport

`SpdStorageUnitHandleTransactPipe` as a program, and the machine its actions
run on: a `STORAGE_UNIT`, its pipe instance and the client at the other end.
Threads can be interrupted between any two actions. Under the lock of the unit
there are the connect section, which waits for a client and is taken apart
here, the disconnect section, and the accesses to the table of hints, which are
actions each.

The pipe has the states of a message pipe with one instance. A client can only
open it while it is listening. `ConnectNamedPipe` on a closed pipe fails until
the server has called `DisconnectNamedPipe`, and this drops what was not read.

What the environment decides is a `Choice`: how a system call ends, what an
operation returns, which request user code answers.
-/

namespace Winspd.Shared

open Winspd.Lib Winspd.Sys

def errorSuccess : UInt32 := 0
def errorFileNotFound : UInt32 := 2
def errorInvalidParameter : UInt32 := 87
def errorNoData : UInt32 := 232
def errorMoreData : UInt32 := 234
def errorPipeConnected : UInt32 := 535
def errorIoPending : UInt32 := 997
def errorNoSystemResources : UInt32 := 1450

inductive PipeState
  | listening
  | connected
  | closed
  | disconnected
  deriving DecidableEq, Repr

/-- A response message, and the client it went to. -/
structure Delivered where
  client : Nat
  response : Response
  data : List UInt8
  deriving DecidableEq, Repr

structure PipeServer where
  /-- Is the unit in `StorageUnits`? -/
  listed : Bool
  /-- Is `Event` set? -/
  event : Bool
  /-- Is `Lock` held? -/
  locked : Bool
  connected : Int32
  hashBuckets : HashBuckets
  pipe : PipeState
  /-- The number of the last client that opened the pipe. -/
  client : Nat
  /-- What it has written and the server has not read. -/
  inbox : List (Message × Origin)
  nextId : Nat
  delivered : List Delivered
  /-- The requests whose operation returned `FALSE`, until user code takes them
  to answer them. -/
  pending : List Request

/-- After `SpdStorageUnitHandleOpenPipe`. -/
def PipeServer.init : PipeServer where
  listed := true
  event := false
  locked := false
  connected := 0
  hashBuckets := fun _ => []
  pipe := .listening
  client := 0
  inbox := []
  nextId := 0
  delivered := []
  pending := []

/-! ## Actions -/

inductive PipeAction
  | overlappedInit
  /-- `StorageUnit == StorageUnits[...]`. -/
  | unitIsListed
  | memAlloc
  /-- `AcquireSRWLockExclusive`, and a read of `Connected`. -/
  | acquireLock
  | connectNamedPipe
  | waitConnect
  /-- `WriteFile` of the parameters, and `Connected` when it has succeeded. -/
  | writeParams
  | disconnectNamedPipe
  /-- A read of `Connected`, and `ReleaseSRWLockExclusive`. -/
  | releaseLock
  | takeHintValue (response : Response)
  | writeFile (response : Response) (data : List UInt8)
  | readFile (size : UInt32)
  | putHintValue (request : Request) (value : UInt32)
  /-- The disconnect section. -/
  | disconnect (connected : Int32)
  | operation (call : OperationCall) (request : Request) (status : StorageUnitStatus)
      (dataBuffer : List UInt8)
  /-- User code takes a request to answer it. -/
  | takePending
  | shutdown
  | clientOpen
  | clientClose
  | clientSend (message : Message)
  /-- A call that does not end. -/
  | wait

namespace PipeAction

abbrev Answer : PipeAction → Type
  | .overlappedInit => UInt32
  | .unitIsListed => Bool
  | .memAlloc => Bool
  | .acquireLock => Int32
  | .connectNamedPipe => UInt32
  | .waitConnect => UInt32
  | .writeParams => UInt32
  | .disconnectNamedPipe => Unit
  | .releaseLock => Int32
  | .takeHintValue _ => UInt32
  | .writeFile .. => UInt32
  | .readFile _ => Except UInt32 (Message × Origin)
  | .putHintValue .. => Bool
  -- whether it disconnected
  | .disconnect _ => Bool
  | .operation .. => Bool × StorageUnitStatus × List UInt8
  | .takePending => Request × StorageUnitStatus × Option (List UInt8)
  | .shutdown => Unit
  | .clientOpen => Unit
  | .clientClose => Unit
  | .clientSend _ => Unit
  | .wait => Unit

end PipeAction

/-- What the environment decides about an action. -/
inductive Choice
  /-- A system call ends with an error, or with zero. -/
  | ends (error : UInt32)
  /-- A message did not fit. What is left of it will be read as a message. -/
  | splits (rest : Message)
  /-- An operation returns, and what it has set `Status` to. -/
  | returns (complete : Bool) (status : Option StorageUnitStatus) (dataBuffer : List UInt8)
  /-- User code takes a request, to answer it with this. -/
  | takes (index : Nat) (status : StorageUnitStatus) (dataBuffer : Option (List UInt8))

/-- How `ConnectNamedPipe` ends. -/
def PipeState.connectError : PipeState → UInt32
  | .listening | .disconnected => errorIoPending
  | .connected => errorPipeConnected
  | .closed => errorNoData

/-- A disconnected instance listens again. -/
def PipeState.connect : PipeState → PipeState
  | .disconnected => .listening
  | pipe => pipe

/-- `DisconnectNamedPipe`. It fails on an instance that listens. -/
def PipeServer.disconnectPipe (s : PipeServer) : PipeServer :=
  if s.pipe = .listening then s else { s with pipe := .disconnected, inbox := [] }

namespace PipeAction

/-- `none` when the action cannot be executed, or cannot end so. -/
def exec (s : PipeServer) : (a : PipeAction) → Choice → Option (PipeServer × a.Answer)
  | .overlappedInit, .ends error => some (s, error)
  | .unitIsListed, _ => some (s, s.listed)
  | .memAlloc, .ends error => some (s, error = 0)
  | .acquireLock, _ =>
      if s.locked then none else some ({ s with locked := true }, s.connected)
  | .connectNamedPipe, .ends error =>
      if error = 0 then some ({ s with pipe := s.pipe.connect }, s.pipe.connectError)
      else if error = errorIoPending ∨ error = errorPipeConnected then none
      else some (s, error)
  | .waitConnect, .ends error =>
      if error = 0 then
        if s.pipe = .connected ∨ s.pipe = .closed then some (s, 0) else none
      else some (s, error)
  | .writeParams, .ends error =>
      if error = 0 then
        if s.pipe = .connected then some ({ s with connected := -s.connected + 1 }, 0) else none
      else some (s, error)
  | .disconnectNamedPipe, _ => some (s.disconnectPipe, ())
  | .releaseLock, _ => some ({ s with locked := false }, s.connected)
  | .takeHintValue response, _ =>
      if s.locked then none
      else
        let (value, hashBuckets) := Shared.takeHintValue s.hashBuckets response.rsp.hint
        some ({ s with hashBuckets := hashBuckets }, value)
  | .writeFile response data, .ends error =>
      if error = 0 then
        if s.pipe = .connected then
          some ({ s with delivered := s.delivered ++ [⟨s.client, response, data⟩] }, 0)
        else none
      else some (s, error)
  | .readFile size, .ends error =>
      if error = 0 then
        match s.inbox with
        | [] => none
        | (message, origin) :: inbox =>
            if message.length ≤ size.toNat then
              some ({ s with inbox := inbox }, .ok (message, origin))
            else none
      else some (s, .error error)
  | .readFile size, .splits rest =>
      match s.inbox with
      | [] => none
      | (message, origin) :: inbox =>
          if message.length ≤ size.toNat then none
          else some ({ s with inbox := (rest, origin) :: inbox }, .error errorMoreData)
  | .putHintValue request value, .ends error =>
      if s.locked then none
      else
        let (put, hashBuckets) :=
          Shared.putHintValue s.hashBuckets (error = 0) request.req.hint value
        some ({ s with hashBuckets := hashBuckets }, put)
  | .disconnect connected, _ =>
      if s.locked then none
      else if connected = s.connected then
        some ({ s.disconnectPipe with connected := -s.connected }, true)
      else some (s, false)
  | .operation _ request status _, .returns complete set dataBuffer =>
      some ({ s with pending := if complete then s.pending else request :: s.pending },
        (complete, set.getD status, dataBuffer))
  | .takePending, .takes index status dataBuffer =>
      s.pending[index]?.map fun request =>
        ({ s with pending := s.pending.eraseIdx index }, (request, status, dataBuffer))
  | .shutdown, _ => some ({ s with listed := false, event := s.event || s.listed }, ())
  | .clientOpen, _ =>
      if s.pipe = .listening then
        some ({ s with pipe := .connected, client := s.client + 1, inbox := [] }, ())
      else none
  | .clientClose, _ =>
      if s.pipe = .connected then some ({ s with pipe := .closed }, ()) else none
  | .clientSend message, _ =>
      if s.pipe = .connected then
        some ({ s with
          inbox := s.inbox ++ [(message, ⟨s.client, s.nextId⟩)]
          nextId := s.nextId + 1 }, ())
      else none
  | _, _ => none

end PipeAction

/-! ## SpdStorageUnitHandleTransactPipe -/

/-- A function that works on the pipe. -/
abbrev PipeProg := Prog PipeAction PipeAction.Answer

abbrev pipeAction (a : PipeAction) : PipeProg a.Answer := Prog.perform a

/-- `WaitOverlappedResult(Event, ConnectNamedPipe(...), ...)`. -/
def waitConnectNamedPipe : PipeProg UInt32 := do
  let error ← pipeAction .connectNamedPipe
  if error ≠ errorSuccess ∧ error ≠ errorIoPending then pure error
  else pipeAction .waitConnect

/-- What the connect section does while `0 >= Connected`. -/
def connectPipe : PipeProg UInt32 := do
  let error ← waitConnectNamedPipe
  if error = errorSuccess ∨ error = errorPipeConnected then do
    let error ← pipeAction .writeParams
    if error = errorSuccess then pure errorSuccess
    else do
      pipeAction .disconnectNamedPipe
      pure errorNoData
  else pure error

def connectUnlessConnected (connected : Int32) : PipeProg UInt32 :=
  if connected ≤ 0 then connectPipe else pure errorSuccess

/-- The connect section: `Error` and `Connected`. -/
def connectSection : PipeProg (UInt32 × Int32) := do
  let connected ← pipeAction .acquireLock
  let error ← connectUnlessConnected connected
  let connected ← pipeAction .releaseLock
  pure (error, connected)

/-- The branch for `0 != Rsp`. -/
def writeResponse (response : Option Response) (dataBuffer : Option (List UInt8)) :
    PipeProg UInt32 :=
  match response, dataBuffer with
  | some response, some dataBuffer =>
      if response.rsp.kind = transactReadKind then do
        let dataLength ← pipeAction (.takeHintValue response)
        pipeAction (.writeFile response (dataBuffer.take dataLength.toNat))
      else pipeAction (.writeFile response [])
  | some response, none => pipeAction (.writeFile response [])
  | none, _ => pure errorSuccess

variable {β : Type}

/-- From `zeroout` on. -/
def zeroout (req : Bool) (dataBuffer : β) : PipeProg (Transacted β) :=
  pure ⟨errorSuccess, if req then some .zero else none, dataBuffer⟩

/-- From `disconnect` on. -/
def disconnect (connected : Int32) (req : Bool) (dataBuffer : β) :
    PipeProg (Transacted β) := do
  let _ ← pipeAction (.disconnect connected)
  zeroout req dataBuffer

/-- The branch for `0 != Req`, once a message has been read. -/
def acceptMessage (params : StorageUnitParams) (dataBuffer : List UInt8) :
    Message → Origin → PipeProg (Transacted (List UInt8))
  | .short _, _ => zeroout true dataBuffer
  | .whole req payload, origin =>
      let length := dataLength params req
      if req.kind = transactReadKind then
        if length > params.maxTransferLength then zeroout true dataBuffer
        else do
          let put ← pipeAction (.putHintValue ⟨req, origin⟩ length)
          if put then pure ⟨errorSuccess, some ⟨req, origin⟩, dataBuffer⟩
          else zeroout true dataBuffer
      else if req.kind = transactWriteKind ∨ req.kind = transactUnmapKind then
        if length > params.maxTransferLength then zeroout true dataBuffer
        else pure ⟨errorSuccess, some ⟨req, origin⟩,
          fillBuffer dataBuffer payload length.toNat⟩
      else pure ⟨errorSuccess, some ⟨req, origin⟩, dataBuffer⟩

/-- The branch for `0 != Req`. -/
def readRequest (params : StorageUnitParams) (connected : Int32) (dataBuffer : List UInt8) :
    PipeProg (Transacted (List UInt8)) := do
  let read ← pipeAction (.readFile (sizeofTransactMsg + params.maxTransferLength))
  match read with
  | .error _ => disconnect connected true dataBuffer
  | .ok (message, origin) => acceptMessage params dataBuffer message origin

/-- From the first check on, until there is a message buffer. -/
def prepare : PipeProg UInt32 := do
  let error ← pipeAction .overlappedInit
  if error ≠ errorSuccess then pure error
  else do
    let listed ← pipeAction .unitIsListed
    if ¬ listed then pure errorFileNotFound
    else do
      let msg ← pipeAction .memAlloc
      pure (if msg then errorSuccess else errorNoSystemResources)

/-- The request and the response, once connected. -/
def transactConnected (params : StorageUnitParams) (connected : Int32)
    (response : Option Response) (req : Bool) (dataBuffer : Option (List UInt8)) :
    PipeProg (Transacted (Option (List UInt8))) := do
  let error ← writeResponse response dataBuffer
  if error ≠ errorSuccess then disconnect connected req dataBuffer
  else
    match req, dataBuffer with
    | true, some buffer => do
        let r ← readRequest params connected buffer
        pure ⟨r.error, r.req, some r.dataBuffer⟩
    | _, _ => pure ⟨errorSuccess, none, dataBuffer⟩

def spdStorageUnitHandleTransactPipe (params : StorageUnitParams) (response : Option Response)
    (req : Bool) (dataBuffer : Option (List UInt8)) :
    PipeProg (Transacted (Option (List UInt8))) :=
  if (!req ∧ response = none) ∨ (req ∧ dataBuffer = none) then
    pure ⟨errorInvalidParameter, none, dataBuffer⟩
  else do
    let error ← prepare
    if error ≠ errorSuccess then pure ⟨error, none, dataBuffer⟩
    else do
      let (error, connected) ← connectSection
      if error = errorNoData then zeroout req dataBuffer
      else if error ≠ errorSuccess then pure ⟨error, none, dataBuffer⟩
      else transactConnected params connected response req dataBuffer

/-! ## Its callers -/

/-- The calls of a dispatcher thread of a unit with the pipe transport. -/
def pipeCalls (params : StorageUnitParams) :
    DispatcherCalls PipeAction PipeAction.Answer (List UInt8) where
  transact response dataBuffer := do
    let r ← spdStorageUnitHandleTransactPipe params response true (some dataBuffer)
    pure ⟨r.error, r.req, r.dataBuffer.getD dataBuffer⟩
  operation call request status dataBuffer :=
    pipeAction (.operation call request status dataBuffer)
  forever := do
    pipeAction .wait
    pure errorSuccess

/-- A dispatcher thread, from its loop on. -/
def pipeDispatcher (params : StorageUnitParams) (interface : Interface) (fuel : Nat)
    (dataBuffer : List UInt8) : PipeProg Unit := do
  let _ ← dispatcherLoop (pipeCalls params) interface fuel none dataBuffer
  pipeAction .shutdown

/-- User code that answers a request with `SpdStorageUnitSendResponse`. -/
def spdStorageUnitSendResponse (params : StorageUnitParams) : PipeProg Unit := do
  let (request, status, dataBuffer) ← pipeAction .takePending
  let r ← spdStorageUnitHandleTransactPipe params (some (responseTo request status))
      false dataBuffer
  if r.error ≠ errorSuccess then pipeAction .shutdown
  else pure ()

/-- The programs of the unit's threads, and what clients do. -/
inductive PipeEntry (params : StorageUnitParams) (interface : Interface) : PipeProg Unit → Prop
  | dispatcher (fuel : Nat) (dataBuffer : List UInt8) :
      PipeEntry params interface (pipeDispatcher params interface fuel dataBuffer)
  | sendResponse : PipeEntry params interface (spdStorageUnitSendResponse params)
  | shutdown : PipeEntry params interface (pipeAction .shutdown)
  | clientOpen : PipeEntry params interface (pipeAction .clientOpen)
  | clientClose : PipeEntry params interface (pipeAction .clientClose)
  | clientSend (message : Message) :
      PipeEntry params interface (pipeAction (.clientSend message))

/-- These, and any other call of the function. -/
inductive PipeCaller (params : StorageUnitParams) (interface : Interface) : PipeProg Unit → Prop
  | entry {p : PipeProg Unit} (h : PipeEntry params interface p) : PipeCaller params interface p
  | call (response : Option Response) (req : Bool) (dataBuffer : Option (List UInt8)) :
      PipeCaller params interface (do
        let _ ← spdStorageUnitHandleTransactPipe params response req dataBuffer
        pure ())

/-- An action can answer `r` and leave state `s'`. -/
def PipeAction.Exec (s : PipeServer) (a : PipeAction) (r : a.Answer) (s' : PipeServer) : Prop :=
  ∃ c, a.exec s c = some (s', r)

abbrev PipeEvent := ThreadEvent PipeAction PipeAction.Answer

end Winspd.Shared
