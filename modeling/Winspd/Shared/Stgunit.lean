import Winspd.Lib.Threads
import Winspd.Shared.Transact

/-!
# shared/stgunit.c: the loop of a dispatcher thread

A dispatcher thread hands the response of one request to the transact call that
gets it the next one. What it calls is an argument, `DispatcherCalls`, so that
the loop is one program over every transport: the calls are programs themselves.
`β` is how these know the thread's data buffer.

A request is kept with its origin, which says which message of which client it
was, and a response with the origin of the request it is for. The source has no
such thing, and the programs never look at it.

The loop of the source ends when a transact call fails. Here it has fuel for
its rounds, and without fuel it makes the call `forever`, which no machine
executes.
-/

namespace Winspd.Shared

open Winspd.Lib Winspd.Sys

/-- Clients are numbered from 1, in the order they come. -/
structure Origin where
  client : Nat
  id : Nat
  deriving DecidableEq, Repr

structure Request where
  req : SpdIoctlTransactReq
  origin : Origin
  deriving DecidableEq, Repr

def Request.zero : Request := ⟨.zero, ⟨0, 0⟩⟩

structure Response where
  rsp : TransactRsp
  origin : Origin
  deriving DecidableEq, Repr

/-- The `Status` that `memset(Response, 0, sizeof *Response)` leaves. -/
def zeroStatus : StorageUnitStatus := ⟨0, 0, 0, 0, 0, false⟩

/-- `SpdStorageUnitStatusSetSense`. `none` is a null `PInformation`. -/
def spdStorageUnitStatusSetSense (status : StorageUnitStatus) (senseKey asc : UInt8)
    (information : Option UInt64) : StorageUnitStatus :=
  let status := { status with scsiStatus := scsistatCheckCondition, senseKey, asc }
  match information with
  | some information => { status with information, informationValid := true }
  | none => status

/-- `SpdStorageUnitStatusSetSense(Status, SCSI_SENSE_ILLEGAL_REQUEST,
SCSI_ADSENSE_ILLEGAL_COMMAND, 0)`. -/
def spdStorageUnitStatusSetIllegal (status : StorageUnitStatus) : StorageUnitStatus :=
  { status with scsiStatus := 2, senseKey := 5, asc := 0x20 }

/-- A call of an operation, with what it is told. -/
inductive OperationCall
  | read (blockAddress : UInt64) (blockCount : UInt32) (flush : Bool)
  | write (blockAddress : UInt64) (blockCount : UInt32) (flush : Bool)
  | flush (blockAddress : UInt64) (blockCount : UInt32)
  | unmap (count : UInt32)
  deriving DecidableEq, Repr

/-- Which operations of the `SPD_STORAGE_UNIT_INTERFACE` are there. -/
structure Interface where
  read : Bool
  write : Bool
  flush : Bool
  unmap : Bool
  deriving DecidableEq, Repr

/-- The operation the switch calls for a request. -/
def Interface.call (interface : Interface) (req : SpdIoctlTransactReq) : Option OperationCall :=
  if req.kind = transactReadKind then
    if interface.read then some (.read req.blockAddress req.blockCount req.forceUnitAccess)
    else none
  else if req.kind = transactWriteKind then
    if interface.write then some (.write req.blockAddress req.blockCount req.forceUnitAccess)
    else none
  else if req.kind = transactFlushKind then
    if interface.flush then some (.flush req.blockAddress req.blockCount) else none
  else if req.kind = transactUnmapKind then
    if interface.unmap then some (.unmap req.count) else none
  else none

/-- What a transact call returns, what it stored in `*Req`, and the data buffer
then. -/
structure Transacted (β : Type) where
  error : UInt32
  req : Option Request
  dataBuffer : β

/-- The calls of the loop. `operation` has the `Request` of the operation
context and the `Status` it can set. -/
structure DispatcherCalls (A : Type) (R : A → Type) (β : Type) where
  transact : Option Response → β → Prog A R (Transacted β)
  operation : OperationCall → Request → StorageUnitStatus → β →
    Prog A R (Bool × StorageUnitStatus × β)
  forever : Prog A R UInt32

variable {A : Type} {R : A → Type} {β : Type}

/-- The response to a request, with a status. -/
def responseTo (request : Request) (status : StorageUnitStatus) : Response :=
  ⟨⟨request.req.hint, request.req.kind, status⟩, request.origin⟩

/-- The switch: `Complete`, the response and the data buffer. -/
def dispatch (calls : DispatcherCalls A R β) (interface : Interface) (request : Request)
    (dataBuffer : β) : Prog A R (Bool × Response × β) :=
  match interface.call request.req with
  | some call => do
      let (complete, status, dataBuffer) ← calls.operation call request zeroStatus dataBuffer
      pure (complete, responseTo request status, dataBuffer)
  | none => pure (true, responseTo request (spdStorageUnitStatusSetIllegal zeroStatus), dataBuffer)

/-- The loop of `SpdStorageUnitDispatcherThread`. -/
def dispatcherLoop (calls : DispatcherCalls A R β) (interface : Interface) :
    Nat → Option Response → β → Prog A R UInt32
  | 0, _, _ => calls.forever
  | fuel + 1, response, dataBuffer => do
      let r ← calls.transact response dataBuffer
      if r.error ≠ 0 then pure r.error
      else do
        -- `*Request` was zeroed before the call
        let request := r.req.getD .zero
        if request.req.hint = 0 then dispatcherLoop calls interface fuel none r.dataBuffer
        else do
          let (complete, response, dataBuffer) ← dispatch calls interface request r.dataBuffer
          dispatcherLoop calls interface fuel (if complete then some response else none) dataBuffer

end Winspd.Shared
