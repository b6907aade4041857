import Winspd.Lib.Bytes
import Winspd.Shared.Stghandle

/-!
# A client of the pipe transport: `stgtest.c`

`StgTransactPipe` writes a message with a request, and reads the message with
the response. Here these are its two halves, with the pipe between them.

The sizes that `WriteFile` and `ReadFile` are told are `DWORD`s.
-/

namespace Winspd.Stgtest

open Winspd.Lib Winspd.Sys Winspd.Shared

def errorIoDevice : UInt32 := 1117

/-- `Req` and `DataBuffer`. -/
structure StgCall where
  req : SpdIoctlTransactReq
  dataBuffer : Option (List UInt8)
  deriving DecidableEq, Repr

/-- `DataLength` of what is written from a data buffer. -/
def stgWriteLength (params : StorageUnitParams) (req : SpdIoctlTransactReq) : UInt32 :=
  if req.kind = transactWriteKind then req.blockCount * params.blockLength
  else if req.kind = transactUnmapKind then
    (req.count.toUInt64 * sizeofUnmapDescriptor).toUInt32
  else 0

/-- What is copied behind `sizeof(TRANSACT_MSG)` of the message buffer. `none`
when this or the data buffer is too small. -/
def stgPayload (params : StorageUnitParams) (call : StgCall) : Option (List UInt8) :=
  match call.dataBuffer with
  | none => some []
  | some dataBuffer =>
      let dataLength := stgWriteLength params call.req
      if dataLength > params.maxTransferLength then none
      else readAt dataBuffer 0 dataLength.toNat

theorem toNat_lt_sizeofTransactMsg {size : UInt32} (h : size < sizeofTransactMsg) :
    size.toNat < 48 := UInt32.lt_iff_toNat_lt.mp h

/-- The message that is written. -/
def stgMessage (params : StorageUnitParams) (call : StgCall) : Option Message :=
  (stgPayload params call).map fun payload =>
    let size := sizeofTransactMsg + UInt32.ofNat payload.length
    if h : size < sizeofTransactMsg then .short ⟨size.toNat, toNat_lt_sizeofTransactMsg h⟩
    else .whole call.req (payload.take (size - sizeofTransactMsg).toNat)

/-- What is made of the message that is read: the error, or `Rsp` and
`DataBuffer`. `none` when the data buffer is too small. -/
def stgResponse (params : StorageUnitParams) (call : StgCall) (rsp : TransactRsp)
    (data : List UInt8) : Option (Except UInt32 (TransactRsp × Option (List UInt8))) :=
  if (sizeofTransactMsg + params.maxTransferLength).toNat < sizeofTransactMsg.toNat +
    data.length then
    some (.error errorMoreData)
  else if call.req.hint ≠ rsp.hint then some (.error errorIoDevice)
  else if rsp.kind = transactReadKind ∧ rsp.status.scsiStatus = scsistatGood then
    let dataLength := call.req.blockCount * params.blockLength
    if dataLength > params.maxTransferLength then some (.error errorIoDevice)
    else
      match call.dataBuffer with
      | none => if dataLength = 0 then some (.ok (rsp, none)) else none
      | some dataBuffer =>
          if dataBuffer.length < dataLength.toNat then none
          else some (.ok (rsp, some (fillBuffer dataBuffer data dataLength.toNat)))
  else some (.ok (rsp, call.dataBuffer))

end Winspd.Stgtest
