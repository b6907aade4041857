import Winspd.Lib.Hashed
import Winspd.Sys.Driver

/-!
# Transact messages

What goes over a transact pipe: `SPD_IOCTL_TRANSACT_REQ` as a client writes it,
the messages of both directions, and the table of hints the pipe server keeps.

The `Op` of a request is a union, and a client can write any `Kind`. Here it is
the three fields of `Op.Read` and `Op.Write`, the first two of which are those
of `Op.Flush`; `Op.Unmap.Count` is the low half of the first.

A client writes bytes. `Message` takes the `SPD_IOCTL_TRANSACT_REQ` at the
start of a message as one value, and what comes after `sizeof(TRANSACT_MSG)` as
bytes.
-/

namespace Winspd.Shared

open Winspd.Lib Winspd.Sys

/-! ## Requests -/

/-- `SpdIoctlTransactReadKind` and so on. -/
def transactReadKind : UInt8 := 1
def transactWriteKind : UInt8 := 2
def transactFlushKind : UInt8 := 3
def transactUnmapKind : UInt8 := 4

/-- `SPD_IOCTL_TRANSACT_REQ`. -/
structure SpdIoctlTransactReq where
  hint : UInt64
  kind : UInt8
  blockAddress : UInt64
  blockCount : UInt32
  forceUnitAccess : Bool
  deriving DecidableEq, Repr

namespace SpdIoctlTransactReq

/-- `memset(Req, 0, sizeof *Req)`. -/
def zero : SpdIoctlTransactReq := ⟨0, 0, 0, 0, false⟩

/-- `Op.Unmap.Count`. -/
def count (req : SpdIoctlTransactReq) : UInt32 := req.blockAddress.toUInt32

end SpdIoctlTransactReq

/-- `sizeof(TRANSACT_MSG)`, which is that of its `Rsp`. -/
def sizeofTransactMsg : UInt32 := 48

def sizeofUnmapDescriptor : UInt64 := 16

/-- A message to the server. -/
inductive Message
  /-- It is shorter than `sizeof(TRANSACT_MSG)`. -/
  | short (length : Fin 48)
  | whole (req : SpdIoctlTransactReq) (payload : List UInt8)
  deriving DecidableEq, Repr

def Message.length : Message → Nat
  | .short length => length
  | .whole _ payload => sizeofTransactMsg.toNat + payload.length

/-- `DataLength` of a message with a buffer: `BlockCount * BlockLength`, and for
an unmap `Count * sizeof(SPD_IOCTL_UNMAP_DESCRIPTOR)`, which is a `size_t`. -/
def dataLength (params : StorageUnitParams) (req : SpdIoctlTransactReq) : UInt32 :=
  if req.kind = transactUnmapKind then (req.count.toUInt64 * sizeofUnmapDescriptor).toUInt32
  else req.blockCount * params.blockLength

/-- The first `dataLength` bytes of the buffer are those of the message, and
zeros where it is shorter. -/
def fillBuffer (dataBuffer payload : List UInt8) (dataLength : Nat) : List UInt8 :=
  payload.take dataLength ++ List.replicate (dataLength - payload.length) 0 ++
    dataBuffer.drop dataLength

/-! ## The table of hints -/

def hashMix64 (k : UInt64) : UInt64 :=
  let k := k ^^^ (k >>> 33)
  let k := k * 0xff51afd7ed558ccd
  let k := k ^^^ (k >>> 33)
  let k := k * 0xc4ceb9fe1a85ec53
  k ^^^ (k >>> 33)

/-- The bucket of a hint. -/
def hashIndex (hint : UInt64) :
    Fin 61 := ⟨(hashMix64 hint).toNat % 61, Nat.mod_lt _ (by decide)⟩

/-- `HashBuckets`, with the `Value` of every hint. -/
abbrev HashBuckets := Hashed (Fin 61) UInt64 UInt32

/-- `TakeHintValue`: zero when the hint is not there. -/
def takeHintValue (T : HashBuckets) (hint : UInt64) : UInt32 × HashBuckets :=
  let (value, T) := T.take hashIndex hint
  (value.getD 0, T)

/-- `PutHintValue`, and whether there is memory for the item. -/
def putHintValue (T : HashBuckets) (memory : Bool) (hint : UInt64) (value : UInt32) :
    Bool × HashBuckets := T.put hashIndex memory hint value

end Winspd.Shared
