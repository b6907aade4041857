import Winspd.Shared.PipeUnits
import Winspd.Shared.Strings
import Winspd.Stgtest.Transact

/-!
# The stress test: `run` in `stgtest.c`

The loop of `run` in rounds, each of which does all kinds of operation that were
asked for to one range of blocks. At the beginning of a round the range is drawn,
or is the next one. What a write has filled the data buffer with, a read of the
same round is tested against.

What the environment decides is how the transactions end: the error of a system
call, or a message with a response. No function here returns anything when the
source divides by zero or leaves the data buffer.
-/

namespace Winspd.Stgtest

open Winspd.Lib Winspd.Sys Winspd.Shared

/-- `SpdIoctlTransactReservedKind`. -/
def transactReservedKind : UInt8 := 0

/-! ## The data buffer -/

/-- The inner loop of `FillOrTest`, with so many words to go, from the word at
`j` of what is at `off`: whether the test goes on, and the buffer. -/
def fillOrTestWords (off : Nat) (hashAddress : UInt64) (kind : UInt8) :
    Nat → Nat → List UInt8 → Option (Bool × List UInt8)
  | 0, _, buffer => some (true, buffer)
  | n + 1, j, buffer =>
      if transactReservedKind = kind then do
        let buffer ← writeAt buffer (off + 8 * j) (toLe 8 hashAddress.toNat)
        fillOrTestWords off hashAddress kind n (j + 1) buffer
      else if transactWriteKind = kind then do
        let word ← readAt buffer (off + 8 * j) 8
        if ofLe word ≠ hashAddress.toNat then some (false, buffer)
        else fillOrTestWords off hashAddress kind n (j + 1) buffer
      else if transactUnmapKind = kind then do
        let word ← readAt buffer (off + 8 * j) 8
        if ofLe word ≠ 0 then some (false, buffer)
        else fillOrTestWords off hashAddress kind n (j + 1) buffer
      else fillOrTestWords off hashAddress kind n (j + 1) buffer

/-- The outer loop, with so many blocks to go, from block `i`. -/
def fillOrTestBlocks (blockLength : UInt32) (blockAddress : UInt64) (kind : UInt8) :
    Nat → UInt32 → List UInt8 → Option (Bool × List UInt8)
  | 0, _, buffer => some (true, buffer)
  | n + 1, i, buffer => do
      let hashAddress := hashMix64 (blockAddress + i.toUInt64 + 1)
      let r ← fillOrTestWords (i * blockLength).toNat hashAddress kind (blockLength / 8).toNat 0
        buffer
      if r.1 then fillOrTestBlocks blockLength blockAddress kind n (i + 1) r.2
      else some (false, r.2)

def fillOrTest (buffer : List UInt8) (blockLength : UInt32) (blockAddress : UInt64)
    (blockCount : UInt32) (kind : UInt8) : Option (Bool × List UInt8) :=
  fillOrTestBlocks blockLength blockAddress kind blockCount.toNat 0 buffer

/-! ## Random numbers -/

/-- The loop of `GenRandomBytes`. -/
def randomBytes : UInt32 → Nat → UInt32 × List UInt8
  | seed, 0 => (seed, [])
  | seed, n + 1 =>
      let seed := seed * 214013 + 2531011
      let rest := randomBytes seed n
      (rest.1, (seed >>> 16).toUInt8 :: rest.2)

def genRandomBytes (seed : UInt32) (size : Nat) : UInt32 × List UInt8 :=
  randomBytes (if 0 ≠ seed then seed else 1) size

/-- `%`, where that is not by zero. -/
def mod64 (x y : UInt64) : Option UInt64 := if y = 0 then none else some (x % y)

def mod32 (x y : UInt32) : Option UInt32 := if y = 0 then none else some (x % y)

/-! ## The operations -/

/-- The test in `StgOpenPipe`. -/
def stgOpenPipeAccepts (params : StorageUnitParams) : Bool :=
  ¬ (0 = params.blockCount ∨ 16 > params.blockLength ∨ 0 = params.maxTransferLength ∨
    0 ≠ params.maxTransferLength % params.blockLength)

/-- The kind that a letter of `OpSet` stands for. -/
def opKind (c : UInt16) : Option UInt8 :=
  if c = 0x52 ∨ c = 0x72 then some transactReadKind
  else if c = 0x57 ∨ c = 0x77 then some transactWriteKind
  else if c = 0x46 ∨ c = 0x66 then some transactFlushKind
  else if c = 0x55 ∨ c = 0x75 then some transactUnmapKind
  else none

/-- `OpKinds`, of which there are at most 32. -/
def opKinds (opSet : WString) : List UInt8 :=
  let kinds := (opSet.chars.take 32).filterMap opKind
  if kinds.isEmpty then [transactWriteKind, transactReadKind] else kinds

/-- What does not change in `run`. -/
structure Stress where
  params : StorageUnitParams
  opCount : UInt32
  opKinds : List UInt8
  randomAddress : Bool
  randomCount : Bool
  threadId : UInt32

structure StressState where
  seed : UInt32
  blockAddress : UInt64
  blockCount : UInt32
  opBlockCount : UInt32
  testOpKind : UInt8
  dataBuffer : List UInt8
  /-- `I`. -/
  i : UInt32
  /-- `J`. -/
  j : Nat

/-- The arguments of `run`, and what it gets from the system. -/
structure StressArgs where
  params : StorageUnitParams
  opCount : UInt32
  opSet : WString
  blockAddress : UInt64
  blockCount : UInt32
  randomSeed : UInt32
  threadId : UInt32

def StressArgs.stress (args : StressArgs) : Stress where
  params := args.params
  opCount := if 0 = args.opCount then 1 else args.opCount
  opKinds := opKinds args.opSet
  randomAddress := -1 = args.blockAddress
  randomCount := -1 = args.blockCount
  threadId := args.threadId

/-- In front of the loop. `dataBuffer` is what `MemAlloc` returns. -/
def StressArgs.start (args : StressArgs) (dataBuffer : List UInt8) : StressState :=
  ⟨args.randomSeed, args.blockAddress, args.blockCount, 0, 0, dataBuffer, 0, 0⟩

namespace Stress

variable (a : Stress)

/-- `MaxBlockCount`. -/
def maxBlockCount : Option UInt32 :=
  if a.params.blockLength = 0 then none
  else some (a.params.maxTransferLength / a.params.blockLength)

/-- The address of the next round. -/
def drawAddress (s : StressState) : Option StressState := do
  let r :=
    if a.randomAddress then
      let r := genRandomBytes s.seed 8
      (r.1, UInt64.ofNat (ofLe r.2))
    else if 0 ≠ s.i then (s.seed, s.blockAddress + s.blockCount.toUInt64)
    else (s.seed, s.blockAddress)
  let blockAddress ← mod64 r.2 a.params.blockCount
  some { s with seed := r.1, blockAddress := blockAddress }

def drawCount (s : StressState) : Option StressState := do
  let maxBlockCount ← a.maxBlockCount
  let r ←
    if a.randomCount then do
      let r := genRandomBytes s.seed 4
      let blockCount ← mod32 (UInt32.ofNat (ofLe r.2)) maxBlockCount
      some (r.1, blockCount)
    else if s.blockCount > maxBlockCount then some (s.seed, maxBlockCount)
    else some (s.seed, s.blockCount)
  some { s with seed := r.1, blockCount := if r.2 = 0 then 1 else r.2 }

/-- The beginning of a round. -/
def beginRound (s : StressState) : Option StressState := do
  let s ← a.drawAddress s
  let s ← a.drawCount s
  let opBlockCount :=
    if s.blockAddress + s.blockCount.toUInt64 ≤ a.params.blockCount then s.blockCount
    else (a.params.blockCount - s.blockAddress).toUInt32
  some { s with opBlockCount := opBlockCount, testOpKind := transactReservedKind }

end Stress

/-- `SPD_IOCTL_UNMAP_DESCRIPTOR`. -/
def stgUnmapDescriptor (blockAddress : UInt64) (blockCount : UInt32) : List UInt8 :=
  toLe 8 blockAddress.toNat ++ toLe 4 blockCount.toNat ++ toLe 4 0

namespace Stress

variable (a : Stress)

/-- `Req.Kind`. -/
def kind (s : StressState) : Option UInt8 := a.opKinds[s.i.toNat % a.opKinds.length]?

/-- `Req`, and what is done to the data buffer before it is sent. -/
def prepare (s : StressState) : Option (StressState × SpdIoctlTransactReq) := do
  let kind ← a.kind s
  let hint := a.threadId.toUInt64 <<< 32 ||| s.i.toUInt64
  if kind = transactReadKind then
    some (s, ⟨hint, kind, s.blockAddress, s.opBlockCount, !a.params.cacheSupported⟩)
  else if kind = transactWriteKind then do
    let r ← fillOrTest s.dataBuffer a.params.blockLength s.blockAddress s.opBlockCount
      transactReservedKind
    some ({ s with dataBuffer := r.2, testOpKind := transactWriteKind },
      ⟨hint, kind, s.blockAddress, s.opBlockCount, !a.params.cacheSupported⟩)
  else if kind = transactFlushKind then
    some (s, ⟨hint, kind, s.blockAddress, s.opBlockCount, false⟩)
  else if kind = transactUnmapKind then do
    let dataBuffer ← writeAt s.dataBuffer 0 (stgUnmapDescriptor s.blockAddress s.opBlockCount)
    some ({ s with dataBuffer := dataBuffer, testOpKind := transactUnmapKind },
      ⟨hint, kind, 1, 0, false⟩)
  else some (s, ⟨hint, kind, 0, 0, false⟩)

/-- One turn of the loop, up to `StgTransact`. -/
def issue (s : StressState) : Option (StressState × SpdIoctlTransactReq) := do
  let s ← if s.j = 0 then a.beginRound s else some s
  a.prepare s

end Stress

/-- How `StgTransact` ends. -/
inductive StgAnswer
  | fails (error : LastError)
  | responds (rsp : TransactRsp) (data : List UInt8)

/-- `StgTransactPipe`: the error, or `Rsp` and the data buffer. -/
def stgTransactPipe (params : StorageUnitParams) (req : SpdIoctlTransactReq)
    (dataBuffer : List UInt8) : StgAnswer → Option (Except UInt32 (TransactRsp × List UInt8))
  | .fails error => (stgMessage params ⟨req, some dataBuffer⟩).map fun _ => .error error
  | .responds rsp data => do
      let _ ← stgMessage params ⟨req, some dataBuffer⟩
      let r ← stgResponse params ⟨req, some dataBuffer⟩ rsp data
      match r with
      | .error error => some (.error error)
      | .ok (rsp, dataBuffer) => dataBuffer.map fun dataBuffer => .ok (rsp, dataBuffer)

namespace Stress

variable (a : Stress)

/-- The test of a buffer that was read. -/
def testRead (s : StressState) : Option Bool :=
  if transactWriteKind = s.testOpKind then
    (fillOrTest s.dataBuffer a.params.blockLength s.blockAddress s.opBlockCount
      transactWriteKind).map Prod.fst
  else if transactUnmapKind = s.testOpKind then
    (fillOrTest s.dataBuffer a.params.blockLength s.blockAddress s.opBlockCount
      transactUnmapKind).map Prod.fst
  else some true

/-- The rest of the turn: what the loop goes on with, or the error it is left
with. -/
def complete (s : StressState) (req : SpdIoctlTransactReq) (answer : StgAnswer) :
    Option (Except UInt32 StressState) := do
  let r ← stgTransactPipe a.params req s.dataBuffer answer
  match r with
  | .error error => some (.error error)
  | .ok (rsp, dataBuffer) =>
      let s := { s with dataBuffer := dataBuffer }
      if ¬ (req.hint = rsp.hint ∧ req.kind = rsp.kind ∧
          scsistatGood = rsp.status.scsiStatus) then
        some (.error errorIoDevice)
      else do
        let ok ← if rsp.kind = transactReadKind then a.testRead s else some true
        if ok then some (.ok { s with i := s.i + 1, j := (s.j + 1) % a.opKinds.length })
        else some (.error errorIoDevice)

end Stress

structure StressEvent where
  req : SpdIoctlTransactReq
  answer : StgAnswer

/-- One whole turn of the loop. -/
inductive StressStep (a : Stress) : StressState → StressEvent → StressState → Prop
  | turn {s s₁ s' : StressState} {req : SpdIoctlTransactReq} {answer : StgAnswer}
      (hcount : a.opCount > s.i) (hissue : a.issue s = some (s₁, req))
      (hcomplete : a.complete s₁ req answer = some (.ok s')) : StressStep a s ⟨req, answer⟩ s'

end Winspd.Stgtest
