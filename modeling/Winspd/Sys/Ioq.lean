import Winspd.Lib.Links
import Winspd.Lib.Chain
import Winspd.Sys.Driver

/-!
# The I/O queue: `ioq.c`

`SpdIoq` is the queue together with the three fields of every SRB extension
the queue owns: `ListEntry`, which puts the extension on `PendingList` or
`ProcessList`, `HashNext`, which chains it into `ProcessBuckets`, and `Srb`.
The extensions are named by their addresses, and so is an SRB.

Every function is its critical section, from the spin lock's acquisition to
its release. `none` is a machine that stopped: a null or corrupt link was
followed, a list walk never ends, or a callback stopped it. What the queue
calls while it holds the lock, `Prepare`, `Complete` and `SpdSrbComplete`, is
returned as the list of those calls in the order they are made; the callbacks
act on a world `ω` the queue knows nothing about.
-/

namespace Winspd.Sys

open Winspd.Lib

/-- The addresses of `LIST_ENTRY`s: the queue's two heads and the field of
every extension. -/
inductive ListEntry
  | pendingList
  | processList
  | ext (e : Addr)
  deriving DecidableEq, Repr

/-- `CONTAINING_RECORD(Entry, SPD_SRB_EXTENSION, ListEntry)`. The heads lie in
no extension. -/
def ListEntry.containingRecord : ListEntry → Option Addr
  | .ext e => some e
  | _ => none

/-- `SPD_IOQ` and the queue's fields of the extensions. -/
structure SpdIoq where
  stopped : Bool
  pendingEvent : Bool
  listEntry : Links ListEntry
  processBucketCount : UInt32
  processBuckets : Chains UInt32 Addr
  srb : Addr → Addr

/-- What the queue calls under its lock. -/
inductive IoqCall
  | prepare (ext srb : Addr)
  | complete (ext srb : Addr) (status : UInt8)
  | srbComplete (srb : Addr) (status : UInt8)
  deriving DecidableEq, Repr

/-- No walk over distinct extensions is longer. -/
def addressSpace : Nat := 2 ^ 64

def pageSize : UInt32 := 4096
def sizeofSpdIoq : UInt32 := 152
def sizeofPvoid : UInt32 := 8

/-- `SpdIoqCreate`, past the allocation: the queue's own memory is zeroed and
initialized, the extensions keep what they hold. -/
def spdIoqCreate (mem : SpdIoq) : SpdIoq where
  stopped := false
  pendingEvent := false
  listEntry :=
    (mem.listEntry.initializeListHead .pendingList).initializeListHead .processList
  processBucketCount := (pageSize - sizeofSpdIoq) / sizeofPvoid
  processBuckets := { mem.processBuckets with head := fun _ => 0 }
  srb := mem.srb

/-- `SpdHashMixPointer(SrbExtension) % Ioq->ProcessBucketCount`. -/
def SpdIoq.bucket (ioq : SpdIoq) (ext : Addr) : UInt32 :=
  spdHashMixPointer ext % ioq.processBucketCount

/-- `SpdQeventSetNoLock(&Ioq->PendingEvent)`. -/
def SpdIoq.wake (ioq : SpdIoq) : SpdIoq :=
  { ioq with pendingEvent := spdQeventSetNoLock ioq.pendingEvent }

/-- `RtlZeroMemory(SrbExtension)`, on the queue's fields. -/
def SpdIoq.zeroExtension (ioq : SpdIoq) (ext : Addr) : SpdIoq :=
  { ioq with
    listEntry := (ioq.listEntry.setFlink (.ext ext) none).setBlink (.ext ext) none
    processBuckets := ioq.processBuckets.write (.next ext) 0
    srb := Function.update ioq.srb ext 0 }

def spdIoqReset (ioq : SpdIoq) (stop : Bool) : Option (SpdIoq × List IoqCall) :=
  if ioq.stopped then some (ioq, [])
  else do
    let pendingEntry ← ioq.listEntry.flink .pendingList
    let processEntry ← ioq.listEntry.flink .processList
    let listEntry :=
      (ioq.listEntry.initializeListHead .pendingList).initializeListHead .processList
    let pending ← listEntry.walk .pendingList addressSpace pendingEntry
    let process ← listEntry.walk .processList addressSpace processEntry
    let exts ← (pending ++ process).mapM ListEntry.containingRecord
    let calls := exts.map fun ext => .srbComplete (ioq.srb ext) srbStatusAborted
    let ioq :=
      { ioq with
        listEntry := listEntry
        processBuckets := { ioq.processBuckets with head := fun _ => 0 } }
    -- we are being stopped, permanently wake up waiters
    some (if stop then { ioq with stopped := true }.wake else ioq, calls)

def spdIoqStopped (ioq : SpdIoq) : Bool := ioq.stopped

/-- `ext` is `SpdSrbExtension(Srb)`. -/
def spdIoqCancelSrb (ioq : SpdIoq) (srb ext : Addr) :
    Option (SpdIoq × List IoqCall × NtStatus) :=
  if ioq.stopped then some (ioq, [], .unsuccessful)
  else do
    let found ← ioq.processBuckets.find 0 ext addressSpace (.head (ioq.bucket ext))
    let processBuckets :=
      match found with
      | some P => (ioq.processBuckets.write P (ioq.processBuckets.next ext)).write (.next ext) 0
      | none => ioq.processBuckets
    let (listEntry, _) ← ioq.listEntry.removeEntryList (.ext ext)
    some
      ({ ioq with
          listEntry := (listEntry.setFlink (.ext ext) none).setBlink (.ext ext) none
          processBuckets := processBuckets
          srb := Function.update ioq.srb ext 0 },
        [.srbComplete srb srbStatusAborted], .success)

/-- `ext` is `SpdSrbExtension(Srb)`. -/
def spdIoqPostSrb (ioq : SpdIoq) (srb ext : Addr) : Option (SpdIoq × NtStatus) :=
  if ioq.stopped then some (ioq, .cancelled)
  else if ext = 0 then none
  else do
    let listEntry ← ioq.listEntry.insertTailList .pendingList (.ext ext)
    some
      ({ ioq with
          srb := Function.update ioq.srb ext srb
          listEntry := listEntry }.wake, .success)

section Callbacks

variable {ω : Type}

/-- The locked section of `SpdIoqStartProcessingSrb`. The wait before it is
`spdQeventWait` on `pendingEvent`. -/
def spdIoqStartProcessingSrb (prepare : Addr → Addr → ω → Option ω)
    (ioq : SpdIoq) (w : ω) :
    Option (SpdIoq × ω × List IoqCall × NtStatus) :=
  if ioq.stopped then
    -- queue is stopped; wake up a waiter
    some (ioq.wake, w, [], .cancelled)
  else if ioq.listEntry.flink .pendingList = some .pendingList then
    some (ioq, w, [], .unsuccessful)
  else do
    let entry ← ioq.listEntry.flink .pendingList
    let ext ← entry.containingRecord
    let (listEntry, empty) ← ioq.listEntry.removeEntryList entry
    let wake := !empty
    let w ← prepare ext (ioq.srb ext) w
    let listEntry ← listEntry.insertTailList .processList entry
    let calls := [.prepare ext (ioq.srb ext)]
    let ioq :=
      { ioq with
        listEntry := listEntry
        processBuckets := ioq.processBuckets.push (ioq.bucket ext) ext }
    -- queue is not empty; wake up a waiter
    some (if wake then ioq.wake else ioq, w, calls, .success)

def spdIoqEndProcessingSrb (complete : Addr → Addr → ω → Option (UInt8 × ω)) (ioq : SpdIoq)
    (w : ω) (hint : UInt64) : Option (SpdIoq × ω × List IoqCall) :=
  if ioq.stopped then some (ioq, w, [])
  else do
    let ext : Addr := hint
    let found ← ioq.processBuckets.find 0 ext addressSpace (.head (ioq.bucket ext))
    match found with
    | none => some (ioq, w, [])
    | some P =>
        let processBuckets := ioq.processBuckets.write P (ioq.processBuckets.next ext)
        let (listEntry, _) ← ioq.listEntry.removeEntryList (.ext ext)
        let srb := ioq.srb ext
        let (status, w) ← complete ext srb w
        if status = srbStatusPending then
          -- more chunks: back to the head of the queue
          let listEntry ← listEntry.insertHeadList .pendingList (.ext ext)
          let ioq := { ioq with listEntry := listEntry, processBuckets := processBuckets }
          some (ioq.wake, w, [.complete ext srb status])
        else
          some ({ ioq with listEntry := listEntry, processBuckets := processBuckets }, w,
            [.complete ext srb status, .srbComplete srb status])

end Callbacks

end Winspd.Sys
