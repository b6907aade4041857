import Winspd.Sys.Io

/-!
# What the driver touches of a request

From `SpdHwStartIo` on until `SpdSrbComplete` an SRB and its extension belong to
the driver. Each definition here lists, for a function on the store it is called
with, the SRBs and the extensions that are read or written and the SRBs that are
completed, in the order of the source. What is touched several times in a row is
listed once. `none` is a machine that stopped.

The lists and the buckets of the queue run through the extensions, so that a
function also touches the neighbours of what it puts in or takes out, and what it
meets on its way through a bucket. The heads lie in no extension.
-/

namespace Winspd.Sys

open Winspd.Lib

/-- A read or write of the SRB at `a` or of the extension at `e`, or
`StorPortNotification(RequestComplete)`. -/
inductive SrbUse
  | srb (a : Addr)
  | ext (e : Addr)
  | complete (a : Addr)
  deriving DecidableEq, Repr

/-- The extensions that `LIST_ENTRY`s are in. -/
def entryUses (entries : List ListEntry) : List SrbUse :=
  (entries.filterMap ListEntry.containingRecord).map .ext

/-- `SpdSrbComplete`: the status is set, and the SRB is logged, before StorPort
gets it back. -/
def spdSrbCompleteUses (srb : Addr) : List SrbUse := [.srb srb, .complete srb]

/-! ## The queue -/

def spdIoqResetUses (ioq : SpdIoq) : Option (List SrbUse) :=
  if ioq.stopped then some []
  else do
    let pendingEntry ← ioq.listEntry.flink .pendingList
    let processEntry ← ioq.listEntry.flink .processList
    let listEntry :=
      (ioq.listEntry.initializeListHead .pendingList).initializeListHead .processList
    let pending ← listEntry.walk .pendingList addressSpace pendingEntry
    let process ← listEntry.walk .processList addressSpace processEntry
    let exts ← (pending ++ process).mapM ListEntry.containingRecord
    -- `Flink` is stored before `SpdSrbComplete`
    some (exts.flatMap fun ext => .ext ext :: spdSrbCompleteUses (ioq.srb ext))

def spdIoqCancelSrbUses (ioq : SpdIoq) (srb ext : Addr) : Option (List SrbUse) :=
  if ioq.stopped then some []
  else do
    let searched ← ioq.processBuckets.findTouched 0 ext addressSpace (.head (ioq.bucket ext))
    let removed ← ioq.listEntry.removeTouched (.ext ext)
    some
      (.srb srb :: .ext ext :: searched.map .ext ++ entryUses removed ++
        .ext ext :: spdSrbCompleteUses srb)

def spdIoqPostSrbUses (ioq : SpdIoq) (srb ext : Addr) : Option (List SrbUse) :=
  if ioq.stopped then some []
  else do
    let inserted ← ioq.listEntry.insertTailTouched .pendingList (.ext ext)
    some (.srb srb :: .ext ext :: entryUses inserted)

/-- `SpdSrbExecuteScsiPrepare` and `SpdSrbExecuteScsiComplete`: the extension they
are called for, and its SRB. -/
def callbackUses (ext srb : Addr) : List SrbUse := [.ext ext, .srb srb]

/-- What the assertions of a checked build go through. -/
def assertedTouched (dbg : Bool) (ioq : SpdIoq) (ext : Addr) : Option (List Addr) :=
  if dbg then
    ioq.processBuckets.avoidsTouched 0 addressSpace (ioq.processBuckets.head (ioq.bucket ext))
  else some []

def spdIoqStartProcessingSrbUses (dbg : Bool) (ioq : SpdIoq) : Option (List SrbUse) :=
  if ioq.stopped then some []
  else if ioq.listEntry.flink .pendingList = some .pendingList then some []
  else do
    let entry ← ioq.listEntry.flink .pendingList
    let ext ← entry.containingRecord
    let removed ← ioq.listEntry.removeTouched entry
    let (listEntry, _) ← ioq.listEntry.removeEntryList entry
    let inserted ← listEntry.insertTailTouched .processList entry
    let asserted ← assertedTouched dbg ioq ext
    some
      (entryUses removed ++ callbackUses ext (ioq.srb ext) ++ entryUses inserted ++
        asserted.map .ext ++ [.ext ext])

def spdIoqEndProcessingSrbUses {ω : Type}
    (complete : Addr → Addr → ω → Option (UInt8 × ω))
    (ioq : SpdIoq) (w : ω) (hint : UInt64) : Option (List SrbUse) :=
  if ioq.stopped then some []
  else do
    let ext : Addr := hint
    let searched ← ioq.processBuckets.findTouched 0 ext addressSpace (.head (ioq.bucket ext))
    let found ← ioq.processBuckets.find 0 ext addressSpace (.head (ioq.bucket ext))
    match found with
    | none => some (searched.map .ext)
    | some _ =>
        let removed ← ioq.listEntry.removeTouched (.ext ext)
        let (listEntry, _) ← ioq.listEntry.removeEntryList (.ext ext)
        let srb := ioq.srb ext
        let (status, _) ← complete ext srb w
        let answered := searched.map .ext ++ entryUses removed ++ callbackUses ext srb
        if status = srbStatusPending then
          let inserted ← listEntry.insertHeadTouched .pendingList (.ext ext)
          some (answered ++ entryUses inserted)
        else some (answered ++ .ext ext :: spdSrbCompleteUses srb)

/-! ## SpdHwStartIo -/

/-- `SpdSrbExecuteScsi`. Up to the post it touches the SRB, and the extension,
which is listed also where it is not reached. -/
def spdSrbExecuteScsiUses (posted : Bool) (a : Addr) (srb : Srb) (ioq : SpdIoq) :
    Option (List SrbUse) :=
  if posted then
    (spdIoqPostSrbUses (ioq.zeroExtension srb.miniportContext) a srb.miniportContext).map
      ([.srb a, .ext srb.miniportContext] ++ ·)
  else some [.srb a, .ext srb.miniportContext]

/-- The first switch of `SpdHwStartIo`. `posted` is whether its status is
PENDING. -/
def startIoDispatchUses (posted : Bool) (disk : Disk) (a : Addr) (m : ScsiMem) (ioq : SpdIoq) :
    Option (List SrbUse) :=
  let srb := m.srb a
  let reset := (spdIoqResetUses ioq).map (.srb a :: ·)
  if srb.function = srbFunctionExecuteScsi then spdSrbExecuteScsiUses posted a srb ioq
  else if srb.function = srbFunctionAbortCommand then
    match disk.reference srb with
    | none => some [.srb a]
    | some _ => (spdIoqCancelSrbUses ioq a srb.miniportContext).map (.srb a :: ·)
  else if srb.function = srbFunctionResetBus then
    if srb.pathId ≠ 0 then some [.srb a] else reset
  else if srb.function = srbFunctionResetDevice then
    match disk.referenceByBtl (spdIoctlBtl srb.pathId.toUInt32 srb.targetId.toUInt32 0) with
    | none => some [.srb a]
    | some _ => reset
  else if srb.function = srbFunctionResetLogicalUnit then
    match disk.reference srb with
    | none => some [.srb a]
    | some _ => reset
  else some [.srb a]

/-- `SpdHwStartIo`, but for the log of an SRB that is pending. -/
def spdHwStartIoUses (storResult : StorStatus) (disk : Disk) (a : Addr) (m : ScsiMem)
    (ioq : SpdIoq) : Option (List SrbUse) := do
  let (status, _) ← startIoDispatch storResult disk a m ioq
  let posted := srbStatus status = srbStatusPending
  let dispatched ← startIoDispatchUses posted disk a m ioq
  some (if posted then dispatched else dispatched ++ spdSrbCompleteUses a)

/-- That log: a checked build makes a string of the SRB if `spd_debug` has the bit
`spd_debug_dp_srb`. -/
def spdHwStartIoLogUses (dbg dpSrb : Bool) (a : Addr) : List SrbUse :=
  if dbg && dpSrb then [.srb a] else []

end Winspd.Sys
