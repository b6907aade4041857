import Winspd.Sys.Ioq

/-!
# The assertions of `ioq.c`

In a checked build the functions of the queue look at what they find before
they change it. Each definition here evaluates a function's assertions on the
store the function is called with, and says whether all of them held. The
callbacks do not touch what is asserted. `none` is a walk that does not end.
-/

namespace Winspd.Sys

open Winspd.Lib

/-- `ASSERT(0 == SrbExtension->Srb)`, and that of its links. -/
def spdIoqPostSrbAsserts (ioq : SpdIoq) (ext : Addr) : Option Bool :=
  if ioq.stopped then some true
  else
    some (ioq.srb ext = 0 && ioq.listEntry.flink (.ext ext) = none &&
      ioq.listEntry.blink (.ext ext) = none)

/-- `ASSERT(Srb == SrbExtension->Srb)`. -/
def spdIoqCancelSrbAsserts (ioq : SpdIoq) (srb ext : Addr) : Option Bool :=
  if ioq.stopped then some true else some (srb = ioq.srb ext)

/-- `ASSERT(X != SrbExtension)` for each `X` of the bucket, and
`ASSERT(0 == SrbExtension->HashNext)`. -/
def spdIoqStartProcessingSrbAsserts (ioq : SpdIoq) : Option Bool :=
  if ioq.stopped then some true
  else if ioq.listEntry.flink .pendingList = some .pendingList then some true
  else do
    let entry ← ioq.listEntry.flink .pendingList
    let ext ← entry.containingRecord
    let held ← ioq.processBuckets.avoids 0 ext addressSpace
        (ioq.processBuckets.head (ioq.bucket ext))
    some (held && ioq.processBuckets.next ext = 0)

end Winspd.Sys
