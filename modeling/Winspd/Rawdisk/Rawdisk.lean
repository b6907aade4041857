import Winspd.Lib.Bytes
import Winspd.Shared.Stgunit

/-!
# tst/rawdisk/rawdisk.c

A storage unit in a file. The file is mapped, and the operations of the unit copy
between the view and the data buffer of the dispatcher thread.

They are programs. An action is a byte that is read from the view or stored into
it, or a system call, so that the threads are interrupted in the midst of a
`memcpy`. `memcpy` goes over the bytes in any order (`MemcpyOrder`). Where the
file cannot be read or written it raises `EXCEPTION_IN_PAGE_ERROR`, which
`CopyBuffer` handles.

The file is there three times: what is in the view, what `FlushViewOfFile` has
written of it, and what `FlushFileBuffers` has made durable.
-/

namespace Winspd.Rawdisk

open Winspd.Lib Winspd.Sys Winspd.Shared

/-- `RAWDISK`, without its handles. -/
structure RawDisk where
  blockCount : UInt64
  blockLength : UInt32
  sparse : Bool
  deriving DecidableEq, Repr

/-! ## The file -/

structure RawDiskFile where
  size : Nat
  view : Nat → UInt8
  written : Nat → UInt8
  durable : Nat → UInt8

/-- Offsets are from `Pointer`. -/
inductive FileAction
  | load (offset : UInt64)
  | store (offset : UInt64) (byte : UInt8)
  | flushViewOfFile (offset : UInt64) (length : UInt32)
  | flushFileBuffers
  /-- `DeviceIoControl(..., FSCTL_SET_ZERO_DATA, ...)`. -/
  | setZeroData (fileOffset beyondFinalZero : UInt64)
  deriving DecidableEq, Repr

/-- An exception comes with the offset of `ExceptionDataAddress`, unless this is
null. -/
abbrev FileException := Option UInt64

namespace FileAction

abbrev Answer : FileAction → Type
  | .load _ => Except FileException UInt8
  | .store .. => Except FileException Unit
  | _ => Bool

end FileAction

/-- How a system call ends, or an access. -/
inductive FileChoice
  | succeeds
  | fails
  | raises (exception : FileException)

/-- Of a length of zero `FlushViewOfFile` makes the rest of the view. -/
def Flushes (offset : UInt64) (length : UInt32) (p : Nat) : Prop :=
  offset.toNat ≤ p ∧ (length = 0 ∨ p < offset.toNat + length.toNat)

instance (offset : UInt64) (length : UInt32) (p : Nat) : Decidable (Flushes offset length p) :=
  inferInstanceAs (Decidable (_ ∧ _))

/-- `none` when the action cannot be executed, or cannot end so. An access outside
of the view is an access violation, which nothing handles. -/
def FileAction.exec (s : RawDiskFile) :
    (a : FileAction) → FileChoice → Option (RawDiskFile × a.Answer)
  | .load offset, .succeeds =>
      if offset.toNat < s.size then some (s, .ok (s.view offset.toNat)) else none
  | .load offset, .raises exception =>
      if offset.toNat < s.size then some (s, .error exception) else none
  | .store offset byte, .succeeds =>
      if offset.toNat < s.size then
        some ({ s with view := Function.update s.view offset.toNat byte }, .ok ())
      else none
  | .store offset _, .raises exception =>
      if offset.toNat < s.size then some (s, .error exception) else none
  | .flushViewOfFile offset length, .succeeds =>
      some
        ({ s with written := fun p => if Flushes offset length p then s.view p else s.written p },
          true)
  | .flushFileBuffers, .succeeds => some ({ s with durable := s.written }, true)
  | .setZeroData fileOffset beyondFinalZero, .succeeds =>
      some
        ({ s with
            view := fun p =>
              if fileOffset.toNat ≤ p ∧ p < beyondFinalZero.toNat then 0 else s.view p }, true)
  | .flushViewOfFile .., .fails => some (s, false)
  | .flushFileBuffers, .fails => some (s, false)
  | .setZeroData .., .fails => some (s, false)
  | _, _ => none

/-! ## The operations -/

abbrev FileProg := Prog FileAction FileAction.Answer

abbrev fileAction (a : FileAction) : FileProg a.Answer := Prog.perform a

def scsiSenseMediumError : UInt8 := 0x03
def scsiAdsenseWriteError : UInt8 := 0x0c
def scsiAdsenseUnrecoveredError : UInt8 := 0x11

/-- The order in which `memcpy` and `memset` go over `n` bytes. -/
structure MemcpyOrder where
  order : Nat → List Nat
  perm : ∀ n, (order n).Perm (List.range n)

/-- From the first byte to the last. -/
def MemcpyOrder.forward : MemcpyOrder := ⟨List.range, fun _ => .refl _⟩

/-- `memcpy` of these bytes out of the view, up to an exception. -/
def loadBytes (fileBuffer : UInt64) :
    List Nat → List UInt8 → FileProg (List UInt8 × Option FileException)
  | [], dst => pure (dst, none)
  | k :: ks, dst => do
      let r ← fileAction (.load (fileBuffer + UInt64.ofNat k))
      match r with
      | .error exception => pure (dst, some exception)
      | .ok byte => loadBytes fileBuffer ks (dst.set k byte)

/-- `memcpy` and `memset` of these bytes into the view. -/
def storeBytes (fileBuffer : UInt64) (src : Nat → UInt8) :
    List Nat → FileProg (Option FileException)
  | [] => pure none
  | k :: ks => do
      let r ← fileAction (.store (fileBuffer + UInt64.ofNat k) (src k))
      match r with
      | .error exception => pure (some exception)
      | .ok () => storeBytes fileBuffer src ks

namespace RawDisk

variable (rawDisk : RawDisk)

/-- `(PUINT8)RawDisk->Pointer + BlockAddress * RawDisk->BlockLength`. -/
def fileBuffer (blockAddress : UInt64) : UInt64 := blockAddress * rawDisk.blockLength.toUInt64

/-- What `CopyBuffer` sets, when the copy has ended so. -/
def copyStatus (exception : Option FileException) (asc : UInt8) (status : StorageUnitStatus) :
    StorageUnitStatus :=
  match exception with
  | none => status
  | some dataAddress =>
      spdStorageUnitStatusSetSense status scsiSenseMediumError asc
        (dataAddress.map fun address => address / rawDisk.blockLength.toUInt64)

def flushInternal (blockAddress : UInt64) (blockCount : UInt32) (status : StorageUnitStatus) :
    FileProg StorageUnitStatus := do
  let error :=
    spdStorageUnitStatusSetSense status scsiSenseMediumError scsiAdsenseWriteError none
  let flushed ← fileAction
    (.flushViewOfFile (rawDisk.fileBuffer blockAddress) (blockCount * rawDisk.blockLength))
  if flushed = false then pure error
  else do
    let flushed ← fileAction .flushFileBuffers
    pure (if flushed = false then error else status)

/-- After the `memcpy` of a read. -/
def readCopy (order : MemcpyOrder) (dataBuffer : List UInt8) (blockAddress : UInt64)
    (blockCount : UInt32) (status : StorageUnitStatus) :
    FileProg (Bool × StorageUnitStatus × List UInt8) := do
  let (dataBuffer, exception) ← loadBytes (rawDisk.fileBuffer blockAddress)
    (order.order (blockCount * rawDisk.blockLength).toNat) dataBuffer
  pure (true, rawDisk.copyStatus exception scsiAdsenseUnrecoveredError status, dataBuffer)

def read (order : MemcpyOrder) (dataBuffer : List UInt8) (blockAddress : UInt64)
    (blockCount : UInt32) (flushFlag : Bool) (status : StorageUnitStatus) :
    FileProg (Bool × StorageUnitStatus × List UInt8) :=
  if flushFlag then do
    let status ← rawDisk.flushInternal blockAddress blockCount status
    if status.scsiStatus ≠ scsistatGood then pure (true, status, dataBuffer)
    else rawDisk.readCopy order dataBuffer blockAddress blockCount status
  else rawDisk.readCopy order dataBuffer blockAddress blockCount status

def write (order : MemcpyOrder) (dataBuffer : List UInt8) (blockAddress : UInt64)
    (blockCount : UInt32) (flushFlag : Bool) (status : StorageUnitStatus) :
    FileProg (Bool × StorageUnitStatus × List UInt8) := do
  let exception ← storeBytes (rawDisk.fileBuffer blockAddress)
    (fun k => dataBuffer.getD k 0) (order.order (blockCount * rawDisk.blockLength).toNat)
  let status := rawDisk.copyStatus exception scsiAdsenseWriteError status
  if status.scsiStatus = scsistatGood ∧ flushFlag then do
    let status ← rawDisk.flushInternal blockAddress blockCount status
    pure (true, status, dataBuffer)
  else pure (true, status, dataBuffer)

def flush (dataBuffer : List UInt8) (blockAddress : UInt64) (blockCount : UInt32)
    (status : StorageUnitStatus) : FileProg (Bool × StorageUnitStatus × List UInt8) := do
  let status ← rawDisk.flushInternal blockAddress blockCount status
  pure (true, status, dataBuffer)

/-- `Descriptors[i]`, its `BlockAddress` and its `BlockCount`. -/
def descriptor (dataBuffer : List UInt8) (i : Nat) : UInt64 × UInt32 :=
  let d := (dataBuffer.drop (16 * i)).take 16
  (UInt64.ofNat (ofLe (d.take 8)), UInt32.ofNat (ofLe ((d.drop 8).take 4)))

/-- `if (!SetZero)`. `CopyBuffer` gets no status, and says nothing of an exception. -/
def zeroCopy (order : MemcpyOrder) (blockAddress : UInt64) (blockCount : UInt32) :
    FileProg Unit := do
  let _ ← storeBytes (rawDisk.fileBuffer blockAddress) (fun _ => 0)
    (order.order (blockCount * rawDisk.blockLength).toNat)
  pure ()

/-- The body of the loop. -/
def unmapBlocks (order : MemcpyOrder) (blockAddress : UInt64) (blockCount : UInt32) :
    FileProg Unit :=
  if rawDisk.sparse then do
    let setZero ← fileAction (.setZeroData (rawDisk.fileBuffer blockAddress)
      (rawDisk.fileBuffer (blockAddress + blockCount.toUInt64)))
    if setZero = false then rawDisk.zeroCopy order blockAddress blockCount else pure ()
  else rawDisk.zeroCopy order blockAddress blockCount

/-- The loop, for `n` descriptors from `i` on. -/
def unmapDescriptors (order : MemcpyOrder) (dataBuffer : List UInt8) :
    Nat → Nat → FileProg Unit
  | _, 0 => pure ()
  | i, n + 1 => do
      let d := descriptor dataBuffer i
      rawDisk.unmapBlocks order d.1 d.2
      unmapDescriptors order dataBuffer (i + 1) n

def unmap (order : MemcpyOrder) (dataBuffer : List UInt8) (count : UInt32)
    (status : StorageUnitStatus) : FileProg (Bool × StorageUnitStatus × List UInt8) := do
  rawDisk.unmapDescriptors order dataBuffer 0 count.toNat
  pure (true, status, dataBuffer)

/-- `RawDiskInterface`. -/
def operation (order : MemcpyOrder) (call : OperationCall) (status : StorageUnitStatus)
    (dataBuffer : List UInt8) : FileProg (Bool × StorageUnitStatus × List UInt8) :=
  match call with
  | .read blockAddress blockCount flushFlag =>
      rawDisk.read order dataBuffer blockAddress blockCount flushFlag status
  | .write blockAddress blockCount flushFlag =>
      rawDisk.write order dataBuffer blockAddress blockCount flushFlag status
  | .flush blockAddress blockCount => rawDisk.flush dataBuffer blockAddress blockCount status
  | .unmap count => rawDisk.unmap order dataBuffer count status

end RawDisk

def rawDiskInterface : Interface := ⟨true, true, true, true⟩

end Winspd.Rawdisk
