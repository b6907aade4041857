import Winspd.Lib.Align
import Winspd.Lib.Bytes
import Winspd.Lib.Terminated

/-!
# shared/memalign.c

A buffer for a request to the adapter has to be aligned as the adapter says.
`SpdIoctlMemAlignAlloc` takes a larger block from the heap, returns the first
aligned address in it, and keeps the address of the block in front of that, where
`SpdIoctlMemAlignFree` finds it.

The size of a pointer is that of the platform. What the heap returns is given,
`0` being a null pointer.
-/

namespace Winspd.Shared

open Winspd.Lib

def errorNotEnoughMemory : UInt32 := 8

/-- The platforms of the solution. -/
inductive Platform
  | win32
  | x64
  deriving DecidableEq, Repr

namespace Platform

/-- `sizeof(PVOID)`. -/
def sizeofPvoid : Platform → Nat
  | .win32 => 4
  | .x64 => 8

/-- `UINT_PTR`. -/
abbrev UintPtr (platform : Platform) : Type := BitVec (8 * platform.sizeofPvoid)

end Platform

variable {platform : Platform}

/-- `*P = Value`, for a pointer to a pointer. -/
def storePvoid (mem : Nat → UInt8) (p value : platform.UintPtr) : Nat → UInt8 :=
  store mem p.toNat (toLe platform.sizeofPvoid value.toNat)

/-- `*P`. -/
def loadPvoid (mem : Nat → UInt8) (p : platform.UintPtr) : platform.UintPtr :=
  .ofNat _ (ofLe ((List.range platform.sizeofPvoid).map fun i => mem (p.toNat + i)))

/-- `((PVOID *)P)[-1]` is at this address. -/
def savedAt (p : platform.UintPtr) : platform.UintPtr := p - .ofNat _ platform.sizeofPvoid

/-- `AlignmentMask`, after the first test. The sum is a 32-bit one. -/
def memAlignMask (platform : Platform) (alignmentMask : UInt32) : UInt32 :=
  if (alignmentMask + 1).toNat < platform.sizeofPvoid then UInt32.ofNat (platform.sizeofPvoid - 1)
  else alignmentMask

/-- The result, `*PP`, and the memory. -/
structure MemAligned (platform : Platform) where
  error : UInt32
  pp : platform.UintPtr
  memory : Nat → UInt8

/-- `memAlloc` is what `MemAlloc` returns for a size. -/
def spdIoctlMemAlignAlloc (memAlloc : UInt32 → platform.UintPtr) (mem : Nat → UInt8)
    (size alignmentMask : UInt32) : MemAligned platform :=
  let alignmentMask := memAlignMask platform alignmentMask
  let p := memAlloc (size + alignmentMask)
  if p = 0 then ⟨errorNotEnoughMemory, 0, mem⟩
  else
    let pp := alignUp p (.ofNat _ alignmentMask.toNat)
    ⟨0, pp, storePvoid mem (savedAt pp) p⟩

/-- What `SpdIoctlMemAlignFree` passes to `MemFree`. -/
def spdIoctlMemAlignFree (mem : Nat → UInt8) (p : platform.UintPtr) : Option platform.UintPtr :=
  if p = 0 then none else some (loadPvoid mem (savedAt p))

end Winspd.Shared
