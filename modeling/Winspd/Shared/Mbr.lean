import Winspd.Lib.Mbr

/-!
# shared/mbr.c

The helper that makes a partition table for a disk: a master boot record with up
to four partitions, which cannot be booted from.

The structures are those of the source, packed, and their bytes are what is in
the buffer. `Partitions` is what can be read from the pointer on, and a buffer is
the list of its 512 bytes.
-/

namespace Winspd.Shared

open Winspd.Lib

def mbrSuccess : UInt32 := 0
def mbrInvalidParameter : UInt32 := 87

/-- `SPD_PARTITION`. -/
structure SpdPartition where
  type : UInt8
  active : UInt8
  blockAddress : UInt64
  blockCount : UInt64
  deriving DecidableEq, Repr

/-- `EndBlockAddress`, which can wrap around. -/
def SpdPartition.endBlockAddress (p : SpdPartition) : UInt64 := p.blockAddress + p.blockCount

/-- `SPT` and `HPC`. -/
def spt : UInt32 := 63
def hpc : UInt32 := 255

/-- `CHS_TO_MBR`. -/
def chsToMbr (c h s : UInt32) : List UInt8 :=
  [h.toUInt8, ((s &&& (0x3f : UInt32)) ||| ((c >>> 2) &&& (0xc0 : UInt32))).toUInt8,
    (c &&& 0xff).toUInt8]

/-- `LBA_TO_CHS`, the test of `C` and `CHS_TO_MBR`. -/
def lbaToMbr (lba : UInt32) : List UInt8 :=
  let c := lba / (hpc * spt)
  let h := lba / spt % hpc
  let s := lba % spt + 1
  if 1023 < c then chsToMbr 1023 254 63 else chsToMbr c h s

/-- The four assignments of a number. -/
def mbrNumber (x : UInt64) : List UInt8 :=
  [(x &&& 0xff).toUInt8, ((x >>> 8) &&& 0xff).toUInt8, ((x >>> 16) &&& 0xff).toUInt8,
    ((x >>> 24) &&& 0xff).toUInt8]

structure SpdMbrPartition where
  active : UInt8
  firstChs : List UInt8
  type : UInt8
  lastChs : List UInt8
  blockAddress : List UInt8
  blockCount : List UInt8
  deriving DecidableEq, Repr

def SpdMbrPartition.bytes (p : SpdMbrPartition) : List UInt8 :=
  [p.active] ++ p.firstChs ++ [p.type] ++ p.lastChs ++ p.blockAddress ++ p.blockCount

structure SpdMbr where
  boot : List UInt8
  signature : List UInt8
  padding : List UInt8
  partitions : List SpdMbrPartition
  magic : List UInt8
  deriving DecidableEq, Repr

def SpdMbr.bytes (mbr : SpdMbr) : List UInt8 :=
  mbr.boot ++ mbr.signature ++ mbr.padding ++ mbr.partitions.flatMap SpdMbrPartition.bytes ++
    mbr.magic

/-- `INT 18h`, `HLT`, `JMP` to the `HLT` instruction; the rest is zero. -/
def spdMbrBoot : List UInt8 := [0xcd, 0x18, 0xf4, 0xeb, 0xfd] ++ List.replicate 435 0

def spdMbrNoPartition : SpdMbrPartition :=
  ⟨0, List.replicate 3 0, 0, List.replicate 3 0, List.replicate 4 0, List.replicate 4 0⟩

/-- `SpdMbr`. -/
def spdMbr : SpdMbr where
  boot := spdMbrBoot
  signature := List.replicate 4 0
  padding := List.replicate 2 0
  partitions := List.replicate 4 spdMbrNoPartition
  magic := [0x55, 0xaa]

/-- The test in the first loop. -/
def SpdPartition.invalid (p : SpdPartition) : Bool :=
  p.endBlockAddress ≤ p.blockAddress ∨ p.endBlockAddress > 0xffffffff

/-- What the second loop assigns to `Buffer->Partitions[I]`. -/
def SpdPartition.entry (p : SpdPartition) : SpdMbrPartition where
  active := p.active
  firstChs := lbaToMbr p.blockAddress.toUInt32
  type := p.type
  lastChs := lbaToMbr p.endBlockAddress.toUInt32
  blockAddress := mbrNumber p.blockAddress
  blockCount := mbrNumber p.blockCount

/-- The second loop, for `I` below so many. -/
def spdMbrFill (partitions : Nat → SpdPartition) : Nat → SpdMbr → SpdMbr
  | 0, mbr => mbr
  | n + 1, mbr =>
      let mbr := spdMbrFill partitions n mbr
      { mbr with partitions := mbr.partitions.set n (partitions n).entry }

/-- `SpdDefinePartitionTable`: the result, and the buffer. -/
def spdDefinePartitionTable (partitions : Nat → SpdPartition) (count : UInt32)
    (buffer : List UInt8) : UInt32 × List UInt8 :=
  if 4 < count then (mbrInvalidParameter, buffer)
  else if (List.range count.toNat).any fun i => (partitions i).invalid then
    (mbrInvalidParameter, buffer)
  else (mbrSuccess, (spdMbrFill partitions count.toNat spdMbr).bytes)

end Winspd.Shared
