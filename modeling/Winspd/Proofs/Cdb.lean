import Winspd.Sys.Shared

/-!
# Commands with a range

READ, WRITE and SYNCHRONIZE CACHE have a block address and a number of blocks,
in a CDB of 6, 10, 12 or 16 bytes. `CdbEncodes` is the encoding of SBC: where
the fields are, highest byte first, with all other bits free. The driver takes
the layout from the group of the operation code, and the library the length of
the CDB; both come to the size SBC gives to the code. What a range is used for
does not depend on the CDB it came in.
-/

namespace Winspd.Proofs

open Winspd.Lib Winspd.Sys

/-! ## The encoding -/

inductive CdbSize
  | cdb6
  | cdb10
  | cdb12
  | cdb16
  deriving DecidableEq, Repr

namespace CdbSize

def bytes : CdbSize → Nat
  | .cdb6 => 6
  | .cdb10 => 10
  | .cdb12 => 12
  | .cdb16 => 16

/-- The group of the operation codes of this size. -/
def InGroup : CdbSize → UInt8 → Prop
  | .cdb6, group => group = 0x00
  | .cdb10, group => group = 0x20 ∨ group = 0x40
  | .cdb12, group => group = 0xa0
  | .cdb16, group => group = 0x80

instance (size : CdbSize) (group : UInt8) : Decidable (size.InGroup group) := by
  unfold InGroup
  cases size <;> infer_instance

/-- The codes of the commands with a range. There is no SYNCHRONIZE CACHE of 6 or
12 bytes. -/
def opcode : CdbSize → ScsiOp → Option UInt8
  | .cdb6, .read => some scsiopRead6
  | .cdb6, .write => some scsiopWrite6
  | .cdb10, .read => some scsiopRead
  | .cdb10, .write => some scsiopWrite
  | .cdb10, .synchronizeCache => some scsiopSynchronizeCache
  | .cdb12, .read => some scsiopRead12
  | .cdb12, .write => some scsiopWrite12
  | .cdb16, .read => some scsiopRead16
  | .cdb16, .write => some scsiopWrite16
  | .cdb16, .synchronizeCache => some scsiopSynchronizeCache16
  | _, _ => none

/-- LOGICAL BLOCK ADDRESS. Of the first byte it has in a 6-byte CDB five bits
belong to it. -/
def addressField : CdbSize → Cdb → List UInt8
  | .cdb6, cdb => [cdb.asByte 1 &&& 0x1f, cdb.asByte 2, cdb.asByte 3]
  | .cdb10, cdb | .cdb12, cdb => [cdb.asByte 2, cdb.asByte 3, cdb.asByte 4, cdb.asByte 5]
  | .cdb16, cdb => [cdb.asByte 2, cdb.asByte 3, cdb.asByte 4, cdb.asByte 5, cdb.asByte 6,
      cdb.asByte 7, cdb.asByte 8, cdb.asByte 9]

def lengthField : CdbSize → Cdb → List UInt8
  | .cdb6, cdb => [cdb.asByte 4]
  | .cdb10, cdb => [cdb.asByte 7, cdb.asByte 8]
  | .cdb12, cdb => [cdb.asByte 6, cdb.asByte 7, cdb.asByte 8, cdb.asByte 9]
  | .cdb16, cdb => [cdb.asByte 10, cdb.asByte 11, cdb.asByte 12, cdb.asByte 13]

def addressBytes : CdbSize → Nat
  | .cdb6 => 3
  | .cdb10 | .cdb12 => 4
  | .cdb16 => 8

def lengthBytes : CdbSize → Nat
  | .cdb6 => 1
  | .cdb10 => 2
  | .cdb12 | .cdb16 => 4

def addressBits : CdbSize → Nat
  | .cdb6 => 21
  | .cdb10 | .cdb12 => 32
  | .cdb16 => 64

def lengthBits : CdbSize → Nat
  | .cdb6 => 8
  | .cdb10 => 16
  | .cdb12 | .cdb16 => 32

def fuaField : CdbSize → Cdb → Bool
  | .cdb6, _ => false
  | _, cdb => (cdb.asByte 1).toNat.testBit 3

/-- The number of blocks for a transfer length. -/
def blocks (size : CdbSize) (length : Nat) : Nat :=
  if size = .cdb6 ∧ length = 0 then 256 else length

end CdbSize

structure CdbEncodes (op : ScsiOp) (size : CdbSize) (address length : Nat) (fua : Bool)
    (cdb : Cdb) : Prop where
  opcode : size.opcode op = some (cdb.asByte 0)
  address_lt : address < 2 ^ size.addressBits
  length_lt : length < 2 ^ size.lengthBits
  addressField : size.addressField cdb = toBe size.addressBytes address
  lengthField : size.lengthField cdb = toBe size.lengthBytes length
  fua : fua = size.fuaField cdb

variable {op : ScsiOp} {size size' : CdbSize} {address length length' : Nat} {fua fua' : Bool}
  {cdb cdb' : Cdb} {a e : Addr} {m : ScsiMem} {srb : Srb}

/-! ## Decoding -/

theorem CdbSize.opcode_spec {code : UInt8} (h : size.opcode op = some code) :
    size.InGroup (code &&& 0xe0) ∧ (cdb.asByte 0 = code → scsiOp cdb = op) := by
  cases size <;> cases op <;> cases h <;>
    exact ⟨by decide, fun h => by rw [scsiOp, h]; decide⟩

theorem fua_eq {b : UInt8} : decide (b &&& 0x08 ≠ 0) = b.toNat.testBit 3 := by
  have height : (0x08 : UInt8).toNat = 2 ^ 3 := rfl
  rw [Bool.eq_iff_iff, decide_eq_true_eq, ne_eq, ← UInt8.toNat_inj, UInt8.toNat_and, height,
    Nat.and_two_pow, UInt8.toNat_zero]
  cases b.toNat.testBit 3 <;> simp

theorem spdCdbGetRange_fields (h : size.InGroup (cdb.asByte 0 &&& 0xe0)) :
    ∃ range, spdCdbGetRange cdb = some range ∧
      range.blockAddress.toNat = ofBe (size.addressField cdb) ∧
      range.blockCount.toNat = size.blocks (ofBe (size.lengthField cdb)) ∧
      range.forceUnitAccess = size.fuaField cdb := by
  cases size with
  | cdb6 =>
      have hgroup : cdb.asByte 0 &&& 0xe0 = 0x00 := h
      refine ⟨_, if_pos hgroup, toNat_or_three, ?_, rfl⟩
      have hfield : ofBe [cdb.asByte 4] = (cdb.asByte 4).toNat := by simp [ofBe, ofLe]
      have hzero : cdb.asByte 4 = 0 ↔ (cdb.asByte 4).toNat = 0 := by
        rw [← UInt8.toNat_inj, UInt8.toNat_zero]
      show (if cdb.asByte 4 ≠ 0 then (cdb.asByte 4).toUInt32 else 256).toNat = _
      rw [CdbSize.blocks, CdbSize.lengthField, hfield]
      by_cases h0 : cdb.asByte 4 = 0
      · rw [if_neg (not_not.mpr h0), if_pos ⟨rfl, hzero.mp h0⟩]
        rfl
      · rw [if_pos h0, if_neg fun h => h0 (hzero.mpr h.2), UInt8.toNat_toUInt32]
  | cdb10 =>
      have hgroup : cdb.asByte 0 &&& 0xe0 = 0x20 ∨ cdb.asByte 0 &&& 0xe0 = 0x40 := h
      have hne : cdb.asByte 0 &&& 0xe0 ≠ 0x00 := by
        intro h0
        rw [h0] at hgroup
        exact absurd hgroup (by decide)
      refine ⟨_, (if_neg hne).trans (if_pos hgroup), toNat_or_four, ?_, fua_eq⟩
      exact toNat_or_two32.trans (if_neg fun h => by cases h.1).symm
  | cdb12 =>
      have hgroup : cdb.asByte 0 &&& 0xe0 = 0xa0 := h
      have h6 : cdb.asByte 0 &&& 0xe0 ≠ 0x00 := by
        rw [hgroup]
        decide
      have h10 : ¬ (cdb.asByte 0 &&& 0xe0 = 0x20 ∨ cdb.asByte 0 &&& 0xe0 = 0x40) := by
        rw [hgroup]
        decide
      have h16 : cdb.asByte 0 &&& 0xe0 ≠ 0x80 := by
        rw [hgroup]
        decide
      refine ⟨_, (if_neg h6).trans ((if_neg h10).trans ((if_neg h16).trans (if_pos hgroup))),
        toNat_or_four, ?_, fua_eq⟩
      exact toNat_or_four32.trans (if_neg fun h => by cases h.1).symm
  | cdb16 =>
      have hgroup : cdb.asByte 0 &&& 0xe0 = 0x80 := h
      have h6 : cdb.asByte 0 &&& 0xe0 ≠ 0x00 := by
        rw [hgroup]
        decide
      have h10 : ¬ (cdb.asByte 0 &&& 0xe0 = 0x20 ∨ cdb.asByte 0 &&& 0xe0 = 0x40) := by
        rw [hgroup]
        decide
      refine ⟨_, (if_neg h6).trans ((if_neg h10).trans (if_pos hgroup)), toNat_or_eight,
        ?_, fua_eq⟩
      exact toNat_or_four32.trans (if_neg fun h => by cases h.1).symm

theorem CdbSize.fields_congr
    (h : ∀ i : Fin 16, i.val < size.bytes → cdb'.asByte i = cdb.asByte i) :
    cdb'.asByte 0 = cdb.asByte 0 ∧ size.addressField cdb' = size.addressField cdb ∧
      size.lengthField cdb' = size.lengthField cdb ∧ size.fuaField cdb' = size.fuaField cdb := by
  cases size with
  | cdb6 =>
      refine ⟨h 0 (by decide), ?_, ?_, rfl⟩
      · simp only [addressField, h 1 (by decide), h 2 (by decide), h 3 (by decide)]
      · simp only [lengthField, h 4 (by decide)]
  | cdb10 =>
      refine ⟨h 0 (by decide), ?_, ?_, ?_⟩
      · simp only [addressField, h 2 (by decide), h 3 (by decide), h 4 (by decide),
          h 5 (by decide)]
      · simp only [lengthField, h 7 (by decide), h 8 (by decide)]
      · simp only [fuaField, h 1 (by decide)]
  | cdb12 =>
      refine ⟨h 0 (by decide), ?_, ?_, ?_⟩
      · simp only [addressField, h 2 (by decide), h 3 (by decide), h 4 (by decide),
          h 5 (by decide)]
      · simp only [lengthField, h 6 (by decide), h 7 (by decide), h 8 (by decide),
          h 9 (by decide)]
      · simp only [fuaField, h 1 (by decide)]
  | cdb16 =>
      refine ⟨h 0 (by decide), ?_, ?_, ?_⟩
      · simp only [addressField, h 2 (by decide), h 3 (by decide), h 4 (by decide),
          h 5 (by decide), h 6 (by decide), h 7 (by decide), h 8 (by decide), h 9 (by decide)]
      · simp only [lengthField, h 10 (by decide), h 11 (by decide), h 12 (by decide),
          h 13 (by decide)]
      · simp only [fuaField, h 1 (by decide)]

theorem CdbEncodes.range (h : CdbEncodes op size address length fua cdb) :
    ∃ range, spdCdbGetRange cdb = some range ∧ range.blockAddress.toNat = address ∧
      range.blockCount.toNat = size.blocks length ∧ range.forceUnitAccess = fua := by
  obtain ⟨range, hrange, haddress, hcount, hfua⟩ :=
    spdCdbGetRange_fields (@CdbSize.opcode_spec _ _ cdb _ h.opcode).1
  have hwide : 2 ^ size.addressBits ≤ 256 ^ size.addressBytes ∧
      2 ^ size.lengthBits ≤ 256 ^ size.lengthBytes := by
    cases size <;> decide
  refine ⟨range, hrange, ?_, ?_, hfua.trans h.fua.symm⟩
  · rw [haddress, h.addressField, ofBe_toBe_of_lt (Nat.lt_of_lt_of_le h.address_lt hwide.1)]
  · rw [hcount, h.lengthField, ofBe_toBe_of_lt (Nat.lt_of_lt_of_le h.length_lt hwide.2)]

/-! ## The length of the CDB -/

theorem cdbLength_eq (h : size.InGroup (cdb.asByte 0 &&& 0xe0)) :
    ∃ length, Shared.cdbLength cdb = some length ∧ length.toNat = size.bytes := by
  cases size with
  | cdb6 =>
      have hgroup : cdb.asByte 0 &&& 0xe0 = 0x00 := h
      exact ⟨6, if_pos hgroup, rfl⟩
  | cdb10 =>
      refine ⟨10, ?_, rfl⟩
      rcases h with hgroup | hgroup <;>
        · simp only [Shared.cdbLength, hgroup]
          decide
  | cdb12 =>
      have hgroup : cdb.asByte 0 &&& 0xe0 = 0xa0 := h
      refine ⟨12, ?_, rfl⟩
      simp only [Shared.cdbLength, hgroup]
      decide
  | cdb16 =>
      have hgroup : cdb.asByte 0 &&& 0xe0 = 0x80 := h
      refine ⟨16, ?_, rfl⟩
      simp only [Shared.cdbLength, hgroup]
      decide

theorem CdbEncodes.behind (h : CdbEncodes op size address length fua cdb)
    (hcdb' : ∀ i : Fin 16, i.val < size.bytes → cdb'.asByte i = cdb.asByte i) :
    CdbEncodes op size address length fua cdb' := by
  obtain ⟨hcode, haddress, hlength, hfua⟩ := size.fields_congr hcdb'
  exact ⟨hcode ▸ h.opcode, h.address_lt, h.length_lt, haddress ▸ h.addressField,
    hlength ▸ h.lengthField, hfua ▸ h.fua⟩

/-! ## Another CDB with the range -/

/-- The SRB at `a` gets another CDB. -/
def setCdb (a : Addr) (cdb : Cdb) (m : ScsiMem) : ScsiMem :=
  m.setSrb a { m.srb a with cdb := cdb }

theorem setCdb_self : (setCdb a cdb m).srb a = { m.srb a with cdb := cdb } :=
  Function.update_self ..

theorem setCdb_setSrb :
    (setCdb a cdb m).setSrb a { srb with cdb := cdb } = setCdb a cdb (m.setSrb a srb) := by
  simp only [setCdb, ScsiMem.setSrb, Function.update_idem, Function.update_self]

theorem readSystem_setCdb {ext : SrbExtension} {off len : Nat} :
    (setCdb a cdb m).readSystem ext off len = m.readSystem ext off len := by
  have hbuffer : ((setCdb a cdb m).srb ext.systemDataBuffer).dataBuffer =
      (m.srb ext.systemDataBuffer).dataBuffer := by
    by_cases hself : ext.systemDataBuffer = a
    · rw [hself, setCdb_self]
    · exact congrArg Srb.dataBuffer (Function.update_of_ne hself ..)
  rw [ScsiMem.readSystem, ScsiMem.readSystem, hbuffer]

/-- What a function leaves, with the other CDB. -/
def ScsiResult.setCdb (a : Addr) (cdb : Cdb) (r : ScsiResult) : ScsiResult :=
  (r.1, Proofs.setCdb a cdb r.2.1, r.2.2)

theorem spdScsiErrorEx_cdb {senseKey asc ascq : UInt8} {information : Option UInt64} :
    spdScsiErrorEx { srb with cdb := cdb } senseKey asc ascq information =
      (spdScsiErrorEx srb senseKey asc ascq information).map
        fun r => (r.1, { r.2 with cdb := cdb }) := by
  obtain ⟨_, _, _, _, _, _, _, senseInfoBuffer, length, _⟩ := srb
  cases senseInfoBuffer with
  | none => rfl
  | some buf =>
      rw [spdScsiErrorEx, spdScsiErrorEx]
      dsimp only
      split
      · cases writeAt buf 0 (List.replicate length.toNat 0) with
        | none => rfl
        | some buf =>
            dsimp only [Option.bind_eq_bind, Option.bind_some]
            cases writeAt buf 0 (senseData senseKey asc ascq information) with
            | none => rfl
            | some buf => rfl
      · rfl

theorem spdScsiError_setCdb {senseKey asc : UInt8} {ioq : SpdIoq} :
    (spdScsiError ((setCdb a cdb m).srb a) senseKey asc).map (srbResult a (setCdb a cdb m) ioq) =
      ((spdScsiError (m.srb a) senseKey asc).map (srbResult a m ioq)).map
        (ScsiResult.setCdb a cdb) := by
  have hresult : srbResult a (setCdb a cdb m) ioq ∘ (fun r => (r.1, { r.2 with cdb := cdb })) =
      ScsiResult.setCdb a cdb ∘ srbResult a m ioq := by
    funext r
    show (r.1, (setCdb a cdb m).setSrb a { r.2 with cdb := cdb }, ioq) = _
    rw [setCdb_setSrb]
    rfl
  rw [setCdb_self, spdScsiError, spdScsiErrorEx_cdb, Option.map_map, Option.map_map, hresult,
    spdScsiError]

theorem spdScsiPostSrb_setCdb {storResult : StorStatus} {unit : StorageUnitParams}
    {dataLength : UInt32} {ioq : SpdIoq} :
    spdScsiPostSrb storResult unit a dataLength (setCdb a cdb m) ioq =
      (spdScsiPostSrb storResult unit a dataLength m ioq).map (ScsiResult.setCdb a cdb) := by
  rw [spdScsiPostSrb, spdScsiPostSrb, setCdb_self]
  dsimp only
  split
  · rfl
  · split
    · have hsrb : ∀ ext, ((setCdb a cdb m).setExt (m.srb a).miniportContext ext).setSrb a
          { m.srb a with
            cdb := cdb, systemStatus := spdNtStatusFromStorStatus storResult } =
          setCdb a cdb ((m.setExt (m.srb a).miniportContext ext).setSrb a
            { m.srb a with systemStatus := spdNtStatusFromStorStatus storResult }) := fun ext => by
        exact @setCdb_setSrb cdb a (m.setExt (m.srb a).miniportContext ext)
          { m.srb a with systemStatus := spdNtStatusFromStorStatus storResult }
      rw [hsrb]
      rfl
    · cases spdIoqPostSrb (ioq.zeroExtension (m.srb a).miniportContext) a
        (m.srb a).miniportContext with
      | none => rfl
      | some r => rfl

theorem spdScsiPostRange_setCdb {storResult : StorStatus} {unit : StorageUnitParams}
    {range range' : CdbRange} {dataLength : UInt32} {ioq : SpdIoq}
    (haddress : range'.blockAddress = range.blockAddress)
    (hcount : range'.blockCount = range.blockCount) :
    spdScsiPostRange storResult unit a range' dataLength (setCdb a cdb m) ioq =
      (spdScsiPostRange storResult unit a range dataLength m ioq).map
        (ScsiResult.setCdb a cdb) := by
  rw [spdScsiPostRange, spdScsiPostRange, haddress, hcount]
  dsimp only
  split
  · rfl
  · split
    · exact spdScsiError_setCdb
    · exact spdScsiPostSrb_setCdb

structure SameRange (cdb cdb' : Cdb) : Prop where
  op : scsiOp cdb' = scsiOp cdb
  range : ∃ range range', spdCdbGetRange cdb = some range ∧
    spdCdbGetRange cdb' = some range' ∧
    range'.blockAddress = range.blockAddress ∧ range'.blockCount = range.blockCount

theorem spdScsiPostRangeSrb_setCdb {storResult : StorStatus} {unit : StorageUnitParams}
    {ioq : SpdIoq} (h : SameRange (m.srb a).cdb cdb) :
    spdScsiPostRangeSrb storResult unit a (setCdb a cdb m) ioq =
      (spdScsiPostRangeSrb storResult unit a m ioq).map (ScsiResult.setCdb a cdb) := by
  obtain ⟨range, range', hrange, hrange', haddress, hcount⟩ := h.range
  have hself : (setCdb a cdb m).srb a = { m.srb a with cdb := cdb } := setCdb_self
  rw [spdScsiPostRangeSrb, spdScsiPostRangeSrb, hself]
  dsimp only
  rw [h.op, hrange, hrange']
  simp only [Option.bind_eq_bind, Option.bind_some, hcount]
  rw [← hself]
  split
  · split
    · rfl
    · exact spdScsiPostRange_setCdb haddress hcount
  · split
    · exact spdScsiError_setCdb
    · split
      · rfl
      · exact spdScsiPostRange_setCdb haddress hcount
  · split
    · rfl
    · split
      · exact spdScsiError_setCdb
      · exact spdScsiPostRange_setCdb haddress hcount
  · rfl

def Transact.setCdb (a : Addr) (cdb : Cdb) (t : Transact) : Transact :=
  { t with mem := Proofs.setCdb a cdb t.mem }

theorem spdSrbExecuteScsiPrepare_setCdb {t : Transact} {range range' : CdbRange}
    (hop : scsiOp cdb = scsiOp (t.mem.srb a).cdb)
    (hranged : scsiOp cdb = .read ∨ scsiOp cdb = .write ∨ scsiOp cdb = .synchronizeCache)
    (hrange : spdCdbGetRange (t.mem.srb a).cdb = some range)
    (hrange' : spdCdbGetRange cdb = some range')
    (haddress : range'.blockAddress = range.blockAddress)
    (hcount : range'.blockCount = range.blockCount)
    (hfua : scsiOp cdb ≠ .synchronizeCache → (t.mem.ext e).storageUnit.cacheSupported = true →
      range'.forceUnitAccess = range.forceUnitAccess) :
    spdSrbExecuteScsiPrepare e a (Transact.setCdb a cdb t) =
      (spdSrbExecuteScsiPrepare e a t).map (Transact.setCdb a cdb) := by
  have hself : (Transact.setCdb a cdb t).mem.srb a = { t.mem.srb a with cdb := cdb } := setCdb_self
  have hext : (Transact.setCdb a cdb t).mem.ext e = t.mem.ext e := rfl
  have hforce : scsiOp cdb ≠ .synchronizeCache →
      (if (t.mem.ext e).storageUnit.cacheSupported then range'.forceUnitAccess else true) =
        if (t.mem.ext e).storageUnit.cacheSupported then range.forceUnitAccess else true := by
    intro hne
    split
    · next hcache => exact hfua hne hcache
    · rfl
  rw [spdSrbExecuteScsiPrepare, spdSrbExecuteScsiPrepare, hself, hext]
  dsimp only
  rw [← hop, hrange, hrange']
  simp only [Option.bind_eq_bind, Option.bind_some, haddress, hcount]
  rcases hranged with hread | hwrite | hsync
  · simp only [hread]
    rw [hforce (by rw [hread]; nofun)]
    split <;> rfl
  · simp only [hwrite]
    rw [hforce (by rw [hwrite]; nofun)]
    have hbytes : ∀ off len, (Transact.setCdb a cdb t).mem.readSystem (t.mem.ext e) off len =
        t.mem.readSystem (t.mem.ext e) off len := fun _ _ => readSystem_setCdb
    have hbuffer : (Transact.setCdb a cdb t).dataBuffer = t.dataBuffer := rfl
    rw [hbytes, hbuffer]
    split
    · rfl
    · cases t.mem.readSystem (t.mem.ext e) (t.mem.ext e).chunkOffset.toNat
        (chunkLength (t.mem.ext e).storageUnit (t.mem.ext e)).toNat with
      | none => rfl
      | some bytes =>
          dsimp only [Option.bind_some]
          cases writeAt t.dataBuffer 0 bytes with
          | none => rfl
          | some buf => rfl
  · simp only [hsync]
    rfl

/-! ## What follows -/

/-- What becomes of a CDB that encodes a range. -/
structure CdbDecoded (op : ScsiOp) (size : CdbSize) (address length : Nat) (fua : Bool)
    (cdb : Cdb) : Prop where
  op_eq : scsiOp cdb = op
  range : ∃ range, spdCdbGetRange cdb = some range ∧ range.blockAddress.toNat = address ∧
    range.blockCount.toNat = size.blocks length ∧ range.forceUnitAccess = fua
  /-- Another CDB with the same range is posted alike. -/
  posted : ∀ size' length' fua' cdb', CdbEncodes op size' address length' fua' cdb' →
    size'.blocks length' = size.blocks length → ∀ storResult unit a m ioq,
      (m.srb a).cdb = cdb →
      spdScsiPostRangeSrb storResult unit a (setCdb a cdb' m) ioq =
        (spdScsiPostRangeSrb storResult unit a m ioq).map (ScsiResult.setCdb a cdb')
  /-- And it becomes the same request. FUA is for READ and WRITE, of a unit with a
  cache. -/
  prepared : ∀ size' length' fua' cdb', CdbEncodes op size' address length' fua' cdb' →
    size'.blocks length' = size.blocks length → ∀ e a t, (t.mem.srb a).cdb = cdb →
      (op ≠ .synchronizeCache → (t.mem.ext e).storageUnit.cacheSupported = true →
        fua' = fua) →
      spdSrbExecuteScsiPrepare e a (Transact.setCdb a cdb' t) =
        (spdSrbExecuteScsiPrepare e a t).map (Transact.setCdb a cdb')
  /-- The library passes the CDB through with the length of its layout. -/
  passed : ∀ btl dataDirection dataBuffer dataLength, ∃ request,
    Shared.spdIoctlScsiExecute btl cdb dataDirection dataBuffer dataLength = some request ∧
      request.cdb = cdb ∧ request.cdbLength.toNat = size.bytes
  /-- No byte behind it is looked at. -/
  behind : ∀ cdb', (∀ i : Fin 16, i.val < size.bytes → cdb'.asByte i = cdb.asByte i) →
    spdCdbGetRange cdb' = spdCdbGetRange cdb

theorem CdbRange.ext_toNat {range range' : CdbRange}
    (haddress : range'.blockAddress.toNat = range.blockAddress.toNat)
    (hcount : range'.blockCount.toNat = range.blockCount.toNat)
    (hfua : range'.forceUnitAccess = range.forceUnitAccess) : range' = range := by
  obtain ⟨address, count, fua⟩ := range
  obtain ⟨address', count', fua'⟩ := range'
  rw [CdbRange.mk.injEq]
  exact ⟨UInt64.toNat_inj.mp haddress, UInt32.toNat_inj.mp hcount, hfua⟩

/-- Every CDB that encodes a command, a range and FUA is decoded to them, whichever of
its sizes it has. -/
theorem cdb_decoding (h : CdbEncodes op size address length fua cdb) :
    CdbDecoded op size address length fua cdb := by
  obtain ⟨hgroup, hop⟩ := CdbSize.opcode_spec h.opcode
  obtain ⟨range, hrange, haddress, hcount, hfua⟩ := h.range
  constructor
  case op_eq => exact hop rfl
  case range => exact ⟨range, hrange, haddress, hcount, hfua⟩
  case posted =>
    intro size' length' fua' cdb' h' hblocks storResult unit a m ioq hcdb
    subst hcdb
    obtain ⟨range', hrange', haddress', hcount', -⟩ := h'.range
    refine spdScsiPostRangeSrb_setCdb ⟨?_, range, range', hrange, hrange', ?_, ?_⟩
    · rw [(CdbSize.opcode_spec h'.opcode).2 rfl, hop rfl]
    · exact UInt64.toNat_inj.mp (haddress'.trans haddress.symm)
    · exact UInt32.toNat_inj.mp (hcount'.trans (hblocks.trans hcount.symm))
  case prepared =>
    intro size' length' fua' cdb' h' hblocks e a t hcdb hforce
    subst hcdb
    obtain ⟨range', hrange', haddress', hcount', hfua'⟩ := h'.range
    have hop' : scsiOp cdb' = op := (CdbSize.opcode_spec h'.opcode).2 rfl
    refine spdSrbExecuteScsiPrepare_setCdb (hop'.trans (hop rfl).symm) ?_ hrange hrange' ?_ ?_ ?_
    · rw [hop']
      have hcode := h'.opcode
      cases op <;> first | exact .inl rfl | exact .inr (.inl rfl) | exact .inr (.inr rfl) |
        (cases size' <;> cases hcode)
    · exact UInt64.toNat_inj.mp (haddress'.trans haddress.symm)
    · exact UInt32.toNat_inj.mp (hcount'.trans (hblocks.trans hcount.symm))
    · intro hne hcache
      rw [hop'] at hne
      rw [hfua, hfua', hforce hne hcache]
  case passed =>
    intro btl dataDirection dataBuffer dataLength
    obtain ⟨cdbLength, hlength, hbytes⟩ := cdbLength_eq hgroup
    rw [← hbytes, Shared.spdIoctlScsiExecute, hlength]
    exact ⟨_, rfl, rfl, rfl⟩
  case behind =>
    intro cdb' hcdb'
    obtain ⟨range', hrange', haddress', hcount', hfua'⟩ := (h.behind hcdb').range
    rw [hrange, hrange', CdbRange.ext_toNat (haddress'.trans haddress.symm)
      (hcount'.trans hcount.symm) (hfua'.trans hfua.symm)]

/-- WRITE (16) of 3 blocks at 2^40 + 1, with FUA. -/
def write16 : Cdb := #v[0x8a, 0x08, 0, 0, 1, 0, 0, 0, 0, 1, 0, 0, 0, 3, 0, 0]

theorem cdb_decoding_write16 : CdbDecoded .write .cdb16 (2 ^ 40 + 1) 3 true write16 :=
  cdb_decoding ⟨rfl, by decide, by decide, by decide, by decide, by decide⟩

end Winspd.Proofs
