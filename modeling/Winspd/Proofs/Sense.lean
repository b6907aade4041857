import Winspd.Proofs.Pages
import Winspd.Proofs.Requests
import Winspd.Shared.Stgunit

/-!
# Sense data

An error that user mode reports goes through the transact response and the
completion of the SRB into fixed-format sense data, whose INFORMATION field has
four bytes where the response has eight. The code stores the lowest four and
sets VALID, whatever the other four are. So the initiator is told the truth
exactly when the information, if there is any, fits (`complete_told_iff`).
-/

namespace Winspd.Proofs

open Winspd.Lib Winspd.Sys Winspd.Shared Winspd.Spec

variable {disk : Disk} {s s' : UnitSys} {q q' : Queue} {ev : UnitEvent} {ls : List UnitEvent}
  {mem m m' : ScsiMem} {ioqMem : SpdIoq} {rsp : TransactRsp} {buf : Option (List UInt8)}
  {e a : Addr} {status : UInt8} {srb : Srb} {senseKey asc ascq : UInt8}
  {information : Option UInt64}

/-! ## Reading sense data -/

/-- What an initiator reads in fixed-format sense data. -/
structure FixedSense where
  responseCode : UInt8
  valid : Bool
  senseKey : UInt8
  information : Nat
  asc : UInt8
  ascq : UInt8

def decodeSense (data : List UInt8) : FixedSense where
  responseCode := data.getD 0 0 &&& 0x7f
  valid := data.getD 0 0 &&& 0x80 ≠ 0
  senseKey := data.getD 2 0 &&& 0x0f
  information := ofBe ((data.drop 3).take 4)
  asc := data.getD 12 0
  ascq := data.getD 13 0

/-- The sense data says what the status says, and its INFORMATION is valid just
when it is the information of the status. -/
structure SenseTold (st : StorageUnitStatus) (sense : FixedSense) : Prop where
  responseCode : sense.responseCode = 0x70
  senseKey : sense.senseKey = st.senseKey
  asc : sense.asc = st.asc
  ascq : sense.ascq = st.ascq
  valid : sense.valid = true ↔
    st.informationValid = true ∧ sense.information = st.information.toNat

/-- The SRB has room for sense data and asks for it. -/
def Autosense (srb : Srb) : Prop :=
  srb.senseInfoBuffer ≠ none ∧ sizeofSenseData ≤ srb.senseInfoBufferLength.toNat ∧
    srb.srbFlags &&& srbFlagsDisableAutosense = 0

/-! ## Writing it -/

theorem ofBe_low (x : UInt64) :
    ofBe [(x >>> 24).toUInt8, (x >>> 16).toUInt8, (x >>> 8).toUInt8, x.toUInt8] =
      x.toNat % 2 ^ 32 := by
  simp only [ofBe, List.reverse_cons, List.reverse_nil, List.nil_append, List.cons_append, ofLe]
  rw [toNat_byte64 (by decide), toNat_byte64 (by decide), toNat_byte64 (by decide),
    UInt64.toNat_toUInt8]
  simp only [UInt64.reduceToNat, Nat.reducePow]
  omega

theorem decodeSense_senseData (senseKey asc ascq : UInt8) (information : Option UInt64)
    (rest : List UInt8) :
    decodeSense (senseData senseKey asc ascq information ++ rest) =
      ⟨0x70, information.isSome, senseKey &&& 0x0f &&& 0x0f, (information.getD 0).toNat % 2 ^ 32,
        asc, ascq⟩ := by
  have hcode : ∀ b : Bool, (if b then (0xf0 : UInt8) else 0x70) &&& 0x7f = 0x70 := by decide
  have hvalid : ∀ b : Bool, decide ((if b then (0xf0 : UInt8) else 0x70) &&& 0x80 ≠ 0) = b := by
    decide
  rw [← ofBe_low]
  show FixedSense.mk _ _ _ _ _ _ = _
  rw [FixedSense.mk.injEq]
  exact ⟨hcode information.isSome, hvalid information.isSome, rfl, rfl, rfl, rfl⟩

theorem and_low {b : UInt8} (h : b.toNat < 16) : b &&& 0x0f = b := by
  have hmask : (0x0f : UInt8).toNat = 2 ^ 4 - 1 := rfl
  rw [← UInt8.toNat_inj, UInt8.toNat_and, hmask, Nat.and_two_pow_sub_one_eq_mod]
  exact Nat.mod_eq_of_lt h

theorem spdScsiErrorEx_sense (hauto : Autosense srb)
    (hlen : ∀ data, srb.senseInfoBuffer = some data →
      srb.senseInfoBufferLength.toNat ≤ data.length) :
    ∃ rest, spdScsiErrorEx srb senseKey asc ascq information =
      some (srbStatusError ||| srbStatusAutosenseValid,
        { srb with
          senseInfoBuffer := some (senseData senseKey asc ascq information ++ rest)
          scsiStatus := scsistatCheckCondition }) := by
  obtain ⟨hsome, hroom, hflags⟩ := hauto
  obtain ⟨data, hdata⟩ := Option.ne_none_iff_exists'.mp hsome
  have hle := hlen data hdata
  have hsize : (senseData senseKey asc ascq information).length = sizeofSenseData := rfl
  obtain ⟨data₁, h₁⟩ := exists_writeAt data 0
    (List.replicate srb.senseInfoBufferLength.toNat 0) (by simpa using hle)
  obtain ⟨data₂, h₂⟩ := exists_writeAt data₁ 0
    (senseData senseKey asc ascq information) (by rw [length_writeAt h₁, hsize]; omega)
  obtain ⟨-, hfront⟩ := writeAt_eq_some.mp h₂
  refine ⟨data₁.drop (0 + (senseData senseKey asc ascq information).length), ?_⟩
  simp only [spdScsiErrorEx, hdata, if_pos (And.intro hroom hflags), h₁, h₂,
    Option.bind_eq_bind,
    Option.bind_some]
  rw [← hfront]
  rfl

/-! ## Completing with it -/

/-- The SRB at `a` was completed as an error with sense data, and the data says
what user mode said. -/
structure ErrorTold (st : StorageUnitStatus) (e a : Addr) (ev : UnitEvent) (s' : UnitSys) :
    Prop where
  calls : ev.calls =
    [.complete e a (srbStatusError ||| srbStatusAutosenseValid),
      .srbComplete a (srbStatusError ||| srbStatusAutosenseValid)]
  scsiStatus : (s'.mem.srb a).scsiStatus = scsistatCheckCondition
  sense : ∃ data, (s'.mem.srb a).senseInfoBuffer = some data ∧ SenseTold st (decodeSense data)

/-- It fits the four bytes of the INFORMATION field. -/
def InformationFits (st : StorageUnitStatus) : Prop :=
  st.informationValid = true → st.information.toNat < 2 ^ 32

theorem senseTold_iff {st : StorageUnitStatus} {rest : List UInt8} (hkey : st.senseKey.toNat < 16) :
    SenseTold st (decodeSense (senseData st.senseKey st.asc st.ascq
        (if st.informationValid then some st.information else none) ++ rest)) ↔
      InformationFits st := by
  have hlt := st.information.toNat_lt
  rw [decodeSense_senseData, and_low hkey, and_low hkey]
  constructor
  · intro htold hvalid
    have hinfo := (htold.valid.mp (by rw [hvalid]; rfl)).2
    rw [hvalid] at hinfo
    have hmod : st.information.toNat % 2 ^ 32 = st.information.toNat := hinfo
    omega
  · intro hfits
    refine ⟨rfl, rfl, rfl, rfl, ?_⟩
    cases hvalid : st.informationValid with
    | false =>
        constructor
        · intro h
          cases h
        · intro h
          cases h.1
    | true =>
        have hsmall := hfits hvalid
        constructor
        · intro _
          exact ⟨rfl, Nat.mod_eq_of_lt hsmall⟩
        · intro _
          rfl

theorem complete_sense (hbad : rsp.status.scsiStatus ≠ scsistatGood) (hauto : Autosense (m.srb a))
    (hlen : ∀ data, (m.srb a).senseInfoBuffer = some data →
      (m.srb a).senseInfoBufferLength.toNat ≤ data.length)
    (h : spdSrbExecuteScsiComplete rsp buf e a m = some (status, m')) :
    status = srbStatusError ||| srbStatusAutosenseValid ∧
      (m'.srb a).scsiStatus = scsistatCheckCondition ∧
      ∃ rest, (m'.srb a).senseInfoBuffer =
        some (senseData rsp.status.senseKey rsp.status.asc rsp.status.ascq
          (if rsp.status.informationValid then some rsp.status.information else none) ++ rest) := by
  obtain ⟨rest, herr⟩ := @spdScsiErrorEx_sense _ rsp.status.senseKey rsp.status.asc
    rsp.status.ascq (if rsp.status.informationValid then some rsp.status.information else none)
    hauto hlen
  simp only [spdSrbExecuteScsiComplete, if_pos hbad, herr, Option.bind_eq_bind, Option.bind_some,
    Option.some.injEq, Prod.mk.injEq] at h
  obtain ⟨rfl, rfl⟩ := h
  refine ⟨rfl, ?_, rest, ?_⟩
  · rw [ScsiMem.setSrb_srb, Function.update_self]
  · rw [ScsiMem.setSrb_srb, Function.update_self]

/-- An error that user mode reports is told to the initiator exactly when the
information fits the sense data. -/
theorem unit_error_told (hrun : Run (UnitStep disk) (.create mem ioqMem) ls s)
    (h : UnitStep disk s ev s') (hop : ev.op = .transactRsp rsp buf)
    (hcall : .complete e a status ∈ ev.calls) (hbad : rsp.status.scsiStatus ≠ scsistatGood)
    (hkey : rsp.status.senseKey.toNat < 16) (hauto : Autosense (s.mem.srb a)) :
    ErrorTold rsp.status e a ev s' ↔ InformationFits rsp.status := by
  obtain ⟨q, hinv⟩ := unitRun_inv hrun
  obtain ⟨q', -, hc⟩ := hinv.step h
  obtain ⟨rsp', buf', hop', hi, hcomplete, hcalls⟩ := hc.complete_mem hcall
  rw [hop] at hop'
  cases hop'
  obtain ⟨dataLength, ht⟩ := hinv.transfers _ (List.mem_append_right _ hi)
  obtain ⟨rfl, hscsi, rest, hsense⟩ := complete_sense hbad hauto ht.sense hcomplete
  constructor
  · intro htold
    obtain ⟨data, hdata, htold⟩ := htold.sense
    rw [hsense, Option.some.injEq] at hdata
    subst hdata
    exact (senseTold_iff hkey).mp htold
  · intro hfits
    exact ⟨hcalls (by decide), hscsi, _, hsense, (senseTold_iff hkey).mpr hfits⟩

/-! ## A block that is far out -/

/-- A READ (16) of one block, with 18 bytes for sense data. -/
def sampleSenseRead : Srb :=
  { sampleSrb (sampleCdb scsiopRead16 0 0 0 1) (List.replicate 16 0) with
    senseInfoBuffer := some (List.replicate 18 0)
    senseInfoBufferLength := 18 }

theorem sampleSenseRead_mapped : Mapped .success sampleSenseRead := by
  refine ⟨fun buf hbuf => ?_, fun _ _ => by simp [sampleSenseRead, sampleSrb],
    fun buf hbuf => ?_⟩
  · cases hbuf
    decide
  · cases hbuf
    decide

def sampleError (information : UInt64) : TransactRsp :=
  ⟨0x1000, 1, spdStorageUnitStatusSetSense zeroStatus 3 0x11 (some information)⟩

/-- What the three calls return that post the READ, hand it out and answer it. -/
def SampleCalls (information : UInt64) : Prop :=
  ∃ r₁ r₂ r₃,
    UnitOp.exec sampleDisk (sampleMem sampleSenseRead) (spdIoqCreate zeroedIoq)
      (.startIo 0x2000 sampleSenseRead .success) = some r₁ ∧
    UnitOp.exec sampleDisk r₁.1 r₁.2.1 (.transactReq (List.replicate 32 0)) = some r₂ ∧
    UnitOp.exec sampleDisk r₂.1 r₂.2.1 (.transactRsp (sampleError information) none) =
      some r₃ ∧
    r₁.2.2 = ([], none) ∧
    r₂.2.2 = ([.prepare 0x1000 0x2000],
      some (⟨0x1000, .read 0 1 false⟩, List.replicate 32 0)) ∧
    r₃.2.2 = ([.complete 0x1000 0x2000 (srbStatusError ||| srbStatusAutosenseValid),
      .srbComplete 0x2000 (srbStatusError ||| srbStatusAutosenseValid)], none) ∧
    r₂.1.srb 0x2000 = sampleSenseRead

theorem SampleCalls.run {information : UInt64} (hcalls : SampleCalls information) :
    ∃ s ev s' ls, Run (UnitStep sampleDisk)
      (.create (sampleMem sampleSenseRead) zeroedIoq) ls s ∧
      UnitStep sampleDisk s ev s' ∧ ev.op = .transactRsp (sampleError information) none ∧
      .complete 0x1000 0x2000 (srbStatusError ||| srbStatusAutosenseValid) ∈ ev.calls ∧
      Autosense (s.mem.srb 0x2000) := by
  obtain ⟨r₁, r₂, r₃, h₁, h₂, h₃, hr₁, hr₂, hr₃, hauto⟩ := hcalls
  obtain ⟨m₁, ioq₁, c₁, n₁⟩ := r₁
  obtain ⟨m₂, ioq₂, c₂, n₂⟩ := r₂
  obtain ⟨m₃, ioq₃, c₃, n₃⟩ := r₃
  cases hr₁
  cases hr₂
  cases hr₃
  have hstep₁ : UnitStep sampleDisk (.create (sampleMem sampleSenseRead) zeroedIoq)
      ⟨.startIo 0x2000 sampleSenseRead .success, [], none⟩
        ⟨m₁, ioq₁, [⟨0x1000, 0x2000⟩]⟩ :=
    ⟨⟨by decide, by decide, fun j hj => (by cases hj), sampleSenseRead_mapped⟩, h₁, rfl⟩
  have hstep₂ : UnitStep sampleDisk ⟨m₁, ioq₁, [⟨0x1000, 0x2000⟩]⟩
      ⟨.transactReq (List.replicate 32 0), _, _⟩ ⟨m₂, ioq₂, [⟨0x1000, 0x2000⟩]⟩ :=
        ⟨rfl, h₂, rfl⟩
  have hstep₃ : UnitStep sampleDisk ⟨m₂, ioq₂, [⟨0x1000, 0x2000⟩]⟩
      ⟨.transactRsp (sampleError information) none, _, _⟩ ⟨m₃, ioq₃, []⟩ :=
    ⟨fun buf hbuf => (by cases hbuf), h₃, rfl⟩
  refine ⟨_, _, _, _, (Run.single hstep₁).snoc hstep₂, hstep₃, rfl,
    List.mem_cons_self, ?_⟩
  show Autosense (m₂.srb 0x2000)
  rw [hauto]
  exact ⟨by decide, by decide, by decide⟩

/-- Block 11. -/
theorem unit_error_told_near : ∃ s ev s' ls,
    Run (UnitStep sampleDisk) (.create (sampleMem sampleSenseRead) zeroedIoq) ls s ∧
      UnitStep sampleDisk s ev s' ∧ ev.op = .transactRsp (sampleError 11) none ∧
      (ErrorTold (sampleError 11).status 0x1000 0x2000 ev s' ↔
        InformationFits (sampleError 11).status) := by
  obtain ⟨s, ev, s', ls, hrun, h, hop, hcall, hauto⟩ := SampleCalls.run
    (show SampleCalls 11 from ⟨_, _, _, rfl, rfl, rfl, rfl, rfl, rfl, rfl⟩)
  exact ⟨s, ev, s', ls, hrun, h, hop,
    unit_error_told hrun h hop hcall (by decide) (by decide) hauto⟩

/-- Block `2 ^ 32` is reported as block 0. -/
theorem unit_error_told_far : ∃ s ev s' ls,
    Run (UnitStep sampleDisk) (.create (sampleMem sampleSenseRead) zeroedIoq) ls s ∧
      UnitStep sampleDisk s ev s' ∧ ev.op = .transactRsp (sampleError 0x100000000) none ∧
      .complete 0x1000 0x2000 (srbStatusError ||| srbStatusAutosenseValid) ∈ ev.calls ∧
      Autosense (s.mem.srb 0x2000) ∧
      ∃ data, (s'.mem.srb 0x2000).senseInfoBuffer = some data ∧
        (decodeSense data).valid = true ∧ (decodeSense data).information = 0 ∧
        ¬ ErrorTold (sampleError 0x100000000).status 0x1000 0x2000 ev s' := by
  obtain ⟨s, ev, s', ls, hrun, h, hop, hcall, hauto⟩ := SampleCalls.run
    (show SampleCalls 0x100000000 from ⟨_, _, _, rfl, rfl, rfl, rfl, rfl, rfl, rfl⟩)
  obtain ⟨q, hinv⟩ := unitRun_inv hrun
  obtain ⟨q', -, hc⟩ := hinv.step h
  obtain ⟨rsp, buf, hop', hi, hcomplete, -⟩ := hc.complete_mem hcall
  rw [hop] at hop'
  cases hop'
  obtain ⟨dataLength, ht⟩ := hinv.transfers _ (List.mem_append_right _ hi)
  obtain ⟨-, -, rest, hsense⟩ := complete_sense (by decide) hauto ht.sense hcomplete
  refine ⟨s, ev, s', ls, hrun, h, hop, hcall, hauto, _, hsense, ?_, ?_, fun htold => ?_⟩
  · rw [decodeSense_senseData]
    rfl
  · rw [decodeSense_senseData]
    rfl
  · obtain ⟨data, hdata, htold⟩ := htold.sense
    rw [hsense, Option.some.injEq] at hdata
    subst hdata
    exact absurd ((senseTold_iff (by decide)).mp htold rfl) (by decide)

end Winspd.Proofs
