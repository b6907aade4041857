import Winspd.Launcher.Volume
import Winspd.Proofs.Transfer
import Winspd.Sys.ScsiData

/-!
# Pages

The commands that are answered with a page zero the buffer, put the page at
its front and report the page's length, or find the buffer too short and report
nothing (`DataIn.build_eq`). So the pages themselves are what is left to look
at: `PageOk` says that the length a page has in it is the length of what comes
after that field, and `deviceIdentifiers_walk` that a reader of page 83h who
goes by its lengths finds the owner's process id.
-/

namespace Winspd.Proofs

open Winspd.Lib Winspd.Sys Winspd.Launcher

variable {unit : SpdStorageUnit} {srb : Srb} {buf bytes : List UInt8}

/-! ## Numbers, highest byte first -/

theorem toNat_byte {x k : UInt32} (hk : k.toNat < 32) :
    (x >>> k).toUInt8.toNat = x.toNat / 2 ^ k.toNat % 256 := by
  rw [UInt32.toNat_toUInt8, UInt32.toNat_shiftRight, Nat.mod_eq_of_lt hk,
    Nat.shiftRight_eq_div_pow]

theorem toNat_byte64 {x k : UInt64} (hk : k.toNat < 64) :
    (x >>> k).toUInt8.toNat = x.toNat / 2 ^ k.toNat % 256 := by
  rw [UInt64.toNat_toUInt8, UInt64.toNat_shiftRight, Nat.mod_eq_of_lt hk,
    Nat.shiftRight_eq_div_pow]

theorem ofBe_be32 (x : UInt32) : ofBe (be32 x) = x.toNat := by
  have hlt := x.toNat_lt
  rw [be32]
  simp only [ofBe, List.reverse_cons, List.reverse_nil, List.nil_append, List.cons_append, ofLe]
  rw [toNat_byte (by decide), toNat_byte (by decide), toNat_byte (by decide), UInt32.toNat_toUInt8]
  simp only [UInt32.reduceToNat, Nat.reducePow]
  omega

theorem ofBe_be64 (x : UInt64) : ofBe (be64 x) = x.toNat := by
  have hlt := x.toNat_lt
  rw [be64]
  simp only [ofBe, List.reverse_cons, List.reverse_nil, List.nil_append, List.cons_append, ofLe]
  rw [toNat_byte64 (by decide), toNat_byte64 (by decide), toNat_byte64 (by decide),
    toNat_byte64 (by decide), toNat_byte64 (by decide), toNat_byte64 (by decide),
    toNat_byte64 (by decide), UInt64.toNat_toUInt8]
  simp only [UInt64.reduceToNat, Nat.reducePow]
  omega

/-! ## The commands -/

/-- The commands that are answered with a page. REPORT LUNS is also answered
where there is no unit. -/
inductive DataIn
  | reportLuns (present : Bool)
  | inquiry
  | supportedPages
  | serialNumber
  | deviceIdentifiers
  | blockLimits
  | logicalBlockProvisioning
  | modeSense
  | modeSense10
  | readCapacity
  | readCapacity16
  deriving DecidableEq

/-- The CDB, which came to the right function, asks for the page. -/
def DataIn.Selects : DataIn → Cdb → Prop
  | .reportLuns _, _ => True
  | .inquiry, cdb => cdb.asByte 1 &&& 0x01 = 0 ∧ cdb.asByte 2 = 0
  | .supportedPages, cdb => cdb.asByte 1 &&& 0x01 ≠ 0 ∧ cdb.asByte 2 = vpdSupportedPages
  | .serialNumber, cdb => cdb.asByte 1 &&& 0x01 ≠ 0 ∧ cdb.asByte 2 = vpdSerialNumber
  | .deviceIdentifiers, cdb => cdb.asByte 1 &&& 0x01 ≠ 0 ∧ cdb.asByte 2 = vpdDeviceIdentifiers
  | .blockLimits, cdb => cdb.asByte 1 &&& 0x01 ≠ 0 ∧ cdb.asByte 2 = vpdBlockLimits
  | .logicalBlockProvisioning, cdb =>
      cdb.asByte 1 &&& 0x01 ≠ 0 ∧ cdb.asByte 2 = vpdLogicalBlockProvisioning
  | .modeSense, cdb => cdb.asByte 0 = scsiopModeSense ∧
      (cdb.asByte 2 &&& 0x3f = modePageCaching ∨ cdb.asByte 2 &&& 0x3f = modeSenseReturnAll)
  | .modeSense10, cdb => cdb.asByte 0 ≠ scsiopModeSense ∧
      (cdb.asByte 2 &&& 0x3f = modePageCaching ∨ cdb.asByte 2 &&& 0x3f = modeSenseReturnAll)
  | .readCapacity, cdb => cdb.asByte 0 = scsiopReadCapacity
  | .readCapacity16, cdb => cdb.asByte 0 ≠ scsiopReadCapacity

def DataIn.build (unit : SpdStorageUnit) : DataIn → Srb → Option (UInt8 × Srb)
  | .reportLuns present => spdScsiReportLuns (if present then some unit else none)
  | .inquiry | .supportedPages | .serialNumber | .deviceIdentifiers | .blockLimits
  | .logicalBlockProvisioning => spdScsiInquiry unit
  | .modeSense | .modeSense10 => spdScsiModeSense unit
  | .readCapacity | .readCapacity16 => spdScsiReadCapacity unit

/-- The page, of which READ CAPACITY (16) has a short and a long one. -/
def DataIn.page (unit : SpdStorageUnit) (supplied : Nat) : DataIn → List UInt8
  | .reportLuns present => lunList present
  | .inquiry => inquiryData unit
  | .supportedPages => vpdSupportedPagesPage unit
  | .serialNumber => vpdSerialNumberPage unit
  | .deviceIdentifiers => vpdIdentificationPage unit
  | .blockLimits => vpdBlockLimitsPage unit
  | .logicalBlockProvisioning => vpdLogicalBlockProvisioningPage unit
  | .modeSense =>
      [15, 0, deviceSpecificParameter unit.storageUnitParams, 0] ++
        modeCachingPage unit.storageUnitParams
  | .modeSense10 =>
      [0, 18, 0, deviceSpecificParameter unit.storageUnitParams, 0, 0, 0, 0] ++
        modeCachingPage unit.storageUnitParams
  | .readCapacity => readCapacityData unit.storageUnitParams
  | .readCapacity16 =>
      readCapacityDataEx unit.storageUnitParams ++
        if 32 ≤ supplied then readCapacity16Rest unit.storageUnitParams else []

/-- The least length of a buffer the command succeeds with. -/
def DataIn.needed : DataIn → Nat
  | .reportLuns present => if present then 16 else 8
  | .inquiry => 36
  | .supportedPages => 9
  | .serialNumber => 40
  | .deviceIdentifiers => 84
  | .blockLimits => 64
  | .logicalBlockProvisioning => 8
  | .modeSense => 16
  | .modeSense10 => 20
  | .readCapacity => 8
  | .readCapacity16 => 12

theorem length_vpdBlockLimitsPage : (vpdBlockLimitsPage unit).length = 64 := by
  unfold vpdBlockLimitsPage
  simp only
  split <;> rfl

theorem length_vpdLogicalBlockProvisioningPage :
    (vpdLogicalBlockProvisioningPage unit).length = 8 := by
  unfold vpdLogicalBlockProvisioningPage
  split <;> rfl

theorem DataIn.needed_le_iff (kind : DataIn) (supplied : Nat) :
    kind.needed ≤ supplied ↔ (kind.page unit supplied).length ≤ supplied := by
  cases kind with
  | reportLuns present => cases present <;> rfl
  | inquiry => simp [needed, page, inquiryData, spdIoctlVendorId]
  | supportedPages => rfl
  | serialNumber => simp [needed, page, vpdSerialNumberPage]
  | deviceIdentifiers => simp [needed, page, vpdIdentificationPage, spdIoctlVendorId, be32]
  | blockLimits => rw [needed, page, length_vpdBlockLimitsPage]
  | logicalBlockProvisioning => rw [needed, page, length_vpdLogicalBlockProvisioningPage]
  | modeSense => rfl
  | modeSense10 => rfl
  | readCapacity => rfl
  | readCapacity16 =>
      by_cases hlong : 32 ≤ supplied
      · simp [needed, page, readCapacityDataEx, readCapacity16Rest, be32, be64, hlong]
        omega
      · simp [needed, page, readCapacityDataEx, be32, be64, hlong]

/-! ## What they answer -/

/-- The buffer after `RtlZeroMemory`. -/
def zeroed (srb : Srb) (buf : List UInt8) : Srb :=
  { srb with
    dataBuffer := some (List.replicate srb.dataTransferLength.toNat 0 ++
      buf.drop srb.dataTransferLength.toNat) }

@[simp] theorem zeroed_cdb : (zeroed srb buf).cdb = srb.cdb := rfl

@[simp] theorem zeroed_dataTransferLength :
    (zeroed srb buf).dataTransferLength = srb.dataTransferLength := rfl

/-- The bytes at the front of the zeroed buffer, and their length. -/
def paged (srb : Srb) (buf bytes : List UInt8) : Srb :=
  { srb with
    dataBuffer := some (bytes ++
      List.replicate (srb.dataTransferLength.toNat - bytes.length) 0 ++
      buf.drop srb.dataTransferLength.toNat)
    dataTransferLength := UInt32.ofNat bytes.length }

theorem withZeroedBuffer_eq {rest : Srb → Option (UInt8 × Srb)}
    (hbuf : srb.dataBuffer = some buf)
    (hlen : srb.dataTransferLength.toNat ≤ buf.length) :
    withZeroedBuffer srb rest = rest (zeroed srb buf) := by
  have hwrite : writeAt buf 0 (List.replicate srb.dataTransferLength.toNat (0 : UInt8)) =
      some (List.replicate srb.dataTransferLength.toNat 0 ++
        buf.drop srb.dataTransferLength.toNat) := by
    rw [writeAt_eq_some, List.length_replicate]
    exact ⟨by omega, by rw [List.take_zero, List.nil_append, Nat.zero_add]⟩
  simp only [withZeroedBuffer, hbuf, hwrite, Option.bind_eq_bind, Option.bind_some]
  rfl

theorem putPage_eq : putPage (zeroed srb buf) bytes = some
    (if bytes.length ≤ srb.dataTransferLength.toNat then (srbStatusSuccess, paged srb buf bytes)
      else (srbStatusDataOverrun, zeroed srb buf)) := by
  unfold putPage
  by_cases hfits : bytes.length ≤ srb.dataTransferLength.toNat
  · have hwrite : writeAt (List.replicate srb.dataTransferLength.toNat (0 : UInt8) ++
        buf.drop srb.dataTransferLength.toNat) 0 bytes = some (bytes ++
          List.replicate (srb.dataTransferLength.toNat - bytes.length) 0 ++
          buf.drop srb.dataTransferLength.toNat) := by
      rw [writeAt_eq_some, List.length_append, List.length_replicate]
      refine ⟨by omega, ?_⟩
      rw [List.take_zero, List.nil_append, Nat.zero_add,
        List.drop_append_of_le_length (by rw [List.length_replicate]; exact hfits),
        List.drop_replicate, List.append_assoc]
    have hno : ¬ bytes.length > (zeroed srb buf).dataTransferLength.toNat := by
      show ¬ bytes.length > srb.dataTransferLength.toNat
      omega
    rw [if_neg hno, if_pos hfits]
    simp only [zeroed, hwrite, Option.bind_eq_bind, Option.bind_some]
    rfl
  · have hover : bytes.length > (zeroed srb buf).dataTransferLength.toNat := Nat.not_le.mp hfits
    rw [if_pos hover, if_neg hfits]

/-- The check of MODE SENSE, which compares two bits with a value of seven, lets
every page control pass. -/
theorem modeSense_check {cdb : Cdb}
    (h : cdb.asByte 2 &&& 0x3f = modePageCaching ∨ cdb.asByte 2 &&& 0x3f = modeSenseReturnAll) :
    ¬ (modeSenseChangeableValues = cdb.asByte 2 >>> 6 ∨
      (modePageCaching ≠ cdb.asByte 2 &&& 0x3f ∧
        modeSenseReturnAll ≠ cdb.asByte 2 &&& 0x3f)) := by
  intro hno
  rcases hno with hpc | ⟨hcaching, hall⟩
  · have hlt := (cdb.asByte 2).toNat_lt
    have hshift := congrArg UInt8.toNat hpc
    rw [UInt8.toNat_shiftRight] at hshift
    simp [modeSenseChangeableValues, Nat.shiftRight_eq_div_pow] at hshift
    omega
  · rcases h with h | h
    · exact hcaching h.symm
    · exact hall h.symm

theorem DataIn.build_eq (kind : DataIn)
    (hblock : kind = .blockLimits → unit.storageUnitParams.blockLength ≠ 0)
    (hsel : kind.Selects srb.cdb) (hbuf : srb.dataBuffer = some buf)
    (hlen : srb.dataTransferLength.toNat ≤ buf.length) :
    kind.build unit srb = putPage (zeroed srb buf)
      (kind.page unit srb.dataTransferLength.toNat) := by
  cases kind with
  | reportLuns present =>
      show spdScsiReportLuns _ srb = _
      rw [spdScsiReportLuns, withZeroedBuffer_eq hbuf hlen]
      cases present <;> rfl
  | inquiry =>
      show spdScsiInquiry unit srb = _
      rw [spdScsiInquiry, withZeroedBuffer_eq hbuf hlen, zeroed_cdb, if_pos hsel.1,
        if_neg (not_not.mpr hsel.2)]
      rfl
  | supportedPages =>
      show spdScsiInquiry unit srb = _
      rw [spdScsiInquiry, withZeroedBuffer_eq hbuf hlen, zeroed_cdb, if_neg hsel.1, hsel.2]
      rfl
  | serialNumber =>
      show spdScsiInquiry unit srb = _
      rw [spdScsiInquiry, withZeroedBuffer_eq hbuf hlen, zeroed_cdb, if_neg hsel.1, hsel.2]
      rfl
  | deviceIdentifiers =>
      show spdScsiInquiry unit srb = _
      rw [spdScsiInquiry, withZeroedBuffer_eq hbuf hlen, zeroed_cdb, if_neg hsel.1, hsel.2]
      rfl
  | blockLimits =>
      show spdScsiInquiry unit srb = _
      rw [spdScsiInquiry, withZeroedBuffer_eq hbuf hlen, zeroed_cdb, if_neg hsel.1, hsel.2,
        if_neg (fun h : 64 ≤ _ ∧ _ = _ => hblock rfl h.2)]
      rfl
  | logicalBlockProvisioning =>
      show spdScsiInquiry unit srb = _
      rw [spdScsiInquiry, withZeroedBuffer_eq hbuf hlen, zeroed_cdb, if_neg hsel.1, hsel.2]
      rfl
  | modeSense =>
      show spdScsiModeSense unit srb = _
      rw [spdScsiModeSense, withZeroedBuffer_eq hbuf hlen, zeroed_cdb,
        if_neg (modeSense_check hsel.2), if_pos hsel.1]
      rfl
  | modeSense10 =>
      show spdScsiModeSense unit srb = _
      rw [spdScsiModeSense, withZeroedBuffer_eq hbuf hlen, zeroed_cdb,
        if_neg (modeSense_check hsel.2), if_neg hsel.1]
      rfl
  | readCapacity =>
      have hcode : srb.cdb.asByte 0 = scsiopReadCapacity := hsel
      show spdScsiReadCapacity unit srb = _
      rw [spdScsiReadCapacity, withZeroedBuffer_eq hbuf hlen, zeroed_cdb, if_pos hcode]
      rfl
  | readCapacity16 =>
      have hcode : srb.cdb.asByte 0 ≠ scsiopReadCapacity := hsel
      show spdScsiReadCapacity unit srb = _
      rw [spdScsiReadCapacity, withZeroedBuffer_eq hbuf hlen, zeroed_cdb, if_neg hcode,
        zeroed_dataTransferLength, page]
      split
      · rfl
      · rw [List.append_nil]

/-! ## The length in a page -/

/-- Where a page says how long it is, and how many of its bytes it leaves out. -/
structure LengthField where
  off : Nat
  size : Nat
  header : Nat

def DataIn.lengthField : DataIn → Option LengthField
  | .reportLuns _ => some ⟨0, 4, 8⟩
  | .inquiry => some ⟨4, 1, 5⟩
  | .supportedPages | .serialNumber | .deviceIdentifiers | .blockLimits
  | .logicalBlockProvisioning => some ⟨2, 2, 4⟩
  | .modeSense => some ⟨0, 1, 1⟩
  | .modeSense10 => some ⟨0, 2, 2⟩
  | .readCapacity | .readCapacity16 => none

def LengthField.value (field : LengthField) (data : List UInt8) : Nat :=
  ofBe ((data.drop field.off).take field.size)

theorem DataIn.lengthField_page {supplied : Nat} {field : LengthField} (kind : DataIn)
    (h : kind.lengthField = some field) :
    field.value (kind.page unit supplied) + field.header = (kind.page unit supplied).length := by
  cases kind with
  | reportLuns present => cases h; cases present <;> rfl
  | inquiry => cases h; simp [LengthField.value, page, inquiryData, spdIoctlVendorId, ofBe, ofLe]
  | supportedPages => cases h; rfl
  | serialNumber => cases h; simp [LengthField.value, page, vpdSerialNumberPage, ofBe, ofLe]
  | deviceIdentifiers =>
      cases h
      simp [LengthField.value, page, vpdIdentificationPage, spdIoctlVendorId, be32, ofBe, ofLe]
  | blockLimits =>
      cases h
      show LengthField.value _ (vpdBlockLimitsPage unit) + 4 = (vpdBlockLimitsPage unit).length
      rw [length_vpdBlockLimitsPage]
      unfold vpdBlockLimitsPage
      simp only
      split <;> rfl
  | logicalBlockProvisioning =>
      cases h
      show LengthField.value _ (vpdLogicalBlockProvisioningPage unit) + 4 =
        (vpdLogicalBlockProvisioningPage unit).length
      rw [length_vpdLogicalBlockProvisioningPage]
      unfold vpdLogicalBlockProvisioningPage
      split <;> rfl
  | modeSense => cases h; rfl
  | modeSense10 => cases h; rfl
  | readCapacity => cases h
  | readCapacity16 => cases h

/-! ## The owner in page 83h -/

/-- The descriptors of page 83h, at most `n`, one after another by their
lengths. `none` if they do not come out even with the page. -/
def identificationDescriptors : Nat → List UInt8 → Option (List StorageIdentifier)
  | _, [] => some []
  | n + 1, codeSet :: type :: _ :: identifierLength :: rest =>
      if identifierLength.toNat ≤ rest.length then
        (identificationDescriptors n (rest.drop identifierLength.toNat)).map
          (⟨codeSet &&& 0x0f, type &&& 0x0f, type >>> 4 &&& 0x03,
            rest.take identifierLength.toNat⟩ :: ·)
      else none
  | _, _ => none

theorem identificationDescriptors_cons {codeSet type reserved identifierLength : UInt8}
    {identifier rest : List UInt8} {n : Nat} (h : identifierLength.toNat = identifier.length) :
    identificationDescriptors (n + 1)
        (codeSet :: type :: reserved :: identifierLength :: (identifier ++ rest)) =
      (identificationDescriptors n rest).map
        (⟨codeSet &&& 0x0f, type &&& 0x0f, type >>> 4 &&& 0x03, identifier⟩ :: ·) := by
  have hle : identifierLength.toNat ≤ (identifier ++ rest).length := by
    rw [List.length_append]
    omega
  rw [identificationDescriptors, if_pos hle, List.drop_left' h.symm, List.take_left' h.symm]

def ownerIdentifier (unit : SpdStorageUnit) : List UInt8 :=
  [0x50, 0x49, 0x44, if unit.storageUnitParams.ejectDisabled then 0x58 else 0x20] ++
    be32 unit.ownerProcessId

theorem ownerIdentifier_processId :
    StorageIdentifier.processId ⟨0x01, 0x00, 0x00, ownerIdentifier unit⟩ =
      some unit.ownerProcessId := by
  have hbytes : ((unit.ownerProcessId >>> 24).toUInt8.toUInt32 <<< 24 |||
      (unit.ownerProcessId >>> 16).toUInt8.toUInt32 <<< 16 |||
      (unit.ownerProcessId >>> 8).toUInt8.toUInt32 <<< 8 |||
      unit.ownerProcessId.toUInt8.toUInt32) = unit.ownerProcessId := by
    rw [← UInt32.toNat_inj, toNat_or_four32]
    exact ofBe_be32 _
  unfold StorageIdentifier.processId
  rw [if_pos]
  · exact congrArg some hbytes
  · refine ⟨rfl, rfl, rfl, rfl, rfl, rfl, rfl, ?_⟩
    show 0x20 = (if _ then 0x58 else 0x20 : UInt8) ∨ 0x58 = (if _ then 0x58 else 0x20 : UInt8)
    split
    · exact .inr rfl
    · exact .inl rfl

def vendorIdentifier (unit : SpdStorageUnit) : List UInt8 :=
  spdIoctlVendorId ++ unit.storageUnitParams.productId.toList ++
    unit.storageUnitParams.productRevisionLevel.toList ++ unit.serialNumber.toList

theorem length_vendorIdentifier : (vendorIdentifier unit).length = 64 := by
  simp [vendorIdentifier, spdIoctlVendorId]

theorem deviceIdentifiers_walk {n : Nat} :
    identificationDescriptors (n + 2) ((vpdIdentificationPage unit).drop 4) =
      some [⟨0x02, 0x01, 0x00, vendorIdentifier unit⟩,
        ⟨0x01, 0x00, 0x00, ownerIdentifier unit⟩] := by
  have hpage : (vpdIdentificationPage unit).drop 4 = 0x02 :: 0x01 :: 0 :: 64 ::
      (vendorIdentifier unit ++ 0x01 :: 0x00 :: 0 :: 8 :: (ownerIdentifier unit ++ [])) := by
    simp [vpdIdentificationPage, vendorIdentifier, ownerIdentifier]
  have hlen : (64 : UInt8).toNat = (vendorIdentifier unit).length := length_vendorIdentifier.symm
  rw [hpage, identificationDescriptors_cons hlen, identificationDescriptors_cons rfl,
    identificationDescriptors]
  rfl

/-! ## Every answer -/

/-- A command that is answered with a page finds the buffer too short, and
leaves zeros in it, or leaves a page that is as long as it says. -/
inductive PageAnswer (unit : SpdStorageUnit) (kind : DataIn) (srb : Srb) (buf : List UInt8) :
    UInt8 → Srb → Prop
  | overrun (hshort : srb.dataTransferLength.toNat < kind.needed) :
      PageAnswer unit kind srb buf srbStatusDataOverrun (zeroed srb buf)
  | page {data : List UInt8} (hroom : kind.needed ≤ srb.dataTransferLength.toNat)
      (hreported : (paged srb buf data).dataTransferLength.toNat = data.length)
      (hlen : data.length ≤ srb.dataTransferLength.toNat)
      (hfield : ∀ field, kind.lengthField = some field →
        field.value data + field.header = data.length)
      (howner : kind = .deviceIdentifiers → ∃ vendor owner,
        identificationDescriptors data.length (data.drop 4) = some [vendor, owner] ∧
        owner.processId = some unit.ownerProcessId ∧
        getVolumeOwnerProcessId [vendor, owner] = some unit.ownerProcessId) :
      PageAnswer unit kind srb buf srbStatusSuccess (paged srb buf data)

/-- Every command that is answered with a page builds one that is as long as it says, or
finds the buffer too short for what it needs. -/
theorem data_in_pages (hblock : unit.storageUnitParams.blockLength ≠ 0) (kind : DataIn)
    (hsel : kind.Selects srb.cdb) (hbuf : srb.dataBuffer = some buf)
    (hlen : srb.dataTransferLength.toNat ≤ buf.length) :
    ∃ status srb', kind.build unit srb = some (status, srb') ∧
      PageAnswer unit kind srb buf status srb' := by
  rw [kind.build_eq (fun _ => hblock) hsel hbuf hlen, putPage_eq]
  have hneeded := @DataIn.needed_le_iff unit kind srb.dataTransferLength.toNat
  by_cases hfits : (kind.page unit srb.dataTransferLength.toNat).length ≤
      srb.dataTransferLength.toNat
  · rw [if_pos hfits]
    have hlt := srb.dataTransferLength.toNat_lt
    refine ⟨_, _, rfl, .page (hneeded.mpr hfits) ?_ hfits
      (fun field => kind.lengthField_page) ?_⟩
    · rw [paged, UInt32.toNat_ofNat', Nat.mod_eq_of_lt (by omega)]
    · intro hkind
      subst hkind
      refine ⟨_, _, deviceIdentifiers_walk, ownerIdentifier_processId, ?_⟩
      rw [getVolumeOwnerProcessId, getVolumeOwnerProcessId, ownerIdentifier_processId]
      rfl
  · rw [if_neg hfits]
    exact ⟨_, _, rfl, .overrun (Nat.not_le.mp fun h => hfits (hneeded.mp h))⟩

/-- An INQUIRY for page 83h, into 96 bytes. -/
theorem data_in_pages_identifiers :
    ∃ status srb', DataIn.build (newStorageUnit sampleUnit 7) .deviceIdentifiers
        (sampleSrb ⟨#[0x12, 1, 0x83, 0, 96, 0, 0, 0, 0, 0, 0, 0, 0, 0, 0, 0], rfl⟩
          (List.replicate 96 0)) = some (status, srb') ∧
      PageAnswer (newStorageUnit sampleUnit 7) .deviceIdentifiers
        (sampleSrb ⟨#[0x12, 1, 0x83, 0, 96, 0, 0, 0, 0, 0, 0, 0, 0, 0, 0, 0], rfl⟩
          (List.replicate 96 0)) (List.replicate 96 0) status srb' :=
  data_in_pages (show sampleUnit.blockLength ≠ 0 by decide) .deviceIdentifiers
    (show _ ∧ _ by decide) rfl (by decide)

end Winspd.Proofs
