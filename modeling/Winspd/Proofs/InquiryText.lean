import Winspd.Proofs.Pages
import Winspd.Proofs.RegistryRun

/-!
# The texts of INQUIRY

`SpdStorageUnitProvision` cleans the product identifier and the revision level
it is given: the printable bytes at the front stay and the rest is spaces. A
field that is all NUL is let through as it is, for testing, and the code tells
such a field by its first byte. So a field that starts with NUL and goes on
with anything else is let through as well, and these are the only ones that
come out wrong (`legalText_leftAlignField`).

Nothing writes the texts after that, so what a unit has in them, and what it
answers to INQUIRY, in both the standard data and page 83h, is what its
provision stored.
-/

namespace Winspd.Proofs

open Winspd.Lib Winspd.Sys

variable {n : Nat} {bytes : List UInt8} {dx dx' : SpdDeviceExtension} {op : RegistryOp}
  {r : RegistryResult} {p : Addr} {object : UnitObject} {unit : SpdStorageUnit}
  {params : StorageUnitParams} {srb : Srb} {buf : List UInt8}

/-! ## Cleaning -/

def Printable (b : UInt8) : Prop := 0x20 ≤ b ∧ b ≤ 0x7e

instance : DecidablePred Printable := fun _ => inferInstanceAs (Decidable (_ ∧ _))

/-- What a text field may hold: NULs, or printable bytes the input starts with
and then spaces. -/
def LegalText (input field : List UInt8) : Prop :=
  (∀ b ∈ field, b = 0) ∨
    ∃ k ≤ input.length, (∀ b ∈ input.take k, Printable b) ∧
      field = input.take k ++ List.replicate (input.length - k) 0x20

theorem not_printable_iff {b : UInt8} : (0x20 > b ∨ b ≥ 0x7f) ↔ ¬ Printable b := by
  unfold Printable
  simp only [UInt8.lt_iff_toNat_lt, UInt8.le_iff_toNat_le, gt_iff_lt, ge_iff_le]
  simp only [UInt8.reduceToNat]
  omega

theorem leftAlign_spaces : leftAlign true bytes = List.replicate bytes.length 0x20 := by
  induction bytes with
  | nil => rfl
  | cons b bs ih =>
      rw [leftAlign, if_pos (.inl rfl), ih]
      rfl

theorem leftAlign_eq : ∃ k ≤ bytes.length, (∀ b ∈ bytes.take k, Printable b) ∧
    leftAlign false bytes = bytes.take k ++ List.replicate (bytes.length - k) 0x20 := by
  induction bytes with
  | nil => exact ⟨0, by simp [leftAlign]⟩
  | cons b bs ih =>
      by_cases hb : Printable b
      · have hcheck : ¬ ((false = true) ∨ 0x20 > b ∨ b ≥ 0x7f) := by
          simpa [not_printable_iff] using hb
        obtain ⟨k, hk, hprint, heq⟩ := ih
        have hprint' : ∀ b' ∈ (b :: bs).take (k + 1), Printable b' := by
          intro b' hb'
          rw [List.take_succ_cons, List.mem_cons] at hb'
          rcases hb' with rfl | hb'
          · exact hb
          · exact hprint b' hb'
        have hstep : leftAlign false (b :: bs) = (b :: bs).take (k + 1) ++
            List.replicate ((b :: bs).length - (k + 1)) 0x20 := by
          rw [leftAlign, if_neg hcheck, heq]
          simp
        exact ⟨k + 1, by simpa using hk, hprint', hstep⟩
      · have hcheck : (false = true) ∨ 0x20 > b ∨ b ≥ 0x7f := .inr (not_printable_iff.mpr hb)
        have hstep : leftAlign false (b :: bs) =
            (b :: bs).take 0 ++ List.replicate ((b :: bs).length - 0) 0x20 := by
          rw [leftAlign, if_pos hcheck, leftAlign_spaces]
          rfl
        exact ⟨0, Nat.zero_le _, by simp, hstep⟩

theorem length_leftAlign {spaces : Bool} : (leftAlign spaces bytes).length = bytes.length := by
  induction bytes generalizing spaces with
  | nil => rfl
  | cons b bs ih =>
      rw [leftAlign]
      split
      · simp [ih]
      · simp [ih]

theorem leftAlignField_nul {field : Vector UInt8 n} (h : field.toList.head? = some 0) :
    leftAlignField field = field := by
  unfold leftAlignField
  split
  · rfl
  · next hno =>
      rw [List.head?_eq_some_iff] at h
      obtain ⟨bs, hbs⟩ := h
      exact absurd hbs (hno bs)

theorem leftAlignField_clean {field : Vector UInt8 n} (h : field.toList.head? ≠ some 0) :
    (leftAlignField field).toList = leftAlign false field.toList := by
  unfold leftAlignField
  split
  · next bs hbs => exact absurd (by rw [hbs]; rfl) h
  · apply List.ext_getElem
    · rw [length_leftAlign, Vector.length_toList, Vector.length_toList]
    · intro i hi hi'
      simp [List.getElem?_eq_getElem hi']

/-- A NUL in front of something else is the one way to get an illegal field. -/
theorem legalText_leftAlignField {field : Vector UInt8 n} :
    LegalText field.toList (leftAlignField field).toList ↔
      field.toList.head? ≠ some 0 ∨ ∀ b ∈ field.toList, b = 0 := by
  by_cases hnul : field.toList.head? = some 0
  · rw [leftAlignField_nul hnul]
    constructor
    · rintro (hall | ⟨k, hk, hprint, heq⟩)
      · exact .inr hall
      · -- the first byte would be printable or a space
        obtain ⟨bs, hbs⟩ := List.head?_eq_some_iff.mp hnul
        rw [hbs] at heq hprint hk
        cases k with
        | zero => simp [List.replicate_succ] at heq
        | succ k => exact absurd (hprint 0 (by simp)) (by decide)
    · rintro (hno | hall)
      · exact absurd hnul hno
      · exact .inl hall
  · have hlegal : LegalText field.toList (leftAlignField field).toList := by
      rw [leftAlignField_clean hnul]
      exact .inr leftAlign_eq
    simp [hlegal, hnul]

/-! ## The two fields -/

inductive TextField
  | productId
  | productRevisionLevel
  deriving DecidableEq

def TextField.text (params : StorageUnitParams) : TextField → List UInt8
  | .productId => params.productId.toList
  | .productRevisionLevel => params.productRevisionLevel.toList

/-- Where the text is in the standard data, and, since the header of page 83h
with that of its first descriptor is as long as what comes before the vendor
there, in page 83h. -/
def TextField.offset : TextField → Nat
  | .productId => 16
  | .productRevisionLevel => 32

def TextField.size : TextField → Nat
  | .productId => 16
  | .productRevisionLevel => 4

theorem TextField.length_text (field : TextField) : (field.text params).length = field.size := by
  cases field with
  | productId => simp [text, size]
  | productRevisionLevel => simp [text, size]

theorem TextField.page_text (field : TextField) {kind : DataIn} {supplied : Nat}
    (hkind : kind = .inquiry ∨ kind = .deviceIdentifiers) :
    ∃ before after, kind.page unit supplied =
        before ++ (field.text unit.storageUnitParams ++ after) ∧
      before.length = field.offset := by
  rcases hkind with rfl | rfl
  · cases field with
    | productId =>
        exact ⟨[deviceTypeByte unit, 0, 5, 2, 31, 0, 0, 0x02] ++ spdIoctlVendorId,
          unit.storageUnitParams.productRevisionLevel.toList,
          by simp [DataIn.page, inquiryData, text], rfl⟩
    | productRevisionLevel =>
        exact ⟨[deviceTypeByte unit, 0, 5, 2, 31, 0, 0, 0x02] ++ spdIoctlVendorId ++
          unit.storageUnitParams.productId.toList, [],
          by simp [DataIn.page, inquiryData, text], by simp [spdIoctlVendorId, offset]⟩
  · cases field with
    | productId =>
        exact ⟨[deviceTypeByte unit, vpdDeviceIdentifiers, 0, 80, 0x02, 0x01, 0, 64] ++
          spdIoctlVendorId, _, by simp [DataIn.page, vpdIdentificationPage, text]; rfl, rfl⟩
    | productRevisionLevel =>
        exact ⟨[deviceTypeByte unit, vpdDeviceIdentifiers, 0, 80, 0x02, 0x01, 0, 64] ++
          spdIoctlVendorId ++ unit.storageUnitParams.productId.toList, _,
          by simp [DataIn.page, vpdIdentificationPage, text]; rfl,
          by simp [spdIoctlVendorId, offset]⟩

/-- The text that a command answered with success has in its buffer. -/
theorem TextField.answered (field : TextField) {kind : DataIn} {srb' : Srb}
    (hkind : kind = .inquiry ∨ kind = .deviceIdentifiers) (hsel : kind.Selects srb.cdb)
    (hbuf : srb.dataBuffer = some buf) (hlen : srb.dataTransferLength.toNat ≤ buf.length)
    (h : kind.build unit srb = some (srbStatusSuccess, srb')) :
    ∃ data, srb'.dataBuffer = some data ∧
      (data.drop field.offset).take field.size = field.text unit.storageUnitParams := by
  have hno : kind = .blockLimits → unit.storageUnitParams.blockLength ≠ 0 := by
    intro hlimits
    subst hlimits
    simp at hkind
  rw [kind.build_eq hno hsel hbuf hlen, putPage_eq, Option.some.injEq] at h
  split at h
  · cases h
    obtain ⟨before, after, hpage, hbefore⟩ := field.page_text hkind
    refine ⟨_, rfl, ?_⟩
    rw [hpage, List.append_assoc, List.append_assoc, List.append_assoc, List.drop_left' hbefore,
      List.take_left' field.length_text]
  · have hover : srbStatusDataOverrun = srbStatusSuccess := congrArg Prod.fst h
    exact absurd hover (by decide)

/-- The text that was given to a provision is legal where the unit keeps it and
where it is returned. -/
structure TextLegal (field : TextField) (params : StorageUnitParams) (unit : SpdStorageUnit) :
    Prop where
  stored : LegalText (field.text params) (field.text unit.storageUnitParams)
  returned : ∀ {kind : DataIn} {srb srb' : Srb} {buf : List UInt8},
    kind = .inquiry ∨ kind = .deviceIdentifiers → kind.Selects srb.cdb →
    srb.dataBuffer = some buf → srb.dataTransferLength.toNat ≤ buf.length →
    kind.build unit srb = some (srbStatusSuccess, srb') →
    ∃ data, srb'.dataBuffer = some data ∧
      LegalText (field.text params) ((data.drop field.offset).take field.size)

theorem textLegal_iff_stored {field : TextField} : TextLegal field params unit ↔
    LegalText (field.text params) (field.text unit.storageUnitParams) := by
  constructor
  · intro h
    exact h.stored
  · intro hlegal
    refine ⟨hlegal, fun hkind hsel hbuf hlen hbuild => ?_⟩
    obtain ⟨data, hdata, htext⟩ := field.answered hkind hsel hbuf hlen hbuild
    exact ⟨data, hdata, by rw [htext]; exact hlegal⟩

theorem textLegal_new {field : TextField} {processId : UInt32} :
    TextLegal field params (newStorageUnit params processId) ↔
      (field.text params).head? ≠ some 0 ∨ ∀ b ∈ field.text params, b = 0 := by
  rw [textLegal_iff_stored]
  cases field with
  | productId => exact legalText_leftAlignField
  | productRevisionLevel => exact legalText_leftAlignField

/-! ## The life of a unit -/

/-- The units that are there afterwards were there before, with the same
parameters, apart from the one at `new`. -/
def KeepsParams (new : Option Addr) (dx dx' : SpdDeviceExtension) : Prop :=
  ∀ p object', dx'.pool p = some object' → new = some p ∨ ∃ object,
    dx.pool p = some object ∧
    object'.unit.storageUnitParams = object.unit.storageUnitParams

theorem keepsParams_refl {new : Option Addr} : KeepsParams new dx dx := by
  intro p object h
  exact .inr ⟨object, h, rfl⟩

theorem keepsParams_update {new : Option Addr} {object' : UnitObject}
    (hobject : dx.pool p = some object)
    (hdx : dx'.pool = Function.update dx.pool p (some object'))
    (hparams : object'.unit.storageUnitParams = object.unit.storageUnitParams) :
    KeepsParams new dx dx' := by
  intro q object₁ h
  rw [hdx] at h
  by_cases hq : q = p
  · subst hq
    rw [Function.update_self] at h
    cases h
    exact .inr ⟨object, hobject, hparams⟩
  · rw [Function.update_of_ne hq] at h
    exact .inr ⟨object₁, h, rfl⟩

theorem keepsParams_free {new : Option Addr}
    (hdx : dx'.pool = Function.update dx.pool p none) : KeepsParams new dx dx' := by
  intro q object h
  rw [hdx] at h
  by_cases hq : q = p
  · subst hq
    simp at h
  · rw [Function.update_of_ne hq] at h
    exact .inr ⟨object, h, rfl⟩

theorem keepsParams_addRef {new : Option Addr} (h : dx.addRef p = some dx') :
    KeepsParams new dx dx' := by
  rw [SpdDeviceExtension.addRef, Option.bind_eq_bind, Option.bind_eq_some_iff] at h
  obtain ⟨object, hobject, h⟩ := h
  cases h
  exact keepsParams_update hobject rfl rfl

/-- The memory a provision was given for its unit. -/
def RegistryOp.newUnit : RegistryOp → Option Addr
  | .provision _ _ unitMem _ => unitMem
  | _ => none

theorem spdStorageUnitProvision_params {unitMem : Option Addr} {ioqMem : Option SpdIoq}
    {processId btl : UInt32} {status : NtStatus}
    (h : spdStorageUnitProvision dx params processId unitMem ioqMem = some (dx', status, btl)) :
    KeepsParams unitMem dx dx' ∧ (status = .success → ∃ p mem, unitMem = some p ∧
      dx'.pool p = some ⟨newStorageUnit params processId, mem⟩) := by
  unfold spdStorageUnitProvision at h
  split at h
  · cases h
  · next p =>
    split at h
    · cases h
      exact ⟨keepsParams_refl, by simp⟩
    · next mem =>
      simp only [Option.bind_eq_bind, Option.bind_eq_some_iff] at h
      obtain ⟨⟨duplicate, free⟩, -, h⟩ := h
      cases duplicate with
      | some q =>
          simp only [Option.bind_eq_some_iff] at h
          obtain ⟨calls, -, h⟩ := h
          cases h
          exact ⟨keepsParams_refl, by simp⟩
      | none =>
          simp only at h
          split at h
          · simp only [Option.bind_eq_some_iff] at h
            obtain ⟨calls, -, h⟩ := h
            cases h
            exact ⟨keepsParams_refl, by simp⟩
          · cases h
            refine ⟨fun q object' hq => ?_, fun _ => ⟨p, spdIoqCreate mem, rfl, by simp⟩⟩
            by_cases hqp : q = p
            · exact .inl (by rw [hqp])
            · have hq : Function.update dx.pool p _ q = some object' := hq
              rw [Function.update_of_ne hqp] at hq
              exact .inr ⟨object', hq, rfl⟩

theorem RegistryOp.exec_params (h : op.exec dx = some (dx', r)) :
    KeepsParams op.newUnit dx dx' := by
  cases op with
  | provision params processId unitMem ioqMem =>
      simp only [exec, Option.map_eq_some_iff] at h
      obtain ⟨⟨dx₁, status, btl⟩, hprov, heq⟩ := h
      cases heq
      exact (spdStorageUnitProvision_params hprov).1
  | unprovision key processId =>
      simp only [exec, spdStorageUnitUnprovision, Option.bind_eq_bind, Option.map_eq_some_iff,
        Option.bind_eq_some_iff] at h
      obtain ⟨x, ⟨found, -, h⟩, heq⟩ := h
      cases heq
      cases found with
      | none =>
          cases h
          exact keepsParams_refl
      | some y =>
          simp only [Option.bind_eq_some_iff] at h
          obtain ⟨object, hobject, h⟩ := h
          split at h
          · cases h
            exact keepsParams_refl
          · rw [Option.bind_eq_some_iff] at h
            obtain ⟨z, -, h⟩ := h
            cases h
            exact keepsParams_update hobject rfl rfl
  | referenceByBtl btl =>
      simp only [exec, Option.map_eq_some_iff] at h
      obtain ⟨x, h, heq⟩ := h
      cases heq
      unfold spdStorageUnitReferenceByBtl at h
      split at h
      · cases h
        exact keepsParams_refl
      · rw [Option.map_eq_some_iff] at h
        obtain ⟨dx₁, hadd, heq⟩ := h
        cases heq
        exact keepsParams_addRef hadd
  | referenceByDevice deviceObject =>
      simp only [exec, spdStorageUnitReferenceByDevice, Option.bind_eq_bind, Option.map_eq_some_iff,
        Option.bind_eq_some_iff] at h
      obtain ⟨x, ⟨found, -, h⟩, heq⟩ := h
      cases heq
      cases found with
      | none =>
          cases h
          exact keepsParams_refl
      | some y =>
          simp only [Option.map_eq_some_iff] at h
          obtain ⟨dx₁, hadd, heq⟩ := h
          cases heq
          exact keepsParams_addRef hadd
  | dereference p =>
      simp only [exec, spdStorageUnitDereference, Option.bind_eq_bind, Option.map_eq_some_iff,
        Option.bind_eq_some_iff] at h
      obtain ⟨x, ⟨object, hobject, h⟩, heq⟩ := h
      cases heq
      split at h
      · rw [Option.bind_eq_some_iff] at h
        obtain ⟨calls, -, h⟩ := h
        cases h
        exact keepsParams_free rfl
      · cases h
        exact keepsParams_update hobject rfl rfl
  | setDevice p deviceObject =>
      simp only [exec, spdStorageUnitSetDevice, Option.bind_eq_bind, Option.map_eq_some_iff,
        Option.bind_eq_some_iff] at h
      obtain ⟨x, ⟨object, hobject, h⟩, heq⟩ := h
      cases heq
      split at h
      · cases h
        exact keepsParams_update hobject rfl rfl
      · cases h
        exact keepsParams_refl
  | setTransactProcessId p processId =>
      simp only [exec, spdIoctlSetTransactProcessIdStore, Option.bind_eq_bind,
        Option.map_eq_some_iff, Option.bind_eq_some_iff] at h
      obtain ⟨x, ⟨object, hobject, h⟩, heq⟩ := h
      cases h
      cases heq
      exact keepsParams_update hobject rfl rfl
  | work p ioq =>
      simp only [exec, Option.map_eq_some_iff] at h
      obtain ⟨object, hobject, heq⟩ := h
      cases heq
      exact keepsParams_update hobject rfl rfl

/-- A unit that has not been replaced is the one there was, with its parameters. -/
theorem registryRun_params {s₀ s : RegistrySys} {ls : List RegistryEvent}
    (hrun : Run RegistryStep s₀ ls s) (hkept : ∀ ev ∈ ls, ev.op.newUnit ≠ some p)
    (hunit : s.dx.pool p = some object) :
    ∃ object₀, s₀.dx.pool p = some object₀ ∧
      object.unit.storageUnitParams = object₀.unit.storageUnitParams := by
  induction hrun generalizing object with
  | nil => exact ⟨object, hunit, rfl⟩
  | @snoc ls ev s s' hr hstep ih =>
      rcases RegistryOp.exec_params hstep.exec p object hunit
        with hnew | ⟨object₁, hobject₁, heq₁⟩
      · exact absurd hnew (hkept ev (by simp))
      · obtain ⟨object₀, hobject₀, heq₀⟩ :=
          ih (fun ev' hev' => hkept ev' (by simp [hev'])) hobject₁
        exact ⟨object₀, hobject₀, heq₁.trans heq₀⟩

/-- The texts of a unit at any time after its provision. -/
theorem inquiry_text {s₀ s₁ s : RegistrySys} {processId : UInt32} {ioqMem : Option SpdIoq}
    {ls : List RegistryEvent} (field : TextField)
    (hprov : RegistryStep s₀ ⟨.provision params processId (some p) ioqMem, r⟩ s₁)
    (hsuccess : r.status = .success) (hrun : Run RegistryStep s₁ ls s)
    (hkept : ∀ ev ∈ ls, ev.op.newUnit ≠ some p) (hunit : s.dx.pool p = some object) :
    TextLegal field params object.unit ↔
      (field.text params).head? ≠ some 0 ∨ ∀ b ∈ field.text params, b = 0 := by
  have hexec := hprov.exec
  simp only [RegistryOp.exec, Option.map_eq_some_iff] at hexec
  obtain ⟨⟨dx₁, status, btl⟩, hprovision, heq⟩ := hexec
  cases heq
  obtain ⟨p', mem, hp', hnew⟩ := (spdStorageUnitProvision_params hprovision).2 hsuccess
  cases hp'
  obtain ⟨object₀, hobject₀, hparams⟩ := registryRun_params hrun hkept hunit
  rw [hnew] at hobject₀
  cases hobject₀
  rw [← @textLegal_new params field processId, textLegal_iff_stored,
    textLegal_iff_stored, hparams]

theorem firstProvision (params : StorageUnitParams) :
    ∃ s, RegistryStep (.init 16)
        ⟨.provision params 7 (some 0x5000) (some zeroedIoq), ⟨.success, 0, none⟩⟩ s ∧
      s.dx.pool 0x5000 = some ⟨newStorageUnit params 7, spdIoqCreate zeroedIoq⟩ := by
  obtain ⟨dx, hexec, hunit⟩ : ∃ dx, RegistryOp.exec (RegistrySys.init 16).dx
      (.provision params 7 (some 0x5000) (some zeroedIoq)) = some (dx, ⟨.success, 0, none⟩) ∧
        dx.pool 0x5000 = some ⟨newStorageUnit params 7, spdIoqCreate zeroedIoq⟩ :=
    ⟨_, rfl, rfl⟩
  refine ⟨⟨dx, []⟩, ⟨fun p hp => ?_, hexec, rfl⟩, hunit⟩
  cases hp
  exact ⟨by decide, rfl⟩

/-- A revision level of a letter, a control character and another letter. -/
def revisedUnit : StorageUnitParams :=
  { sampleUnit with productRevisionLevel := ⟨#[0x41, 0x01, 0x42, 0x00], rfl⟩ }

theorem inquiry_text_revised :
    ∃ s object, s.dx.pool 0x5000 = some object ∧
      RegistryStep (.init 16)
        ⟨.provision revisedUnit 7 (some 0x5000) (some zeroedIoq), ⟨.success, 0, none⟩⟩ s ∧
      TextLegal .productRevisionLevel revisedUnit object.unit := by
  obtain ⟨s, hstep, hunit⟩ := firstProvision revisedUnit
  exact ⟨s, _, hunit, hstep,
    (inquiry_text .productRevisionLevel hstep rfl .nil (by simp) hunit).mpr (by decide)⟩

def nulUnit : StorageUnitParams :=
  { sampleUnit with productRevisionLevel := ⟨#[0x00, 0x41, 0x00, 0x00], rfl⟩ }

theorem inquiry_text_nul :
    ¬∀ (field : TextField) (params : StorageUnitParams) (processId : UInt32) (p : Addr)
      (ioqMem : Option SpdIoq) (r : RegistryResult) (s₀ s : RegistrySys) (object : UnitObject),
      RegistryStep s₀ ⟨.provision params processId (some p) ioqMem, r⟩ s →
      r.status = .success →
      s.dx.pool p = some object → TextLegal field params object.unit := by
  intro hall
  obtain ⟨s, hstep, hunit⟩ := firstProvision nulUnit
  have hlegal := hall .productRevisionLevel nulUnit 7 0x5000
    (some zeroedIoq) _ _ _ _ hstep rfl hunit
  exact absurd (textLegal_new.mp hlegal) (by decide)

end Winspd.Proofs
