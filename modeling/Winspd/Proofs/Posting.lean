import Winspd.Proofs.IoqRefine
import Winspd.Sys.Io
import Winspd.Sys.Ioctl

/-!
# What is posted

An SRB that `SpdSrbExecuteScsi` is given is answered at once or posted.
`AtOnce` says what an answer leaves alone: every other SRB, every other
extension and the queue. `Posted` says everything a post establishes: the
checks it passed (`PostOk`) and the extension it filled in (`postedExt`).
The rest of the development reads the code of the posting functions through
these two (`spdSrbExecuteScsi_cases`).

The checks do not include that the transfer length was computed without a
wrap. `BlockCount * BlockLength` is a 32-bit product, so a CDB whose product
is near a multiple of `2 ^ 32` passes with a short buffer, and the length that
is recorded is the wrapped one. `spdScsiPostRangeSrb_length` is the exact
condition under which the length that is accepted is the one the CDB asks for.
-/

namespace Winspd.Proofs

open Winspd.Lib Winspd.Sys Winspd.Spec

variable {storResult : StorStatus} {unit : StorageUnitParams} {a e : Addr} {m m' : ScsiMem}
  {ioq : SpdIoq} {r : ScsiResult} {range : CdbRange} {dataLength : UInt32} {srb srb' : Srb}
  {status : UInt8}

/-! ## Ranges -/

/-- The blocks of the range are blocks of the unit. -/
def InUnit (unit : StorageUnitParams) (blockAddress : UInt64) (blockCount : UInt32) : Prop :=
  blockAddress.toNat + blockCount.toNat ≤ unit.blockCount.toNat

theorem inUnit_iff {blockAddress : UInt64} {blockCount : UInt32} :
    InUnit unit blockAddress blockCount ↔
      ¬ (blockAddress + blockCount.toUInt64 < blockAddress ∨
        blockAddress + blockCount.toUInt64 > unit.blockCount) := by
  have ha := blockAddress.toNat_lt
  have hn := blockCount.toNat_lt
  have hc := unit.blockCount.toNat_lt
  rw [InUnit, not_or, UInt64.lt_iff_toNat_lt, gt_iff_lt, UInt64.lt_iff_toNat_lt,
    UInt64.toNat_add, UInt32.toNat_toUInt64]
  omega

/-! ## The checks -/

/-- The checks a READ, WRITE, SYNCHRONIZE CACHE or UNMAP passes before it is
posted, with the data length it is posted with. -/
inductive PostOk (unit : StorageUnitParams) (srb : Srb) : UInt32 → Prop
  | read {range : CdbRange} (hop : scsiOp srb.cdb = .read)
      (hrange : spdCdbGetRange srb.cdb = some range)
      (hlen : ¬ srb.dataTransferLength < range.blockCount * unit.blockLength)
      (hcount : range.blockCount ≠ 0)
      (hunit : InUnit unit range.blockAddress range.blockCount) :
      PostOk unit srb (range.blockCount * unit.blockLength)
  | write {range : CdbRange} (hop : scsiOp srb.cdb = .write) (hwp : unit.writeProtected = false)
      (hrange : spdCdbGetRange srb.cdb = some range)
      (hlen : ¬ srb.dataTransferLength < range.blockCount * unit.blockLength)
      (hcount : range.blockCount ≠ 0)
      (hunit : InUnit unit range.blockAddress range.blockCount) :
      PostOk unit srb (range.blockCount * unit.blockLength)
  | synchronizeCache {range : CdbRange} (hop : scsiOp srb.cdb = .synchronizeCache)
      (hcache : unit.cacheSupported = true) (hwp : unit.writeProtected = false)
      (hrange : spdCdbGetRange srb.cdb = some range) (hcount : range.blockCount ≠ 0)
      (hunit : InUnit unit range.blockAddress range.blockCount) : PostOk unit srb 0
  | unmap {dataLength : UInt32} {buf : List UInt8} (hop : scsiOp srb.cdb = .unmap)
      (hunmap : unit.unmapSupported = true) (hwp : unit.writeProtected = false)
      (hbuf : srb.dataBuffer = some buf)
      (hlen : ¬ srb.dataTransferLength < 8 + dataLength)
      (hmax : ¬ dataLength > unit.maxTransferLength) (hzero : dataLength ≠ 0)
      (hinside : unmapOutside unit buf 0 (dataLength / 16).toNat = some false)
      (hshort : dataLength.toNat < 65536) :
      PostOk unit srb dataLength

def postedExt (unit : StorageUnitParams) (a : Addr) (dataLength : UInt32) : SrbExtension :=
  if dataLength ≠ 0 then
    { SrbExtension.zero with
      storageUnit := unit, systemDataBuffer := a, systemDataLength := dataLength }
  else { SrbExtension.zero with storageUnit := unit }

/-- The SRB at `a` was posted. -/
structure Posted (storResult : StorStatus) (unit : StorageUnitParams) (a : Addr) (m : ScsiMem)
    (ioq : SpdIoq) (dataLength : UInt32) (r : ScsiResult) : Prop where
  status : r.1 = srbStatusPending
  stor : dataLength ≠ 0 → storResult = .success
  ext_ne : (m.srb a).miniportContext ≠ 0
  mem : r.2.1 = m.setExt (m.srb a).miniportContext (postedExt unit a dataLength)
  ioq : spdIoqPostSrb (ioq.zeroExtension (m.srb a).miniportContext) a (m.srb a).miniportContext =
    some (r.2.2, .success)

/-- Nothing changed but the SRB at `a` and the extension at `e`. -/
structure Frame (a e : Addr) (m m' : ScsiMem) : Prop where
  srb : ∀ x, x ≠ a → m'.srb x = m.srb x
  ext : ∀ x, x ≠ e → m'.ext x = m.ext x

theorem Frame.refl : Frame a e m m := ⟨fun _ _ => rfl, fun _ _ => rfl⟩

theorem Frame.setSrb : Frame a e m (m.setSrb a srb) :=
  ⟨fun _ hx => Function.update_of_ne hx _ _, fun _ _ => rfl⟩

theorem Frame.setExt {ext : SrbExtension} : Frame a e m (m.setExt e ext) :=
  ⟨fun _ _ => rfl, fun _ hx => Function.update_of_ne hx _ _⟩

theorem Frame.trans {m'' : ScsiMem} (h : Frame a e m m') (h' : Frame a e m' m'') :
    Frame a e m m'' :=
  ⟨fun x hx => (h'.srb x hx).trans (h.srb x hx), fun x hx => (h'.ext x hx).trans (h.ext x hx)⟩

/-- The SRB at `a` was answered at once. At most its extension was zeroed. -/
structure AtOnce (a : Addr) (m : ScsiMem) (ioq : SpdIoq) (r : ScsiResult) : Prop where
  status : srbStatus r.1 ≠ srbStatusPending
  frame : Frame a (m.srb a).miniportContext m r.2.1
  ioq : r.2.2 = ioq ∨ r.2.2 = ioq.zeroExtension (m.srb a).miniportContext

/-! ## Errors -/

theorem spdScsiErrorEx_status {senseKey asc ascq : UInt8} {information : Option UInt64}
    (h : spdScsiErrorEx srb senseKey asc ascq information = some (status, srb')) :
    srbStatus status = srbStatusError := by
  unfold spdScsiErrorEx at h
  split at h
  · cases h
    decide
  · split at h
    · simp only [Option.bind_eq_bind, Option.bind_eq_some_iff] at h
      obtain ⟨buf, -, buf', -, h⟩ := h
      cases h
      decide
    · cases h
      decide

theorem spdScsiErrorEx_srb {senseKey asc ascq : UInt8} {information : Option UInt64}
    (h : spdScsiErrorEx srb senseKey asc ascq information = some (status, srb')) :
    srb' = { srb with senseInfoBuffer := srb'.senseInfoBuffer, scsiStatus := srb'.scsiStatus } := by
  unfold spdScsiErrorEx at h
  split at h
  · cases h
    rfl
  · split at h
    · simp only [Option.bind_eq_bind, Option.bind_eq_some_iff] at h
      obtain ⟨buf, -, buf', -, h⟩ := h
      cases h
      rfl
    · cases h
      rfl

theorem atOnce_status (h : srbStatus status ≠ srbStatusPending) :
    AtOnce a m ioq (status, m, ioq) :=
  ⟨h, Frame.refl, .inl rfl⟩

theorem atOnce_srb {f : Option (UInt8 × Srb)} (h : f.map (srbResult a m ioq) = some r)
    (hf : ∀ status srb', f = some (status, srb') → srbStatus status ≠ srbStatusPending) :
    AtOnce a m ioq r := by
  rw [Option.map_eq_some_iff] at h
  obtain ⟨⟨status, srb'⟩, heq, rfl⟩ := h
  exact ⟨hf status srb' heq, Frame.setSrb, .inl rfl⟩

theorem atOnce_error {senseKey asc : UInt8}
    (h : (spdScsiError (m.srb a) senseKey asc).map (srbResult a m ioq) = some r) :
    AtOnce a m ioq r :=
  atOnce_srb h fun _ _ heq => by
    rw [spdScsiErrorEx_status heq]
    decide

/-! ## Posting -/

theorem spdIoqPostSrb_cases {ioq' : SpdIoq} {st : NtStatus}
    (h : spdIoqPostSrb ioq a e = some (ioq', st)) :
    (ioq.stopped = true ∧ ioq' = ioq ∧ st = .cancelled) ∨
    (ioq.stopped = false ∧ st = .success) := by
  unfold spdIoqPostSrb at h
  split at h
  · next hst =>
      cases h
      exact .inl ⟨hst, rfl, rfl⟩
  · next hst =>
      split at h
      · cases h
      · simp only [Option.bind_eq_bind, Option.bind_eq_some_iff] at h
        obtain ⟨L, -, h⟩ := h
        cases h
        exact .inr ⟨by simpa using hst, rfl⟩

/-- What `SpdScsiPostSrb` returns. -/
theorem spdScsiPostSrb_status
    (h : spdScsiPostSrb storResult unit a dataLength m ioq = some r) :
    r.1 = srbStatusInternalError ∨ r.1 = srbStatusPending ∨ r.1 = srbStatusAborted := by
  simp only [spdScsiPostSrb] at h
  by_cases hne : (m.srb a).miniportContext = 0
  · rw [if_pos hne] at h
    cases h
  · rw [if_neg hne] at h
    by_cases hstor : dataLength ≠ 0 ∧ storResult ≠ .success
    · rw [if_pos hstor] at h
      cases h
      exact .inl rfl
    · rw [if_neg hstor] at h
      simp only [Option.bind_eq_bind, Option.bind_eq_some_iff] at h
      obtain ⟨⟨ioq', st⟩, -, h⟩ := h
      cases h
      by_cases hst : ntSuccess st = true
      · exact .inr (.inl (if_pos hst))
      · exact .inr (.inr (if_neg hst))

theorem spdScsiPostSrb_cases (h : spdScsiPostSrb storResult unit a dataLength m ioq = some r) :
    Posted storResult unit a m ioq dataLength r ∨ AtOnce a m ioq r := by
  simp only [spdScsiPostSrb] at h
  by_cases hne : (m.srb a).miniportContext = 0
  · rw [if_pos hne] at h
    cases h
  · rw [if_neg hne] at h
    by_cases hstor : dataLength ≠ 0 ∧ storResult ≠ .success
    · rw [if_pos hstor] at h
      cases h
      exact .inr ⟨show srbStatus srbStatusInternalError ≠ srbStatusPending by decide,
        Frame.setExt.trans Frame.setSrb, .inr rfl⟩
    · rw [if_neg hstor] at h
      simp only [Option.bind_eq_bind, Option.bind_eq_some_iff] at h
      obtain ⟨⟨ioq', st⟩, hpost, h⟩ := h
      cases h
      obtain ⟨-, rfl, rfl⟩ | ⟨-, rfl⟩ := spdIoqPostSrb_cases hpost
      · exact .inr ⟨show srbStatus srbStatusAborted ≠ srbStatusPending by decide,
          Frame.setExt, .inr rfl⟩
      · refine .inl ⟨rfl, fun hlen => ?_, hne, rfl, hpost⟩
        by_contra hst
        exact hstor ⟨hlen, hst⟩

theorem spdScsiPostRange_cases
    (h : spdScsiPostRange storResult unit a range dataLength m ioq = some r) :
    (range.blockCount ≠ 0 ∧ InUnit unit range.blockAddress range.blockCount ∧
      Posted storResult unit a m ioq dataLength r) ∨ AtOnce a m ioq r := by
  unfold spdScsiPostRange at h
  split at h
  · cases h
    exact .inr (atOnce_status (by decide))
  · next hcount =>
      simp only at h
      split at h
      · exact .inr (atOnce_error h)
      · next hin =>
          rcases spdScsiPostSrb_cases h with hp | hp
          · exact .inl ⟨hcount, inUnit_iff.mpr hin, hp⟩
          · exact .inr hp

theorem spdScsiPostRangeSrb_cases (h : spdScsiPostRangeSrb storResult unit a m ioq = some r) :
    (∃ dataLength, PostOk unit (m.srb a) dataLength ∧
      Posted storResult unit a m ioq dataLength r) ∨ AtOnce a m ioq r := by
  unfold spdScsiPostRangeSrb at h
  simp only at h
  split at h
  · next hop =>
      simp only [Option.bind_eq_bind, Option.bind_eq_some_iff] at h
      obtain ⟨range, hrange, h⟩ := h
      split at h
      · cases h
        exact .inr (atOnce_status (by decide))
      · next hlen =>
          rcases spdScsiPostRange_cases h with ⟨hcount, hunit, hp⟩ | hp
          · exact .inl ⟨_, .read hop hrange hlen hcount hunit, hp⟩
          · exact .inr hp
  · next hop =>
      split at h
      · exact .inr (atOnce_error h)
      · next hwp =>
          simp only [Option.bind_eq_bind, Option.bind_eq_some_iff] at h
          obtain ⟨range, hrange, h⟩ := h
          split at h
          · cases h
            exact .inr (atOnce_status (by decide))
          · next hlen =>
              rcases spdScsiPostRange_cases h with ⟨hcount, hunit, hp⟩ | hp
              · exact .inl ⟨_, .write hop (by simpa using hwp) hrange hlen hcount hunit, hp⟩
              · exact .inr hp
  · next hop =>
      split at h
      · cases h
        exact .inr (atOnce_status (by decide))
      · next hcache =>
          split at h
          · exact .inr (atOnce_error h)
          · next hwp =>
              simp only [Option.bind_eq_bind, Option.bind_eq_some_iff] at h
              obtain ⟨range, hrange, h⟩ := h
              rcases spdScsiPostRange_cases h with ⟨hcount, hunit, hp⟩ | hp
              · exact .inl ⟨_, .synchronizeCache hop (by simpa using hcache) (by simpa using hwp)
                  hrange hcount hunit, hp⟩
              · exact .inr hp
  · cases h
    exact .inr (atOnce_status (by decide))

theorem spdScsiPostUnmapSrb_cases (hop : scsiOp (m.srb a).cdb = .unmap)
    (h : spdScsiPostUnmapSrb storResult unit a m ioq = some r) :
    (∃ dataLength, PostOk unit (m.srb a) dataLength ∧
      Posted storResult unit a m ioq dataLength r) ∨ AtOnce a m ioq r := by
  unfold spdScsiPostUnmapSrb at h
  simp only at h
  split at h
  · cases h
    exact .inr (atOnce_status (by decide))
  · next hunmap =>
      split at h
      · exact .inr (atOnce_error h)
      · next hwp =>
          split at h
          · cases h
            exact .inr (atOnce_status (by decide))
          · next buf hbuf =>
              split at h
              · cases h
                exact .inr (atOnce_status (by decide))
              · simp only [Option.bind_eq_bind, Option.bind_eq_some_iff] at h
                obtain ⟨length, -, h⟩ := h
                split at h
                · cases h
                  exact .inr (atOnce_status (by decide))
                · next hlen =>
                    split at h
                    · exact .inr (atOnce_error h)
                    · next hmax =>
                        split at h
                        · exact .inr (atOnce_error h)
                        · split at h
                          · cases h
                            exact .inr (atOnce_status (by decide))
                          · next hzero =>
                              rw [Option.bind_eq_some_iff] at h
                              obtain ⟨outside, hout, h⟩ := h
                              split at h
                              · exact .inr (atOnce_error h)
                              · next hin =>
                                  obtain rfl : outside = false := by simpa using hin
                                  rcases spdScsiPostSrb_cases h with hp | hp
                                  · exact .inl ⟨_, .unmap hop (by simpa using hunmap)
                                      (by simpa using hwp) hbuf hlen hmax hzero hout
                                      (toNat_or_two32_lt _ _), hp⟩
                                  · exact .inr hp

/-! ## The accepted length -/

theorem spdCdbGetRange_isSome {cdb : Cdb}
    (hop : scsiOp cdb = .read ∨ scsiOp cdb = .write ∨ scsiOp cdb = .synchronizeCache) :
    ∃ range, spdCdbGetRange cdb = some range := by
  have hcode : cdb.asByte 0 = scsiopRead6 ∨ cdb.asByte 0 = scsiopRead ∨
      cdb.asByte 0 = scsiopRead12 ∨ cdb.asByte 0 = scsiopRead16 ∨
      cdb.asByte 0 = scsiopWrite6 ∨ cdb.asByte 0 = scsiopWrite ∨
      cdb.asByte 0 = scsiopWrite12 ∨ cdb.asByte 0 = scsiopWrite16 ∨
      cdb.asByte 0 = scsiopSynchronizeCache ∨ cdb.asByte 0 = scsiopSynchronizeCache16 := by
    by_contra hno
    simp only [not_or] at hno
    obtain ⟨h₁, h₂, h₃, h₄, h₅, h₆, h₇, h₈, h₉, h₁₀⟩ := hno
    unfold scsiOp at hop
    simp only [h₁, h₂, h₃, h₄, h₅, h₆, h₇, h₈, h₉, h₁₀, or_self,
      if_false] at hop
    repeat' split at hop
    all_goals simp at hop
  unfold spdCdbGetRange
  rcases hcode with h | h | h | h | h | h | h | h | h | h <;> rw [h] <;> exact ⟨_, rfl⟩

variable {q : Queue}

theorem spdScsiPostSrb_posts (unit : StorageUnitParams) (hr : Refines ioq q)
    (hst : ioq.stopped = false)
    (hfresh : (m.srb a).miniportContext ∉ q.items.map Item.ext)
    (hne : (m.srb a).miniportContext ≠ 0) (hstor : dataLength ≠ 0 → storResult = .success) :
    ∃ ioq', spdScsiPostSrb storResult unit a dataLength m ioq =
      some (srbStatusPending,
        m.setExt (m.srb a).miniportContext (postedExt unit a dataLength), ioq') := by
  have hpost := spdIoqPostSrb_agree (i := ⟨(m.srb a).miniportContext, a⟩)
    (hr.zeroExtension hfresh)
    hfresh hne
  rw [Queue.post_of_running (hr.stopped.symm.trans hst)] at hpost
  obtain ⟨ioq', hpost, -⟩ := hpost.exists_some
  have hno : ¬ (dataLength ≠ 0 ∧ storResult ≠ .success) := fun h => h.2 (hstor h.1)
  refine ⟨ioq', ?_⟩
  simp only [spdScsiPostSrb, if_neg hne, if_neg hno, hpost, Option.bind_eq_bind, Option.bind_some]
  rfl

/-- A READ or WRITE that passes every check of `SpdScsiPostRangeSrb`. -/
theorem spdScsiPostRangeSrb_posts (storResult : StorStatus) (hr : Refines ioq q)
    (hst : ioq.stopped = false)
    (hfresh : (m.srb a).miniportContext ∉ q.items.map Item.ext)
    (hne : (m.srb a).miniportContext ≠ 0)
    (hop : scsiOp (m.srb a).cdb = .read ∨
      scsiOp (m.srb a).cdb = .write ∧ unit.writeProtected = false)
    (hrange : spdCdbGetRange (m.srb a).cdb = some range)
    (hlen : ¬ (m.srb a).dataTransferLength < range.blockCount * unit.blockLength)
    (hcount : range.blockCount ≠ 0) (hunit : InUnit unit range.blockAddress range.blockCount)
    (hstor : range.blockCount * unit.blockLength ≠ 0 → storResult = .success) :
    ∃ ioq', spdScsiPostRangeSrb storResult unit a m ioq =
      some (srbStatusPending, m.setExt (m.srb a).miniportContext
        (postedExt unit a (range.blockCount * unit.blockLength)), ioq') := by
  obtain ⟨ioq', hpost⟩ := spdScsiPostSrb_posts unit hr hst hfresh hne hstor
  have hpost' : spdScsiPostRange storResult unit a range (range.blockCount * unit.blockLength) m
      ioq = some (srbStatusPending, m.setExt (m.srb a).miniportContext
        (postedExt unit a (range.blockCount * unit.blockLength)), ioq') := by
    simp only [spdScsiPostRange, if_neg hcount, if_neg (inUnit_iff.mp hunit), hpost]
  refine ⟨ioq', ?_⟩
  rcases hop with hop | ⟨hop, hwp⟩
  · simp only [spdScsiPostRangeSrb, hop, hrange, Option.bind_eq_bind, Option.bind_some,
      if_neg hlen, hpost']
  · simp only [spdScsiPostRangeSrb, hop, hwp, hrange, Option.bind_eq_bind, Option.bind_some,
      if_neg hlen, hpost', Bool.false_eq_true, if_false]

theorem postedExt_length : (postedExt unit a dataLength).systemDataLength = dataLength := by
  unfold postedExt
  split
  · rfl
  · next h => exact (not_not.mp h).symm

theorem PostOk.of_range (hok : PostOk unit srb dataLength)
    (hop : scsiOp srb.cdb = .read ∨ scsiOp srb.cdb = .write)
    (hrange : spdCdbGetRange srb.cdb = some range) :
    dataLength = range.blockCount * unit.blockLength ∧
      ¬ srb.dataTransferLength < range.blockCount * unit.blockLength ∧
      (scsiOp srb.cdb = .write → unit.writeProtected = false) ∧
      InUnit unit range.blockAddress range.blockCount ∧ range.blockCount ≠ 0 := by
  cases hok with
  | read hop' hrange' hlen hcount hunit =>
      rw [hrange, Option.some.injEq] at hrange'
      subst hrange'
      exact ⟨rfl, hlen, fun h => by simp [hop'] at h, hunit, hcount⟩
  | write _ hwp hrange' hlen hcount hunit =>
      rw [hrange, Option.some.injEq] at hrange'
      subst hrange'
      exact ⟨rfl, hlen, fun _ => hwp, hunit, hcount⟩
  | synchronizeCache hop' => simp [hop'] at hop
  | unmap hop' => simp [hop'] at hop

/-- The READ or WRITE is refused whatever its length is computed to be: a write
to a protected unit, a buffer shorter than the length modulo `2 ^ 32`, a range
outside the unit, a data buffer StorPort cannot map, or a stopped queue. -/
def RefusedAnyway (storResult : StorStatus) (unit : StorageUnitParams) (srb : Srb)
    (range : CdbRange) (ioq : SpdIoq) : Prop :=
  (scsiOp srb.cdb = .write ∧ unit.writeProtected = true) ∨
    srb.dataTransferLength.toNat <
      range.blockCount.toNat * unit.blockLength.toNat % 2 ^ 32 ∨
    ¬ InUnit unit range.blockAddress range.blockCount ∨
    (range.blockCount.toNat * unit.blockLength.toNat % 2 ^ 32 ≠ 0 ∧ storResult ≠ .success) ∨
    ioq.stopped = true

/-- If the SRB at `a` is posted, its `blockCount` blocks fit its data buffer, and
their length is the one recorded. -/
def LengthExact (storResult : StorStatus) (unit : StorageUnitParams) (a : Addr) (m : ScsiMem)
    (ioq : SpdIoq) (blockCount : UInt32) : Prop :=
  ∀ m' ioq', spdScsiPostRangeSrb storResult unit a m ioq = some (srbStatusPending, m', ioq') →
    blockCount.toNat * unit.blockLength.toNat ≤ (m.srb a).dataTransferLength.toNat ∧
      (m'.ext (m.srb a).miniportContext).systemDataLength.toNat =
        blockCount.toNat * unit.blockLength.toNat

/-- The length a READ or WRITE is posted with is the length its CDB asks for
exactly when the 32-bit product does not wrap, or the SRB is refused anyway. -/
theorem spdScsiPostRangeSrb_length (hr : Refines ioq q)
    (hfresh : (m.srb a).miniportContext ∉ q.items.map Item.ext)
    (hne : (m.srb a).miniportContext ≠ 0)
    (hop : scsiOp (m.srb a).cdb = .read ∨ scsiOp (m.srb a).cdb = .write) :
    ∃ range, spdCdbGetRange (m.srb a).cdb = some range ∧
      (LengthExact storResult unit a m ioq range.blockCount ↔
        range.blockCount.toNat * unit.blockLength.toNat < 2 ^ 32 ∨
          RefusedAnyway storResult unit (m.srb a) range ioq) := by
  obtain ⟨range, hrange⟩ := spdCdbGetRange_isSome (hop.imp_right .inl)
  refine ⟨range, hrange, ?_⟩
  have hmul := UInt32.toNat_mul range.blockCount unit.blockLength
  constructor
  · intro hexact
    by_contra hno
    rw [not_or, RefusedAnyway, not_or, not_or, not_or, not_or, not_not] at hno
    obtain ⟨hwrap, hwp, hlen, hunit, hstor, hst⟩ := hno
    have hcount : range.blockCount ≠ 0 := by
      intro hzero
      simp [hzero] at hwrap
    obtain ⟨ioq', hpost⟩ := spdScsiPostRangeSrb_posts storResult hr
      (by simpa using hst) hfresh hne
      (hop.imp_right fun hop => ⟨hop, by simpa [hop] using hwp⟩) hrange
      (by rwa [UInt32.lt_iff_toNat_lt, hmul]) hcount hunit (fun hlen => by
        by_contra hs
        refine hstor ⟨fun hzero => hlen ?_, hs⟩
        rw [← UInt32.toNat_inj, hmul, hzero]
        rfl)
    obtain ⟨-, hlength⟩ := hexact _ _ hpost
    rw [ScsiMem.setExt_ext, Function.update_self, postedExt_length] at hlength
    have hlt := (range.blockCount * unit.blockLength).toNat_lt
    omega
  · intro hcond m' ioq' hpost
    obtain ⟨dataLength, hok, hp⟩ := (spdScsiPostRangeSrb_cases hpost).resolve_right
      fun h => h.status (show srbStatus srbStatusPending = srbStatusPending by decide)
    obtain ⟨rfl, hlen, hwp, hunit, -⟩ := hok.of_range hop hrange
    have hstop : ioq.stopped = false := by
      obtain ⟨-, -, h⟩ | ⟨h, -⟩ := spdIoqPostSrb_cases hp.ioq
      · cases h
      · exact h
    have hstor := hp.stor
    rw [Ne, ← UInt32.toNat_inj, hmul] at hstor
    rw [UInt32.lt_iff_toNat_lt, hmul] at hlen
    obtain rfl : m' = _ := hp.mem
    rw [ScsiMem.setExt_ext, Function.update_self, postedExt_length, hmul]
    rcases hcond with hwrap | ⟨hw, hw'⟩ | hlen' | hunit' | ⟨hz, hs⟩ | hst
    · rw [Nat.mod_eq_of_lt hwrap] at hlen ⊢
      exact ⟨by omega, rfl⟩
    · exact absurd hw' (by simp [hwp hw])
    · exact absurd hlen' hlen
    · exact absurd hunit hunit'
    · exact absurd (hstor hz) hs
    · exact absurd hst (by simp [hstop])

/-! ## A length that wraps -/

/-- A unit of `2 ^ 29` blocks of 16 bytes, of which it takes two at a time. -/
def sampleUnit : StorageUnitParams :=
  { StorageUnitParams.zero with
    guid := ⟨1, 0, 0, Vector.replicate 8 0⟩
    blockCount := 0x20000000
    blockLength := 16
    cacheSupported := true
    unmapSupported := true
    maxTransferLength := 32 }

/-- An SRB for bus 0, target 0, with its extension at `0x1000`. -/
def sampleSrb (cdb : Cdb) (dataBuffer : List UInt8) : Srb where
  function := srbFunctionExecuteScsi
  pathId := 0
  targetId := 0
  lun := 0
  cdb := cdb
  dataBuffer := some dataBuffer
  dataTransferLength := UInt32.ofNat dataBuffer.length
  senseInfoBuffer := none
  senseInfoBufferLength := 0
  srbFlags := 0
  srbStatus := srbStatusPending
  scsiStatus := scsistatGood
  systemStatus := .success
  miniportContext := 0x1000
  nextSrb := 0
  pnpAction := 0
  srbPnPFlags := 0

def sampleMem (srb : Srb) : ScsiMem := ⟨fun _ => srb, fun _ => .zero⟩

def sampleCdb (op c₃ c₂ c₁ c₀ : UInt8) : Cdb :=
  ⟨#[op, 0, 0, 0, 0, 0, 0, 0, 0, 0, c₃, c₂, c₁, c₀, 0, 0], rfl⟩

/-- A READ (16) of two blocks, into 32 bytes. -/
theorem spdScsiPostRangeSrb_length_read :
    ∃ range, spdCdbGetRange (sampleCdb scsiopRead16 0 0 0 2) = some range ∧
      (LengthExact .success sampleUnit 0x2000
          (sampleMem (sampleSrb (sampleCdb scsiopRead16 0 0 0 2) (List.replicate 32 0)))
          (spdIoqCreate zeroedIoq) range.blockCount ↔
        range.blockCount.toNat * sampleUnit.blockLength.toNat < 2 ^ 32 ∨
          RefusedAnyway .success sampleUnit
            (sampleSrb (sampleCdb scsiopRead16 0 0 0 2) (List.replicate 32 0)) range
            (spdIoqCreate zeroedIoq)) :=
  spdScsiPostRangeSrb_length (a := 0x2000)
    (m := sampleMem (sampleSrb (sampleCdb scsiopRead16 0 0 0 2) (List.replicate 32 0)))
    (spdIoqCreate_refines zeroedIoq) List.not_mem_nil (show (0x1000 : Addr) ≠ 0 by decide)
    (.inl (show scsiOp (sampleCdb scsiopRead16 0 0 0 2) = .read by decide))

/-- A READ (16) of `2 ^ 28` blocks, into no bytes at all. -/
theorem spdScsiPostRangeSrb_wraps :
    ¬ sampleUnit.Invalid ∧
      scsiOp (sampleCdb scsiopRead16 0x10 0 0 0) = .read ∧
      spdCdbGetRange (sampleCdb scsiopRead16 0x10 0 0 0) = some ⟨0, 0x10000000, false⟩ ∧
      ¬ LengthExact .success sampleUnit 0x2000
          (sampleMem (sampleSrb (sampleCdb scsiopRead16 0x10 0 0 0) []))
          (spdIoqCreate zeroedIoq) 0x10000000 := by
  refine ⟨by decide, by decide, by decide, fun hexact => ?_⟩
  have hunit : InUnit sampleUnit 0 0x10000000 := by
    unfold InUnit
    decide
  obtain ⟨ioq', hpost⟩ := spdScsiPostRangeSrb_posts .success (a := 0x2000)
    (m := sampleMem (sampleSrb (sampleCdb scsiopRead16 0x10 0 0 0) []))
    (spdIoqCreate_refines zeroedIoq) rfl List.not_mem_nil (show (0x1000 : Addr) ≠ 0 by decide)
    (.inl (show scsiOp (sampleCdb scsiopRead16 0x10 0 0 0) = .read by decide))
    (show spdCdbGetRange (sampleCdb scsiopRead16 0x10 0 0 0) = some ⟨0, 0x10000000, false⟩ by
      decide)
    (by decide) (by decide) hunit (fun _ => rfl)
  have hle := (hexact _ _ hpost).1
  exact absurd hle (by decide)

end Winspd.Proofs
