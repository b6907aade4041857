import Winspd.Proofs.IoqRun
import Winspd.Proofs.Posting

/-!
# What StartIo does

`SpdHwStartIo` either posts its SRB or completes it before it returns, and
when it completes it, what it can do to the queue is take items out, all of
them for a reset and none otherwise (`spdHwStartIo_cases`). The memory of the
queued SRBs is left alone in both cases, for StorPort hands over an SRB that
shares nothing with them.
-/

namespace Winspd.Proofs

open Winspd.Lib Winspd.Sys Winspd.Spec
open scoped List

variable {storResult : StorStatus} {disk : Disk} {a e : Addr} {m m' : ScsiMem}
  {ioq ioq' : SpdIoq} {q q' : Queue} {calls : List IoqCall} {srb srb' : Srb} {status : UInt8}
  {i : Item} {done : List Item}

/-! ## Answers made at once -/

theorem putPage_status {page : List UInt8} (h : putPage srb page = some (status, srb')) :
    srbStatus status ≠ srbStatusPending := by
  unfold putPage at h
  split at h
  · cases h
    decide
  · simp only [Option.bind_eq_bind, Option.bind_eq_some_iff] at h
    obtain ⟨buf, -, buf', -, h⟩ := h
    cases h
    decide

theorem spdScsiError_status {senseKey asc : UInt8}
    (h : spdScsiError srb senseKey asc = some (status, srb')) :
    srbStatus status ≠ srbStatusPending := by
  rw [spdScsiErrorEx_status h]
  decide

theorem withZeroedBuffer_status {rest : Srb → Option (UInt8 × Srb)}
    (hrest : ∀ {srb status srb'}, rest srb = some (status, srb') →
      srbStatus status ≠ srbStatusPending)
    (h : withZeroedBuffer srb rest = some (status, srb')) :
      srbStatus status ≠ srbStatusPending := by
  unfold withZeroedBuffer at h
  split at h
  · cases h
    decide
  · simp only [Option.bind_eq_bind, Option.bind_eq_some_iff] at h
    obtain ⟨buf, -, h⟩ := h
    exact hrest h

theorem spdScsiReportLuns_status {storageUnit : Option SpdStorageUnit}
    (h : spdScsiReportLuns storageUnit srb = some (status, srb')) :
    srbStatus status ≠ srbStatusPending :=
  withZeroedBuffer_status putPage_status h

theorem spdScsiInquiry_status {unit : SpdStorageUnit}
    (h : spdScsiInquiry unit srb = some (status, srb')) :
    srbStatus status ≠ srbStatusPending := by
  refine withZeroedBuffer_status (fun h => ?_) h
  repeat' split at h
  all_goals first | exact putPage_status h | exact spdScsiError_status h | cases h

theorem spdScsiModeSense_status {unit : SpdStorageUnit}
    (h : spdScsiModeSense unit srb = some (status, srb')) :
    srbStatus status ≠ srbStatusPending := by
  unfold spdScsiModeSense at h
  refine withZeroedBuffer_status (fun h => ?_) h
  simp only at h
  repeat' split at h
  all_goals first | exact putPage_status h | exact spdScsiError_status h

theorem spdScsiReadCapacity_status {unit : SpdStorageUnit}
    (h : spdScsiReadCapacity unit srb = some (status, srb')) :
    srbStatus status ≠ srbStatusPending := by
  unfold spdScsiReadCapacity at h
  refine withZeroedBuffer_status (fun h => ?_) h
  repeat' split at h
  all_goals exact putPage_status h

theorem spdSrbPnp_status (h : spdSrbPnp srb = some (status, srb')) :
    srbStatus status ≠ srbStatusPending := by
  unfold spdSrbPnp at h
  split at h
  · split at h
    · cases h
      decide
    · split at h
      · cases h
        decide
      · simp only [Option.bind_eq_bind, Option.bind_eq_some_iff] at h
        obtain ⟨bits, -, buf, -, h⟩ := h
        cases h
        decide
  · cases h
    decide

/-- An SRB is posted or answered. Only the four kinds of command with a request
for user mode are posted. -/
theorem spdSrbExecuteScsi_cases {storageUnit : Option SpdStorageUnit} {r : ScsiResult}
    (h : spdSrbExecuteScsi storResult storageUnit a m ioq = some r) :
    (∃ unit dataLength, storageUnit = some unit ∧
      PostOk unit.storageUnitParams (m.srb a) dataLength ∧
      Posted storResult unit.storageUnitParams a m ioq dataLength r) ∨ AtOnce a m ioq r := by
  unfold spdSrbExecuteScsi at h
  simp only at h
  split at h
  · split at h
    · exact .inr (atOnce_srb h fun _ _ => spdScsiReportLuns_status)
    · cases h
      exact .inr (atOnce_status (by decide))
  · next unit =>
      have hpost : ∀ {r}, ((∃ dataLength, PostOk unit.storageUnitParams (m.srb a) dataLength ∧
          Posted storResult unit.storageUnitParams a m ioq dataLength r) ∨ AtOnce a m ioq r) →
          (∃ unit' dataLength, some unit = some unit' ∧
            PostOk unit'.storageUnitParams (m.srb a) dataLength ∧
            Posted storResult unit'.storageUnitParams a m ioq dataLength r) ∨
              AtOnce a m ioq r := by
        intro r hr
        obtain ⟨dataLength, hok, hp⟩ | hr := hr
        · exact .inl ⟨unit, dataLength, rfl, hok, hp⟩
        · exact .inr hr
      split at h
      · exact .inr (atOnce_srb h fun _ _ => spdScsiReportLuns_status)
      · cases h
        exact .inr (atOnce_status (by decide))
      · exact .inr (atOnce_srb h fun _ _ => spdScsiInquiry_status)
      · exact .inr (atOnce_srb h fun _ _ => spdScsiModeSense_status)
      · exact .inr (atOnce_srb h fun _ _ => spdScsiReadCapacity_status)
      · exact hpost (spdScsiPostRangeSrb_cases h)
      · exact hpost (spdScsiPostRangeSrb_cases h)
      · exact hpost (spdScsiPostRangeSrb_cases h)
      · next hop => exact hpost (spdScsiPostUnmapSrb_cases hop h)
      · split at h
        · exact .inr (atOnce_srb h fun _ _ => spdScsiReadCapacity_status)
        · cases h
          exact .inr (atOnce_status (by decide))
      · cases h
        exact .inr (atOnce_status (by decide))

/-! ## Items taken out of the queue -/

/-- The items of `done` left the queue, and nothing else happened to it. -/
structure Removed (q q' : Queue) (done : List Item) : Prop where
  items : q.items.Perm (done ++ q'.items)
  pending : q'.pending.Sublist q.pending
  process : q'.process.Sublist q.process

/-- The completions of SRBs taken out of the queue. -/
def aborts (done : List Item) : List IoqCall :=
  done.map fun i => .srbComplete i.srb srbStatusAborted

theorem removed_nil (hp : q'.pending = q.pending) (hr : q'.process = q.process) :
    Removed q q' [] :=
  ⟨by rw [List.nil_append, Queue.items, Queue.items, hp, hr], by rw [hp], by rw [hr]⟩

theorem removed_refl : Removed q q [] := removed_nil rfl rfl

theorem removed_reset (q : Queue) (stop : Bool) :
    ∃ done, Removed q (q.reset stop).1 done ∧ (q.reset stop).2 = aborts done := by
  unfold Queue.reset
  split
  · exact ⟨[], removed_refl, rfl⟩
  · exact ⟨q.items, ⟨by simp [Queue.items], List.nil_sublist _, List.nil_sublist _⟩, rfl⟩

theorem removed_cancel (hw : Wf q) (hi : i ∈ q.items) :
    ∃ done, Removed q (q.cancel i).1 done ∧ (q.cancel i).2.1 = aborts done ∧
      done ⊆ [i] := by
  unfold Queue.cancel
  split
  · exact ⟨[], removed_refl, rfl, List.nil_subset _⟩
  · exact ⟨[i], ⟨cancel_items hw hi, List.erase_sublist, List.erase_sublist⟩, rfl,
      List.Subset.refl _⟩

/-! ## SpdHwStartIo -/

def ResetsQueue (srb : Srb) : Prop :=
  srb.function = srbFunctionResetBus ∨ srb.function = srbFunctionResetDevice ∨
    srb.function = srbFunctionResetLogicalUnit

/-- What was done for an SRB that is not posted. -/
structure NotPosted (a : Addr) (m : ScsiMem) (q : Queue) (m' : ScsiMem) (ioq' : SpdIoq)
    (calls : List IoqCall) (q' : Queue) (done : List Item) (own : List UInt8) : Prop where
  refines : Refines ioq' q'
  frame : Frame a (m.srb a).miniportContext m m'
  removed : Removed q q' done
  spares : ¬ ResetsQueue (m.srb a) → done = []
  calls : calls = aborts done ++ own.map (.srbComplete a)

theorem resetQueue_notPosted (hr : Refines ioq q) (hres : ResetsQueue (m.srb a))
    (h : resetQueue m ioq = some (status, m', ioq', calls)) :
    srbStatus status ≠ srbStatusPending ∧ ∃ q' done,
      NotPosted a m q m' ioq' calls q' done [] := by
  unfold resetQueue at h
  simp only [Option.bind_eq_bind, Option.bind_eq_some_iff] at h
  obtain ⟨⟨ioq₁, calls₁⟩, hreset, h⟩ := h
  cases h
  have hagree := spdIoqReset_agree hr false
  rw [hreset] at hagree
  obtain ⟨q₁, heq, hr'⟩ := hagree.of_some
  obtain ⟨done, hrem, hcalls⟩ := removed_reset q false
  rw [Option.some.injEq] at heq
  rw [heq] at hrem hcalls
  exact ⟨by decide, q₁, done, hr', Frame.refl, hrem, fun hno => absurd hres hno,
    by rw [List.map_nil, List.append_nil, ← hcalls]⟩

theorem notPosted_quiet (hr : Refines ioq' q) (hf : Frame a (m.srb a).miniportContext m m') :
    ∃ q' done, NotPosted a m q m' ioq' [] q' done [] :=
  ⟨q, [], hr, hf, removed_refl, fun _ => rfl, rfl⟩

theorem spdSrbAbortCommand_notPosted (hr : Refines ioq q)
    (hfresh : (m.srb a).miniportContext ∉ q.items.map Item.ext)
    (h : spdSrbAbortCommand disk a m ioq = some (status, m', ioq', calls)) :
    srbStatus status ≠ srbStatusPending ∧ ∃ q' done own,
      NotPosted a m q m' ioq' calls q' done own := by
  unfold spdSrbAbortCommand at h
  split at h
  · cases h
    obtain ⟨q', done, hq⟩ := notPosted_quiet (a := a) (m := m) hr Frame.refl
    exact ⟨by decide, q', done, [], hq⟩
  · simp only [Option.bind_eq_bind, Option.bind_eq_some_iff] at h
    obtain ⟨⟨ioq₁, calls₁, result⟩, hcancel, h⟩ := h
    simp only [Option.some.injEq, Prod.mk.injEq] at h
    obtain ⟨rfl, rfl, rfl, rfl⟩ := h
    refine ⟨by split <;> decide, ?_⟩
    have hr' := spdIoqCancelSrb_notMem hr hfresh hcancel
    have hcalls : calls₁ = [] ∨ calls₁ = [.srbComplete a srbStatusAborted] := by
      unfold spdIoqCancelSrb at hcancel
      split at hcancel
      · cases hcancel
        exact .inl rfl
      · simp only [Option.bind_eq_bind, Option.bind_eq_some_iff] at hcancel
        obtain ⟨found, -, ⟨L, b⟩, -, hcancel⟩ := hcancel
        cases hcancel
        exact .inr rfl
    rcases hcalls with rfl | rfl
    · exact ⟨q, [], [], hr', Frame.refl, removed_refl, fun _ => rfl, rfl⟩
    · exact ⟨q, [], [srbStatusAborted], hr', Frame.refl, removed_refl, fun _ => rfl, rfl⟩

/-- The first switch: an SCSI command that was posted, or an answer. -/
theorem startIoDispatch_cases (hr : Refines ioq q)
    (hfresh : (m.srb a).miniportContext ∉ q.items.map Item.ext)
    (h : startIoDispatch storResult disk a m ioq = some (status, m', ioq', calls)) :
    (∃ dataLength, PostOk disk.unit.storageUnitParams (m.srb a) dataLength ∧ calls = [] ∧
      Posted storResult disk.unit.storageUnitParams a m ioq dataLength (status, m', ioq')) ∨
    (srbStatus status ≠ srbStatusPending ∧ ∃ q' done own,
      NotPosted a m q m' ioq' calls q' done own) := by
  have hquiet : ∀ {m₁ ioq₁}, Refines ioq₁ q → Frame a (m.srb a).miniportContext m m₁ →
      ∃ q' done own, NotPosted a m q m₁ ioq₁ [] q' done own := fun hr hf =>
    let ⟨q', done, hq⟩ := notPosted_quiet hr hf
    ⟨q', done, [], hq⟩
  have hreset : ∀ {status m₁ ioq₁ calls₁}, ResetsQueue (m.srb a) →
      resetQueue m ioq = some (status, m₁, ioq₁, calls₁) →
      srbStatus status ≠ srbStatusPending ∧
        ∃ q' done own, NotPosted a m q m₁ ioq₁ calls₁ q' done own := fun hres h =>
    let ⟨hst, q', done, hq⟩ := resetQueue_notPosted hr hres h
    ⟨hst, q', done, [], hq⟩
  unfold startIoDispatch at h
  simp only at h
  split at h
  · simp only [Option.bind_eq_bind, Option.bind_eq_some_iff] at h
    obtain ⟨⟨status₁, m₁, ioq₁⟩, hexec, h⟩ := h
    cases h
    obtain ⟨unit, dataLength, hunit, hok, hp⟩ | hat := spdSrbExecuteScsi_cases hexec
    · obtain rfl : unit = disk.unit := by
        unfold Disk.reference Disk.referenceByBtl at hunit
        split at hunit
        · exact (Option.some.inj hunit).symm
        · cases hunit
      exact .inl ⟨dataLength, hok, rfl, hp⟩
    · have hr' : Refines ioq₁ q := by
        have hioq : ioq₁ = ioq ∨ ioq₁ = ioq.zeroExtension (m.srb a).miniportContext := hat.ioq
        rcases hioq with rfl | rfl
        · exact hr
        · exact hr.zeroExtension hfresh
      exact .inr ⟨hat.status, hquiet hr' hat.frame⟩
  · right
    split at h
    · exact spdSrbAbortCommand_notPosted hr hfresh h
    · split at h
      · next hfun =>
          unfold spdSrbResetBus at h
          split at h
          · cases h
            exact ⟨by decide, hquiet hr Frame.refl⟩
          · exact hreset (.inl hfun) h
      · split at h
        · next hfun =>
            unfold spdSrbResetDevice at h
            simp only at h
            split at h
            · cases h
              exact ⟨by decide, hquiet hr Frame.refl⟩
            · exact hreset (.inr (.inl hfun)) h
        · split at h
          · next hfun =>
              unfold spdSrbResetLogicalUnit at h
              split at h
              · cases h
                exact ⟨by decide, hquiet hr Frame.refl⟩
              · exact hreset (.inr (.inr hfun)) h
          · split at h
            · cases h
              exact ⟨by decide, hquiet hr Frame.refl⟩
            · split at h
              · cases h
                exact ⟨by decide, hquiet hr Frame.refl⟩
              · split at h
                · simp only [Option.bind_eq_bind, Option.bind_eq_some_iff] at h
                  obtain ⟨⟨status₁, srb₁⟩, hpnp, h⟩ := h
                  cases h
                  exact ⟨spdSrbPnp_status hpnp, hquiet hr Frame.setSrb⟩
                · split at h <;> cases h <;> exact ⟨by decide, hquiet hr Frame.refl⟩

theorem spdHwStartIo_cases (hr : Refines ioq q)
    (hfresh : (m.srb a).miniportContext ∉ q.items.map Item.ext)
    (h : spdHwStartIo storResult disk a m ioq = some (m', ioq', calls)) :
    (∃ dataLength status, PostOk disk.unit.storageUnitParams (m.srb a) dataLength ∧
      calls = [] ∧
      Posted storResult disk.unit.storageUnitParams a m ioq dataLength (status, m', ioq')) ∨
    (∃ q' done own, own ≠ [] ∧ NotPosted a m q m' ioq' calls q' done own) := by
  unfold spdHwStartIo at h
  simp only [Option.bind_eq_bind, Option.bind_eq_some_iff] at h
  obtain ⟨⟨status, m₁, ioq₁, calls₁⟩, hdispatch, h⟩ := h
  simp only at h
  obtain ⟨dataLength, hok, rfl, hp⟩ | ⟨hst, q', done, own, hans⟩ :=
    startIoDispatch_cases hr hfresh hdispatch
  · obtain rfl : status = srbStatusPending := hp.status
    rw [if_pos (by decide)] at h
    cases h
    exact .inl ⟨dataLength, _, hok, rfl, hp⟩
  · rw [if_neg hst] at h
    cases h
    refine .inr ⟨q', done, own ++ [status], by simp, hans.refines, ?_, hans.removed,
      hans.spares, ?_⟩
    · split
      · exact hans.frame.trans Frame.setSrb
      · exact hans.frame
    · rw [hans.calls, List.map_append, List.append_assoc]
      rfl

end Winspd.Proofs
