import Winspd.Proofs.Abort
import Winspd.Proofs.QueueUses

/-!
# No request is touched after it has been handed back

StorPort may free or reuse an SRB and its extension once the SRB is completed.
What `SpdHwStartIo` posts, other threads complete, and they may do so before the
call returns. In the free build the call does nothing with the SRB any more, but
a checked build may still log it. The other exception is the abort, which is
completed by the cancel it asks for, and once more by `SpdHwStartIo`.

`CallSys` is a unit with the calls that have posted their SRB and have not
returned, however many. They return at any time.
-/

namespace Winspd.Proofs

open Winspd.Lib Winspd.Sys Winspd.Spec

variable {own : List Item} {us us' : List SrbUse} {touched : Option (List SrbUse)} {a : Addr}
  {calls : List IoqCall}

/-! ## SpdHwStartIo -/

section StartIo

variable {storResult : StorStatus} {disk : Disk} {m m' : ScsiMem} {ioq ioq' : SpdIoq} {q : Queue}
  {status : UInt8}

/-- An abort for a unit whose queue runs. The cancel is for the abort itself. -/
def CancelsItself (disk : Disk) (ioq : SpdIoq) (srb : Srb) : Prop :=
  srb.function = srbFunctionAbortCommand ∧ disk.reference srb ≠ none ∧ ioq.stopped = false

/-- What is touched is owned, and then the requests of the queue are completed, if
it is reset. -/
def SwitchOk (own : List Item) (q : Queue) (touched : Option (List SrbUse))
    (calls : List IoqCall) : Prop :=
  ∃ us is, touched = some (us ++ is.flatMap abortUses) ∧ (∀ u ∈ us, UseOf own u) ∧
    (is = [] ∨ is = q.items) ∧ calls.filterMap completedSrb = is.map Item.srb

theorem switchOk_quiet (h : ∀ u ∈ us, UseOf own u) : SwitchOk own q (some us) [] :=
  ⟨us, [], by rw [List.flatMap_nil, List.append_nil], h, .inl rfl, rfl⟩

theorem resetQueue_switchOk (hr : Refines ioq q) (ha : a ∈ own.map Item.srb)
    (h : resetQueue m ioq = some (status, m', ioq', calls)) :
    SwitchOk own q ((spdIoqResetUses ioq).map (.srb a :: ·)) calls := by
  unfold resetQueue at h
  simp only [Option.bind_eq_bind, Option.bind_eq_some_iff] at h
  obtain ⟨⟨ioq₁, calls₁⟩, hreset, h⟩ := h
  cases h
  obtain ⟨is, his, huses, hcalls⟩ := spdIoqReset_uses hr hreset
  exact ⟨[.srb a], is, by rw [huses]; rfl, List.forall_mem_singleton.mpr ha, his, hcalls⟩

theorem spdSrbExecuteScsi_switchOk (posted : Bool) {srb : Srb} (hr : Refines ioq q)
    (hown : q.items ⊆ own) (hfresh : srb.miniportContext ∉ q.items.map Item.ext)
    (hi : ⟨srb.miniportContext, a⟩ ∈ own) :
    SwitchOk own q (spdSrbExecuteScsiUses posted a srb ioq) [] := by
  have hself : ∀ u ∈ [SrbUse.srb a, .ext srb.miniportContext], UseOf own u :=
    List.forall_mem_cons.mpr
      ⟨List.mem_map_of_mem hi, List.forall_mem_singleton.mpr (List.mem_map_of_mem hi)⟩
  cases posted with
  | false => exact switchOk_quiet hself
  | true =>
      obtain ⟨us, hus, hof⟩ := spdIoqPostSrb_uses (hr.zeroExtension hfresh) hown hi
      rw [spdSrbExecuteScsiUses, if_pos rfl, hus]
      exact switchOk_quiet (List.forall_mem_append.mpr ⟨hself, hof⟩)

theorem startIoDispatch_switchOk (posted : Bool) (hr : Refines ioq q) (hown : q.items ⊆ own)
    (hfresh : (m.srb a).miniportContext ∉ q.items.map Item.ext)
    (hi : ⟨(m.srb a).miniportContext, a⟩ ∈ own) (hself : ¬ CancelsItself disk ioq (m.srb a))
    (h : startIoDispatch storResult disk a m ioq = some (status, m', ioq', calls)) :
    SwitchOk own q (startIoDispatchUses posted disk a m ioq) calls := by
  have ha : a ∈ own.map Item.srb := List.mem_map_of_mem hi
  have hquiet : SwitchOk own q (some [.srb a]) [] :=
    switchOk_quiet (List.forall_mem_singleton.mpr ha)
  unfold startIoDispatch at h
  unfold startIoDispatchUses
  simp only at h ⊢
  by_cases hexecute : (m.srb a).function = srbFunctionExecuteScsi
  · rw [if_pos hexecute] at h ⊢
    simp only [Option.bind_eq_bind, Option.bind_eq_some_iff] at h
    obtain ⟨r, -, h⟩ := h
    cases h
    exact spdSrbExecuteScsi_switchOk posted hr hown hfresh hi
  rw [if_neg hexecute] at h ⊢
  by_cases habort : (m.srb a).function = srbFunctionAbortCommand
  · rw [if_pos habort] at h ⊢
    unfold spdSrbAbortCommand at h
    cases href : disk.reference (m.srb a) with
    | none =>
        rw [href] at h
        cases h
        exact hquiet
    | some unit =>
        have hst : ioq.stopped = true := by
          by_contra hst
          exact hself ⟨habort, by rw [href]; exact Option.some_ne_none _, by simpa using hst⟩
        rw [href] at h
        simp only [spdIoqCancelSrb, if_pos hst, Option.bind_eq_bind, Option.bind_some] at h
        cases h
        simp only [spdIoqCancelSrbUses, if_pos hst, Option.map_some]
        exact hquiet
  rw [if_neg habort] at h ⊢
  by_cases hbus : (m.srb a).function = srbFunctionResetBus
  · rw [if_pos hbus] at h ⊢
    unfold spdSrbResetBus at h
    split at h
    · next hpath =>
        cases h
        rw [if_pos hpath]
        exact hquiet
    · next hpath =>
        rw [if_neg hpath]
        exact resetQueue_switchOk hr ha h
  rw [if_neg hbus] at h ⊢
  by_cases hdevice : (m.srb a).function = srbFunctionResetDevice
  · rw [if_pos hdevice] at h ⊢
    unfold spdSrbResetDevice at h
    simp only at h
    cases href : disk.referenceByBtl
        (spdIoctlBtl (m.srb a).pathId.toUInt32 (m.srb a).targetId.toUInt32 0) with
    | none =>
        rw [href] at h
        cases h
        exact hquiet
    | some unit =>
        rw [href] at h
        exact resetQueue_switchOk hr ha h
  rw [if_neg hdevice] at h ⊢
  by_cases hlun : (m.srb a).function = srbFunctionResetLogicalUnit
  · rw [if_pos hlun] at h ⊢
    unfold spdSrbResetLogicalUnit at h
    cases href : disk.reference (m.srb a) with
    | none =>
        rw [href] at h
        cases h
        exact hquiet
    | some unit =>
        rw [href] at h
        exact resetQueue_switchOk hr ha h
  rw [if_neg hlun] at h ⊢
  -- the rest only looks at the SRB
  split at h
  · cases h
    exact hquiet
  · split at h
    · cases h
      exact hquiet
    · split at h
      · simp only [Option.bind_eq_bind, Option.bind_eq_some_iff] at h
        obtain ⟨r, -, h⟩ := h
        cases h
        exact hquiet
      · split at h
        · cases h
          exact hquiet
        · cases h
          exact hquiet

theorem spdHwStartIo_uses (hr : Refines ioq q) (hnd : (q.items.map Item.srb).Nodup)
    (hown : q.items ⊆ own)
    (hfresh : ∀ j ∈ q.items, j.srb ≠ a ∧ j.ext ≠ (m.srb a).miniportContext)
    (hi : ⟨(m.srb a).miniportContext, a⟩ ∈ own) (hself : ¬ CancelsItself disk ioq (m.srb a))
    (h : spdHwStartIo storResult disk a m ioq = some (m', ioq', calls)) :
    UsesOk own (spdHwStartIoUses storResult disk a m ioq) calls := by
  have hext : (m.srb a).miniportContext ∉ q.items.map Item.ext := by
    intro hmem
    obtain ⟨j, hj, hje⟩ := List.mem_map.mp hmem
    exact (hfresh j hj).2 hje
  unfold spdHwStartIo at h
  simp only [Option.bind_eq_bind, Option.bind_eq_some_iff] at h
  obtain ⟨⟨status, m₁, ioq₁, calls₁⟩, hdispatch, h⟩ := h
  obtain ⟨us, is, huses, hof, his, hcalls⟩ := startIoDispatch_switchOk
    (srbStatus status = srbStatusPending) hr hown hext hi hself hdispatch
  have hsub : is ⊆ own := by
    rcases his with rfl | rfl
    · exact List.nil_subset _
    · exact hown
  have hisnd : (is.map Item.srb).Nodup := by
    rcases his with rfl | rfl
    · exact List.nodup_nil
    · exact hnd
  have hnot : a ∉ is.map Item.srb := by
    intro hmem
    obtain ⟨j, hj, hja⟩ := List.mem_map.mp hmem
    rcases his with rfl | rfl
    · cases hj
    · exact (hfresh j hj).1 hja
  simp only [spdHwStartIoUses, hdispatch, huses, Option.bind_eq_bind, Option.bind_some] at h ⊢
  split at h
  · next hposted =>
      cases h
      rw [if_pos hposted]
      refine ⟨_, rfl, (owned_append hof).mpr ?_, ?_⟩
      · have howned : Owned own (is.flatMap abortUses ++ []) := owned_abortUses hsub hisnd trivial
        rwa [List.append_nil] at howned
      · rw [List.filterMap_append, completed_of_uses hof, completed_abortUses, hcalls,
          List.nil_append]
  · next hposted =>
      cases h
      rw [if_neg hposted]
      refine ⟨_, rfl, ?_, ?_⟩
      · rw [List.append_assoc]
        refine (owned_append hof).mpr (owned_abortUses hsub hisnd (owned_spdSrbComplete ?_))
        exact List.mem_map.mpr ⟨_, List.mem_filter.mpr ⟨hi, decide_eq_true hnot⟩, rfl⟩
      · rw [List.filterMap_append, List.filterMap_append, List.filterMap_append,
          completed_of_uses hof, completed_abortUses, hcalls, List.nil_append]
        rfl

theorem spdHwStartIo_cancelsItself (hr : Refines ioq q) (hself : CancelsItself disk ioq (m.srb a))
    (h : spdHwStartIo storResult disk a m ioq = some (m', ioq', calls)) :
    ∃ us, spdHwStartIoUses storResult disk a m ioq =
        some (us ++ .complete a :: .srb a :: [.complete a]) ∧
      us.filterMap completedUse = [] ∧ calls.filterMap completedSrb = [a, a] := by
  obtain ⟨hfun, href, hst⟩ := hself
  obtain ⟨unit, href⟩ := Option.ne_none_iff_exists'.mp href
  have hexecute : ¬ (m.srb a).function = srbFunctionExecuteScsi := by
    rw [hfun]
    decide
  have hdispatch : startIoDispatch storResult disk a m ioq = spdSrbAbortCommand disk a m ioq := by
    rw [startIoDispatch]
    simp only [if_neg hexecute, if_pos hfun]
  unfold spdHwStartIo at h
  rw [hdispatch] at h
  simp only [Option.bind_eq_bind, Option.bind_eq_some_iff] at h
  obtain ⟨⟨status, m₁, ioq₁, calls₁⟩, habort, h⟩ := h
  have hcancel := habort
  unfold spdSrbAbortCommand at hcancel
  rw [href] at hcancel
  simp only [Option.bind_eq_bind, Option.bind_eq_some_iff] at hcancel
  obtain ⟨⟨ioq₂, calls₂, result⟩, hcancel, heq⟩ := hcancel
  obtain ⟨searched, removed, huses, -, -, rfl, rfl⟩ := spdIoqCancelSrb_uses hr hst hcancel
  have hdone : ¬ srbStatus srbStatusSuccess = srbStatusPending := by decide
  simp only [ntSuccess, if_true] at heq
  cases heq
  rw [if_neg hdone] at h
  cases h
  have hswitch : ∀ posted, startIoDispatchUses posted disk a m ioq =
      some (.srb a :: (.srb a :: .ext (m.srb a).miniportContext :: searched.map .ext ++
        entryUses removed ++ [.ext (m.srb a).miniportContext] ++ spdSrbCompleteUses a)) := by
    intro posted
    rw [startIoDispatchUses]
    simp only [if_neg hexecute, if_pos hfun, href, huses, Option.map_some]
  refine ⟨.srb a :: (.srb a :: .ext (m.srb a).miniportContext :: searched.map .ext ++
    entryUses removed ++ [.ext (m.srb a).miniportContext, .srb a]), ?_, ?_, rfl⟩
  · rw [spdHwStartIoUses, hdispatch, habort]
    simp only [hswitch, Option.bind_eq_bind, Option.bind_some]
    rw [if_neg hdone]
    simp [spdSrbCompleteUses]
  · show (searched.map SrbUse.ext ++ entryUses removed ++
      [SrbUse.ext (m.srb a).miniportContext, .srb a]).filterMap completedUse = []
    rw [List.filterMap_append, List.filterMap_append, completed_ext, entryUses, completed_ext]
    rfl

end StartIo

/-! ## The unit, with the calls that have not returned -/

/-- A call of `SpdHwStartIo` that has posted its SRB. -/
structure PostedCall where
  item : Item
  /-- The SRB was not completed since. -/
  owned : Bool
  deriving DecidableEq, Repr

def PostedCall.after (completed : List Addr) (c : PostedCall) : PostedCall :=
  { c with owned := c.owned && c.item.srb ∉ completed }

structure CallSys where
  unit : UnitSys
  calls : List PostedCall

def CallSys.create (mem : ScsiMem) (ioqMem : SpdIoq) : CallSys := ⟨.create mem ioqMem, []⟩

/-- A step of the unit, or the rest of a call of `SpdHwStartIo` that has posted its
SRB. `dpSrb` is the bit of `spd_debug` then. -/
inductive CallEvent
  | unit (ev : UnitEvent)
  | returns (c : PostedCall) (dpSrb : Bool)

def UnitEvent.posted (ev : UnitEvent) : List PostedCall :=
  (ev.arrived.filter fun i => i.srb ∉ ev.completed).map (⟨·, true⟩)

/-- Any number of calls are under way at a time, each on its own processor. What a
call does before its SRB is in the queue, or when it completes its SRB itself, only
concerns that SRB, so that it is one step. -/
inductive CallStep (disk : Disk) : CallSys → CallEvent → CallSys → Prop
  | unit {s : CallSys} {ev : UnitEvent} {unit : UnitSys} (h : UnitStep disk s.unit ev unit) :
      CallStep disk s (.unit ev) ⟨unit, s.calls.map (.after ev.completed) ++ ev.posted⟩
  | returns {s : CallSys} {c : PostedCall} {dpSrb : Bool} (h : c ∈ s.calls) :
      CallStep disk s (.returns c dpSrb) ⟨s.unit, s.calls.erase c⟩

def UnitOp.uses (dbg : Bool) (disk : Disk) (m : ScsiMem) (ioq : SpdIoq) :
    UnitOp → Option (List SrbUse)
  | .startIo a srb storResult => spdHwStartIoUses storResult disk a (m.setSrb a srb) ioq
  | .transactReq _ => spdIoqStartProcessingSrbUses dbg ioq
  | .transactRsp rsp dataBuffer =>
      spdIoqEndProcessingSrbUses (spdSrbExecuteScsiComplete rsp dataBuffer) ioq m rsp.hint
  | .cancel i => spdIoqCancelSrbUses ioq i.srb i.ext
  | .reset _ => spdIoqResetUses ioq

/-- No SRB and no extension is touched after the SRB was completed. The request
that arrives is owned from then on. -/
def NoLateUse (dbg : Bool) (disk : Disk) (s : CallSys) : CallEvent → Prop
  | .unit ev => ∃ us, ev.op.uses dbg disk s.unit.mem s.unit.ioq = some us ∧
      Owned (s.unit.live ++ ev.arrived) us
  | .returns c dpSrb => Owned (if c.owned then s.unit.live else [])
      (spdHwStartIoLogUses dbg dpSrb c.item.srb)

/-- The operation is not an abort that is completed by its own cancel. -/
def UnitOp.CompletesOnce (disk : Disk) (ioq : SpdIoq) : UnitOp → Prop
  | .startIo _ srb _ => ¬ CancelsItself disk ioq srb
  | _ => True

/-- No abort cancels itself, and nothing is logged of an SRB that was completed
before its call returned. -/
def HandsBackLast (dbg : Bool) (disk : Disk) (s : CallSys) : CallEvent → Prop
  | .unit ev => ev.op.CompletesOnce disk s.unit.ioq
  | .returns c dpSrb => dbg = true → dpSrb = true → c.owned = true

section Calls

variable {dbg : Bool} {disk : Disk} {s s' : UnitSys} {c c' : CallSys} {q : Queue}
  {ev : UnitEvent} {cev : CallEvent} {ls : List CallEvent} {mem : ScsiMem} {ioqMem : SpdIoq}

theorem UsesOk.use (h : UsesOk own touched ev.calls) {P : Prop} (hp : P) :
    ∃ us, touched = some us ∧ us.filterMap completedUse = ev.completed ∧
      (Owned own us ↔ P) := by
  obtain ⟨us, hus, howned, hcompleted⟩ := h
  exact ⟨us, hus, hcompleted, iff_of_true howned hp⟩

theorem unit_uses (dbg : Bool) (hg : UnitGood s q) (h : UnitStep disk s ev s') :
    ∃ us, ev.op.uses dbg disk s.mem s.ioq = some us ∧
      us.filterMap completedUse = ev.completed ∧
      (Owned (s.live ++ ev.arrived) us ↔ ev.op.CompletesOnce disk s.ioq) := by
  have hallowed := h.allowed
  have hexec := h.exec
  have hown : q.items ⊆ s.live ++ ev.arrived := fun i hi =>
    List.mem_append_left _ (hg.items.mem_iff.mp hi)
  have hr := hg.refines
  cases hop : ev.op with
  | startIo a srb storResult =>
      rw [hop] at hallowed hexec
      simp only [UnitOp.exec, Option.map_eq_some_iff, Prod.mk.injEq, Prod.exists] at hexec
      obtain ⟨m', ioq', calls', hstart, -, -, rfl, -⟩ := hexec
      have hself : (s.mem.setSrb a srb).srb a = srb := Function.update_self _ _ _
      by_cases hcancels : CancelsItself disk s.ioq srb
      · obtain ⟨us, hus, hnone, hcalls⟩ :=
          spdHwStartIo_cancelsItself hr (by rwa [hself]) hstart
        refine ⟨_, hus, ?_, iff_of_false not_owned_again fun honce => honce hcancels⟩
        rw [List.filterMap_append, hnone, UnitEvent.completed, hcalls]
        rfl
      · refine (spdHwStartIo_uses hr hg.srb_nodup hown ?_ ?_ ?_ hstart).use hcancels
        · rw [hself]
          exact fun j hj => hallowed.2.2.1 j (hg.items.mem_iff.mp hj)
        · rw [hself, UnitEvent.arrived, hop]
          exact List.mem_append_right _ (List.mem_singleton_self _)
        · rwa [hself]
  | transactReq buf =>
      rw [hop] at hexec
      simp only [UnitOp.exec, Option.map_eq_some_iff, Prod.mk.injEq, Prod.exists] at hexec
      obtain ⟨ioq', t, calls', status, hstart, -, -, rfl, -⟩ := hexec
      have hagree := spdIoqStartProcessingSrb_agree hr spdSrbExecuteScsiPrepare
        ⟨s.mem, .zero, buf⟩
      rw [hstart] at hagree
      obtain ⟨q', hspec, -⟩ := hagree.of_some
      have hcalls : ev.calls.filterMap completedSrb = [] := by
        obtain ⟨-, -, -, hcalls, -⟩ | ⟨-, -, -, -, hcalls, -⟩ | ⟨i, rest, -, -, -, -,
            hcalls, -⟩ :=
          Queue.start_cases hspec
        all_goals
          rw [hcalls]
          rfl
      obtain ⟨us, hus, hof⟩ := spdIoqStartProcessingSrb_uses dbg hr hown
      rw [UnitOp.uses, hus]
      exact (usesOk_of_uses hof hcalls).use trivial
  | transactRsp rsp buf =>
      rw [hop] at hexec
      simp only [UnitOp.exec, Option.map_eq_some_iff, Prod.mk.injEq, Prod.exists] at hexec
      obtain ⟨ioq', w, calls', hend, -, -, rfl, -⟩ := hexec
      exact (spdIoqEndProcessingSrb_uses hr hown hend).use trivial
  | cancel i =>
      rw [hop] at hallowed hexec
      simp only [UnitOp.exec, Option.map_eq_some_iff, Prod.mk.injEq, Prod.exists] at hexec
      obtain ⟨ioq', calls', status, hcancel, -, -, rfl, -⟩ := hexec
      exact (spdIoqCancelSrb_queued hr hown (hg.items.mem_iff.mpr hallowed) hcancel).use trivial
  | reset stop =>
      rw [hop] at hexec
      simp only [UnitOp.exec, Option.map_eq_some_iff, Prod.mk.injEq, Prod.exists] at hexec
      obtain ⟨ioq', calls', hreset, -, -, rfl, -⟩ := hexec
      obtain ⟨is, his, huses, hcalls⟩ := spdIoqReset_uses hr hreset
      have howned : Owned (s.live ++ ev.arrived) (is.flatMap abortUses ++ []) := by
        rcases his with rfl | rfl
        · exact trivial
        · exact owned_abortUses hown hg.srb_nodup trivial
      rw [List.append_nil] at howned
      exact ⟨_, huses, by rw [completed_abortUses, UnitEvent.completed, hcalls],
        iff_of_true howned trivial⟩

/-- What every reachable state satisfies: the SRB of a call that has posted it is
in the queue until it is completed. -/
structure CallInv (c : CallSys) (q : Queue) : Prop where
  good : UnitGood c.unit q
  owned : ∀ call ∈ c.calls, call.owned = true → call.item ∈ c.unit.live

theorem CallInv.step (hinv : CallInv c q) (h : CallStep disk c cev c') :
    ∃ q', CallInv c' q' := by
  cases h with
  | @unit ev unit hunit =>
      obtain ⟨q', hg', -⟩ := hinv.good.step hunit
      refine ⟨q', hg', fun call hcall howned => ?_⟩
      rw [hunit.live]
      rcases List.mem_append.mp hcall with hcall | hcall
      · obtain ⟨before, hbefore, rfl⟩ := List.mem_map.mp hcall
        obtain ⟨howned, hkept⟩ := Bool.and_eq_true_iff.mp howned
        exact List.mem_filter.mpr
          ⟨List.mem_append_left _ (hinv.owned before hbefore howned), hkept⟩
      · obtain ⟨i, hi, rfl⟩ := List.mem_map.mp hcall
        obtain ⟨harrived, hkept⟩ := List.mem_filter.mp hi
        exact List.mem_filter.mpr ⟨List.mem_append_right _ harrived, hkept⟩
  | returns _ =>
      exact ⟨q, hinv.good, fun call hcall => hinv.owned call (List.mem_of_mem_erase hcall)⟩

theorem callRun_inv (hrun : Run (CallStep disk) (.create mem ioqMem) ls c) :
    ∃ q, CallInv c q :=
  hrun.inv (I := fun c => ∃ q, CallInv c q)
    ⟨.empty, unitGood_create mem ioqMem, fun call hcall => by cases hcall⟩
    fun ⟨_, hinv⟩ h => hinv.step h

theorem CallInv.returns {call : PostedCall} {dpSrb : Bool} (hinv : CallInv c q)
    (hcall : call ∈ c.calls) :
    NoLateUse dbg disk c (.returns call dpSrb) ↔
    HandsBackLast dbg disk c (.returns call dpSrb) := by
  cases dbg with
  | false => exact iff_of_true trivial fun hdbg => absurd hdbg Bool.false_ne_true
  | true =>
      cases dpSrb with
      | false => exact iff_of_true trivial fun _ hdp => absurd hdp Bool.false_ne_true
      | true =>
          cases howned : call.owned with
          | false =>
              refine iff_of_false (fun h => ?_) fun h => ?_
              · simp only [NoLateUse, howned] at h
                exact List.not_mem_nil h.1
              · rw [h rfl rfl] at howned
                cases howned
          | true =>
              refine iff_of_true ?_ fun _ _ => howned
              simp only [NoLateUse, howned]
              exact ⟨List.mem_map_of_mem (hinv.owned call hcall howned), trivial⟩

/-- In every run, whatever the interleaving, a step completes what is listed, and
touches no request that has been handed back, unless it is an abort or the log of
a call whose SRB was completed before the call returned. -/
theorem requests_handed_back (hrun : Run (CallStep disk) (.create mem ioqMem) ls c)
    (hstep : CallStep disk c cev c') :
    (∀ ev, cev = .unit ev → ∃ us, ev.op.uses dbg disk c.unit.mem c.unit.ioq = some us ∧
      us.filterMap completedUse = ev.completed) ∧
    (NoLateUse dbg disk c cev ↔ HandsBackLast dbg disk c cev) := by
  obtain ⟨q, hinv⟩ := callRun_inv hrun
  cases hstep with
  | unit h =>
      obtain ⟨us, hus, hcompleted, howned⟩ := unit_uses dbg hinv.good h
      refine ⟨fun ev hev => ?_, fun hlate => ?_, fun honce => ⟨us, hus, howned.mpr honce⟩⟩
      · cases hev
        exact ⟨us, hus, hcompleted⟩
      · obtain ⟨us', hus', howned'⟩ := hlate
        obtain rfl : us = us' := Option.some.inj (hus.symm.trans hus')
        exact howned.mp howned'
  | returns hcall => exact ⟨fun ev hev => (by cases hev), hinv.returns hcall⟩

end Calls

/-! ## A read of three blocks, and an abort -/

theorem sampleRead_posted :
    ∃ m ioq ioq', CallStep sampleDisk (.create (sampleMem sampleRead) zeroedIoq)
        (.unit ⟨.startIo 0x2000 sampleRead .success, [], none⟩)
        ⟨⟨m, ioq, [⟨0x1000, 0x2000⟩]⟩, [⟨⟨0x1000, 0x2000⟩, true⟩]⟩ ∧
      CallStep sampleDisk ⟨⟨m, ioq, [⟨0x1000, 0x2000⟩]⟩,
        [⟨⟨0x1000, 0x2000⟩, true⟩]⟩
        (.unit ⟨.reset false, [.srbComplete 0x2000 srbStatusAborted], none⟩)
        ⟨⟨m, ioq', []⟩, [⟨⟨0x1000, 0x2000⟩, false⟩]⟩ := by
  obtain ⟨r₁, r₂, h₁, h₂, hr₁, hr₂⟩ : ∃ r₁ r₂,
      UnitOp.exec sampleDisk (sampleMem sampleRead) (spdIoqCreate zeroedIoq)
        (.startIo 0x2000 sampleRead .success) = some r₁ ∧
      UnitOp.exec sampleDisk r₁.1 r₁.2.1 (.reset false) = some (r₁.1, r₂) ∧
      r₁.2.2 = ([], none) ∧ r₂.2 = ([.srbComplete 0x2000 srbStatusAborted], none) :=
    ⟨_, _, rfl, rfl, rfl, rfl⟩
  obtain ⟨m, ioq, c₁, n₁⟩ := r₁
  obtain ⟨ioq', c₂, n₂⟩ := r₂
  cases hr₁
  cases hr₂
  have hpost : UnitStep sampleDisk (.create (sampleMem sampleRead) zeroedIoq)
      ⟨.startIo 0x2000 sampleRead .success, [], none⟩ ⟨m, ioq, [⟨0x1000, 0x2000⟩]⟩ :=
    ⟨⟨by decide, by decide, fun j hj => (by cases hj), sampleRead_mapped⟩, h₁, rfl⟩
  have hreset : UnitStep sampleDisk ⟨m, ioq, [⟨0x1000, 0x2000⟩]⟩
      ⟨.reset false, [.srbComplete 0x2000 srbStatusAborted], none⟩ ⟨m, ioq', []⟩ :=
    ⟨trivial, h₂, rfl⟩
  exact ⟨m, ioq, ioq', .unit hpost, .unit hreset⟩

/-- Its call returns with the read still queued, and logs it. -/
theorem requests_handed_back_queued :
    ∃ c c', Run (CallStep sampleDisk) (.create (sampleMem sampleRead) zeroedIoq)
        [.unit ⟨.startIo 0x2000 sampleRead .success, [], none⟩] c ∧
      CallStep sampleDisk c (.returns ⟨⟨0x1000, 0x2000⟩, true⟩ true) c' ∧
      (NoLateUse true sampleDisk c (.returns ⟨⟨0x1000, 0x2000⟩, true⟩ true) ↔
        HandsBackLast true sampleDisk c (.returns ⟨⟨0x1000, 0x2000⟩, true⟩ true)) ∧
      HandsBackLast true sampleDisk c (.returns ⟨⟨0x1000, 0x2000⟩, true⟩ true) := by
  obtain ⟨m, ioq, ioq', hpost, -⟩ := sampleRead_posted
  have hrun := Run.single hpost
  have hreturn :
      CallStep sampleDisk ⟨⟨m, ioq, [⟨0x1000, 0x2000⟩]⟩,
        [⟨⟨0x1000, 0x2000⟩, true⟩]⟩
      (.returns ⟨⟨0x1000, 0x2000⟩, true⟩ true) _ := .returns (List.mem_singleton_self _)
  exact ⟨_, _, hrun, hreturn, (requests_handed_back hrun hreturn).2, fun _ _ => rfl⟩

/-- After the reset the log reads an SRB that StorPort has back. In the free build
an abort is completed by its cancel, and then by `SpdHwStartIo`. -/
theorem requests_touched_late :
    (∃ c c', Run (CallStep sampleDisk) (.create (sampleMem sampleRead) zeroedIoq)
        [.unit ⟨.startIo 0x2000 sampleRead .success, [], none⟩,
          .unit ⟨.reset false, [.srbComplete 0x2000 srbStatusAborted], none⟩] c ∧
      CallStep sampleDisk c (.returns ⟨⟨0x1000, 0x2000⟩, false⟩ true) c' ∧
      ¬ NoLateUse true sampleDisk c (.returns ⟨⟨0x1000, 0x2000⟩, false⟩ true)) ∧
    ∃ ev c', CallStep sampleDisk (.create (sampleMem sampleRead) selfLinkedIoq) (.unit ev) c' ∧
      ev.op = .startIo 0x3000 sampleAbort .success ∧ ev.completed = [0x3000, 0x3000] ∧
      ¬ NoLateUse false sampleDisk (.create (sampleMem sampleRead) selfLinkedIoq) (.unit ev) := by
  constructor
  · obtain ⟨m, ioq, ioq', hpost, hreset⟩ := sampleRead_posted
    refine ⟨_, _, (Run.single hpost).snoc hreset, .returns (List.mem_singleton_self _), ?_⟩
    exact fun h => List.not_mem_nil h.1
  · obtain ⟨r, h, hr⟩ : ∃ r,
        UnitOp.exec sampleDisk (sampleMem sampleRead) (spdIoqCreate selfLinkedIoq)
          (.startIo 0x3000 sampleAbort .success) = some r ∧
        r.2.2 = ([.srbComplete 0x3000 srbStatusAborted, .srbComplete 0x3000 srbStatusSuccess],
          none) := ⟨_, rfl, rfl⟩
    obtain ⟨m, ioq, c, n⟩ := r
    cases hr
    have hstep : UnitStep sampleDisk (.create (sampleMem sampleRead) selfLinkedIoq)
        ⟨.startIo 0x3000 sampleAbort .success, [.srbComplete 0x3000 srbStatusAborted,
          .srbComplete 0x3000 srbStatusSuccess], none⟩ ⟨m, ioq, []⟩ :=
      ⟨⟨by decide, by decide, fun j hj => (by cases hj), sampleAbort_allowed.2.2.2⟩, h, rfl⟩
    refine ⟨_, _, .unit hstep, rfl, rfl, fun hlate => ?_⟩
    obtain ⟨us, hus, howned⟩ := hlate
    obtain ⟨us', hus', -, honce⟩ := unit_uses false
      (unitGood_create (sampleMem sampleRead) selfLinkedIoq) hstep
    obtain rfl : us = us' := Option.some.inj (hus.symm.trans hus')
    exact honce.mp howned ⟨rfl, by decide, rfl⟩

end Winspd.Proofs
