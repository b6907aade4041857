import Winspd.Proofs.IoqRun
import Winspd.Sys.IoqAssert

/-!
# The assertions of the queue

`HashNext` is not zeroed by every function that takes an extension off its hash
chain: a cancel zeroes it, an answer does not. After the last answer this does
not matter, since the extension is zeroed before it is posted again. But an
answer that returns PENDING posts the extension as it is, and the next start
asserts that its `HashNext` is null.

So the assertions hold as long as every extension that is posted again in this
way was the last one of its chain (`RepostsLast`), and the first that was not
is the one the next start finds (`spdIoq_asserts`). What carries this along a
run is `Unchained`, that no pending extension has a `HashNext`.
-/

namespace Winspd.Proofs

open Winspd.Lib Winspd.Sys Winspd.Spec

variable {q q' : Queue} {ioq ioq' : SpdIoq} {s s' : IoqSys} {ls : List IoqEvent} {mem : SpdIoq}
  {ev : IoqEvent} {op : IoqOp} {i j : Item} {e y : Addr} {calls : List IoqCall}
  {status : NtStatus}

/-! ## Checked runs -/

/-- The store a call is made on: `SpdScsiPostSrb` zeroes the extension first. -/
def IoqOp.entry (ioq : SpdIoq) : IoqOp → SpdIoq
  | .post i => ioq.zeroExtension i.ext
  | _ => ioq

def IoqOp.asserts (ioq : SpdIoq) : IoqOp → Option Bool
  | .post i => spdIoqPostSrbAsserts (ioq.zeroExtension i.ext) i.ext
  | .start => spdIoqStartProcessingSrbAsserts ioq
  | .cancel i => spdIoqCancelSrbAsserts ioq i.srb i.ext
  | _ => some true

def AssertedStep (s : IoqSys) (ev : IoqEvent) (s' : IoqSys) : Prop :=
  IoqStep ⟨ev.op.entry s.ioq, s.live⟩ ev s'

/-- If the call is an answer that returns PENDING, the extension it is for is
the last one of its hash chain. -/
def RepostsLast (s : IoqSys) (ev : IoqEvent) : Prop :=
  ∀ e, ev.op = .finish e srbStatusPending → e ∈ s.live.map Item.ext →
    s.ioq.processBuckets.next e = 0

/-- No pending extension has a `HashNext`. -/
def Unchained (ioq : SpdIoq) (q : Queue) : Prop :=
  ∀ i ∈ q.pending, ioq.processBuckets.next i.ext = 0

/-! ## `HashNext` -/

theorem Buckets.find_next {C : Chains UInt32 Addr} {hash : Addr → UInt32} {es : List Addr}
    {P : Loc UInt32 Addr} {p : Addr} (hb : Buckets C hash es)
    (h : C.find 0 e addressSpace (.head (hash e)) = some (some P)) (hy : y ∉ es) :
    (C.write P p).next y = C.next y := by
  obtain ⟨xs, ht, hmem⟩ := hb
  have hchain : Chain C.next 0 (C.read (.head (hash e))) (xs (hash e)) := ht.chain (hash e)
  rcases hchain.find_place h with rfl | ⟨z, hz, rfl⟩
  · rfl
  · have hyz : y ≠ z := by
      rintro rfl
      rw [← ht.hash_eq hz] at hz
      exact hy ((hmem y).mp hz)
    exact Function.update_of_ne hyz _ _

/-- Writing an extension's own `HashNext` somewhere does not change it. -/
theorem next_write_self {C : Chains UInt32 Addr} {P : Loc UInt32 Addr} :
    (C.write P (C.next e)).next e = C.next e := by
  cases P with
  | head b => rfl
  | next z =>
      by_cases hz : e = z
      · subst hz
        exact Function.update_self _ _ _
      · exact Function.update_of_ne hz _ _

theorem spdIoqStartProcessingSrb_next {ω : Type}
    {prepare : Addr → Addr → ω → Option ω} {w w' : ω}
    (hr : Refines ioq q) (hy : (q.pending.map Item.ext).head? ≠ some y)
    (h : spdIoqStartProcessingSrb prepare ioq w = some (ioq', w', calls, status)) :
    ioq'.processBuckets.next y = ioq.processBuckets.next y := by
  unfold spdIoqStartProcessingSrb at h
  split at h
  · cases h
    rfl
  · split at h
    · cases h
      rfl
    · simp only [Option.bind_eq_bind, Option.bind_eq_some_iff] at h
      obtain ⟨entry, hentry, ext, hext, ⟨L₁, empty⟩, -, w₁, -, L₂, -, h⟩ := h
      have hne : y ≠ ext := by
        rintro rfl
        rw [hr.lists.first.flink_head] at hentry
        cases hp : q.pending with
        | nil =>
            rw [hp] at hentry
            cases hentry
            cases hext
        | cons i rest =>
            rw [hp] at hentry hy
            cases hentry
            cases hext
            exact hy rfl
      have hpush : (ioq.processBuckets.push (ioq.bucket ext) ext).next y =
          ioq.processBuckets.next y := Function.update_of_ne hne _ _
      rw [Option.some.injEq, Prod.mk.injEq] at h
      rw [← h.1]
      split
      · exact hpush
      · exact hpush

theorem spdIoqEndProcessingSrb_next {ω : Type}
    {complete : Addr → Addr → ω → Option (UInt8 × ω)}
    {w w' : ω} (hr : Refines ioq q) (hy : y ∉ q.process.map Item.ext ∨ y = e)
    (h : spdIoqEndProcessingSrb complete ioq w e = some (ioq', w', calls)) :
    ioq'.processBuckets.next y = ioq.processBuckets.next y := by
  unfold spdIoqEndProcessingSrb at h
  split at h
  · cases h
    rfl
  · simp only [Option.bind_eq_bind, Option.bind_eq_some_iff] at h
    obtain ⟨found, hfound, h⟩ := h
    cases found with
    | none =>
        cases h
        rfl
    | some P =>
        have hwrite : (ioq.processBuckets.write P (ioq.processBuckets.next e)).next y =
            ioq.processBuckets.next y := by
          rcases hy with hy | rfl
          · exact hr.buckets.find_next hfound hy
          · exact next_write_self
        simp only [Option.bind_eq_some_iff] at h
        obtain ⟨⟨L₁, empty⟩, -, ⟨status, w₁⟩, -, h⟩ := h
        simp only at h
        split at h
        · simp only [Option.bind_eq_some_iff] at h
          obtain ⟨L₂, -, h⟩ := h
          cases h
          exact hwrite
        · cases h
          exact hwrite

theorem spdIoqCancelSrb_next {srb : Addr} (hr : Refines ioq q) (hy : y ∉ q.process.map Item.ext)
    (hnext : ioq.processBuckets.next y = 0)
    (h : spdIoqCancelSrb ioq srb e = some (ioq', calls, status)) :
    ioq'.processBuckets.next y = 0 := by
  unfold spdIoqCancelSrb at h
  split at h
  · cases h
    exact hnext
  · simp only [Option.bind_eq_bind, Option.bind_eq_some_iff] at h
    obtain ⟨found, hfound, ⟨L₁, empty⟩, -, h⟩ := h
    cases h
    cases found with
    | none => exact hnext
    | some P =>
        show Function.update (ioq.processBuckets.write P (ioq.processBuckets.next e)).next e 0 y = 0
        by_cases hye : y = e
        · rw [hye, Function.update_self]
        · rw [Function.update_of_ne hye, hr.buckets.find_next hfound hy, hnext]

theorem spdIoqReset_next {stop : Bool} (h : spdIoqReset ioq stop = some (ioq', calls)) :
    ioq'.processBuckets.next = ioq.processBuckets.next := by
  unfold spdIoqReset at h
  split at h
  · cases h
    rfl
  · simp only [Option.bind_eq_bind, Option.bind_eq_some_iff, Option.some.injEq,
      Prod.mk.injEq] at h
    obtain ⟨_, -, _, -, _, -, _, -, _, -, h, -⟩ := h
    rw [← h]
    split
    · rfl
    · rfl

theorem spdIoqPostSrb_next {srb : Addr} (h : spdIoqPostSrb ioq srb e = some (ioq', status)) :
    ioq'.processBuckets = ioq.processBuckets := by
  unfold spdIoqPostSrb at h
  split at h
  · cases h
    rfl
  · split at h
    · cases h
    · simp only [Option.bind_eq_bind, Option.bind_eq_some_iff] at h
      obtain ⟨L₁, -, h⟩ := h
      cases h
      rfl

/-- A call leaves a `HashNext` that is null so, unless its extension is or gets
on a hash chain. -/
theorem IoqOp.exec_next (hr : Refines ioq q) (hnext : ioq.processBuckets.next y = 0)
    (hstart : op = .start → (q.pending.map Item.ext).head? ≠ some y)
    (hprocess : y ∉ q.process.map Item.ext ∨ ∃ status, op = .finish y status)
    (h : op.exec ioq = some (ioq', calls, status)) : ioq'.processBuckets.next y = 0 := by
  cases op with
  | post i =>
      simp only [exec, Option.map_eq_some_iff, Prod.mk.injEq, Prod.exists] at h
      obtain ⟨_, _, hpost, rfl, -⟩ := h
      rw [spdIoqPostSrb_next hpost, hnext]
  | start =>
      simp only [exec, Option.map_eq_some_iff, Prod.mk.injEq, Prod.exists] at h
      obtain ⟨_, _, _, _, hcall, rfl, -⟩ := h
      rw [spdIoqStartProcessingSrb_next hr (hstart rfl) hcall, hnext]
  | finish hint status =>
      simp only [exec, Option.map_eq_some_iff, Prod.mk.injEq, Prod.exists] at h
      obtain ⟨_, _, _, hcall, rfl, -⟩ := h
      have hy : y ∉ q.process.map Item.ext ∨ y = hint := by
        refine hprocess.imp_right ?_
        rintro ⟨_, heq⟩
        cases heq
        rfl
      rw [spdIoqEndProcessingSrb_next hr hy hcall, hnext]
  | cancel i =>
      have hy : y ∉ q.process.map Item.ext := by
        refine hprocess.resolve_right ?_
        rintro ⟨_, heq⟩
        cases heq
      exact spdIoqCancelSrb_next hr hy hnext h
  | reset stop =>
      simp only [exec, Option.map_eq_some_iff, Prod.mk.injEq, Prod.exists] at h
      obtain ⟨_, _, hcall, rfl, -⟩ := h
      rw [spdIoqReset_next hcall, hnext]

/-! ## The invariant -/

theorem spec_pending (hw : Wf q) (h : op.spec q = some (q', calls, status))
    (hj : j ∈ q'.pending) :
    (j ∈ q.pending ∧ (op = .start → (q.pending.map Item.ext).head? ≠ some j.ext)) ∨
      op = .post j ∨ (op = .finish j.ext srbStatusPending ∧ j ∈ q.process) := by
  cases op with
  | post i =>
      simp only [IoqOp.spec, Option.some.injEq, Prod.mk.injEq] at h
      obtain ⟨rfl, -⟩ := h
      unfold Queue.post at hj
      split at hj
      · exact .inl ⟨hj, fun hop => by cases hop⟩
      · rcases List.mem_append.mp hj with hj | hj
        · exact .inl ⟨hj, fun hop => by cases hop⟩
        · rw [List.mem_singleton] at hj
          exact .inr (.inl (by rw [hj]))
  | start =>
      simp only [IoqOp.spec, Option.map_eq_some_iff] at h
      obtain ⟨⟨q₁, w, calls₁, status₁⟩, h, heq⟩ := h
      cases heq
      obtain ⟨hst, rfl, -⟩ | ⟨-, hp, rfl, -⟩ | ⟨i, rest, -, hp, -, rfl, -⟩ :=
        Queue.start_cases h
      · have hnil := hw.drained hst
        rw [Queue.items, List.append_eq_nil_iff] at hnil
        rw [hnil.1] at hj
        cases hj
      · rw [hp] at hj
        cases hj
      · have hmem : j ∈ q.pending := by
          rw [hp]
          exact List.mem_cons_of_mem _ hj
        refine .inl ⟨hmem, fun _ hhead => ?_⟩
        rw [hp, List.map_cons, List.head?_cons, Option.some.injEq] at hhead
        have hnd := hw.nodup
        rw [Queue.items, hp, List.cons_append, List.map_cons, List.nodup_cons] at hnd
        refine hnd.1 ?_
        rw [hhead]
        exact List.mem_map_of_mem (List.mem_append_left _ hj)
  | finish hint st =>
      simp only [IoqOp.spec, Option.map_eq_some_iff] at h
      obtain ⟨⟨q₁, w, calls₁⟩, h, heq⟩ := h
      cases heq
      obtain ⟨-, rfl, -⟩ | ⟨i, st', -, hl, hc, ⟨hpend, rfl, -⟩ | ⟨-, rfl, -⟩⟩ :=
        Queue.finish_cases h
      · exact .inl ⟨hj, fun hop => by cases hop⟩
      · rcases List.mem_cons.mp hj with rfl | hj
        · obtain ⟨hi, hext⟩ := hw.lookup_eq_some.mp hl
          cases hc
          exact .inr (.inr ⟨by rw [hext, hpend], hi⟩)
        · exact .inl ⟨hj, fun hop => by cases hop⟩
      · exact .inl ⟨hj, fun hop => by cases hop⟩
  | cancel i =>
      simp only [IoqOp.spec, Option.some.injEq] at h
      unfold Queue.cancel at h
      split at h
      · cases h
        exact .inl ⟨hj, fun hop => by cases hop⟩
      · cases h
        exact .inl ⟨List.mem_of_mem_erase hj, fun hop => by cases hop⟩
  | reset stop =>
      simp only [IoqOp.spec, Option.some.injEq, Prod.mk.injEq] at h
      obtain ⟨rfl, -⟩ := h
      unfold Queue.reset at hj
      split at hj
      · exact .inl ⟨hj, fun hop => by cases hop⟩
      · cases hj

theorem Wf.ext_notMem_process (hw : Wf q) (hj : j ∈ q.pending) :
    j.ext ∉ q.process.map Item.ext := by
  intro hmem
  obtain ⟨i, hi, hij⟩ := List.mem_map.mp hmem
  obtain rfl := hw.eq_of_ext (List.mem_append_right _ hi) (List.mem_append_left _ hj) hij
  exact (List.nodup_append.mp hw.items_nodup).2.2 i hj i hi rfl

theorem Good.entry (hg : Good s q) (ha : op.Allowed s.live) :
    Good ⟨op.entry s.ioq, s.live⟩ q := by
  cases op with
  | post i =>
      refine ⟨hg.refines.zeroExtension fun hmem => ?_, hg.items, hg.srb_nodup⟩
      obtain ⟨j, hj, hji⟩ := List.mem_map.mp hmem
      exact (ha.2 j (hg.items.mem_iff.mp hj)).2 hji
  | _ => exact hg

theorem IoqOp.entry_next (hy : ioq.processBuckets.next y = 0) :
    (op.entry ioq).processBuckets.next y = 0 := by
  cases op with
  | post i =>
      show Function.update ioq.processBuckets.next i.ext 0 y = 0
      by_cases hyi : y = i.ext
      · rw [hyi, Function.update_self]
      · rw [Function.update_of_ne hyi, hy]
  | _ => exact hy

/-- An answer keeps the `HashNext` of the extension it is for. -/
theorem Good.finish_next {st : UInt8} (hg : Good s q) (h : AssertedStep s ev s')
    (hop : ev.op = .finish e st) :
    s'.ioq.processBuckets.next e = s.ioq.processBuckets.next e := by
  have hexec := h.exec
  rw [hop] at hexec
  simp only [IoqOp.exec, IoqOp.entry, Option.map_eq_some_iff, Prod.mk.injEq, Prod.exists]
    at hexec
  obtain ⟨_, _, _, hcall, heq, -⟩ := hexec
  rw [← heq]
  exact spdIoqEndProcessingSrb_next hg.refines (.inr rfl) hcall

/-- Every step, with what it does to `HashNext`. -/
theorem Good.asserted (hg : Good s q) (hu : Unchained s.ioq q) (h : AssertedStep s ev s') :
    ∃ q', Good s' q' ∧ ev.op.spec q = some (q', ev.calls, ev.status) ∧
      ∀ j ∈ q'.pending, s'.ioq.processBuckets.next j.ext = 0 ∨
        (ev.op = .finish j.ext srbStatusPending ∧ j ∈ q.process ∧
          s'.ioq.processBuckets.next j.ext = s.ioq.processBuckets.next j.ext) := by
  have hge := hg.entry h.allowed
  obtain ⟨q', done, hg', hspec, -⟩ := hge.step h
  refine ⟨q', hg', hspec, fun j hj => ?_⟩
  have hexec := h.exec
  have hw := hg.refines.wf
  rcases spec_pending hw hspec hj with ⟨hp, hstart⟩ | hpost | ⟨hfinish, hr⟩
  · exact .inl (IoqOp.exec_next hge.refines (IoqOp.entry_next (hu j hp)) hstart
      (.inl (hw.ext_notMem_process hp)) hexec)
  · have hfresh : j.ext ∉ q.process.map Item.ext := by
      have hallowed := h.allowed
      rw [hpost] at hallowed
      intro hmem
      obtain ⟨i, hi, hij⟩ := List.mem_map.mp hmem
      exact (hallowed.2 i (hg.items.mem_iff.mp (List.mem_append_right _ hi))).2 hij
    have hzero : (ev.op.entry s.ioq).processBuckets.next j.ext = 0 := by
      rw [hpost]
      exact Function.update_self _ _ _
    exact .inl (IoqOp.exec_next hge.refines hzero (fun hop => by simp [hpost] at hop)
      (.inl hfresh) hexec)
  · exact .inr ⟨hfinish, hr, hg.finish_next h hfinish⟩

/-! ## The assertions -/

theorem spdIoqStartProcessingSrbAsserts_head {rest : List Item} (hr : Refines ioq q)
    (hst : q.stopped = false) (hp : q.pending = i :: rest) :
    spdIoqStartProcessingSrbAsserts ioq = some (decide (ioq.processBuckets.next i.ext = 0)) := by
  have hstopped : ¬ ioq.stopped = true := by simp [hr.stopped, hst]
  have hne : ¬ ioq.listEntry.flink .pendingList = some .pendingList := fun h => by
    have hnil := hr.lists.first.flink_head_eq_self.mp h
    simp [hp] at hnil
  have hhead := hr.lists.first.flink_head
  rw [hp, List.map_cons, List.map_cons, List.headD_cons] at hhead
  have hoff : i.ext ∉ q.process.map Item.ext :=
    hr.wf.ext_notMem_process (by rw [hp]; exact List.mem_cons_self)
  obtain ⟨xs, ht, hmem⟩ := hr.buckets
  have havoids : ioq.processBuckets.avoids 0 i.ext addressSpace
      (ioq.processBuckets.head (ioq.bucket i.ext)) = some true := by
    rw [(ht.chain (ioq.bucket i.ext)).avoids (bucket_length_lt ht _)]
    exact congrArg some (decide_eq_true fun hin => hoff ((hmem i.ext).mp hin))
  rw [spdIoqStartProcessingSrbAsserts, if_neg hstopped, if_neg hne, hhead]
  simp only [ListEntry.containingRecord, havoids, Option.bind_eq_bind, Option.bind_some,
    Bool.true_and]

theorem Good.asserts (hg : Good s q) (hu : Unchained s.ioq q) (ha : op.Allowed s.live) :
    op.asserts s.ioq = some true := by
  cases op with
  | post i =>
      show spdIoqPostSrbAsserts (s.ioq.zeroExtension i.ext) i.ext = some true
      unfold spdIoqPostSrbAsserts
      split
      · rfl
      · simp [SpdIoq.zeroExtension, Links.setFlink, Links.setBlink]
  | start =>
      show spdIoqStartProcessingSrbAsserts s.ioq = some true
      cases hst : q.stopped with
      | true => rw [spdIoqStartProcessingSrbAsserts, if_pos (hg.refines.stopped.trans hst)]
      | false =>
          cases hp : q.pending with
          | nil =>
              have hempty : s.ioq.listEntry.flink .pendingList = some .pendingList :=
                hg.refines.lists.first.flink_head_eq_self.mpr (by rw [hp]; rfl)
              rw [spdIoqStartProcessingSrbAsserts, if_pos hempty, ite_self]
          | cons i rest =>
              rw [spdIoqStartProcessingSrbAsserts_head hg.refines hst hp,
                decide_eq_true (hu i (by rw [hp]; exact List.mem_cons_self))]
  | finish hint status => rfl
  | cancel i =>
      have hsrb := hg.refines.srb i (hg.items.mem_iff.mpr ha)
      show spdIoqCancelSrbAsserts s.ioq i.srb i.ext = some true
      rw [spdIoqCancelSrbAsserts, hsrb, decide_eq_true rfl, ite_self]
  | reset stop => rfl

theorem asserted_inv (hrun : RunWhen AssertedStep (fun _ => RepostsLast) (.create mem) ls s) :
    ∃ q, Good s q ∧ Unchained s.ioq q := by
  refine hrun.steps.inv (I := fun s => ∃ q, Good s q ∧ Unchained s.ioq q)
    ⟨.empty, good_create mem, fun i hi => by cases hi⟩ ?_
  rintro s ev s' ⟨q, hg, hu⟩ ⟨h, hlast⟩
  obtain ⟨q', hg', -, hnext⟩ := hg.asserted hu h
  refine ⟨q', hg', fun j hj => ?_⟩
  rcases hnext j hj with hzero | ⟨hop, hr, hsame⟩
  · exact hzero
  · rw [hsame]
    have hlive := hg.items.mem_iff.mp (List.mem_append_right q.pending hr)
    exact hlast j.ext hop (List.mem_map_of_mem hlive)

/-- As long as no answer that returns PENDING is for an extension that has
another behind it on its hash chain, every assertion of every call holds; and
after one that is, the next start's assertion fails. -/
theorem spdIoq_asserts
    (hrun : RunWhen AssertedStep (fun _ => RepostsLast) (.create mem) ls s) :
    (∀ op : IoqOp, op.Allowed s.live → op.asserts s.ioq = some true) ∧
      ∀ ev s', AssertedStep s ev s' → ¬ RepostsLast s ev →
        IoqOp.start.asserts s'.ioq = some false := by
  obtain ⟨q, hg, hu⟩ := asserted_inv hrun
  refine ⟨fun op => hg.asserts hu, fun ev s' h hlast => ?_⟩
  simp only [RepostsLast, not_forall] at hlast
  obtain ⟨e, hop, hlive, hchained⟩ := hlast
  obtain ⟨i, hi, rfl⟩ := List.mem_map.mp hlive
  obtain ⟨q', hg', hspec, -⟩ := hg.asserted hu h
  have hi : i ∈ q.items := hg.items.mem_iff.mpr hi
  have hr : i ∈ q.process :=
    (List.mem_append.mp hi).resolve_left fun hp => hchained (hu i hp)
  have hst : q.stopped = false := by
    by_contra hst
    rw [hg.refines.wf.drained (by simpa using hst)] at hi
    cases hi
  have hl := hg.refines.wf.lookup_eq_some.mpr ⟨hr, rfl⟩
  rw [hop, IoqOp.spec, Queue.finish, if_neg (by simp [hst])] at hspec
  simp only [hl, Option.bind_eq_bind, Option.bind_some, if_true, Option.map_some,
    Option.some.injEq, Prod.mk.injEq] at hspec
  obtain ⟨rfl, -⟩ := hspec
  show spdIoqStartProcessingSrbAsserts s'.ioq = some false
  rw [spdIoqStartProcessingSrbAsserts_head hg'.refines hst rfl, hg.finish_next h hop,
    decide_eq_false hchained]

/-! ## Two extensions of one bucket -/

def sampleItem₁ : Item := ⟨0x1b00, 0x3000⟩
def sampleItem₂ : Item := ⟨0x2600, 0x4000⟩

def sampleHandedOut : List IoqEvent :=
  [⟨.post sampleItem₁, [], .success⟩, ⟨.post sampleItem₂, [], .success⟩,
    ⟨.start, [.prepare 0x1b00 0x3000], .success⟩,
      ⟨.start, [.prepare 0x2600 0x4000], .success⟩]

def sampleReposted (i : Item) : IoqEvent :=
  ⟨.finish i.ext srbStatusPending, [.complete i.ext i.srb srbStatusPending], .success⟩

theorem sampleReposted_step (hi : i = sampleItem₁ ∨ i = sampleItem₂) :
    ∃ s s', RunWhen AssertedStep (fun _ => RepostsLast) (.create zeroedIoq) sampleHandedOut s ∧
      AssertedStep s (sampleReposted i) s' ∧
      (s.ioq.processBuckets.next i.ext = 0 ↔ i = sampleItem₁) ∧
      IoqOp.start.asserts s'.ioq = some (decide (i = sampleItem₁)) := by
  obtain ⟨ioq₁, ioq₂, ioq₃, ioq₄, ioq₅, h₁, h₂, h₃, h₄, h₅, hnext,
      hasserts⟩ :
      ∃ ioq₁ ioq₂ ioq₃ ioq₄ ioq₅,
        (IoqOp.post sampleItem₁).exec
        ((IoqOp.post sampleItem₁).entry (spdIoqCreate zeroedIoq)) =
          some (ioq₁, [], .success) ∧
        (IoqOp.post sampleItem₂).exec ((IoqOp.post sampleItem₂).entry ioq₁) =
          some (ioq₂, [], .success) ∧
        IoqOp.start.exec ioq₂ = some (ioq₃, [.prepare 0x1b00 0x3000], .success) ∧
        IoqOp.start.exec ioq₃ = some (ioq₄, [.prepare 0x2600 0x4000], .success) ∧
        (sampleReposted i).op.exec ioq₄ = some (ioq₅, (sampleReposted i).calls, .success) ∧
        (ioq₄.processBuckets.next i.ext = 0 ↔ i = sampleItem₁) ∧
        IoqOp.start.asserts ioq₅ = some (decide (i = sampleItem₁)) := by
    rcases hi with rfl | rfl
    · exact ⟨_, _, _, _, _, rfl, rfl, rfl, rfl, rfl, by decide, rfl⟩
    · exact ⟨_, _, _, _, _, rfl, rfl, rfl, rfl, rfl, by decide, rfl⟩
  have hstep₁ : AssertedStep (.create zeroedIoq) ⟨.post sampleItem₁, [], .success⟩
      ⟨ioq₁, [sampleItem₁]⟩ := ⟨⟨by decide, fun j hj => by cases hj⟩, h₁, rfl⟩
  have hfresh : ∀ j ∈ [sampleItem₁], j.srb ≠ sampleItem₂.srb ∧
      j.ext ≠ sampleItem₂.ext := by
    decide
  have hstep₂ : AssertedStep ⟨ioq₁, [sampleItem₁]⟩ ⟨.post sampleItem₂, [], .success⟩
      ⟨ioq₂, [sampleItem₁, sampleItem₂]⟩ := ⟨⟨by decide, hfresh⟩, h₂, rfl⟩
  have hstep₃ : AssertedStep ⟨ioq₂, [sampleItem₁, sampleItem₂]⟩
      ⟨.start, [.prepare 0x1b00 0x3000], .success⟩
        ⟨ioq₃, [sampleItem₁, sampleItem₂]⟩ :=
    ⟨trivial, h₃, rfl⟩
  have hstep₄ : AssertedStep ⟨ioq₃, [sampleItem₁, sampleItem₂]⟩
      ⟨.start, [.prepare 0x2600 0x4000], .success⟩
        ⟨ioq₄, [sampleItem₁, sampleItem₂]⟩ :=
    ⟨trivial, h₄, rfl⟩
  have hstep₅ : AssertedStep ⟨ioq₄, [sampleItem₁, sampleItem₂]⟩ (sampleReposted i)
      ⟨ioq₅, [sampleItem₁, sampleItem₂]⟩ := ⟨trivial, h₅, rfl⟩
  have hnone : ∀ {s : IoqSys} {ev : IoqEvent}, (∀ e st, ev.op ≠ .finish e st) →
      RepostsLast s ev := fun hop e heq => absurd heq (hop e _)
  refine ⟨_, _, ((((RunWhen.nil.snoc hstep₁ (hnone ?_)).snoc hstep₂ (hnone ?_)).snoc hstep₃
    (hnone ?_)).snoc hstep₄ (hnone ?_)), hstep₅, hnext, hasserts⟩
  all_goals intro e st heq; cases heq

/-- The first of them is answered. -/
theorem spdIoq_asserts_last :
    ∃ s, RunWhen AssertedStep (fun _ => RepostsLast) (.create zeroedIoq)
        (sampleHandedOut ++ [sampleReposted sampleItem₁]) s ∧
      (∀ op : IoqOp, op.Allowed s.live → op.asserts s.ioq = some true) ∧
        ∀ ev s', AssertedStep s ev s' → ¬ RepostsLast s ev →
          IoqOp.start.asserts s'.ioq = some false := by
  obtain ⟨s, s', hrun, h, hnext, -⟩ := sampleReposted_step (.inl rfl)
  have hlast : RepostsLast s (sampleReposted sampleItem₁) := by
    intro e hop _
    cases hop
    exact hnext.mpr rfl
  exact ⟨s', hrun.snoc h hlast, spdIoq_asserts (hrun.snoc h hlast)⟩

/-- The second is: the start that follows asserts that its `HashNext` is null,
and it is the first. -/
theorem spdIoq_asserts_collision :
    ∃ s, Run AssertedStep (.create zeroedIoq)
        (sampleHandedOut ++ [sampleReposted sampleItem₂]) s ∧
      IoqOp.start.Allowed s.live ∧ IoqOp.start.asserts s.ioq = some false := by
  obtain ⟨s, s', hrun, h, -, hasserts⟩ := sampleReposted_step (.inr rfl)
  exact ⟨s', hrun.run.snoc h, trivial, hasserts⟩

end Winspd.Proofs
