import Winspd.Lib.Run
import Winspd.Proofs.IoqRefine

/-!
# Runs of the queue

A run of the queue is any sequence of its critical sections. `IoqSys` pairs the
store with the SRBs StorPort is still owed a completion for, because what a
caller may do depends on them: an SRB is posted while it is not queued, with an
extension no queued SRB has, and only a queued SRB is cancelled.

What is proved about runs comes from one fact about one step: the items a step
completes, and the items it leaves in the queue, are together the items it
found and the one it accepted (`spec_items`). Along a run this becomes the
balance of `spdIoq_exactly_once`: every acceptance is answered by at most one
completion, at the step at which the SRB leaves both lists.
-/

namespace Winspd.Proofs

open Winspd.Lib Winspd.Sys Winspd.Spec
open scoped List

/-! ## The system -/

/-- A call of one of the queue's functions. The status of `finish` is the one
`Complete` returns, should the call get that far. -/
inductive IoqOp
  | post (i : Item)
  | start
  | finish (hint : UInt64) (status : UInt8)
  | cancel (i : Item)
  | reset (stop : Bool)
  deriving DecidableEq, Repr

def IoqOp.exec (ioq : SpdIoq) : IoqOp → Option (SpdIoq × List IoqCall × NtStatus)
  | .post i => (spdIoqPostSrb ioq i.srb i.ext).map fun r => (r.1, [], r.2)
  | .start =>
      (spdIoqStartProcessingSrb (fun _ _ w => some w) ioq ()).map fun r => (r.1, r.2.2)
  | .finish hint status =>
      (spdIoqEndProcessingSrb (fun _ _ w => some (status, w)) ioq () hint).map
        fun r => (r.1, r.2.2, .success)
  | .cancel i => spdIoqCancelSrb ioq i.srb i.ext
  | .reset stop => (spdIoqReset ioq stop).map fun r => (r.1, r.2, .success)

/-- What the callers of the queue promise, `live` being the queued SRBs. -/
def IoqOp.Allowed (live : List Item) : IoqOp → Prop
  | .post i => i.ext ≠ 0 ∧ ∀ j ∈ live, j.srb ≠ i.srb ∧ j.ext ≠ i.ext
  | .cancel i => i ∈ live
  | _ => True

/-- A call that was made, with what it called and what it returned. -/
structure IoqEvent where
  op : IoqOp
  calls : List IoqCall
  status : NtStatus
  deriving DecidableEq, Repr

def IoqEvent.accepted (ev : IoqEvent) : List Item :=
  match ev.op with
  | .post i => if ev.status = .success then [i] else []
  | _ => []

/-- The SRB a call of the queue completes. -/
def completedSrb : IoqCall → Option Addr
  | .srbComplete srb _ => some srb
  | _ => none

def IoqEvent.completed (ev : IoqEvent) : List Addr := ev.calls.filterMap completedSrb

structure IoqSys where
  ioq : SpdIoq
  live : List Item

/-- A new queue in memory that held `mem`. -/
def IoqSys.create (mem : SpdIoq) : IoqSys := ⟨spdIoqCreate mem, []⟩

structure IoqStep (s : IoqSys) (ev : IoqEvent) (s' : IoqSys) : Prop where
  allowed : ev.op.Allowed s.live
  exec : ev.op.exec s.ioq = some (s'.ioq, ev.calls, ev.status)
  live : s'.live = (s.live ++ ev.accepted).filter fun i => i.srb ∉ ev.completed

/-! ## One step, on the queue -/

variable {q : Queue} {ioq : SpdIoq} {s s' : IoqSys} {ls : List IoqEvent} {mem : SpdIoq}

def IoqOp.spec (q : Queue) : IoqOp → Option (Queue × List IoqCall × NtStatus)
  | .post i => some ((q.post i).1, [], (q.post i).2)
  | .start => (q.start (fun _ _ w => some w) ()).map fun r => (r.1, r.2.2)
  | .finish hint status =>
      (q.finish (fun _ _ w => some (status, w)) () hint).map fun r => (r.1, r.2.2, .success)
  | .cancel i => some (q.cancel i)
  | .reset stop => some ((q.reset stop).1, (q.reset stop).2, .success)

theorem Agree.map {α β : Type} {r : Option (SpdIoq × α)} {a : Option (Queue × α)}
    (f : α → β)
    (h : Agree r a) : Agree (r.map fun x => (x.1, f x.2)) (a.map fun x => (x.1, f x.2)) := by
  cases h with
  | none => exact .none
  | some h => exact .some ⟨h.1, congrArg f h.2⟩

theorem exec_agree (hr : Refines ioq q) {op : IoqOp} (ha : op.Allowed q.items) :
    Agree (op.exec ioq) (op.spec q) := by
  cases op with
  | post i =>
      have hfresh : i.ext ∉ q.items.map Item.ext := fun h => by
        obtain ⟨j, hj, hji⟩ := List.mem_map.mp h
        exact (ha.2 j hj).2 hji
      exact (spdIoqPostSrb_agree hr hfresh ha.1).map fun st => ([], st)
  | start => exact (spdIoqStartProcessingSrb_agree hr _ ()).map Prod.snd
  | finish hint status =>
      exact (spdIoqEndProcessingSrb_agree hr _ () hint).map fun r => (r.2, NtStatus.success)
  | cancel i => exact spdIoqCancelSrb_agree hr ha
  | reset stop => exact (spdIoqReset_agree hr stop).map fun r => (r, NtStatus.success)

theorem spec_isSome (q : Queue) (op : IoqOp) : ∃ r, op.spec q = some r := by
  cases op with
  | post i => exact ⟨_, rfl⟩
  | start =>
      simp only [IoqOp.spec, Queue.start]
      split
      · exact ⟨_, rfl⟩
      · split <;> exact ⟨_, rfl⟩
  | finish hint status =>
      simp only [IoqOp.spec, Queue.finish]
      split
      · exact ⟨_, rfl⟩
      · split
        · exact ⟨_, rfl⟩
        · simp only [Option.bind_eq_bind, Option.bind_some]
          split <;> exact ⟨_, rfl⟩
  | cancel i => exact ⟨_, rfl⟩
  | reset stop => exact ⟨_, rfl⟩

theorem spec_stopped {op : IoqOp} {q' calls status} (h : op.spec q = some (q', calls, status))
    (hst : q.stopped = true) : q'.stopped = true := by
  cases op <;>
    simp [IoqOp.spec, Queue.post, Queue.start, Queue.finish, Queue.cancel, Queue.reset, hst]
      at h <;>
    simp [← h.1, hst]

/-- A cancel takes its item out of the one list it is on. -/
theorem cancel_items {i : Item} (hw : Wf q) (hi : i ∈ q.items) :
    q.items.Perm (i :: (q.pending.erase i ++ q.process.erase i)) := by
  have hnd := List.nodup_append.mp hw.items_nodup
  rcases List.mem_append.mp hi with hi | hi
  · rw [List.erase_of_not_mem fun hi' => hnd.2.2 i hi i hi' rfl]
    exact (List.perm_cons_erase hi).append_right q.process
  · rw [List.erase_of_not_mem fun hi' => hnd.2.2 i hi' i hi rfl]
    exact ((List.perm_cons_erase hi).append_left q.pending).trans List.perm_middle

/-- The items a step completes, and the items it leaves, are the ones it found
and the one it accepted. -/
theorem spec_items {ev : IoqEvent} {q' : Queue} (hw : Wf q) (ha : ev.op.Allowed q.items)
    (h : ev.op.spec q = some (q', ev.calls, ev.status)) :
    ∃ done : List Item, ev.completed = done.map Item.srb ∧
      (q.items ++ ev.accepted).Perm (done ++ q'.items) := by
  obtain ⟨op, calls, status⟩ := ev
  cases op with
  | post i =>
      simp only [IoqOp.spec, Option.some.injEq, Prod.mk.injEq] at h
      obtain ⟨rfl, rfl, rfl⟩ := h
      refine ⟨[], rfl, ?_⟩
      by_cases hst : q.stopped = true
      · simp [Queue.post, IoqEvent.accepted, hst]
      · rw [Queue.post, if_neg hst]
        simp only [IoqEvent.accepted, if_true, Queue.items, List.nil_append, List.append_assoc]
        exact List.Perm.append_left _ List.perm_append_comm
  | start =>
      simp only [IoqOp.spec, Option.map_eq_some_iff] at h
      obtain ⟨⟨q₁, w, calls₁, status₁⟩, h, heq⟩ := h
      cases heq
      obtain ⟨-, rfl, -, rfl, -⟩ | ⟨-, -, rfl, -, rfl, -⟩ | ⟨i, rest, -, hp, -,
          rfl, rfl, -⟩ :=
        Queue.start_cases h
      · exact ⟨[], rfl, by simp [IoqEvent.accepted, Queue.items]⟩
      · exact ⟨[], rfl, by simp [IoqEvent.accepted, Queue.items]⟩
      · refine ⟨[], rfl, ?_⟩
        simp only [IoqEvent.accepted, Queue.items, hp, List.append_nil, List.nil_append,
          ← List.append_assoc]
        exact (List.perm_append_singleton i (rest ++ q.process)).symm
  | finish hint status =>
      simp only [IoqOp.spec, Option.map_eq_some_iff] at h
      obtain ⟨⟨q₁, w, calls₁⟩, h, heq⟩ := h
      cases heq
      obtain ⟨-, rfl, -, rfl⟩ | ⟨i, st, -, hl, -, ⟨-, rfl, rfl⟩ | ⟨-, rfl, rfl⟩⟩ :=
        Queue.finish_cases h
      · exact ⟨[], rfl, by simp [IoqEvent.accepted]⟩
      · refine ⟨[], rfl, ?_⟩
        have hi := (hw.lookup_eq_some.mp hl).1
        simp only [IoqEvent.accepted, Queue.items, List.append_nil, List.nil_append]
        exact ((List.perm_cons_erase hi).append_left q.pending).trans List.perm_middle
      · refine ⟨[i], rfl, ?_⟩
        have hi := (hw.lookup_eq_some.mp hl).1
        simp only [IoqEvent.accepted, Queue.items, List.append_nil]
        exact ((List.perm_cons_erase hi).append_left q.pending).trans List.perm_middle
  | cancel i =>
      simp only [IoqOp.spec, Option.some.injEq] at h
      unfold Queue.cancel at h
      split at h
      · cases h
        exact ⟨[], rfl, by simp [IoqEvent.accepted]⟩
      · cases h
        refine ⟨[i], rfl, ?_⟩
        simpa [IoqEvent.accepted, Queue.items] using cancel_items hw ha
  | reset stop =>
      simp only [IoqOp.spec, Option.some.injEq, Prod.mk.injEq] at h
      obtain ⟨rfl, rfl, rfl⟩ := h
      unfold Queue.reset
      split
      · exact ⟨[], rfl, by simp [IoqEvent.accepted]⟩
      · refine ⟨q.items, ?_, by simp [IoqEvent.accepted, Queue.items]⟩
        rw [IoqEvent.completed, List.filterMap_map, ← List.filterMap_eq_map]
        rfl

theorem spec_accepted {ev : IoqEvent} {q' : Queue}
    (h : ev.op.spec q = some (q', ev.calls, ev.status)) :
      ev.accepted = [] ∨ ev.completed = [] := by
  obtain ⟨op, calls, status⟩ := ev
  cases op with
  | post i =>
      simp only [IoqOp.spec, Option.some.injEq, Prod.mk.injEq] at h
      obtain ⟨-, rfl, -⟩ := h
      exact .inr rfl
  | _ => exact .inl rfl

/-! ## The invariant -/

/-- What every reachable state of the queue satisfies: it represents a queue
whose items are the SRBs StorPort is owed, and no SRB is owed twice. -/
structure Good (s : IoqSys) (q : Queue) : Prop where
  refines : Refines s.ioq q
  items : q.items.Perm s.live
  srb_nodup : (q.items.map Item.srb).Nodup

theorem good_create (mem : SpdIoq) : Good (.create mem) .empty :=
  ⟨spdIoqCreate_refines mem, List.Perm.nil, List.nodup_nil⟩

theorem allowed_perm {l l' : List Item} (hp : l.Perm l') {op : IoqOp} :
    op.Allowed l ↔ op.Allowed l' := by
  cases op <;> simp [IoqOp.Allowed, hp.mem_iff]

/-- Only a post accepts, and what it accepts no queued SRB has. -/
theorem accepted_fresh {live : List Item} {ev : IoqEvent} (ha : ev.op.Allowed live)
    (hnd : (live.map Item.srb).Nodup) : ((live ++ ev.accepted).map Item.srb).Nodup := by
  unfold IoqEvent.accepted
  split
  · next i hop =>
      rw [hop] at ha
      split
      · rw [List.map_append, List.nodup_append]
        refine ⟨hnd, by simp, ?_⟩
        intro a hlive b hb hab
        obtain ⟨j, hj, rfl⟩ := List.mem_map.mp hlive
        simp only [List.map_cons, List.map_nil, List.mem_singleton] at hb
        exact (ha.2 j hj).1 (hab.trans hb)
      · rwa [List.append_nil]
  · rwa [List.append_nil]

/-- Of the items a step found, the ones it did not complete are the ones it
leaves. -/
theorem filter_completed {done rest : List Item} (hnd : ((done ++ rest).map Item.srb).Nodup) :
    ((done ++ rest).filter fun i => i.srb ∉ done.map Item.srb) = rest := by
  rw [List.map_append, List.nodup_append] at hnd
  have hdone : (done.filter fun i => i.srb ∉ done.map Item.srb) = [] := by
    rw [List.filter_eq_nil_iff]
    intro i hi
    simpa using ⟨i, hi, rfl⟩
  have hrest : (rest.filter fun i => i.srb ∉ done.map Item.srb) = rest := by
    rw [List.filter_eq_self]
    intro i hi
    have hne : i.srb ∉ done.map Item.srb := fun h =>
      hnd.2.2 i.srb h i.srb (List.mem_map_of_mem hi) rfl
    exact decide_eq_true hne
  rw [List.filter_append, hdone, hrest, List.nil_append]

theorem Good.step (hg : Good s q) {ev : IoqEvent} (h : IoqStep s ev s') :
    ∃ q' done, Good s' q' ∧ ev.op.spec q = some (q', ev.calls, ev.status) ∧
      ev.completed = done.map Item.srb ∧ (q.items ++ ev.accepted).Perm (done ++ q'.items) ∧
      ((done ++ q'.items).map Item.srb).Nodup := by
  have ha := (allowed_perm hg.items).mpr h.allowed
  have hagree := exec_agree hg.refines ha
  rw [h.exec] at hagree
  obtain ⟨q', hspec, hr'⟩ := hagree.of_some
  obtain ⟨done, hdone, hperm⟩ := spec_items hg.refines.wf ha hspec
  have hnd := ((hperm.map Item.srb).nodup_iff).mp (accepted_fresh ha hg.srb_nodup)
  refine ⟨q', done, ⟨hr', ?_, ?_⟩, hspec, hdone, hperm, hnd⟩
  · rw [h.live, hdone]
    have hlive : (done ++ q'.items).Perm (s.live ++ ev.accepted) :=
      hperm.symm.trans (hg.items.append_right _)
    rw [← filter_completed hnd]
    exact hlive.filter _
  · rw [List.map_append] at hnd
    exact (List.nodup_append.mp hnd).2.1

/-- What an allowed call does to the queue, it does to the store. -/
theorem Good.exec (hg : Good s q) (ev : IoqEvent) {q' : Queue} (ha : ev.op.Allowed s.live)
    (h : ev.op.spec q = some (q', ev.calls, ev.status)) :
      ∃ s', IoqStep s ev s' ∧ Good s' q' := by
  have hagree := exec_agree hg.refines ((allowed_perm hg.items).mpr ha)
  rw [h] at hagree
  obtain ⟨ioq', hexec, -⟩ := hagree.exists_some
  have hstep : IoqStep s ev ⟨ioq', _⟩ := ⟨ha, hexec, rfl⟩
  obtain ⟨q₁, done, hg', hspec, -⟩ := hg.step hstep
  rw [h] at hspec
  cases hspec
  exact ⟨_, hstep, hg'⟩

theorem Good.progress (hg : Good s q) {op : IoqOp} (ha : op.Allowed s.live) :
    ∃ ev s', ev.op = op ∧ IoqStep s ev s' := by
  obtain ⟨⟨q', calls, status⟩, hspec⟩ := spec_isSome q op
  obtain ⟨s', hstep, -⟩ := hg.exec ⟨op, calls, status⟩ ha hspec
  exact ⟨_, s', rfl, hstep⟩

/-! ## Whole runs -/

/-- The items accepted along a run, and the SRBs completed along it. -/
def accepted (ls : List IoqEvent) : List Item := ls.flatMap IoqEvent.accepted
def completed (ls : List IoqEvent) : List Addr := ls.flatMap IoqEvent.completed

theorem run_good (hr : Run IoqStep (.create mem) ls s) : ∃ q, Good s q :=
  hr.inv (I := fun s => ∃ q, Good s q) ⟨.empty, good_create mem⟩ fun ⟨_, hg⟩ h =>
    let ⟨q', _, hg', _⟩ := hg.step h
    ⟨q', hg'⟩

theorem run_balance (hr : Run IoqStep (.create mem) ls s) :
    ((accepted ls).map Item.srb).Perm (completed ls ++ s.live.map Item.srb) := by
  refine hr.history (I := fun ls s =>
    ((accepted ls).map Item.srb).Perm (completed ls ++ s.live.map Item.srb)) (.refl _) ?_
  intro ls s ev s' hr hbal h
  obtain ⟨q, hg⟩ := run_good hr
  obtain ⟨q', done, hg', -, hdone, hperm, -⟩ := hg.step h
  have hacc : accepted (ls ++ [ev]) = accepted ls ++ ev.accepted := by simp [accepted]
  have hcomp : completed (ls ++ [ev]) = completed ls ++ ev.completed := by simp [completed]
  rw [hacc, hcomp, hdone, List.map_append]
  calc (accepted ls).map Item.srb ++ ev.accepted.map Item.srb
    _ ~ completed ls ++ s.live.map Item.srb ++ ev.accepted.map Item.srb := hbal.append_right _
    _ ~ completed ls ++ (q.items ++ ev.accepted).map Item.srb := by
      rw [List.append_assoc, List.map_append]
      exact (((hg.items.map Item.srb).symm).append_right _).append_left _
    _ ~ completed ls ++ (done ++ q'.items).map Item.srb := (hperm.map Item.srb).append_left _
    _ ~ completed ls ++ done.map Item.srb ++ s'.live.map Item.srb := by
      rw [List.append_assoc, List.map_append]
      exact ((hg'.items.map Item.srb).append_left _).append_left _

theorem run_stopped {ls' : List IoqEvent} (hr : Run IoqStep (.create mem) ls s)
    (hr' : Run IoqStep s ls' s') (hst : s.ioq.stopped = true) : s'.ioq.stopped = true := by
  have hinv : (∃ q, Good s' q) ∧ s'.ioq.stopped = true := by
    refine hr'.inv (I := fun s => (∃ q, Good s q) ∧ s.ioq.stopped = true)
      ⟨run_good hr, hst⟩ ?_
    rintro s ev s' ⟨⟨q, hg⟩, hst⟩ h
    obtain ⟨q', done, hg', hspec, -⟩ := hg.step h
    exact ⟨⟨q', hg'⟩, hg'.refines.stopped.trans
      (spec_stopped hspec (hg.refines.stopped.symm.trans hst))⟩
  exact hinv.2

/-- The queue is represented, and nothing is lost or completed twice.

In every state a run reaches, the two lists and the hash table represent one
queue `q`: its items are the SRBs accepted and not yet completed, each on one
list and once, and the hash chains hold the processed ones. A stopped queue is
empty and stays stopped. Over the run every SRB was completed as often as it
was accepted, less the once it is queued now; the next step, whichever it is,
does not fault, and completes exactly the items that leave both lists. -/
theorem spdIoq_exactly_once (hr : Run IoqStep (.create mem) ls s) :
    ∃ q, Refines s.ioq q ∧ q.items.Perm s.live ∧ (s.live.map Item.srb).Nodup ∧
      ((accepted ls).map Item.srb).Perm (completed ls ++ s.live.map Item.srb) ∧
      (s.ioq.stopped = true → q.pending = [] ∧ q.process = []) ∧
      (∀ ls' s', Run IoqStep s ls' s' → s.ioq.stopped = true → s'.ioq.stopped = true) ∧
      (∀ op : IoqOp, op.Allowed s.live → ∃ ev s', ev.op = op ∧ IoqStep s ev s') ∧
      ∀ ev s', IoqStep s ev s' → ∃ q', Refines s'.ioq q' ∧ ev.completed.Nodup ∧
        ∀ srb, srb ∈ ev.completed ↔ ∃ i ∈ q.items, i ∉ q'.items ∧ i.srb = srb := by
  obtain ⟨q, hg⟩ := run_good hr
  refine ⟨q, hg.refines, hg.items, ((hg.items.map Item.srb).nodup_iff).mp hg.srb_nodup,
    run_balance hr, ?_, fun ls' s' => run_stopped hr, fun op => hg.progress, ?_⟩
  · intro hst
    exact List.append_eq_nil_iff.mp (hg.refines.wf.drained (hg.refines.stopped.symm.trans hst))
  · intro ev s' h
    obtain ⟨q', done, hg', hspec, hdone, hperm, hnd⟩ := hg.step h
    rw [List.map_append, List.nodup_append, ← hdone] at hnd
    refine ⟨q', hg'.refines, hnd.1, fun srb => ?_⟩
    constructor
    · intro hsrb
      rw [hdone] at hsrb
      obtain ⟨i, hi, rfl⟩ := List.mem_map.mp hsrb
      have hnone : ev.accepted = [] := (spec_accepted hspec).resolve_right fun hnil => by
        rw [hdone, List.map_eq_nil_iff] at hnil
        simp [hnil] at hi
      refine ⟨i, ?_, fun hi' => ?_, rfl⟩
      · rw [hnone, List.append_nil] at hperm
        exact hperm.mem_iff.mpr (List.mem_append_left _ hi)
      · exact hnd.2.2 i.srb (hdone ▸ List.mem_map_of_mem hi) i.srb (List.mem_map_of_mem hi') rfl
    · rintro ⟨i, hi, hi', rfl⟩
      rw [hdone]
      have hmem := hperm.mem_iff.mp (List.mem_append_left ev.accepted hi)
      exact List.mem_map_of_mem ((List.mem_append.mp hmem).resolve_right hi')

/-- A post, a start and an answer. -/
theorem spdIoq_exactly_once_answer :
    ∃ (ls : List IoqEvent) (s : IoqSys), Run IoqStep (.create zeroedIoq) ls s ∧
      ls.map IoqEvent.op =
        [.post ⟨0x1000, 0x2000⟩, .start, .finish 0x1000 srbStatusSuccess] ∧
      completed ls = [0x2000] ∧ ∃ q, Refines s.ioq q ∧ q.items.Perm s.live := by
  obtain ⟨s₁, h₁, hg₁⟩ := (good_create zeroedIoq).exec
    ⟨.post ⟨0x1000, 0x2000⟩, [], .success⟩ ⟨by decide, by simp [IoqSys.create]⟩ rfl
  obtain ⟨s₂, h₂, hg₂⟩ := hg₁.exec
    ⟨.start, [.prepare 0x1000 0x2000], .success⟩ trivial rfl
  obtain ⟨s₃, h₃, hg₃⟩ := hg₂.exec
    ⟨.finish 0x1000 srbStatusSuccess, [.complete 0x1000 0x2000 srbStatusSuccess,
      .srbComplete 0x2000 srbStatusSuccess], .success⟩ trivial rfl
  have hrun := ((Run.single h₁).snoc h₂).snoc h₃
  obtain ⟨q, hr, hperm, -⟩ := spdIoq_exactly_once hrun
  exact ⟨_, s₃, hrun, rfl, rfl, q, hr, hperm⟩

end Winspd.Proofs
