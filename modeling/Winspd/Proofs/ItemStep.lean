import Winspd.Proofs.Requests

/-!
# A step, seen from one SRB

Most steps are about other SRBs, and what they do to this one is nothing at
all. `UnitInv.itemStep` sorts the steps once, for an SRB that is queued:
untouched, taken out, handed out, posted again or finished. An account of one
SRB along a run then has only those five to look at, and says nothing about the
rest of the queue.

What a run says about the SRB are the requests that were handed out for its
extension (`requestsFor`) and the answers that were taken in for it
(`answersFor`).
-/

namespace Winspd.Proofs

open Winspd.Lib Winspd.Sys Winspd.Spec

/-! ## What a run says about it -/

/-- The request handed out for the SRB with extension `e`. -/
def UnitEvent.requestFor (e : Addr) (ev : UnitEvent) : Option Request :=
  ev.handed.filter fun r => r.1.hint = e

/-- Does the call take in an answer for extension `e`? -/
def completesExt (e : Addr) : IoqCall → Bool
  | .complete e' _ _ => e' = e
  | _ => false

/-- The data buffer of the answer that was taken in for extension `e`. -/
def UnitEvent.answerFor (e : Addr) (ev : UnitEvent) : Option (Option (List UInt8)) :=
  match ev.op with
  | .transactRsp _ dataBuffer => if ev.calls.any (completesExt e) then some dataBuffer else none
  | _ => none

def requestsFor (e : Addr) (ls : List UnitEvent) : List Request :=
  ls.filterMap (UnitEvent.requestFor e)

def answersFor (e : Addr) (ls : List UnitEvent) : List (Option (List UInt8)) :=
  ls.filterMap (UnitEvent.answerFor e)

/-- The operation neither cancels the item nor resets the queue. -/
def UnitOp.Spares (i : Item) : UnitOp → Prop
  | .startIo _ srb _ => ¬ ResetsQueue srb
  | .cancel j => j ≠ i
  | .reset _ => False
  | _ => True

/-- If the operation answers extension `e`, it answers GOOD. -/
def UnitOp.Good (e : Addr) : UnitOp → Prop
  | .transactRsp rsp _ => rsp.hint = e → rsp.status.scsiStatus = scsistatGood
  | _ => True

variable {unit : StorageUnitParams} {disk : Disk} {s s' : UnitSys} {q q' : Queue} {i j : Item}
  {ev : UnitEvent} {ls : List UnitEvent} {e : Addr}

theorem requestsFor_snoc :
    requestsFor e (ls ++ [ev]) = requestsFor e ls ++ (ev.requestFor e).toList := by
  rw [requestsFor, List.filterMap_append]
  cases hreq : ev.requestFor e <;> simp [requestsFor, hreq]

theorem answersFor_snoc :
    answersFor e (ls ++ [ev]) = answersFor e ls ++ (ev.answerFor e).toList := by
  rw [answersFor, List.filterMap_append]
  cases hans : ev.answerFor e <;> simp [answersFor, hans]

theorem requestFor_of_none (h : ev.handed = none) : ev.requestFor e = none := by
  rw [UnitEvent.requestFor, h]
  rfl

theorem requestFor_of_some {r : Request} (h : ev.handed = some r) :
    ev.requestFor e = if r.1.hint = e then some r else none := by
  rw [UnitEvent.requestFor, h, Option.filter_some]
  simp only [decide_eq_true_eq]

theorem answerFor_of_complete {rsp : TransactRsp} {buf : Option (List UInt8)} {status : UInt8}
    {e : Addr} {rest : List IoqCall} (hop : ev.op = .transactRsp rsp buf)
    (hcalls : ev.calls = .complete i.ext i.srb status :: rest)
    (hrest : ∀ c ∈ rest, completesExt e c = false) :
    ev.answerFor e = if i.ext = e then some buf else none := by
  have hany : ev.calls.any (completesExt e) = decide (i.ext = e) := by
    rw [hcalls, List.any_cons, List.any_eq_false.mpr (by simpa using hrest), Bool.or_false]
    rfl
  rw [UnitEvent.answerFor, hop]
  simp only [hany, decide_eq_true_eq]

theorem answerFor_of_settled {done : List Item} {own : List IoqCall}
    (hcalls : ev.calls = aborts done ++ own)
    (hown : ∀ c ∈ own, ∃ i ∈ ev.arrived, ∃ status, c = .srbComplete i.srb status) :
    ev.answerFor e = none := by
  have hany : ev.calls.any (completesExt e) = false := by
    rw [List.any_eq_false]
    intro c hc
    rw [hcalls] at hc
    obtain ⟨a, status, rfl⟩ := srbComplete_of_settled hown hc
    simp [completesExt]
  unfold UnitEvent.answerFor
  split
  · rw [hany]
    rfl
  · rfl

theorem UnitGood.notMem_completed (hg' : UnitGood s' q') (h : UnitStep disk s ev s')
    (hi : i ∈ q'.items) : i.srb ∉ ev.completed := by
  have hmem := hg'.items.mem_iff.mp hi
  rw [h.live, List.mem_filter] at hmem
  simpa using hmem.2

theorem mem_completed {a : Addr} {status : UInt8} (h : .srbComplete a status ∈ ev.calls) :
    a ∈ ev.completed := List.mem_filterMap.mpr ⟨_, h, rfl⟩

theorem UnitCase.posted_of_owed {a : Addr} {srb : Srb} {storResult : StorStatus}
    (hc : UnitCase disk s q ev s' q') (hstart : ev.op = .startIo a srb storResult)
    (howed : a ∉ ev.completed) :
    ∃ dataLength, PostOk disk.unit.storageUnitParams srb dataLength ∧
      (dataLength ≠ 0 → storResult = .success) ∧
      s'.mem = (s.mem.setSrb a srb).setExt srb.miniportContext
        (postedExt disk.unit.storageUnitParams a dataLength) ∧
      q'.pending = q.pending ++ [⟨srb.miniportContext, a⟩] := by
  cases hc with
  | @posted _ _ _ dataLength op _ _ ok stor mem pending =>
      rw [hstart] at op
      cases op
      exact ⟨dataLength, ok, stor, mem, pending⟩
  | settled _ calls _ arrived_own =>
      obtain ⟨status, hown⟩ :=
        arrived_own ⟨srb.miniportContext, a⟩ (by simp [UnitEvent.arrived, hstart])
      have hcall : .srbComplete a status ∈ ev.calls := by
        rw [calls]
        exact List.mem_append_right _ hown
      exact absurd (mem_completed hcall) howed
  | handed op => simp [hstart] at op
  | reposted op => simp [hstart] at op
  | finished op => simp [hstart] at op

/-! ## The five ways -/

theorem UnitOp.Spares.notMem {op : UnitOp} {done : List Item} (hs : op.Spares i)
    (ht : op.MayTake done) : i ∉ done := by
  cases op with
  | startIo a srb storResult =>
      rcases ht with h | rfl
      · exact absurd h hs
      · exact List.not_mem_nil
  | cancel j => exact fun hi => hs (List.mem_singleton.mp (ht hi)).symm
  | reset stop => exact hs.elim
  | transactReq buf =>
      obtain rfl : done = [] := ht
      exact List.not_mem_nil
  | transactRsp rsp buf =>
      obtain rfl : done = [] := ht
      exact List.not_mem_nil

/-- What a step does to a queued item. -/
inductive ItemStep (s : UnitSys) (q : Queue) (ev : UnitEvent) (s' : UnitSys) (q' : Queue)
    (i : Item) : Prop
  /-- Nothing. -/
  | untouched (requestFor : ev.requestFor i.ext = none) (answerFor : ev.answerFor i.ext = none)
      (srb : s'.mem.srb i.srb = s.mem.srb i.srb) (ext : s'.mem.ext i.ext = s.mem.ext i.ext)
      (pending : i ∈ q.pending → i ∈ q'.pending)
      (process : i ∈ q.process → i ∈ q'.process)
  /-- It was taken out. -/
  | aborted {done : List Item} (mem : i ∈ done) (takes : ev.op.MayTake done)
      (call : .srbComplete i.srb srbStatusAborted ∈ ev.calls)
      (status : ∀ status, .srbComplete i.srb status ∈ ev.calls → status = srbStatusAborted)
  /-- It was made a request and handed out. -/
  | handed {buf : List UInt8} {t : Transact} (op : ev.op = .transactReq buf)
      (requestFor : ev.requestFor i.ext = some (t.req, t.dataBuffer))
      (answerFor : ev.answerFor i.ext = none)
      (prepare : spdSrbExecuteScsiPrepare i.ext i.srb ⟨s.mem, .zero, buf⟩ = some t)
      (mem : s'.mem = s.mem) (pending : i ∈ q.pending) (process : i ∈ q'.process)
  /-- An answer to it was taken in, and it is pending again. -/
  | reposted {rsp : TransactRsp} {buf : Option (List UInt8)} (op : ev.op = .transactRsp rsp buf)
      (hint : rsp.hint = i.ext) (requestFor : ev.requestFor i.ext = none)
      (answerFor : ev.answerFor i.ext = some buf)
      (complete : spdSrbExecuteScsiComplete rsp buf i.ext i.srb s.mem =
        some (srbStatusPending, s'.mem))
      (process : i ∈ q.process) (pending : i ∈ q'.pending)
  /-- An answer to it was taken in, and it was completed. -/
  | finished {rsp : TransactRsp} {buf : Option (List UInt8)} {status : UInt8}
      (op : ev.op = .transactRsp rsp buf) (hint : rsp.hint = i.ext)
      (calls : ev.calls = [.complete i.ext i.srb status, .srbComplete i.srb status])
      (complete : spdSrbExecuteScsiComplete rsp buf i.ext i.srb s.mem = some (status, s'.mem))
      (status_ne : status ≠ srbStatusPending) (process : i ∈ q.process)

/-- A step that works on another item leaves this one where it is. -/
theorem itemStep_other (hreq : ev.requestFor i.ext = none) (hans : ev.answerFor i.ext = none)
    (hmem : s'.mem.srb i.srb = s.mem.srb i.srb ∧ s'.mem.ext i.ext = s.mem.ext i.ext)
    (hp : i ∈ q.pending → i ∈ q'.pending) (hr : i ∈ q.process → i ∈ q'.process) :
    ItemStep s q ev s' q' i := .untouched hreq hans hmem.1 hmem.2 hp hr

theorem itemStep_settled {done : List Item} {own : List IoqCall}
    (hinv : UnitInv disk.unit.storageUnitParams s q) (h : UnitStep disk s ev s')
    (hi : i ∈ q.items) (hhanded : ev.handed = none) (hcalls : ev.calls = aborts done ++ own)
    (hown : ∀ c ∈ own, ∃ i ∈ ev.arrived, ∃ status, c = .srbComplete i.srb status)
    (hrem : Removed q q' done) (htakes : ev.op.MayTake done)
    (hmem : ∀ i ∈ q.items, s'.mem.srb i.srb = s.mem.srb i.srb ∧
      s'.mem.ext i.ext = s.mem.ext i.ext) : ItemStep s q ev s' q' i := by
  have hw := hinv.good.refines.wf
  by_cases hdone : i ∈ done
  · refine .aborted hdone htakes ?_ fun status hcall => ?_
    · rw [hcalls]
      exact List.mem_append_left _ (List.mem_map_of_mem hdone)
    rw [hcalls] at hcall
    rcases List.mem_append.mp hcall with hcall | hcall
    · obtain ⟨j, -, heq⟩ := List.mem_map.mp hcall
      rw [IoqCall.srbComplete.injEq] at heq
      exact heq.2.symm
    · -- the SRB that arrived is not this one
      obtain ⟨j, hj, _, heq⟩ := hown _ hcall
      rw [IoqCall.srbComplete.injEq] at heq
      have hallowed := h.allowed
      unfold UnitEvent.arrived at hj
      split at hj
      · next hop =>
          rw [hop] at hallowed
          rw [List.mem_singleton] at hj
          subst hj
          exact absurd heq.1 (hallowed.2.2.1 i (hinv.good.items.mem_iff.mp hi)).1
      · cases hj
  · exact itemStep_other (requestFor_of_none hhanded)
      (answerFor_of_settled hcalls hown) (hmem i hi)
      (fun hp => hrem.mem_pending hw hp hdone) (fun hr => hrem.mem_process hw hr hdone)

theorem UnitCase.itemStep (hu : UnitOk disk.unit.storageUnitParams)
    (hinv : UnitInv disk.unit.storageUnitParams s q) (h : UnitStep disk s ev s')
    (hc : UnitCase disk s q ev s' q') (hi : i ∈ q.items) : ItemStep s q ev s' q' i := by
  have hallowed := h.allowed
  cases hc with
  | @posted a srb storResult dataLength op calls handed _ _ mem pending process =>
      rw [op] at hallowed
      obtain ⟨hs, he⟩ := hallowed.2.2.1 i (hinv.good.items.mem_iff.mp hi)
      refine itemStep_other (requestFor_of_none handed) (by rw [UnitEvent.answerFor, op]) ?_
        (fun hp => ?_) (fun hr => ?_)
      · rw [mem]
        exact ⟨Function.update_of_ne hs _ _, Function.update_of_ne he _ _⟩
      · rw [pending]
        exact List.mem_append_left _ hp
      · rwa [process]
  | settled handed calls own_arrived _ removed takes _ mem =>
      exact itemStep_settled hinv h hi handed calls own_arrived removed takes mem
  | @handed buf j t op calls handed prepare mem pending process =>
      rw [op] at hallowed
      have hjp : j ∈ q.pending := by
        rw [pending]
        exact List.mem_cons_self
      have hj : j ∈ q.items := List.mem_append_left _ hjp
      obtain ⟨dataLength, ht⟩ := hinv.transfers j hj
      obtain ⟨t', hprep, hhint, -⟩ := ht.prepare hu hallowed
      rw [prepare, Option.some.injEq] at hprep
      subst hprep
      have hreq := requestFor_of_some (e := i.ext) handed
      have hans : ev.answerFor i.ext = none := by rw [UnitEvent.answerFor, op]
      by_cases hji : j = i
      · subst hji
        rw [if_pos hhint] at hreq
        exact .handed op hreq hans prepare mem hjp (by simp [process])
      · rw [if_neg fun heq => (hinv.good.ne_of_ne hi hj hji).2 (hhint.symm.trans heq)] at hreq
        refine itemStep_other hreq hans (by rw [mem]; exact ⟨rfl, rfl⟩) (fun hp => ?_)
          (fun hr => ?_)
        · rw [pending] at hp
          exact (List.mem_cons.mp hp).resolve_left fun h => hji h.symm
        · rw [process]
          exact List.mem_append_left _ hr
  | @reposted rsp buf j op calls handed hint mem_process complete pending process =>
      rw [op] at hallowed
      have hreq := requestFor_of_none (e := i.ext) handed
      have hans := answerFor_of_complete (e := i.ext) op calls (by simp)
      have hj : j ∈ q.items := List.mem_append_right _ mem_process
      by_cases hji : j = i
      · subst hji
        rw [if_pos rfl] at hans
        exact .reposted op hint.symm hreq hans complete mem_process (by simp [pending])
      · rw [if_neg fun hext => (hinv.good.ne_of_ne hj hi (Ne.symm hji)).2 hext.symm] at hans
        refine itemStep_other hreq hans (hinv.complete_frame hallowed hj complete hi (Ne.symm hji))
          (fun hp => ?_) (fun hr => ?_)
        · rw [pending]
          exact List.mem_cons_of_mem _ hp
        · rw [process]
          exact (List.mem_erase_of_ne (Ne.symm hji)).mpr hr
  | @finished rsp buf j status op calls handed hint mem_process complete hne pending process =>
      rw [op] at hallowed
      have hans := answerFor_of_complete (e := i.ext) op calls (by simp [completesExt])
      have hj : j ∈ q.items := List.mem_append_right _ mem_process
      by_cases hji : j = i
      · subst hji
        exact .finished op hint.symm calls complete hne mem_process
      · rw [if_neg fun hext => (hinv.good.ne_of_ne hj hi (Ne.symm hji)).2 hext.symm] at hans
        refine itemStep_other (requestFor_of_none handed) hans
          (hinv.complete_frame hallowed hj complete hi (Ne.symm hji)) (fun hp => ?_)
          (fun hr => ?_)
        · rwa [pending]
        · rw [process]
          exact (List.mem_erase_of_ne (Ne.symm hji)).mpr hr

theorem UnitInv.itemStep (hu : UnitOk disk.unit.storageUnitParams)
    (hinv : UnitInv disk.unit.storageUnitParams s q) (h : UnitStep disk s ev s')
    (hi : i ∈ q.items) :
    ∃ q', UnitInv disk.unit.storageUnitParams s' q' ∧ ItemStep s q ev s' q' i ∧
      ∀ dataLength, Transfer disk.unit.storageUnitParams s.mem i dataLength → i ∈ q'.items →
        Transfer disk.unit.storageUnitParams s'.mem i dataLength := by
  obtain ⟨q', hinv', hc⟩ := hinv.step h
  exact ⟨q', hinv', hc.itemStep hu hinv h hi, fun _ ht hi' => hinv.transfer h hc hi hi' ht⟩

theorem mem_items_of_untouched (hi : i ∈ q.items) (hp : i ∈ q.pending → i ∈ q'.pending)
    (hr : i ∈ q.process → i ∈ q'.process) : i ∈ q'.items := by
  rcases List.mem_append.mp hi with hi | hi
  · exact List.mem_append_left _ (hp hi)
  · exact List.mem_append_right _ (hr hi)

theorem UnitInv.answerFor {rsp : TransactRsp} {buf : Option (List UInt8)}
    (hinv : UnitInv unit s q) (h : UnitStep disk s ev s') (hop : ev.op = .transactRsp rsp buf)
    (hi : i ∈ q.process) (hhint : rsp.hint = i.ext) : ev.answerFor i.ext = some buf := by
  have htaken : ∀ {j : Item} {status : UInt8} {rest : List IoqCall}, j.ext = rsp.hint →
      ev.calls = .complete j.ext j.srb status :: rest →
      (∀ c ∈ rest, completesExt i.ext c = false) → ev.answerFor i.ext = some buf := by
    intro j status rest hj hcalls hrest
    rw [answerFor_of_complete hop hcalls hrest, if_pos (hj.trans hhint)]
  obtain ⟨q', -, hc⟩ := hinv.good.step h
  cases hc with
  | posted op => simp [hop] at op
  | settled _ _ _ _ _ _ stale =>
      exact absurd (hhint ▸ List.mem_map_of_mem hi) (stale rsp buf hop)
  | handed op => simp [hop] at op
  | reposted op calls _ hint =>
      rw [hop] at op
      cases op
      exact htaken hint calls (by simp)
  | finished op calls _ hint =>
      rw [hop] at op
      cases op
      exact htaken hint calls (by simp [completesExt])

end Winspd.Proofs
