import Winspd.Proofs.IoqRun

/-!
# Which request an answer is for

User mode answers a request with its hint, and the hint is the address of the
SRB extension. StorPort gives the address to another SRB once the first is
completed, so an address alone does not say which request an answer is for.
`Tag` does: it counts the SRBs that were posted with an address, and the chunks
answered of the present one. The driver has no tags; they are kept here beside
the queue, together with the requests user mode still owes an answer to.

An answer is applied to the request it was made for as long as no request is
handed out under a hint user mode already owes an answer for
(`spdIoq_answers`), and no longer. The queue does not see to that. A reset completes an SRB
whose request is out, its extension is posted again, and the next start hands
out a second request with the same hint: from there the older answer completes
the newer SRB (`spdIoq_answers_recycled`).
-/

namespace Winspd.Proofs

open Winspd.Lib Winspd.Sys Winspd.Spec

/-! ## Tags -/

/-- The SRBs posted with an extension so far, and the chunks answered of the
last one. -/
structure Tag where
  gen : Nat
  chunk : Nat
  deriving DecidableEq, Repr

/-- A request that was handed to user mode. -/
structure Handed where
  ext : Addr
  tag : Tag
  deriving DecidableEq, Repr

/-- The queue, the tags, and the requests user mode owes an answer to. -/
structure AnswerSys where
  sys : IoqSys
  tag : Addr → Tag
  owed : List Handed

/-- The tags after a call: a post begins a new SRB, an answer that was applied
ends a chunk. -/
def AnswerSys.tagAfter (s : AnswerSys) (ev : IoqEvent) : Addr → Tag :=
  match ev.op with
  | .post i =>
      if ev.status = .success then
        Function.update s.tag i.ext ⟨(s.tag i.ext).gen + 1, 0⟩
      else s.tag
  | .finish hint _ =>
      if ev.calls = [] then s.tag
      else Function.update s.tag hint ⟨(s.tag hint).gen, (s.tag hint).chunk + 1⟩
  | _ => s.tag

def AnswerSys.handed (s : AnswerSys) (ev : IoqEvent) : List Handed :=
  ev.calls.filterMap fun
    | .prepare ext _ => some ⟨ext, s.tag ext⟩
    | _ => none

inductive AnswerEvent
  | call (ev : IoqEvent)
  | answer (h : Handed) (ev : IoqEvent)

/-- Any call that is not an answer, or the answer to a request that is owed
one. -/
inductive AnswerStep : AnswerSys → AnswerEvent → AnswerSys → Prop
  | call {s : AnswerSys} {ev : IoqEvent} {sys : IoqSys}
      (hop : ∀ hint status, ev.op ≠ .finish hint status) (hstep : IoqStep s.sys ev sys) :
      AnswerStep s (.call ev) ⟨sys, s.tagAfter ev, s.owed ++ s.handed ev⟩
  | answer {s : AnswerSys} {h : Handed} {status : UInt8} {ev : IoqEvent} {sys : IoqSys}
      (howed : h ∈ s.owed) (hop : ev.op = .finish h.ext status) (hstep : IoqStep s.sys ev sys) :
      AnswerStep s (.answer h ev) ⟨sys, s.tagAfter ev, s.owed.erase h⟩

def AnswerSys.create (mem : SpdIoq) : AnswerSys := ⟨.create mem, fun _ => ⟨0, 0⟩, []⟩

/-- If the step runs `Complete` on an SRB, it is with the answer to the request
that was handed out for that SRB and that chunk. -/
def Answered (s : AnswerSys) : AnswerEvent → Prop
  | .call _ => True
  | .answer h ev =>
      ∀ ext srb status, .complete ext srb status ∈ ev.calls → h = ⟨ext, s.tag ext⟩

def nextExt (ioq : SpdIoq) : Option Addr :=
  if ioq.stopped then none
  else (ioq.listEntry.flink .pendingList).bind ListEntry.containingRecord

/-- If the call is a start, no request is owed an answer under the hint it
hands out. -/
def HintFree (s : AnswerSys) : AnswerEvent → Prop
  | .call ev =>
      ev.op = .start → ∀ e, nextExt s.sys.ioq = some e → ∀ h ∈ s.owed, h.ext ≠ e
  | .answer .. => True

/-- A step that never hands out a hint twice. -/
def CarefulStep (s : AnswerSys) (ev : AnswerEvent) (s' : AnswerSys) : Prop :=
  AnswerStep s ev s' ∧ HintFree s ev

variable {q q' : Queue} {ioq : SpdIoq} {s s' : AnswerSys} {ls : List AnswerEvent}
  {ev : AnswerEvent} {mem : SpdIoq}

theorem Refines.nextExt (hr : Refines ioq q) :
    nextExt ioq = if q.stopped then none else q.pending.head?.map Item.ext := by
  unfold Winspd.Proofs.nextExt
  rw [hr.stopped, hr.lists.first.flink_head]
  cases q.pending <;> rfl

/-! ## The invariant -/

/-- What the careful runs keep: a hint is owed at most one answer; the answer
owed for a processed item is the one for its present tag; and an answer owed
for a pending item's hint is for an SRB posted before it. -/
structure Owing (s : AnswerSys) (q : Queue) : Prop where
  good : Good s.sys q
  nodup : (s.owed.map Handed.ext).Nodup
  process : ∀ h ∈ s.owed, h.ext ∈ q.process.map Item.ext → h.tag = s.tag h.ext
  gen_le : ∀ h ∈ s.owed, h.tag.gen ≤ (s.tag h.ext).gen
  pending : ∀ h ∈ s.owed, h.ext ∈ q.pending.map Item.ext → h.tag.gen < (s.tag h.ext).gen

theorem owing_create (mem : SpdIoq) : Owing (.create mem) .empty :=
  ⟨good_create mem, List.nodup_nil, by simp [AnswerSys.create], by simp [AnswerSys.create],
    by simp [AnswerSys.create]⟩

/-- A call that hands nothing out, begins no SRB and only takes items away. -/
theorem Owing.mono (ho : Owing s q) {sys : IoqSys} (hg : Good sys q')
    (hp : q'.pending ⊆ q.pending) (hr : q'.process ⊆ q.process) :
    Owing ⟨sys, s.tag, s.owed⟩ q' where
  good := hg
  nodup := ho.nodup
  process h hh hmem := ho.process h hh (List.map_subset _ hr hmem)
  gen_le := ho.gen_le
  pending h hh hmem := ho.pending h hh (List.map_subset _ hp hmem)

theorem Owing.post (ho : Owing s q) {i : Item} {sys : IoqSys}
    (hg : Good sys q') (hp : q'.pending = q.pending ++ [i]) (hr : q'.process = q.process) :
    Owing ⟨sys, Function.update s.tag i.ext ⟨(s.tag i.ext).gen + 1, 0⟩, s.owed⟩ q' where
  good := hg
  nodup := ho.nodup
  process h hh hmem := by
    -- the new item is pending, so no processed item has its extension
    have hne : h.ext ≠ i.ext := fun heq => by
      have hnd := hg.refines.lists.nodup
      rw [heq] at hmem
      exact (List.nodup_append.mp hnd).2.2 i.ext (by rw [hp]; simp) i.ext hmem rfl
    simp only [Function.update_of_ne hne]
    exact ho.process h hh (hr ▸ hmem)
  gen_le h hh := by
    have hle := ho.gen_le h hh
    by_cases heq : h.ext = i.ext
    · simp only [heq, Function.update_self] at hle ⊢
      omega
    · simpa only [Function.update_of_ne heq] using hle
  pending h hh hmem := by
    by_cases heq : h.ext = i.ext
    · have hle := ho.gen_le h hh
      simp only [heq, Function.update_self] at hle ⊢
      omega
    · simp only [Function.update_of_ne heq]
      rw [hp, List.map_append, List.mem_append] at hmem
      exact ho.pending h hh (hmem.resolve_right (by simpa using heq))

theorem Owing.start (ho : Owing s q) {i : Item} {rest : List Item} {sys : IoqSys}
    (hg : Good sys q') (hp : q.pending = i :: rest) (hp' : q'.pending = rest)
    (hr' : q'.process = q.process ++ [i]) (hfree : ∀ h ∈ s.owed, h.ext ≠ i.ext) :
    Owing ⟨sys, s.tag, s.owed ++ [⟨i.ext, s.tag i.ext⟩]⟩ q' where
  good := hg
  nodup := by
    rw [List.map_append, List.nodup_append]
    refine ⟨ho.nodup, by simp, ?_⟩
    intro e he e' he' hee
    obtain ⟨h, hh, rfl⟩ := List.mem_map.mp he
    simp only [List.map_cons, List.map_nil, List.mem_singleton] at he'
    exact hfree h hh (hee.trans he')
  process h hh hmem := by
    rcases List.mem_append.mp hh with hh | hh
    · rw [hr', List.map_append, List.mem_append] at hmem
      exact ho.process h hh (hmem.resolve_right (by simpa using hfree h hh))
    · rw [List.mem_singleton] at hh
      subst hh
      rfl
  gen_le h hh := by
    rcases List.mem_append.mp hh with hh | hh
    · exact ho.gen_le h hh
    · rw [List.mem_singleton] at hh
      subst hh
      exact Nat.le_refl _
  pending h hh hmem := by
    rcases List.mem_append.mp hh with hh | hh
    · refine ho.pending h hh ?_
      rw [hp, List.map_cons, List.mem_cons, ← hp']
      exact .inr hmem
    · rw [List.mem_singleton] at hh
      subst hh
      have hnd := hg.refines.lists.nodup
      exact absurd rfl ((List.nodup_append.mp hnd).2.2 i.ext hmem i.ext (by rw [hr']; simp))

theorem Owing.finish (ho : Owing s q) {h : Handed} {sys : IoqSys} (hh : h ∈ s.owed)
    (hg : Good sys q')
    (hp : ∀ e ∈ q'.pending.map Item.ext, e = h.ext ∨ e ∈ q.pending.map Item.ext)
    (hr : q'.process ⊆ q.process) (chunk : Nat) :
    Owing ⟨sys, Function.update s.tag h.ext ⟨(s.tag h.ext).gen, chunk⟩, s.owed.erase h⟩
      q' := by
  -- the one answer owed for the hint has been given
  have hne : ∀ h' ∈ s.owed.erase h, h' ∈ s.owed ∧ h'.ext ≠ h.ext := by
    intro h' hh'
    have hmem := List.mem_of_mem_erase hh'
    refine ⟨hmem, fun heq => ?_⟩
    have hsame : h' = h := List.inj_on_of_nodup_map ho.nodup hmem hh heq
    rw [hsame] at hh'
    exact ((ho.nodup.of_map _).mem_erase_iff.mp hh').1 rfl
  refine ⟨hg, ho.nodup.sublist (List.erase_sublist.map _), ?_, ?_, ?_⟩
  · intro h' hh' hmem
    obtain ⟨hmem', hne'⟩ := hne h' hh'
    simp only [Function.update_of_ne hne']
    exact ho.process h' hmem' (List.map_subset _ hr hmem)
  · intro h' hh'
    obtain ⟨hmem', hne'⟩ := hne h' hh'
    simp only [Function.update_of_ne hne']
    exact ho.gen_le h' hmem'
  · intro h' hh' hmem
    obtain ⟨hmem', hne'⟩ := hne h' hh'
    simp only [Function.update_of_ne hne']
    exact ho.pending h' hmem' ((hp _ hmem).resolve_left hne')

/-- What a call that is not an answer does: nothing with tags or answers, a
post, or a start. -/
theorem Owing.call (ho : Owing s q) {ev : IoqEvent} {sys : IoqSys}
    (hop : ∀ hint status, ev.op ≠ .finish hint status) (hfree : HintFree s (.call ev))
    (hstep : IoqStep s.sys ev sys) :
    ∃ q', Owing ⟨sys, s.tagAfter ev, s.owed ++ s.handed ev⟩ q' := by
  obtain ⟨q', done, hg', hspec, -⟩ := ho.good.step hstep
  obtain ⟨op, calls, status⟩ := ev
  refine ⟨q', ?_⟩
  cases op with
  | post i =>
      by_cases hst : q.stopped = true
      · rw [IoqOp.spec, show q.post i = (q, .cancelled) from if_pos hst] at hspec
        cases hspec
        simp only [AnswerSys.handed, AnswerSys.tagAfter, List.filterMap_nil, List.append_nil,
          reduceCtorEq, if_false]
        exact ho.mono hg' (List.Subset.refl _) (List.Subset.refl _)
      · rw [IoqOp.spec, Queue.post_of_running (by simpa using hst)] at hspec
        cases hspec
        simp only [AnswerSys.handed, AnswerSys.tagAfter, List.filterMap_nil, List.append_nil,
          if_true]
        exact ho.post hg' rfl rfl
  | start =>
      simp only [IoqOp.spec, Option.map_eq_some_iff] at hspec
      obtain ⟨⟨q₁, w, calls₁, status₁⟩, hspec, heq⟩ := hspec
      cases heq
      obtain ⟨-, rfl, -, rfl, -⟩ | ⟨-, -, rfl, -, rfl, -⟩ |
        ⟨i, rest, hst, hp, -, rfl, rfl, -⟩ := Queue.start_cases hspec
      · simp only [AnswerSys.handed, AnswerSys.tagAfter, List.filterMap_nil, List.append_nil]
        exact ho.mono hg' (List.Subset.refl _) (List.Subset.refl _)
      · simp only [AnswerSys.handed, AnswerSys.tagAfter, List.filterMap_nil, List.append_nil]
        exact ho.mono hg' (List.Subset.refl _) (List.Subset.refl _)
      · refine ho.start hg' hp rfl rfl fun h hh => hfree rfl i.ext ?_ h hh
        simp [ho.good.refines.nextExt, hst, hp]
  | finish hint status => exact absurd rfl (hop hint status)
  | cancel i =>
      simp only [IoqOp.spec, Option.some.injEq] at hspec
      unfold Queue.cancel at hspec
      split at hspec
      · cases hspec
        simp only [AnswerSys.handed, AnswerSys.tagAfter, List.filterMap_nil, List.append_nil]
        exact ho.mono hg' (List.Subset.refl _) (List.Subset.refl _)
      · cases hspec
        simp only [AnswerSys.handed, AnswerSys.tagAfter, List.filterMap_cons, List.filterMap_nil,
          List.append_nil]
        exact ho.mono hg' List.erase_subset List.erase_subset
  | reset stop =>
      simp only [IoqOp.spec, Option.some.injEq, Prod.mk.injEq] at hspec
      obtain ⟨rfl, rfl, rfl⟩ := hspec
      have hnone : s.handed ⟨.reset stop, (q.reset stop).2, .success⟩ = [] := by
        unfold AnswerSys.handed Queue.reset
        split
        · rfl
        · simp
      rw [hnone, List.append_nil]
      refine ho.mono hg' ?_ ?_
      · unfold Queue.reset
        split <;> simp
      · unfold Queue.reset
        split <;> simp

/-- What an answer does, and that it is applied, if at all, to the request it
is for. -/
theorem Owing.answer (ho : Owing s q) {h : Handed} {status : UInt8} {ev : IoqEvent}
    {sys : IoqSys} (hh : h ∈ s.owed) (hop : ev.op = .finish h.ext status)
    (hstep : IoqStep s.sys ev sys) :
    Answered s (.answer h ev) ∧ ∃ q', Owing ⟨sys, s.tagAfter ev, s.owed.erase h⟩ q' := by
  obtain ⟨q', done, hg', hspec, -⟩ := ho.good.step hstep
  obtain ⟨op, calls, st⟩ := ev
  obtain rfl : op = .finish h.ext status := hop
  simp only [IoqOp.spec, Option.map_eq_some_iff] at hspec
  obtain ⟨⟨q₁, w, calls₁⟩, hspec, heq⟩ := hspec
  cases heq
  obtain ⟨-, rfl, -, rfl⟩ | ⟨i, st, -, hl, -, hcase⟩ := Queue.finish_cases hspec
  · refine ⟨by simp [Answered], q₁, ?_⟩
    have ho' := ho.finish hh hg' (fun e he => .inr he) (List.Subset.refl _) (s.tag h.ext).chunk
    simpa [AnswerSys.tagAfter] using ho'
  · obtain ⟨hi, hie⟩ := ho.good.refines.wf.lookup_eq_some.mp hl
    have htag : h.tag = s.tag i.ext := by
      rw [hie]
      exact ho.process h hh (by rw [← hie]; exact List.mem_map_of_mem hi)
    have hans : Answered s (.answer h ⟨.finish h.ext status, calls₁, .success⟩) := by
      intro ext srb st' hmem
      obtain rfl : ext = i.ext := by
        obtain ⟨-, -, rfl⟩ | ⟨-, -, rfl⟩ := hcase <;> simp_all
      cases h
      simp_all
    refine ⟨hans, q₁, ?_⟩
    have hcalls : calls₁ ≠ [] := by
      obtain ⟨-, -, rfl⟩ | ⟨-, -, rfl⟩ := hcase <;> simp
    simp only [AnswerSys.tagAfter, hcalls, if_false]
    refine ho.finish hh hg' ?_ ?_ _
    · obtain ⟨-, rfl, -⟩ | ⟨-, rfl, -⟩ := hcase
      · intro e he
        rw [List.map_cons, List.mem_cons, hie] at he
        exact he
      · exact fun e he => .inr he
    · obtain ⟨-, rfl, -⟩ | ⟨-, rfl, -⟩ := hcase <;> exact List.erase_subset

theorem careful_inv (hr : Run CarefulStep (.create mem) ls s) : ∃ q, Owing s q := by
  refine hr.inv (I := fun s => ∃ q, Owing s q) ⟨.empty, owing_create mem⟩ ?_
  rintro s ev s' ⟨q, ho⟩ ⟨hstep, hfree⟩
  cases hstep with
  | call hop hstep => exact ho.call hop hfree hstep
  | answer hh hop hstep => exact (ho.answer hh hop hstep).2

/-! ## Answers -/

theorem careful_answered (hr : Run CarefulStep (.create mem) ls s) (h : AnswerStep s ev s') :
    Answered s ev := by
  obtain ⟨q, ho⟩ := careful_inv hr
  cases h with
  | call _ _ => trivial
  | answer hh hop hstep => exact (ho.answer hh hop hstep).1

/-- A start that hands out a hint which is owed an answer can be followed by
that answer. -/
theorem careful_exact (hr : Run CarefulStep (.create mem) ls s) {ev : IoqEvent}
    (h : AnswerStep s (.call ev) s') (hdouble : ¬ HintFree s (.call ev)) :
    ∃ h ev' s'', AnswerStep s' (.answer h ev') s'' ∧ ¬ Answered s' (.answer h ev') := by
  obtain ⟨q, ho⟩ := careful_inv hr
  simp only [HintFree, not_forall, not_not] at hdouble
  obtain ⟨hop, e, hnext, h₀, hh₀, rfl⟩ := hdouble
  cases h with
  | call _ hstep =>
      obtain ⟨q', done, hg', hspec, -⟩ := ho.good.step hstep
      obtain ⟨op, calls, status⟩ := ev
      obtain rfl : op = .start := hop
      simp only [IoqOp.spec, Option.map_eq_some_iff] at hspec
      obtain ⟨⟨q₁, w, calls₁, status₁⟩, hspec, heq⟩ := hspec
      cases heq
      rw [ho.good.refines.nextExt] at hnext
      obtain ⟨hst, -⟩ | ⟨-, hp, -⟩ | ⟨i, rest, hst, hp, -, rfl, rfl, rfl⟩ :=
        Queue.start_cases hspec
      · simp [hst] at hnext
      · simp [hp] at hnext
      · have hie : i.ext = h₀.ext := by simpa [hst, hp] using hnext
        have hold := ho.pending h₀ hh₀ (by rw [hp, ← hie]; simp)
        have hl := hg'.refines.wf.lookup_eq_some.mpr
          ⟨List.mem_append_right q.process (List.mem_singleton_self i), hie⟩
        obtain ⟨sys', hstep', -⟩ := hg'.exec
          ⟨.finish h₀.ext srbStatusSuccess, [.complete i.ext i.srb srbStatusSuccess,
            .srbComplete i.srb srbStatusSuccess], .success⟩ trivial (by
              rw [IoqOp.spec, Queue.finish_of_lookup hl hst rfl (by decide)]
              rfl)
        refine ⟨h₀, _, _, .answer (List.mem_append_left _ hh₀) rfl hstep', fun hans => ?_⟩
        have htag := hans i.ext i.srb srbStatusSuccess (by simp)
        rw [htag] at hold
        exact absurd hold (Nat.lt_irrefl _)

/-- As long as no start hands out a hint that is owed an answer, every answer
that is applied is applied to the SRB, and the chunk, its request was handed
out for. The condition is the exact one: after a start that breaks it the older
answer can come next, and it is applied to an SRB its request was not handed
out for. -/
theorem spdIoq_answers (hr : Run CarefulStep (.create mem) ls s) :
    (∀ ev s', AnswerStep s ev s' → Answered s ev) ∧
      ∀ ev s', AnswerStep s (.call ev) s' → ¬ HintFree s (.call ev) →
        ∃ h ev' s'', AnswerStep s' (.answer h ev') s'' ∧ ¬ Answered s' (.answer h ev') :=
  ⟨fun _ _ => careful_answered hr, fun _ _ => careful_exact hr⟩

/-- One request and its answer. -/
theorem spdIoq_answers_first :
    ∃ (ls : List AnswerEvent) (s : AnswerSys) (h : Handed) (ev : IoqEvent) (s' : AnswerSys),
      Run CarefulStep (.create zeroedIoq) ls s ∧ AnswerStep s (.answer h ev) s' ∧
        ev.completed = [0x2000] ∧ Answered s (.answer h ev) := by
  obtain ⟨s₁, h₁, hg₁⟩ := (good_create zeroedIoq).exec
    ⟨.post ⟨0x1000, 0x2000⟩, [], .success⟩ ⟨by decide, by simp [IoqSys.create]⟩ rfl
  obtain ⟨s₂, h₂, hg₂⟩ := hg₁.exec
    ⟨.start, [.prepare 0x1000 0x2000], .success⟩ trivial rfl
  obtain ⟨s₃, h₃, -⟩ := hg₂.exec
    ⟨.finish 0x1000 srbStatusSuccess, [.complete 0x1000 0x2000 srbStatusSuccess,
      .srbComplete 0x2000 srbStatusSuccess], .success⟩ trivial rfl
  have hc₁ : CarefulStep (.create zeroedIoq) (.call _) _ :=
    ⟨.call (by simp) h₁, fun hop => by cases hop⟩
  have hc₂ : CarefulStep
      ⟨s₁, (AnswerSys.create zeroedIoq).tagAfter ⟨.post ⟨0x1000, 0x2000⟩, [], .success⟩,
        []⟩
      (.call ⟨.start, [.prepare 0x1000 0x2000], .success⟩) _ :=
    ⟨.call (by simp) h₂, by simp [HintFree]⟩
  have hrun := (Run.single hc₁).snoc hc₂
  obtain ⟨hall, -⟩ := spdIoq_answers hrun
  refine ⟨_, _, ⟨0x1000, ⟨1, 0⟩⟩, _, _, hrun, .answer ?_ rfl h₃, rfl,
    hall _ _ (.answer ?_ rfl h₃)⟩
  all_goals simp [AnswerSys.create, AnswerSys.handed, AnswerSys.tagAfter]

/-- Two SRBs with one extension, a reset between them: the answer to the
request of the first completes the second. -/
theorem spdIoq_answers_recycled :
    ∃ (ls : List AnswerEvent) (s : AnswerSys) (h : Handed) (ev : IoqEvent) (s' : AnswerSys),
      Run AnswerStep (.create zeroedIoq) ls s ∧ AnswerStep s (.answer h ev) s' ∧
        ¬ Answered s (.answer h ev) := by
  obtain ⟨s₁, h₁, hg₁⟩ := (good_create zeroedIoq).exec
    ⟨.post ⟨0x1000, 0x2000⟩, [], .success⟩ ⟨by decide, by simp [IoqSys.create]⟩ rfl
  obtain ⟨s₂, h₂, hg₂⟩ := hg₁.exec
    ⟨.start, [.prepare 0x1000 0x2000], .success⟩ trivial rfl
  obtain ⟨s₃, h₃, hg₃⟩ := hg₂.exec
    ⟨.reset false, [.srbComplete 0x2000 srbStatusAborted], .success⟩ trivial rfl
  have hlive : s₃.live = [] := List.perm_nil.mp hg₃.items.symm
  obtain ⟨s₄, h₄, hg₄⟩ := hg₃.exec
    ⟨.post ⟨0x1000, 0x3000⟩, [], .success⟩ ⟨by decide, by simp [hlive]⟩ rfl
  obtain ⟨s₅, h₅, hg₅⟩ := hg₄.exec
    ⟨.start, [.prepare 0x1000 0x3000], .success⟩ trivial rfl
  obtain ⟨s₆, h₆, -⟩ := hg₅.exec
    ⟨.finish 0x1000 srbStatusSuccess, [.complete 0x1000 0x3000 srbStatusSuccess,
      .srbComplete 0x3000 srbStatusSuccess], .success⟩ trivial rfl
  have hrun : Run AnswerStep (.create zeroedIoq) _ _ :=
    ((((Run.single (.call (by simp) h₁)).snoc (.call (by simp) h₂)).snoc
      (.call (by simp) h₃)).snoc (.call (by simp) h₄)).snoc (.call (by simp) h₅)
  -- the request of the first SRB is still owed its answer
  refine ⟨_, _, ⟨0x1000, ⟨1, 0⟩⟩, _, _, hrun, .answer ?_ rfl h₆, fun hans => ?_⟩
  · simp [AnswerSys.handed, AnswerSys.tagAfter, AnswerSys.create]
  · have htag := hans 0x1000 0x3000 srbStatusSuccess (by simp)
    simp [AnswerSys.tagAfter, AnswerSys.create] at htag

end Winspd.Proofs
