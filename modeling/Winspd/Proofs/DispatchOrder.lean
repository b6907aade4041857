import Winspd.Proofs.IoqRun

/-!
# The order of hand-outs

SRBs are inserted at both ends of `PendingList`: a post at the tail, the next
chunk of an SRB at the head. The list is therefore two blocks, the SRBs whose
next chunk is due, latest first, and then the SRBs that were never handed out,
in the order of their posts. `DispatchOrder` says so about the history, and
every call keeps it.

Hand-outs take the head. Whoever is handed out for the first time finds the
first block empty and no older SRB in the second, so that first hand-outs are
in the order of the posts and a next chunk is never overtaken.
-/

namespace Winspd.Proofs

open Winspd.Lib Winspd.Sys Winspd.Spec

/-! ## What a history says of an SRB -/

inductive Turn
  | posted
  | handed
  | again
  deriving DecidableEq, Repr

/-- The call accepts the SRB, hands it out, or puts it back for another
chunk. -/
def IoqEvent.turn (x : Item) (ev : IoqEvent) : Option Turn :=
  if x ∈ ev.accepted then some .posted
  else if .prepare x.ext x.srb ∈ ev.calls then some .handed
  else if .complete x.ext x.srb srbStatusPending ∈ ev.calls then some .again
  else none

/-- The last that happened to the SRB, and when. -/
def TurnAt (ls : List IoqEvent) (x : Item) (n : Nat) (turn : Turn) : Prop :=
  LastAt (IoqEvent.turn x) ls n turn

/-- The SRB was handed out since it was posted. -/
def HandedOut (ls : List IoqEvent) (x : Item) : Prop :=
  ∃ pre ev post, ls = pre ++ ev :: post ∧ .prepare x.ext x.srb ∈ ev.calls ∧
    ∀ ev' ∈ post, x ∉ ev'.accepted

/-- SRBs that were handed out and put back for another chunk, the latest
first. -/
structure AgainBlock (ls : List IoqEvent) (l : List Item) : Prop where
  turn : ∀ x ∈ l, HandedOut ls x ∧ ∃ n, TurnAt ls x n .again
  order : l.Pairwise fun x y => ∃ m n, TurnAt ls x m .again ∧ TurnAt ls y n .again ∧ n < m

/-- SRBs that were never handed out, in the order of their posts. -/
structure FreshBlock (ls : List IoqEvent) (l : List Item) : Prop where
  turn : ∀ x ∈ l, ¬ HandedOut ls x ∧ ∃ n, TurnAt ls x n .posted
  order : l.Pairwise fun x y => ∃ m n, TurnAt ls x m .posted ∧ TurnAt ls y n .posted ∧ m < n

def OutBlock (ls : List IoqEvent) (l : List Item) : Prop :=
  ∀ x ∈ l, HandedOut ls x ∧ ∃ n, TurnAt ls x n .handed

structure DispatchOrder (ls : List IoqEvent) (q : Queue) (again fresh : List Item) : Prop where
  pending : q.pending = again ++ fresh
  again_block : AgainBlock ls again
  fresh_block : FreshBlock ls fresh
  process : OutBlock ls q.process

variable {q q' : Queue} {s s' : IoqSys} {ls : List IoqEvent} {ev : IoqEvent} {mem : SpdIoq}
  {again fresh : List Item} {x : Item}

theorem HandedOut.keep (h : HandedOut ls x) (hev : x ∉ ev.accepted) :
    HandedOut (ls ++ [ev]) x := by
  obtain ⟨pre, ev₀, post, rfl, hprepare, hpost⟩ := h
  refine ⟨pre, ev₀, post ++ [ev], by simp, hprepare, fun ev' hev' => ?_⟩
  rcases List.mem_append.mp hev' with hev' | hev'
  · exact hpost ev' hev'
  · rwa [List.mem_singleton.mp hev']

theorem HandedOut.last (h : .prepare x.ext x.srb ∈ ev.calls) : HandedOut (ls ++ [ev]) x :=
  ⟨ls, ev, [], rfl, h, fun _ hev => absurd hev List.not_mem_nil⟩

theorem HandedOut.of_keep (h : HandedOut (ls ++ [ev]) x)
    (hev : .prepare x.ext x.srb ∉ ev.calls) : x ∉ ev.accepted ∧ HandedOut ls x := by
  obtain ⟨pre, ev₀, post, hls, hprepare, hpost⟩ := h
  cases post using List.reverseRecOn with
  | nil =>
      obtain ⟨-, hlast⟩ := List.append_inj' hls rfl
      rw [(List.cons.inj hlast).1] at hev
      exact absurd hprepare hev
  | append_singleton post ev₁ =>
      rw [← List.cons_append, ← List.append_assoc] at hls
      obtain ⟨rfl, hlast⟩ := List.append_inj' hls rfl
      rw [(List.cons.inj hlast).1]
      exact ⟨hpost ev₁ (by simp), pre, ev₀, post, rfl, hprepare, fun ev' hev' =>
        hpost ev' (by simp [hev'])⟩

theorem turn_eq_none : ev.turn x = none ↔ x ∉ ev.accepted ∧
    .prepare x.ext x.srb ∉ ev.calls ∧ .complete x.ext x.srb srbStatusPending ∉ ev.calls := by
  unfold IoqEvent.turn
  split
  · next h => simp [h]
  · next h =>
      split
      · next h' => simp [h']
      · next h' =>
          split
          · next h'' => simp [h'']
          · next h'' => simp [h, h', h'']

theorem turn_posted (h : x ∈ ev.accepted) : ev.turn x = some .posted := if_pos h

theorem turn_handed (hacc : ev.accepted = []) (h : .prepare x.ext x.srb ∈ ev.calls) :
    ev.turn x = some .handed := by
  rw [IoqEvent.turn, if_neg (by simp [hacc]), if_pos h]

theorem turn_again (hacc : ev.accepted = []) (hprepare : .prepare x.ext x.srb ∉ ev.calls)
    (h : .complete x.ext x.srb srbStatusPending ∈ ev.calls) : ev.turn x = some .again := by
  rw [IoqEvent.turn, if_neg (by simp [hacc]), if_neg hprepare, if_pos h]

/-! ## What keeps the order -/

section Keep
variable {l l' : List Item}

theorem againBlock_nil : AgainBlock ls [] := ⟨fun x hx => (by cases hx), List.Pairwise.nil⟩

theorem freshBlock_nil : FreshBlock ls [] := ⟨fun x hx => (by cases hx), List.Pairwise.nil⟩

theorem outBlock_nil : OutBlock ls [] := fun x hx => by cases hx

theorem AgainBlock.keep (h : AgainBlock ls l) (hsub : l'.Sublist l)
    (hturn : ∀ x ∈ l', ev.turn x = none) : AgainBlock (ls ++ [ev]) l' := by
  refine ⟨fun x hx => ?_, (h.order.sublist hsub).imp_of_mem fun {x y} hx hy hxy => ?_⟩
  · obtain ⟨hout, n, hn⟩ := h.turn x (hsub.subset hx)
    exact ⟨hout.keep (turn_eq_none.mp (hturn x hx)).1, n, hn.keep (hturn x hx)⟩
  · obtain ⟨m, n, hm, hn, hlt⟩ := hxy
    exact ⟨m, n, hm.keep (hturn x hx), hn.keep (hturn y hy), hlt⟩

theorem FreshBlock.keep (h : FreshBlock ls l) (hsub : l'.Sublist l)
    (hturn : ∀ x ∈ l', ev.turn x = none) : FreshBlock (ls ++ [ev]) l' := by
  refine ⟨fun x hx => ?_, (h.order.sublist hsub).imp_of_mem fun {x y} hx hy hxy => ?_⟩
  · obtain ⟨hout, n, hn⟩ := h.turn x (hsub.subset hx)
    exact ⟨fun hout' => hout (hout'.of_keep (turn_eq_none.mp (hturn x hx)).2.1).2, n,
      hn.keep (hturn x hx)⟩
  · obtain ⟨m, n, hm, hn, hlt⟩ := hxy
    exact ⟨m, n, hm.keep (hturn x hx), hn.keep (hturn y hy), hlt⟩

theorem OutBlock.keep (h : OutBlock ls l) (hsub : l' ⊆ l)
    (hturn : ∀ x ∈ l', ev.turn x = none) : OutBlock (ls ++ [ev]) l' := by
  intro x hx
  obtain ⟨hout, n, hn⟩ := h x (hsub hx)
  exact ⟨hout.keep (turn_eq_none.mp (hturn x hx)).1, n, hn.keep (hturn x hx)⟩

theorem AgainBlock.cons (h : AgainBlock ls l) (hold : ∀ y ∈ l, ev.turn y = none)
    (hturn : ev.turn x = some .again) (hout : HandedOut (ls ++ [ev]) x) :
    AgainBlock (ls ++ [ev]) (x :: l) := by
  have hkeep := h.keep (List.Sublist.refl l) hold
  have hx : TurnAt (ls ++ [ev]) x ls.length .again := .last hturn
  refine ⟨fun y hy => ?_, List.pairwise_cons.mpr ⟨fun y hy => ?_, hkeep.order⟩⟩
  · rcases List.mem_cons.mp hy with rfl | hy
    · exact ⟨hout, ls.length, hx⟩
    · exact hkeep.turn y hy
  · obtain ⟨-, n, hn⟩ := h.turn y hy
    exact ⟨ls.length, n, hx, hn.keep (hold y hy), hn.lt_length⟩

theorem FreshBlock.concat (h : FreshBlock ls l) (hold : ∀ y ∈ l, ev.turn y = none)
    (hturn : ev.turn x = some .posted) (hout : ¬ HandedOut (ls ++ [ev]) x) :
    FreshBlock (ls ++ [ev]) (l ++ [x]) := by
  have hkeep := h.keep (List.Sublist.refl l) hold
  have hx : TurnAt (ls ++ [ev]) x ls.length .posted := .last hturn
  refine ⟨fun y hy => ?_, List.pairwise_append.mpr
    ⟨hkeep.order, List.pairwise_singleton _ _, fun y hy z hz => ?_⟩⟩
  · rcases List.mem_append.mp hy with hy | hy
    · exact hkeep.turn y hy
    · obtain rfl := List.mem_singleton.mp hy
      exact ⟨hout, ls.length, hx⟩
  · obtain rfl := List.mem_singleton.mp hz
    obtain ⟨-, n, hn⟩ := h.turn y hy
    exact ⟨n, ls.length, hn.keep (hold y hy), hx, hn.lt_length⟩

theorem OutBlock.concat (h : OutBlock ls l) (hold : ∀ y ∈ l, ev.turn y = none)
    (hturn : ev.turn x = some .handed) (hprepare : .prepare x.ext x.srb ∈ ev.calls) :
    OutBlock (ls ++ [ev]) (l ++ [x]) := by
  intro y hy
  rcases List.mem_append.mp hy with hy | hy
  · exact h.keep (List.Subset.refl l) hold y hy
  · obtain rfl := List.mem_singleton.mp hy
    exact ⟨.last hprepare, ls.length, .last hturn⟩

end Keep

theorem DispatchOrder.leave (h : DispatchOrder ls q again fresh)
    (hturn : ∀ x ∈ q'.items, ev.turn x = none) (hp : q'.pending.Sublist q.pending)
    (hr : q'.process ⊆ q.process) :
    ∃ again' fresh', DispatchOrder (ls ++ [ev]) q' again' fresh' := by
  rw [h.pending] at hp
  obtain ⟨again', fresh', hpending, hagain, hfresh⟩ := List.sublist_append_iff.mp hp
  refine ⟨again', fresh', hpending, h.again_block.keep hagain fun x hx => hturn x ?_,
    h.fresh_block.keep hfresh fun x hx => hturn x ?_,
    h.process.keep hr fun x hx => hturn x (List.mem_append_right _ hx)⟩
  · exact List.mem_append_left _ (by rw [hpending]; exact List.mem_append_left _ hx)
  · exact List.mem_append_left _ (by rw [hpending]; exact List.mem_append_right _ hx)

/-! ## The calls -/

theorem item_eq {i : Item} (hext : x.ext = i.ext) (hsrb : x.srb = i.srb) : x = i := by
  cases x
  cases i
  cases hext
  cases hsrb
  rfl

theorem turn_of_quiet (hacc : ev.accepted = [])
    (hcalls : ∀ c ∈ ev.calls, ∃ a status, c = .srbComplete a status) : ev.turn x = none := by
  refine turn_eq_none.mpr ⟨by simp [hacc], fun h => ?_, fun h => ?_⟩
  · obtain ⟨a, status, heq⟩ := hcalls _ h
    cases heq
  · obtain ⟨a, status, heq⟩ := hcalls _ h
    cases heq

theorem dispatchOrder_post {i : Item} {status : NtStatus}
    (h : DispatchOrder ls q again fresh) (ha : IoqOp.Allowed q.items (.post i))
    (hspec : (q', status) = q.post i) :
    ∃ again' fresh', DispatchOrder (ls ++ [⟨.post i, [], status⟩]) q' again' fresh' := by
  unfold Queue.post at hspec
  split at hspec
  · cases hspec
    exact h.leave (fun x _ => turn_of_quiet rfl fun c hc => by cases hc) (.refl _) (.refl _)
  · cases hspec
    have hacc : (⟨.post i, [], .success⟩ : IoqEvent).accepted = [i] := rfl
    have hother : ∀ x ∈ q.items, IoqEvent.turn x ⟨.post i, [], .success⟩ = none := by
      intro x hx
      refine turn_eq_none.mpr ⟨?_, List.not_mem_nil, List.not_mem_nil⟩
      rw [hacc, List.mem_singleton]
      rintro rfl
      exact (ha.2 x hx).1 rfl
    have hpending : ∀ x, x ∈ again ∨ x ∈ fresh → x ∈ q.items := fun x hx =>
      List.mem_append_left _ (by rw [h.pending]; exact List.mem_append.mpr hx)
    refine ⟨again, fresh ++ [i], by rw [h.pending, List.append_assoc],
      h.again_block.keep (.refl _) fun x hx => hother x (hpending x (.inl hx)),
      h.fresh_block.concat (fun x hx => hother x (hpending x (.inr hx)))
        (turn_posted (by simp [hacc])) fun hout => ?_,
      h.process.keep (.refl _) fun x hx => hother x (List.mem_append_right _ hx)⟩
    exact (hout.of_keep List.not_mem_nil).1 (by simp [hacc])

theorem dispatchOrder_start {calls : List IoqCall} {status : NtStatus} (hw : Wf q)
    (h : DispatchOrder ls q again fresh)
    (hspec : q.start (fun _ _ w => some w) () = some (q', (), calls, status)) :
    ∃ again' fresh', DispatchOrder (ls ++ [⟨.start, calls, status⟩]) q' again' fresh' := by
  obtain ⟨-, rfl, -, rfl, rfl⟩ | ⟨-, -, rfl, -, rfl, rfl⟩ | ⟨i, rest, -, hp, -, rfl,
      rfl, rfl⟩ :=
    Queue.start_cases hspec
  · exact h.leave (fun x _ => turn_of_quiet rfl fun c hc => by cases hc) (.refl _) (.refl _)
  · exact h.leave (fun x _ => turn_of_quiet rfl fun c hc => by cases hc) (.refl _) (.refl _)
  · have hnd := hw.items_nodup
    rw [Queue.items, hp, List.cons_append, List.nodup_cons] at hnd
    have hother : ∀ x ∈ rest ++ q.process,
        IoqEvent.turn x ⟨.start, [.prepare i.ext i.srb], .success⟩ = none := by
      intro x hx
      refine turn_eq_none.mpr ⟨List.not_mem_nil, fun hmem => ?_, fun hmem => ?_⟩
      · rw [List.mem_singleton, IoqCall.prepare.injEq] at hmem
        obtain rfl := item_eq hmem.1 hmem.2
        exact hnd.1 hx
      · rw [List.mem_singleton] at hmem
        cases hmem
    have hprepare : .prepare i.ext i.srb ∈ [IoqCall.prepare i.ext i.srb] :=
      List.mem_singleton_self _
    have hout := h.process.concat (x := i) (fun x hx => hother x (List.mem_append_right _ hx))
      (turn_handed rfl hprepare) hprepare
    rw [h.pending] at hp
    cases again with
    | nil =>
        -- the first of the SRBs that were never handed out
        rw [List.nil_append] at hp
        subst hp
        exact ⟨[], rest, rfl, againBlock_nil,
          h.fresh_block.keep (List.sublist_cons_self i rest) fun x hx =>
            hother x (List.mem_append_left _ hx), hout⟩
    | cons j again =>
        rw [List.cons_append, List.cons.injEq] at hp
        obtain ⟨rfl, rfl⟩ := hp
        exact ⟨again, fresh, rfl, h.again_block.keep (List.sublist_cons_self j again) fun x hx =>
            hother x (List.mem_append_left _ (List.mem_append_left _ hx)),
          h.fresh_block.keep (.refl _) fun x hx =>
            hother x (List.mem_append_left _ (List.mem_append_right _ hx)), hout⟩

theorem dispatchOrder_finish {hint : UInt64} {st : UInt8} {calls : List IoqCall} (hw : Wf q)
    (h : DispatchOrder ls q again fresh)
    (hspec : q.finish (fun _ _ w => some (st, w)) () hint = some (q', (), calls)) :
    ∃ again' fresh',
      DispatchOrder (ls ++ [⟨.finish hint st, calls, .success⟩]) q' again' fresh' := by
  obtain ⟨-, rfl, -, rfl⟩ | ⟨i, status, -, hl, -,
      ⟨rfl, rfl, rfl⟩ | ⟨hne, rfl, rfl⟩⟩ :=
    Queue.finish_cases hspec
  · exact h.leave (fun x _ => turn_of_quiet rfl fun c hc => by cases hc) (.refl _) (.refl _)
  · -- the next chunk: back to the head
    obtain ⟨hi, -⟩ := hw.lookup_eq_some.mp hl
    have hnd := List.nodup_append.mp hw.items_nodup
    have hother : ∀ x, x ≠ i → IoqEvent.turn x
        ⟨.finish hint st, [.complete i.ext i.srb srbStatusPending], .success⟩ = none := by
      intro x hx
      refine turn_eq_none.mpr ⟨List.not_mem_nil, fun hmem => ?_, fun hmem => ?_⟩
      · rw [List.mem_singleton] at hmem
        cases hmem
      · rw [List.mem_singleton, IoqCall.complete.injEq] at hmem
        exact hx (item_eq hmem.1 hmem.2.1)
    have hpending : ∀ x ∈ q.pending, x ≠ i := fun x hx heq => hnd.2.2 x hx i hi heq
    rw [h.pending] at hpending
    have hturn : IoqEvent.turn i ⟨.finish hint st, [.complete i.ext i.srb srbStatusPending],
        .success⟩ = some .again :=
      turn_again rfl (fun hmem => by cases List.mem_singleton.mp hmem) (List.mem_singleton_self _)
    refine ⟨i :: again, fresh, by rw [h.pending]; rfl, h.again_block.cons
      (fun x hx => hother x (hpending x (List.mem_append_left _ hx))) hturn
        ((h.process i hi).1.keep List.not_mem_nil),
      h.fresh_block.keep (.refl _) fun x hx => hother x (hpending x (List.mem_append_right _ hx)),
      h.process.keep List.erase_subset fun x hx => hother x ?_⟩
    exact (hnd.2.1.mem_erase_iff.mp hx).1
  · obtain ⟨hi, -⟩ := hw.lookup_eq_some.mp hl
    have hnd := List.nodup_append.mp hw.items_nodup
    refine h.leave (fun x hx => turn_eq_none.mpr ⟨List.not_mem_nil, ?_, ?_⟩) (.refl _)
      List.erase_subset
    · simp
    · simp only [List.mem_cons, IoqCall.complete.injEq, List.not_mem_nil, or_false, reduceCtorEq]
      exact fun hmem => hne hmem.2.2.symm

theorem dispatchOrder_step {q' : Queue} (hw : Wf q) (h : DispatchOrder ls q again fresh)
    (ha : ev.op.Allowed q.items) (hspec : ev.op.spec q = some (q', ev.calls, ev.status)) :
    ∃ again' fresh', DispatchOrder (ls ++ [ev]) q' again' fresh' := by
  obtain ⟨op, calls, status⟩ := ev
  cases op with
  | post i =>
      simp only [IoqOp.spec, Option.some.injEq, Prod.mk.injEq] at hspec
      obtain ⟨rfl, rfl, rfl⟩ := hspec
      exact dispatchOrder_post h ha rfl
  | start =>
      simp only [IoqOp.spec, Option.map_eq_some_iff] at hspec
      obtain ⟨⟨q₁, w, calls₁, status₁⟩, hstart, heq⟩ := hspec
      cases heq
      exact dispatchOrder_start hw h hstart
  | finish hint st =>
      simp only [IoqOp.spec, Option.map_eq_some_iff] at hspec
      obtain ⟨⟨q₁, w, calls₁⟩, hfinish, heq⟩ := hspec
      cases heq
      exact dispatchOrder_finish hw h hfinish
  | cancel i =>
      simp only [IoqOp.spec, Option.some.injEq] at hspec
      unfold Queue.cancel at hspec
      split at hspec
      · cases hspec
        exact h.leave (fun x _ => turn_of_quiet rfl fun c hc => by cases hc) (.refl _) (.refl _)
      · cases hspec
        refine h.leave (fun x _ => turn_of_quiet rfl fun c hc => ?_) List.erase_sublist
          List.erase_subset
        exact ⟨_, _, List.mem_singleton.mp hc⟩
  | reset stop =>
      simp only [IoqOp.spec, Option.some.injEq, Prod.mk.injEq] at hspec
      obtain ⟨rfl, rfl, rfl⟩ := hspec
      unfold Queue.reset
      split
      · exact h.leave (fun x _ => turn_of_quiet rfl fun c hc => by cases hc) (.refl _) (.refl _)
      · refine h.leave (fun x hx => absurd hx List.not_mem_nil) (List.nil_sublist _)
          (List.nil_subset _)

theorem dispatchOrder_run (hr : Run IoqStep (.create mem) ls s) :
    ∃ q again fresh, Good s q ∧ DispatchOrder ls q again fresh := by
  refine hr.history (I := fun ls s => ∃ q again fresh, Good s q ∧
    DispatchOrder ls q again fresh)
    ⟨.empty, [], [], good_create mem, rfl, againBlock_nil, freshBlock_nil, outBlock_nil⟩ ?_
  rintro ls s ev s' - ⟨q, again, fresh, hg, h⟩ hstep
  obtain ⟨q', -, hg', hspec, -⟩ := hg.step hstep
  obtain ⟨again', fresh', h'⟩ := dispatchOrder_step hg.refines.wf h
    ((allowed_perm hg.items).mpr hstep.allowed) hspec
  exact ⟨q', again', fresh', hg', h'⟩

/-! ## Whole runs -/

section Histories
variable {y : Item} {n : Nat} {turn : Turn} {seg : List IoqEvent}

/-- What is called under the lock: completions only, one `Prepare` on the head of
`PendingList`, or one `Complete` on an SRB of `ProcessList`. -/
theorem spec_calls (hw : Wf q) (hspec : ev.op.spec q = some (q', ev.calls, ev.status)) :
    (∀ c ∈ ev.calls, ∃ a status, c = .srbComplete a status) ∨
      (∃ i rest, q.pending = i :: rest ∧ ev.calls = [.prepare i.ext i.srb]) ∨
      ∃ i status, i ∈ q.process ∧ ev.accepted = [] ∧
        ((status = srbStatusPending ∧ ev.calls = [.complete i.ext i.srb status]) ∨
          (status ≠ srbStatusPending ∧
            ev.calls = [.complete i.ext i.srb status, .srbComplete i.srb status])) := by
  obtain ⟨op, calls, status⟩ := ev
  cases op with
  | start =>
      simp only [IoqOp.spec, Option.map_eq_some_iff] at hspec
      obtain ⟨⟨q₁, w, calls₁, status₁⟩, hstart, heq⟩ := hspec
      cases heq
      obtain ⟨-, -, -, rfl, -⟩ | ⟨-, -, -, -, rfl, -⟩ | ⟨i, rest, -, hp, -,
          -, rfl, -⟩ :=
        Queue.start_cases hstart
      · exact .inl fun c hc => by cases hc
      · exact .inl fun c hc => by cases hc
      · exact .inr (.inl ⟨i, rest, hp, rfl⟩)
  | finish hint st =>
      simp only [IoqOp.spec, Option.map_eq_some_iff] at hspec
      obtain ⟨⟨q₁, w, calls₁⟩, hfinish, heq⟩ := hspec
      cases heq
      obtain ⟨-, -, -, rfl⟩ | ⟨i, st', -, hl, -, ⟨hst, -, rfl⟩ | ⟨hne, -, rfl⟩⟩ :=
        Queue.finish_cases hfinish
      · exact .inl fun c hc => by cases hc
      · exact .inr (.inr ⟨i, st', (hw.lookup_eq_some.mp hl).1, rfl, .inl ⟨hst, rfl⟩⟩)
      · exact .inr (.inr ⟨i, st', (hw.lookup_eq_some.mp hl).1, rfl, .inr ⟨hne, rfl⟩⟩)
  | post i =>
      simp only [IoqOp.spec, Option.some.injEq, Prod.mk.injEq] at hspec
      obtain ⟨-, rfl, -⟩ := hspec
      exact .inl fun c hc => by cases hc
  | cancel i =>
      simp only [IoqOp.spec, Option.some.injEq] at hspec
      unfold Queue.cancel at hspec
      split at hspec
      · cases hspec
        exact .inl fun c hc => by cases hc
      · cases hspec
        exact .inl fun c hc => ⟨_, _, List.mem_singleton.mp hc⟩
  | reset stop =>
      simp only [IoqOp.spec, Option.some.injEq, Prod.mk.injEq] at hspec
      obtain ⟨-, rfl, -⟩ := hspec
      unfold Queue.reset
      split
      · exact .inl fun c hc => by cases hc
      · refine .inl fun c hc => ?_
        obtain ⟨i, -, rfl⟩ := List.mem_map.mp hc
        exact ⟨_, _, rfl⟩

/-- Who is handed out was the head of `PendingList`. -/
theorem pending_of_prepare (hw : Wf q) (hspec : ev.op.spec q = some (q', ev.calls, ev.status))
    (h : .prepare y.ext y.srb ∈ ev.calls) : ∃ rest, q.pending = y :: rest := by
  obtain hcalls | ⟨i, rest, hp, hcalls⟩ | ⟨i, status, -, -,
      ⟨-, hcalls⟩ | ⟨-, hcalls⟩⟩ :=
    spec_calls hw hspec
  · obtain ⟨a, status, heq⟩ := hcalls _ h
    cases heq
  · rw [hcalls, List.mem_singleton, IoqCall.prepare.injEq] at h
    rw [item_eq h.1 h.2]
    exact ⟨rest, hp⟩
  · simp [hcalls] at h
  · simp [hcalls] at h

/-- Who is put back was in `ProcessList`, and nothing else happens. -/
theorem again_of_complete (hw : Wf q) (hspec : ev.op.spec q = some (q', ev.calls, ev.status))
    (h : .complete x.ext x.srb srbStatusPending ∈ ev.calls) :
    x ∈ q.process ∧ ev.turn x = some .again ∧ ev.completed = [] := by
  obtain hcalls | ⟨i, rest, -, hcalls⟩ | ⟨i, status, hi, hacc,
      ⟨rfl, hcalls⟩ | ⟨hne, hcalls⟩⟩ :=
    spec_calls hw hspec
  · obtain ⟨a, status, heq⟩ := hcalls _ h
    cases heq
  · simp [hcalls] at h
  · have hturn := turn_again hacc (x := x) (by simp [hcalls]) h
    rw [hcalls, List.mem_singleton, IoqCall.complete.injEq] at h
    rw [item_eq h.1 h.2.1] at hturn ⊢
    exact ⟨hi, hturn, by rw [IoqEvent.completed, hcalls]; rfl⟩
  · rw [hcalls] at h
    simp only [List.mem_cons, IoqCall.complete.injEq, reduceCtorEq, List.not_mem_nil,
      or_false] at h
    exact absurd h.2.2.symm hne

/-- An SRB that is queued and waits goes on waiting until it is handed out or
completed. -/
theorem waits (hr : Run IoqStep (.create mem) ls s) (hx : x ∈ s.live) (hn : TurnAt ls x n turn)
    (hwait : turn ≠ .handed) (hseg : Run IoqStep s seg s')
    (hno : ∀ ev ∈ seg, .prepare x.ext x.srb ∉ ev.calls)
    (hstay : ∀ ev ∈ seg, x.srb ∉ ev.completed) :
    x ∈ s'.live ∧ TurnAt (ls ++ seg) x n turn := by
  induction hseg with
  | nil => exact ⟨hx, by rwa [List.append_nil]⟩
  | @snoc seg ev s₁ s₂ hseg hstep ih =>
      obtain ⟨hx₁, hn₁⟩ := ih (fun ev' hev' => hno ev' (List.mem_append_left _ hev'))
        fun ev' hev' => hstay ev' (List.mem_append_left _ hev')
      have hlast : ev ∈ seg ++ [ev] := List.mem_append_right _ (List.mem_singleton_self ev)
      obtain ⟨q, again, fresh, hg, horder⟩ := dispatchOrder_run (hr.append hseg)
      obtain ⟨q', -, -, hspec, -⟩ := hg.step hstep
      have hnone : ev.turn x = none := by
        refine turn_eq_none.mpr ⟨fun hacc => ?_, hno ev hlast, fun hcomplete => ?_⟩
        · have hallowed := hstep.allowed
          unfold IoqEvent.accepted at hacc
          split at hacc
          · next i hop =>
              rw [hop] at hallowed
              split at hacc
              · rw [List.mem_singleton] at hacc
                exact (hallowed.2 x hx₁).1 (by rw [hacc])
              · cases hacc
          · cases hacc
        · obtain ⟨hout, -, -⟩ := again_of_complete hg.refines.wf hspec hcomplete
          obtain ⟨-, m, hm⟩ := horder.process x hout
          exact hwait (hn₁.unique hm).2
      refine ⟨?_, ?_⟩
      · rw [hstep.live]
        refine List.mem_filter.mpr ⟨List.mem_append_left _ hx₁, ?_⟩
        simpa using hstay ev hlast
      · rw [← List.append_assoc]
        exact hn₁.keep hnone

/-- An SRB that is queued at the end and was not accepted meanwhile was not
completed meanwhile. -/
theorem not_completed (hseg : Run IoqStep s seg s') (hx : x ∈ s'.live)
    (hacc : ∀ ev ∈ seg, x ∉ ev.accepted) : ∀ ev ∈ seg, x.srb ∉ ev.completed := by
  induction hseg with
  | nil =>
      intro ev hev
      cases hev
  | @snoc seg ev s₁ s₂ hseg hstep ih =>
      rw [hstep.live, List.mem_filter] at hx
      obtain ⟨hmem, hev⟩ := hx
      have hx₁ : x ∈ s₁.live := (List.mem_append.mp hmem).resolve_right
        (hacc ev (List.mem_append_right _ (List.mem_singleton_self ev)))
      intro ev' hev'
      rcases List.mem_append.mp hev' with hev' | hev'
      · exact ih hx₁ (fun e he => hacc e (List.mem_append_left _ he)) ev' hev'
      · rw [List.mem_singleton.mp hev']
        simpa using hev

theorem live_of_accepted (hr : Run IoqStep (.create mem) ls s) (hstep : IoqStep s ev s')
    (hx : x ∈ ev.accepted) : x ∈ s'.live := by
  obtain ⟨q, hg⟩ := run_good hr
  obtain ⟨q', -, -, hspec, -⟩ := hg.step hstep
  have hnone : ev.completed = [] := (spec_accepted hspec).resolve_left fun h => by
    rw [h] at hx
    cases hx
  rw [hstep.live, hnone]
  exact List.mem_filter.mpr ⟨List.mem_append_right _ hx, by simp⟩

/-- SRBs are handed out for the first time in the order of their posts: when
`x` was posted before `y` and has not been completed, it has been handed out by
the time `y` is. -/
def FirstInOrder (ls : List IoqEvent) : Prop :=
  ∀ a ex b ey c ek d (x y : Item), ls = a ++ ex :: (b ++ ey :: (c ++ ek :: d)) →
    x ∈ ex.accepted → y ∈ ey.accepted → .prepare y.ext y.srb ∈ ek.calls →
    (∀ ev ∈ c, y ∉ ev.accepted ∧ .prepare y.ext y.srb ∉ ev.calls) →
    (∀ ev ∈ b ++ ey :: c, x.srb ∉ ev.completed) →
    ∃ ev ∈ b ++ ey :: c, .prepare x.ext x.srb ∈ ev.calls

/-- The next chunk of `x` is handed out before any SRB that has not been. -/
def ChunksFirst (ls : List IoqEvent) : Prop :=
  ∀ a er b ek d (x y : Item), ls = a ++ er :: (b ++ ek :: d) →
    .complete x.ext x.srb srbStatusPending ∈ er.calls → .prepare y.ext y.srb ∈ ek.calls →
    ¬ HandedOut (a ++ er :: b) y → (∀ ev ∈ b, x.srb ∉ ev.completed) →
    ∃ ev ∈ b, .prepare x.ext x.srb ∈ ev.calls

theorem firstInOrder (hr : Run IoqStep (.create mem) ls s) : FirstInOrder ls := by
  rintro a ex b ey c ek d x y rfl hx hy hk hfirst hstay
  by_contra hnone
  have hno : ∀ ev ∈ b ++ ey :: c, .prepare x.ext x.srb ∉ ev.calls :=
    fun ev hev h => hnone ⟨ev, hev, h⟩
  -- the states before `ex`, after it, before and after `ey`, and before `ek`
  obtain ⟨s₀, hr₀, hrest⟩ := hr.split
  obtain ⟨s₁, hex, hrest⟩ := Run.cons_iff.mp hrest
  obtain ⟨s₂, hb, hrest⟩ := hrest.split
  obtain ⟨s₃, hey, hrest⟩ := Run.cons_iff.mp hrest
  obtain ⟨s₄, hc, hrest⟩ := hrest.split
  obtain ⟨s₅, hek, -⟩ := Run.cons_iff.mp hrest
  have hr₁ := hr₀.snoc hex
  have hr₃ := (hr₁.append hb).snoc hey
  obtain ⟨q, again, fresh, hg, horder⟩ := dispatchOrder_run (hr₃.append hc)
  obtain ⟨q', -, -, hspec, -⟩ := hg.step hek
  obtain ⟨rest, hpending⟩ := pending_of_prepare hg.refines.wf hspec hk
  have hylive : y ∈ s₄.live := hg.items.mem_iff.mp
    (List.mem_append_left _ (by rw [hpending]; exact List.mem_cons_self))
  obtain ⟨-, hty⟩ := waits hr₃ (live_of_accepted (hr₁.append hb) hey hy)
    (.last (turn_posted hy))
    (by simp) hc (fun ev hev => (hfirst ev hev).2)
    (not_completed hc hylive fun ev hev => (hfirst ev hev).1)
  obtain ⟨hxlive, htx⟩ := waits hr₁ (live_of_accepted hr₀ hex hx) (.last (turn_posted hx))
    (by simp) (hb.append (.cons hey hc)) hno hstay
  have hls : a ++ [ex] ++ (b ++ ey :: c) = a ++ [ex] ++ b ++ [ey] ++ c := by simp
  rw [hls] at htx
  have hwaiting : ∀ z n, TurnAt (a ++ [ex] ++ b ++ [ey] ++ c) z n .posted → z ∈ s₄.live →
      z ∈ fresh := by
    intro z n hz hlive
    rcases List.mem_append.mp (hg.items.mem_iff.mpr hlive) with hmem | hmem
    · rw [horder.pending] at hmem
      rcases List.mem_append.mp hmem with hmem | hmem
      · obtain ⟨-, m, hm⟩ := horder.again_block.turn z hmem
        cases (hz.unique hm).2
      · exact hmem
    · obtain ⟨-, m, hm⟩ := horder.process z hmem
      cases (hz.unique hm).2
  rw [horder.pending] at hpending
  cases again with
  | cons z again =>
      obtain ⟨-, m, hm⟩ := horder.again_block.turn z List.mem_cons_self
      rw [List.cons_append, List.cons.injEq] at hpending
      rw [hpending.1] at hm
      cases (hty.unique hm).2
  | nil =>
      rw [List.nil_append] at hpending
      have hmem := hwaiting x _ htx hxlive
      have hpairs := horder.fresh_block.order
      rw [hpending] at hmem hpairs
      have hlength : a.length < (a ++ [ex] ++ b).length := by
        rw [List.length_append, List.length_append, List.length_singleton]
        omega
      rcases List.mem_cons.mp hmem with rfl | hmem
      · have hsame := (htx.unique hty).1
        omega
      · obtain ⟨m, n, hm, hn, hlt⟩ := (List.pairwise_cons.mp hpairs).1 x hmem
        have hmy := (hm.unique hty).1
        have hnx := (hn.unique htx).1
        omega

theorem chunksFirst (hr : Run IoqStep (.create mem) ls s) : ChunksFirst ls := by
  rintro a er b ek d x y rfl hx hk hout hstay
  by_contra hnone
  obtain ⟨s₀, hr₀, hrest⟩ := hr.split
  obtain ⟨s₁, her, hrest⟩ := Run.cons_iff.mp hrest
  obtain ⟨s₂, hb, hrest⟩ := hrest.split
  obtain ⟨s₃, hek, -⟩ := Run.cons_iff.mp hrest
  obtain ⟨q₀, hg₀⟩ := run_good hr₀
  obtain ⟨q₁, -, -, hspec₀, -⟩ := hg₀.step her
  obtain ⟨hout₀, hturn, hcompleted⟩ := again_of_complete hg₀.refines.wf hspec₀ hx
  have hxlive : x ∈ s₁.live := by
    rw [her.live, hcompleted]
    refine List.mem_filter.mpr ⟨List.mem_append_left _ (hg₀.items.mem_iff.mp ?_), by simp⟩
    exact List.mem_append_right _ hout₀
  have hr₁ := hr₀.snoc her
  obtain ⟨hxlive, htx⟩ := waits hr₁ hxlive (.last hturn) (by simp) hb
    (fun ev hev h => hnone ⟨ev, hev, h⟩) hstay
  obtain ⟨q, again, fresh, hg, horder⟩ := dispatchOrder_run (hr₁.append hb)
  obtain ⟨q', -, -, hspec, -⟩ := hg.step hek
  obtain ⟨rest, hpending⟩ := pending_of_prepare hg.refines.wf hspec hk
  have hmem : x ∈ again := by
    rcases List.mem_append.mp (hg.items.mem_iff.mpr hxlive) with hmem | hmem
    · rw [horder.pending] at hmem
      refine (List.mem_append.mp hmem).resolve_right fun hfresh => ?_
      obtain ⟨-, m, hm⟩ := horder.fresh_block.turn x hfresh
      cases (htx.unique hm).2
    · obtain ⟨-, m, hm⟩ := horder.process x hmem
      cases (htx.unique hm).2
  rw [horder.pending] at hpending
  cases again with
  | nil => cases hmem
  | cons z again =>
      obtain ⟨hzout, -⟩ := horder.again_block.turn z List.mem_cons_self
      rw [List.cons_append, List.cons.injEq] at hpending
      rw [hpending.1, List.append_assoc] at hzout
      exact hout hzout

/-- The order of `PendingList` in every reachable state, and of the hand-outs
over every run. -/
theorem spdIoq_dispatch_order (hr : Run IoqStep (.create mem) ls s) :
    (∃ q again fresh, Refines s.ioq q ∧ DispatchOrder ls q again fresh) ∧ FirstInOrder ls ∧
      ChunksFirst ls := by
  obtain ⟨q, again, fresh, hg, horder⟩ := dispatchOrder_run hr
  exact ⟨⟨q, again, fresh, hg.refines, horder⟩, firstInOrder hr, chunksFirst hr⟩

end Histories

/-- Two SRBs are posted, the first is handed out, and has another chunk. -/
theorem spdIoq_dispatch_order_chunk :
    ∃ ls s, Run IoqStep (.create zeroedIoq) ls s ∧ ls.map IoqEvent.op =
        [.post ⟨0x1000, 0x2000⟩, .post ⟨0x1100, 0x2100⟩, .start,
          .finish 0x1000 srbStatusPending] ∧
      (∃ q again fresh, Refines s.ioq q ∧ DispatchOrder ls q again fresh) ∧
      FirstInOrder ls ∧
        ChunksFirst ls := by
  obtain ⟨s₁, h₁, hg₁⟩ := (good_create zeroedIoq).exec
    ⟨.post ⟨0x1000, 0x2000⟩, [], .success⟩ ⟨by decide, by simp [IoqSys.create]⟩ rfl
  have hfresh : ∀ j ∈ s₁.live, j.srb ≠ (0x2100 : Addr) ∧ j.ext ≠ (0x1100 : Addr) := by
    intro j hj
    have hmem : j ∈ [(⟨0x1000, 0x2000⟩ : Item)] := hg₁.items.mem_iff.mpr hj
    rw [List.mem_singleton.mp hmem]
    decide
  obtain ⟨s₂, h₂, hg₂⟩ := hg₁.exec
    ⟨.post ⟨0x1100, 0x2100⟩, [], .success⟩ ⟨by decide, hfresh⟩ rfl
  obtain ⟨s₃, h₃, hg₃⟩ :=
    hg₂.exec ⟨.start, [.prepare 0x1000 0x2000], .success⟩ trivial rfl
  obtain ⟨s₄, h₄, -⟩ := hg₃.exec ⟨.finish 0x1000 srbStatusPending,
    [.complete 0x1000 0x2000 srbStatusPending], .success⟩ trivial rfl
  have hrun := (((Run.single h₁).snoc h₂).snoc h₃).snoc h₄
  exact ⟨_, s₄, hrun, rfl, spdIoq_dispatch_order hrun⟩

end Winspd.Proofs
