import Winspd.Proofs.IoqRun

/-!
# No wake-up is lost

`SpdIoqStartProcessingSrb` waits for the queue's token, and then takes the lock
and looks. Between the two anything may happen, so a thread inside the call is
in one of two places: `waiting`, or `woken`, when it has taken the token and not
yet taken the lock. A wait also ends without the token, by a timeout or because
its IRP was cancelled.

The token is one bit, whatever the number of waiters, and what makes that
enough is `Armed`: after a locked section of a start the token is there if it
has to be (`spec_start_armed`), and every other call either sets it or does not
give anyone a reason to want it (`spec_call_armed`). So when the token is needed
and is not there, some thread has it.
-/

namespace Winspd.Proofs

open Winspd.Lib Winspd.Sys Winspd.Spec

/-! ## Threads -/

/-- Where a thread is in `SpdIoqStartProcessingSrb`. -/
inductive Phase
  | outside
  | waiting
  | woken
  deriving DecidableEq, Repr

/-- The queue and the threads `τ` that take requests from it. -/
structure WaitSys (τ : Type) where
  sys : IoqSys
  phase : τ → Phase

inductive WaitEvent (τ : Type)
  | enter (t : τ)
  | wait (t : τ)
  | leave (t : τ)
  | start (t : τ) (ev : IoqEvent)
  | call (ev : IoqEvent)

variable {τ : Type} [DecidableEq τ]

/-- A step of one thread, or a call of one of the other functions. -/
inductive WaitStep : WaitSys τ → WaitEvent τ → WaitSys τ → Prop
  | enter {s : WaitSys τ} {t : τ} (h : s.phase t = .outside) :
      WaitStep s (.enter t) ⟨s.sys, Function.update s.phase t .waiting⟩
  | wait {s : WaitSys τ} {t : τ} {event : Bool} (h : s.phase t = .waiting)
      (hw : spdQeventWait s.sys.ioq.pendingEvent = some event) :
      WaitStep s (.wait t)
        ⟨⟨{ s.sys.ioq with pendingEvent := event }, s.sys.live⟩,
          Function.update s.phase t .woken⟩
  | leave {s : WaitSys τ} {t : τ} (h : s.phase t = .waiting) :
      WaitStep s (.leave t) ⟨s.sys, Function.update s.phase t .outside⟩
  | start {s : WaitSys τ} {t : τ} {ev : IoqEvent} {sys : IoqSys} (h : s.phase t = .woken)
      (hop : ev.op = .start) (hstep : IoqStep s.sys ev sys) :
      WaitStep s (.start t ev) ⟨sys, Function.update s.phase t .outside⟩
  | call {s : WaitSys τ} {ev : IoqEvent} {sys : IoqSys} (hop : ev.op ≠ .start)
      (hstep : IoqStep s.sys ev sys) : WaitStep s (.call ev) ⟨sys, s.phase⟩

/-- A new queue, with no thread in it. -/
def WaitSys.create (τ : Type) (mem : SpdIoq) : WaitSys τ := ⟨.create mem, fun _ => .outside⟩

/-- Somebody should look at the queue: it has a pending SRB or was stopped. -/
def Needed (ioq : SpdIoq) : Prop :=
  ioq.listEntry.flink .pendingList ≠ some .pendingList ∨ ioq.stopped = true

/-- The thread sits in the wait and the token is not there. -/
def Blocked (s : WaitSys τ) (t : τ) : Prop :=
  s.phase t = .waiting ∧ spdQeventWait s.sys.ioq.pendingEvent = none

/-! ## The token, on the queue -/

variable {q q' : Queue} {ioq : SpdIoq} {s s' : WaitSys τ} {ls : List (WaitEvent τ)} {mem : SpdIoq}

/-- `Needed`, of a queue. -/
def Wanted (q : Queue) : Prop := q.pending ≠ [] ∨ q.stopped = true

theorem Refines.needed (hr : Refines ioq q) : Needed ioq ↔ Wanted q := by
  unfold Needed Wanted
  rw [hr.stopped, Ne, hr.lists.first.flink_head_eq_self, List.map_map, List.map_eq_nil_iff]

/-- A start leaves the token behind if it is needed, whoever had it before. -/
theorem spec_start_armed {calls status} (h : IoqOp.start.spec q = some (q', calls, status)) :
    Wanted q' → q'.event = true := by
  simp only [IoqOp.spec, Option.map_eq_some_iff] at h
  obtain ⟨⟨q₁, w, calls₁, status₁⟩, h, heq⟩ := h
  cases heq
  intro hwant
  obtain ⟨-, rfl, -⟩ | ⟨hst, hp, rfl, -⟩ | ⟨i, rest, hst, hp, -, rfl, -⟩ :=
    Queue.start_cases h
  · rfl
  · simp [Wanted, hp, hst] at hwant
  · have hrest : rest ≠ [] := by simpa [Wanted, hst] using hwant
    simp [hrest]

/-- Any other call sets the token, or leaves it alone and gives nobody a new
reason to want it. -/
theorem spec_call_armed {op : IoqOp} {calls status} (hop : op ≠ .start)
    (h : op.spec q = some (q', calls, status)) :
    q'.event = true ∨ q'.event = q.event ∧ (Wanted q' → Wanted q) := by
  cases op with
  | post i =>
      simp only [IoqOp.spec, Option.some.injEq, Prod.mk.injEq] at h
      obtain ⟨rfl, -⟩ := h
      unfold Queue.post
      split
      · exact .inr ⟨rfl, id⟩
      · exact .inl rfl
  | start => exact absurd rfl hop
  | finish hint status =>
      simp only [IoqOp.spec, Option.map_eq_some_iff] at h
      obtain ⟨⟨q₁, w, calls₁⟩, h, heq⟩ := h
      cases heq
      obtain ⟨-, rfl, -⟩ | ⟨i, st, -, -, -, ⟨-, rfl, -⟩ | ⟨-, rfl, -⟩⟩ :=
        Queue.finish_cases h
      · exact .inr ⟨rfl, id⟩
      · exact .inl rfl
      · exact .inr ⟨rfl, id⟩
  | cancel i =>
      simp only [IoqOp.spec, Option.some.injEq] at h
      unfold Queue.cancel at h
      split at h
      · cases h
        exact .inr ⟨rfl, id⟩
      · cases h
        refine .inr ⟨rfl, Or.imp_left fun hne hp => hne ?_⟩
        rw [hp, List.erase_nil]
  | reset stop =>
      simp only [IoqOp.spec, Option.some.injEq, Prod.mk.injEq] at h
      obtain ⟨rfl, -⟩ := h
      unfold Queue.reset
      split
      · exact .inr ⟨rfl, id⟩
      · cases stop with
        | false => exact .inr ⟨by simp, by simp [Wanted]⟩
        | true => exact .inl (by simp)

/-! ## The invariant -/

/-- The token is there, or a thread has it and is about to look. -/
def Armed (s : WaitSys τ) (q : Queue) : Prop :=
  Wanted q → q.event = true ∨ ∃ t, s.phase t = .woken

/-- A thread that was not woken moves, and the woken ones stay woken. -/
theorem woken_update {t : τ} {p : Phase} {phase : τ → Phase} (h : phase t ≠ .woken)
    (hw : ∃ t, phase t = .woken) : ∃ t', Function.update phase t p t' = .woken := by
  obtain ⟨t', ht'⟩ := hw
  have hne : t' ≠ t := by
    rintro rfl
    exact h ht'
  exact ⟨t', by rw [Function.update_of_ne hne, ht']⟩

theorem waitStep_inv {ev : WaitEvent τ} (hg : Good s.sys q) (ha : Armed s q)
    (h : WaitStep s ev s') : ∃ q', Good s'.sys q' ∧ Armed s' q' := by
  cases h with
  | enter hph =>
      exact ⟨q, hg, fun hw => (ha hw).imp_right (woken_update (by simp [hph]))⟩
  | @wait t event hph hwait =>
      have hq : Good ⟨{ s.sys.ioq with pendingEvent := event }, s.sys.live⟩
          { q with event := false } := by
        obtain rfl : false = event := by
          unfold spdQeventWait at hwait
          split at hwait <;> simp_all
        exact ⟨hg.refines.wait, hg.items, hg.srb_nodup⟩
      exact ⟨_, hq, fun _ => .inr ⟨t, Function.update_self ..⟩⟩
  | leave hph =>
      exact ⟨q, hg, fun hw => (ha hw).imp_right (woken_update (by simp [hph]))⟩
  | start hph hop hstep =>
      obtain ⟨q', done, hg', hspec, -⟩ := hg.step hstep
      rw [hop] at hspec
      exact ⟨q', hg', fun hw => .inl (spec_start_armed hspec hw)⟩
  | call hop hstep =>
      obtain ⟨q', done, hg', hspec, -⟩ := hg.step hstep
      refine ⟨q', hg', fun hw => ?_⟩
      rcases spec_call_armed hop hspec with hev | ⟨hev, hmono⟩
      · exact .inl hev
      · rw [hev]
        exact ha (hmono hw)

theorem waitRun_inv (hr : Run WaitStep (.create τ mem) ls s) :
    ∃ q, Good s.sys q ∧ Armed s q := by
  refine hr.inv (I := fun s => ∃ q, Good s.sys q ∧ Armed s q) ?_ ?_
  · exact ⟨.empty, good_create mem, fun hw => by simp [Wanted, Queue.empty] at hw⟩
  · rintro s ev s' ⟨q, hg, ha⟩ h
    exact waitStep_inv hg ha h

/-- No wake-up is lost, in any order of steps: a pending SRB, or a stopped
queue, finds the token set or a thread that has taken it and will look. So
there is no state in which a thread is blocked in the wait, nobody else is past
it, and there is something to do. -/
theorem spdIoq_no_lost_wakeup (hr : Run WaitStep (.create τ mem) ls s) (hn : Needed s.sys.ioq) :
    (s.sys.ioq.pendingEvent = true ∨ ∃ t, s.phase t = .woken) ∧
      ¬ ∃ t, Blocked s t ∧ ∀ t', t' ≠ t → Blocked s t' ∨ s.phase t' = .outside := by
  obtain ⟨q, hg, ha⟩ := waitRun_inv hr
  have harmed := ha (hg.refines.needed.mp hn)
  rw [← hg.refines.event] at harmed
  refine ⟨harmed, ?_⟩
  rintro ⟨t, ⟨hph, hwait⟩, hrest⟩
  rcases harmed with hev | ⟨t', ht'⟩
  · simp [hev, spdQeventWait] at hwait
  · by_cases htt : t' = t
    · subst htt
      simp [hph] at ht'
    · rcases hrest t' htt with ⟨hph', -⟩ | hph' <;> simp [hph'] at ht'

/-- A thread waits, an SRB is posted. -/
theorem spdIoq_no_lost_wakeup_post :
    ∃ (ls : List (WaitEvent Nat)) (s : WaitSys Nat), Run WaitStep (.create Nat zeroedIoq) ls s ∧
      s.phase 0 = .waiting ∧ Needed s.sys.ioq ∧
      (s.sys.ioq.pendingEvent = true ∨ ∃ t, s.phase t = .woken) := by
  obtain ⟨s₁, h₁, hg₁⟩ := (good_create zeroedIoq).exec
    ⟨.post ⟨0x1000, 0x2000⟩, [], .success⟩ ⟨by decide, by simp [IoqSys.create]⟩ rfl
  have hrun : Run WaitStep (.create Nat zeroedIoq) [.enter 0, .call _]
      ⟨s₁, Function.update (fun _ => .outside) 0 .waiting⟩ :=
    (Run.single (.enter rfl)).snoc (.call (by simp) h₁)
  have hn : Needed s₁.ioq := hg₁.refines.needed.mpr (.inl (by simp [Queue.post, Queue.empty]))
  exact ⟨_, _, hrun, rfl, hn, (spdIoq_no_lost_wakeup hrun hn).1⟩

end Winspd.Proofs
