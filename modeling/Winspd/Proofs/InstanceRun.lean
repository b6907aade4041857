import Mathlib.Data.List.Pairwise
import Winspd.Proofs.Instances

/-!
# Runs of the launcher

The invariants of `Proofs.Instances` over whole runs, from any number of
threads. `InstanceLifecycle` is what follows about the list, the names, the
memory and the event.

The count of an instance can be zero while it is in the list: whoever has
dropped the last reference unlinks it under the lock, and may have to wait for
the lock. Until then its name is in use.
-/

namespace Winspd.Proofs

open Winspd.Lib Winspd.Shared Winspd.Launcher

variable {ls : List LauncherEvent} {s : LauncherState} {g : InstanceAccount}
  {gs gs' : List InstanceAccount} {id : Nat} {ev : LauncherEvent} {w w' : LauncherThreads}

/-! ## The invariant -/

structure LauncherInv (ls : List LauncherEvent) (s : LauncherState) (gs : List InstanceAccount) :
    Prop where
  live : AllLive ls s gs
  list : ListInv s gs

namespace LauncherInv

theorem init : LauncherInv [] .init [] where
  live id :=
    ⟨.unborn, ⟨fun k => by cases k <;> rfl, rfl, rfl, iff_of_false List.not_mem_nil nofun,
    fun m => by cases m <;> rfl, trivial⟩, fun _ => rfl⟩
  list := .init

theorem perm (hperm : gs.Perm gs') (h : LauncherInv ls s gs) : LauncherInv ls s gs' where
  live id := by
    obtain ⟨l, hl, hunborn⟩ := h.live id
    exact ⟨l, hl.perm hperm, hunborn⟩
  list := h.list.perm hperm

theorem cons_outside : LauncherInv ls s (.outside none :: gs) ↔ LauncherInv ls s gs := by
  have hholders : ∀ k id, holders (.outside none :: gs) k id = holders gs k id := fun k id => by
    rw [holders_cons, if_neg nofun, Nat.add_zero]
  constructor
  · intro h
    refine ⟨fun id => ?_, ListInv.cons_outside.mp h.list⟩
    obtain ⟨l, hl, hunborn⟩ := h.live id
    exact ⟨l, { hl with holders := fun k => (hholders k id).symm.trans (hl.holders k) },
      hunborn⟩
  · intro h
    refine ⟨fun id => ?_, ListInv.cons_outside.mpr h.list⟩
    obtain ⟨l, hl, hunborn⟩ := h.live id
    exact ⟨l, { hl with holders := fun k => (hholders k id).trans (hl.holders k) }, hunborn⟩

theorem quiet (h : LauncherInv ls s gs) (hmark : instanceMark ev = none) :
    LauncherInv (ls ++ [ev]) s gs := by
  refine ⟨fun id => ?_, h.list⟩
  obtain ⟨l, hl, hunborn⟩ := h.live id
  refine ⟨l, { hl with marks := fun m => ?_ }, hunborn⟩
  rw [marks_snoc, hmark, if_neg nofun, Nat.add_zero, hl.marks m]

end LauncherInv

theorem launcherStep_verified (h : Threads.Verified instanceRules (LauncherInv ls) w)
    (hstep : LauncherStep w ev w') :
    Threads.Verified instanceRules (LauncherInv (ls ++ [ev])) w' := by
  refine Threads.Verified.step_to (C := fun _ _ => True) (fun hp h => h.perm hp)
    (fun hp h => h.perm hp) (fun hev h => ?_) (fun hev hg h => ?_) launcherEntry_safe
    (fun hev _ _ hmay h hexec => ?_) h trivial hstep
  · subst hev
    exact (LauncherInv.cons_outside.mpr h).quiet rfl
  · subst hev
    obtain rfl := hg
    exact (LauncherInv.cons_outside.mp h).quiet rfl
  · subst hev
    exact ⟨⟨allLive_exec h.live h.list.nodup hmay hexec, h.list.exec h.live hmay hexec⟩,
      trivial⟩

theorem launcherRun_verified (hrun : Run LauncherStep launcherInit ls w) :
    Threads.Verified instanceRules (LauncherInv ls) w :=
  hrun.history (I := fun ls w => Threads.Verified instanceRules (LauncherInv ls) w)
    ⟨.init, fun _ h => absurd h List.not_mem_nil⟩ fun _ ih hstep =>
      launcherStep_verified ih hstep

/-! ## What follows -/

theorem Life.refCount_of_holds {l : Life} {k : HoldKind} (h : 0 < l.holds k) :
    l.refCount.isSome = true := by
  cases l <;> cases k <;> first | rfl | exact absurd h (Nat.lt_irrefl 0)

theorem Life.refCount_of_listed {l : Life} (h : l.listed = true) : l.refCount.isSome = true := by
  cases l <;> first | rfl | cases h

theorem Lives.allocated {l : Life} (h : Lives ls s gs id l) (hl : l.refCount.isSome = true) :
    (s.memory id).isSome = true := by
  rw [← h.refCount, Option.isSome_map] at hl
  exact hl

namespace LauncherInv

theorem held (h : LauncherInv ls s gs) (hmem : g ∈ gs) {k : HoldKind}
    (hg : g.hold = some (k, id)) : (s.memory id).isSome = true := by
  obtain ⟨l, hl, hpos, -⟩ := h.live.holding hmem hg
  exact hl.allocated (Life.refCount_of_holds hpos)

theorem listed (h : LauncherInv ls s gs) (hid : id ∈ s.list) : (s.memory id).isSome = true := by
  obtain ⟨l, hl, -⟩ := h.live id
  exact hl.allocated (Life.refCount_of_listed (hl.listed.mp hid))

theorem reached (h : LauncherInv ls s gs) (hmem : g ∈ gs) (hreaches : g.Reaches id) :
    (s.memory id).isSome = true := by
  rcases hreaches with hg | ⟨-, hfound⟩
  · exact h.held hmem hg
  · exact h.listed ((h.list.knows g hmem).found id hfound)

theorem uses (h : LauncherInv ls s gs) (hmem : g ∈ gs) {a : InstanceAction} (hmay : g.May a)
    (hid : id ∈ a.uses s) : (s.memory id).isSome = true := by
  cases a with
  | lookup | entries => exact h.listed hid
  | insertTail id' =>
      rcases List.mem_cons.mp hid with rfl | hid
      · exact h.held hmem hmay.2.2
      · exact h.listed hid
  | removeEntry id' =>
      rcases List.mem_cons.mp hid with rfl | hid
      · obtain rfl : g = ⟨true, none, none, [], some (.last, id)⟩ := hmay
        exact h.held hmem rfl
      · exact h.listed hid
  | replaceArguments | createProcess | registerWait | closeHandles =>
      obtain rfl := List.mem_singleton.mp hid
      exact h.held hmem hmay
  | decrement id' =>
      obtain rfl := List.mem_singleton.mp hid
      obtain rfl : g = .outside (some (.ref, id)) := hmay
      exact h.held hmem rfl
  | read | accessCheck | kill | setPersistent | deletePersistent =>
      obtain rfl := List.mem_singleton.mp hid
      exact h.reached hmem hmay
  | memFree id' =>
      obtain rfl := List.mem_singleton.mp hid
      rcases hmay with hg | hg
      · exact h.held hmem hg
      · exact h.held hmem hg
  | _ => exact absurd hid List.not_mem_nil

end LauncherInv

/-! ## What a life says about its marks -/

namespace Life

variable {l : Life}

theorem listed_iff : l.listed = true ↔ l.marked .inserted = 1 ∧ l.marked .removed = 0 := by
  cases l with
  | live started => cases started <;> simp [listed, marked]
  | freed listed => cases listed <;> simp [Life.listed, marked]
  | _ => simp [listed, marked]

theorem once : l.marked .inserted ≤ 1 ∧ l.marked .removed ≤ l.marked .inserted ∧
    l.marked .freed ≤ 1 := by
  cases l with
  | live started => cases started <;> simp [marked]
  | freed listed => cases listed <;> simp [marked]
  | _ => simp [marked]

theorem released_of_removed (h : l.marked .removed = 1) : l.marked .released = 2 := by
  cases l with
  | freed listed => cases listed <;> simp_all [marked]
  | _ => simp_all [marked]

theorem removed_of_freed (h : l.marked .freed = 1) :
    l.marked .removed = l.marked .inserted ∧ l.marked .released = 2 * l.marked .inserted := by
  cases l with
  | freed listed => exact ⟨rfl, rfl⟩
  | _ => cases h

theorem refCount_of_released (hok : l.Ok) (h : l.listed = true) :
    l.refCount = some (Int32.ofNat (2 - l.marked .released)) := by
  cases l with
  | live started waiting refs =>
      have hle := hok.2
      have hsame : references (.live started waiting refs) =
          2 - (2 - references (.live started waiting refs)) := by omega
      rw [refCount, marked, ← hsame]
  | dying => rfl
  | _ => cases h

theorem last_of_released (hok : l.Ok) (h : l.marked .released = 2) :
    l = .dying ∨ l = .unlinked ∨ l = .freed true := by
  cases l with
  | live started waiting refs =>
      have hpos := hok.1
      rw [marked] at h
      omega
  | freed listed =>
      cases listed with
      | false => cases h
      | true => exact .inr (.inr rfl)
  | dying => exact .inl rfl
  | unlinked => exact .inr (.inl rfl)
  | _ => cases h

theorem waits_of_unheld (hok : l.Ok) (h : ∀ k, l.holds k = 0) (hl : l.refCount.isSome = true) :
    l.listed = true ∧ l.waiting = true := by
  cases l with
  | live started waiting refs =>
      have hrefs : refs = 0 := h .ref
      have hstarted : started = false := by
        have hnone := h .started
        cases started
        · rfl
        · cases hnone
      subst hrefs hstarted
      cases waiting
      · exact absurd hok.1 (by decide)
      · exact ⟨rfl, rfl⟩
  | building => cases h .building
  | dying => cases h .last
  | unlinked => cases h .gone
  | _ => cases hl

end Life

/-- The list, the names, the memory and the event in a state that was reached
through `ls`. -/
structure InstanceLifecycle (ls : List LauncherEvent) (w : LauncherThreads) : Prop where
  /-- No two instances of the list have one name. -/
  names : ∀ id ∈ w.shared.list, ∀ id' ∈ w.shared.list, id ≠ id' →
    NamesDiffer w.shared id id'
  /-- The list holds what was inserted and not removed. -/
  listed : ∀ id, id ∈ w.shared.list ↔ marks ls .inserted id = 1 ∧ marks ls .removed id = 0
  once : ∀ id, marks ls .inserted id ≤ 1 ∧ marks ls .removed id ≤ marks ls .inserted id ∧
    marks ls .freed id ≤ 1
  counted : ∀ id ∈ w.shared.list, (w.shared.memory id).map SvcInstance.refCount =
    some (Int32.ofNat (2 - marks ls .released id))
  /-- Only an instance whose count is zero is removed. -/
  removed : ∀ id, marks ls .removed id = 1 → marks ls .released id = 2
  /-- While such an instance is in the list, one thread is about to remove it. -/
  removing : ∀ id ∈ w.shared.list, marks ls .released id = 2 → holders w.accounts .last id = 1
  /-- What was in the list is freed after it was removed. -/
  freed : ∀ id, marks ls .freed id = 1 → marks ls .inserted id = 1 →
    marks ls .removed id = 1 ∧ marks ls .released id = 2
  /-- When all threads have left, what was released is freed. -/
  done : w.threads = [] → ∀ id, marks ls .released id = 2 → marks ls .freed id = 1
  /-- What is not freed then is in the list, and its callback is to come. -/
  left : w.threads = [] → ∀ id, (w.shared.memory id).isSome = true →
    id ∈ w.shared.list ∧ w.shared.waiting id = true
  /-- What a thread has found under the lock is there until it leaves. -/
  found : ∀ g ∈ w.accounts, ∀ id ∈ g.found,
    id ∈ w.shared.list ∧ (w.shared.memory id).isSome = true
  /-- Nobody uses an instance that was freed. -/
  uses : ∀ t ∈ w.threads, ∀ a, t.prog.next = some a → ∀ id ∈ a.uses w.shared,
    (w.shared.memory id).isSome = true
  event : w.shared.locked = false → (w.shared.event = true ↔ w.shared.list = [])

instance : Std.Symm (NamesDiffer s) where
  symm _ _ h x hx x' hx' hnamed := h x' hx' x hx ⟨hnamed.1.symm, hnamed.2.symm⟩

/-- Instances come and go, in any order of the threads' steps. -/
theorem instance_lifecycle (hrun : Run LauncherStep launcherInit ls w) :
    InstanceLifecycle ls w := by
  have hverified := launcherRun_verified hrun
  have h := hverified.inv
  have hunheld : w.threads = [] → ∀ k id, holders w.accounts k id = 0 := fun hnone k id => by
    rw [Threads.accounts, hnone]
    rfl
  constructor
  case names =>
    intro id hid id' hid' hne
    exact h.list.names.forall hid hid' hne
  case listed =>
    intro id
    obtain ⟨l, hl, -⟩ := h.live id
    rw [hl.listed, hl.marks, hl.marks]
    exact Life.listed_iff
  case once =>
    intro id
    obtain ⟨l, hl, -⟩ := h.live id
    rw [hl.marks, hl.marks, hl.marks]
    exact Life.once
  case counted =>
    intro id hid
    obtain ⟨l, hl, -⟩ := h.live id
    rw [hl.refCount, hl.marks]
    exact Life.refCount_of_released hl.ok (hl.listed.mp hid)
  case removed =>
    intro id hremoved
    obtain ⟨l, hl, -⟩ := h.live id
    rw [hl.marks] at hremoved ⊢
    exact Life.released_of_removed hremoved
  case removing =>
    intro id hid hreleased
    obtain ⟨l, hl, -⟩ := h.live id
    have hlisted := hl.listed.mp hid
    rw [hl.marks] at hreleased
    rw [hl.holders]
    obtain rfl | rfl | rfl := Life.last_of_released hl.ok hreleased
    · rfl
    · cases hlisted
    · cases hlisted
  case freed =>
    intro id hfreed hinserted
    obtain ⟨l, hl, -⟩ := h.live id
    rw [hl.marks] at hfreed hinserted
    have hmarked := Life.removed_of_freed hfreed
    rwa [hinserted, ← hl.marks, ← hl.marks] at hmarked
  case done =>
    intro hnone id hreleased
    obtain ⟨l, hl, -⟩ := h.live id
    have hholds : ∀ k, l.holds k = 0 := fun k => (hl.holders k).symm.trans (hunheld hnone k id)
    rw [hl.marks] at hreleased ⊢
    obtain rfl | rfl | rfl := Life.last_of_released hl.ok hreleased
    · cases hholds .last
    · cases hholds .gone
    · rfl
  case left =>
    intro hnone id hsome
    obtain ⟨l, hl, -⟩ := h.live id
    have hholds : ∀ k, l.holds k = 0 := fun k => (hl.holders k).symm.trans (hunheld hnone k id)
    have hcount : l.refCount.isSome = true := by
      rw [← hl.refCount, Option.isSome_map]
      exact hsome
    obtain ⟨hlisted, hwaits⟩ := Life.waits_of_unheld hl.ok hholds hcount
    exact ⟨hl.listed.mpr hlisted, hl.waiting.trans hwaits⟩
  case found =>
    intro g hg id hid
    have hlisted := (h.list.knows g hg).found id hid
    exact ⟨hlisted, h.listed hlisted⟩
  case uses =>
    intro t ht a hnext id hid
    exact h.uses (List.mem_map_of_mem ht) ((hverified.safe t ht).next hnext) hid
  case event =>
    intro hlocked
    have howes : ∀ g ∈ w.accounts, g.owes = none := fun g hg => by
      have hout : g.inside = false := by
        have hone := h.list.one
        rw [hlocked, if_neg Bool.false_ne_true, List.countP_eq_zero] at hone
        exact Bool.eq_false_iff.mpr (hone g hg)
      rw [((h.list.knows g hg).out hout).1]
      rfl
    rw [h.list.event howes]
    exact List.isEmpty_iff

/-! ## A run -/

theorem launcherPlays_run {ms : List (Launcher.Choice × Threads.Move LauncherEntry)}
    (h : Threads.plays instanceRules (fun c s a => a.exec s c) (fun _ _ _ => true) [] launcherInit
      ms = some (ls, w)) : Run LauncherStep launcherInit ls w :=
  RunWhen.run (C := fun _ _ _ => True)
    (Threads.plays_run (fun c _ _ _ _ h => ⟨c, h⟩) (fun _ _ _ _ => trivial) .nil h)

/-- An instance is started, and its process ends at once. The callback and the
creator release it; the creator has not got the lock yet. -/
def startAndTerminate : List (Launcher.Choice × Threads.Move LauncherEntry) :=
  let ok : Launcher.Choice := .ends errorSuccess
  let name : WString := ⟨[0x61], by decide⟩
  [(ok, .enter _ (.start name name)),
    -- the creation, up to the wait
    (ok, .turn 0), (ok, .turn 0), (ok, .turn 0), (ok, .turn 0), (.replaces name, .turn 0),
    (.creates 4, .turn 0), (ok, .turn 0),
    -- the callback comes, and releases the instance
    (ok, .enter _ .terminated), (.calls 0, .turn 0), (ok, .turn 0), (ok, .turn 0),
    -- the rest of the creation, and the creator's release
    (ok, .turn 1), (ok, .turn 1), (ok, .turn 1), (ok, .turn 1), (ok, .turn 1)]

/-- The callback leaves, and so does the creator. -/
def startAndEnd : List (Launcher.Choice × Threads.Move LauncherEntry) :=
  let ok : Launcher.Choice := .ends errorSuccess
  startAndTerminate ++ [(ok, .turn 0), (ok, .turn 0), (ok, .turn 0), (ok, .turn 0), (ok, .turn 0),
    (ok, .turn 0), (ok, .turn 0), (ok, .turn 0)]

theorem instance_lifecycle_startAndEnd : ∃ ls w, Run LauncherStep launcherInit ls w ∧
    w.threads.length = 0 ∧ marks ls .freed 0 = 1 ∧ InstanceLifecycle ls w := by
  have hfinal : (Threads.plays instanceRules (fun c s a => a.exec s c) (fun _ _ _ => true) []
      launcherInit startAndEnd).map (fun x => (x.2.threads.length, marks x.1 .freed 0)) =
      some (0, 1) := by rfl
  obtain ⟨⟨ls, w⟩, hplays, hfinal⟩ := Option.map_eq_some_iff.mp hfinal
  rw [Prod.mk.injEq] at hfinal
  have hrun := launcherPlays_run hplays
  exact ⟨ls, w, hrun, hfinal.1, hfinal.2, instance_lifecycle hrun⟩

/-- The lock is free, and an instance is in the list although its count is
zero. -/
theorem instance_lifecycle_listedAtZero : ∃ ls w, Run LauncherStep launcherInit ls w ∧
    w.shared.locked = false ∧ w.shared.list = [0] ∧
    (w.shared.memory 0).map SvcInstance.refCount = some 0 := by
  have hfinal : (Threads.plays instanceRules (fun c s a => a.exec s c) (fun _ _ _ => true) []
      launcherInit startAndTerminate).map (fun x => (x.2.shared.locked, x.2.shared.list,
        (x.2.shared.memory 0).map SvcInstance.refCount)) = some (false, [0], some 0) := by rfl
  obtain ⟨⟨ls, w⟩, hplays, hfinal⟩ := Option.map_eq_some_iff.mp hfinal
  rw [Prod.mk.injEq, Prod.mk.injEq] at hfinal
  exact ⟨ls, w, launcherPlays_run hplays, hfinal⟩

end Winspd.Proofs
