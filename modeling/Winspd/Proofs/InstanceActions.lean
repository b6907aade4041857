import Winspd.Launcher.Instance

/-!
# What threads do with service instances

First the machine of `Launcher.Instance` taken apart: what each action does.
Then what matters of a thread: whether it is inside the lock, what it knows
there, and which instance it holds and how far this one has come. Every
function of the launcher is safe.

What a thread may do is a matter of its own account (`InstanceAccount.May`), so
that the functions of the launcher can be checked one by one, without the others.
That this is enough, whatever the threads do at the same time, is shown in
`Proofs.Instances`.
-/

namespace Winspd.Proofs

open Winspd.Lib Winspd.Shared Winspd.Launcher

/-! ## Actions -/

section Effects

variable {s s' : LauncherState} {a : InstanceAction} {r : a.Answer} {id : Nat} {α : Type}

def instanceKey (x : SvcInstance) : Int32 × WString × WString :=
  (x.refCount, x.className, x.instanceName)

/-- A write to one instance that leaves these alone. -/
def Writes (s s' : LauncherState) (id : Nat) : Prop :=
  ∃ x y, s.memory id = some x ∧ instanceKey y = instanceKey x ∧
    s' = { s with memory := Function.update s.memory id (some y) }

def InstanceEffect (s s' : LauncherState) : (a : InstanceAction) → a.Answer → Prop
  | .enterLock, _ => s.locked = false ∧ s' = { s with locked := true }
  | .leaveLock, _ => s' = { s with locked := false }
  | .lookup className instanceName allowPidLookup, r =>
      s' = s ∧ (∀ id ∈ r, id ∈ s.list) ∧
        (r = none → allowPidLookup = false →
          ∀ id ∈ s.list, ∀ x ∈ s.memory id, ¬ x.Named className instanceName)
  | .entries, entries => s' = s ∧ entries = s.list
  | .configure, _ | .waitEvent, _ => s' = s
  | .memAlloc className instanceName, some id =>
      id = s.next ∧ ∃ x, instanceKey x = (2, className, instanceName) ∧
        s' = { s with memory := Function.update s.memory id (some x), next := s.next + 1 }
  | .memAlloc .., none => s' = s
  | .registerWait id, error =>
      s' = if error = errorSuccess then { s with waiting := Function.update s.waiting id true }
        else s
  | .insertTail id, _ => s' = { s with list := s.list ++ [id] }
  | .resetEvent, _ => s' = { s with event := false }
  | .setEvent, _ => s' = { s with event := true }
  | .decrement id, refCount =>
      ∃ x, s.memory id = some x ∧ refCount = x.refCount - 1 ∧
        s' = { s with
          memory := Function.update s.memory id (some { x with refCount := x.refCount - 1 }) }
  | .removeEntry id, empty =>
      s' = { s with list := s.list.erase id } ∧ empty = (s.list.erase id).isEmpty
  | .memFree id, _ => s' = { s with memory := Function.update s.memory id none }
  | .terminated, id =>
      s.waiting id = true ∧ s' = { s with waiting := Function.update s.waiting id false }
  | .replaceArguments id, _ | .createProcess id, _ | .read id, _ | .accessCheck id, _
  | .kill id _, _ | .setPersistent id, _ | .deletePersistent id, _ | .closeHandles id, _ =>
      Writes s s' id

theorem access_writes {f : SvcInstance → SvcInstance × α} {y : α}
    (hf : ∀ x, instanceKey (f x).1 = instanceKey x) (h : s.access id f = some (s', y)) :
    Writes s s' id := by
  obtain ⟨x, hx, heq⟩ := Option.map_eq_some_iff.mp h
  cases heq
  exact ⟨x, (f x).1, hx, hf x, rfl⟩

theorem mem_listed {listed : List (Nat × SvcInstance)} (h : s.listed = some listed) :
    (∀ x ∈ listed, x.1 ∈ s.list) ∧
      ∀ id ∈ s.list, ∀ x, s.memory id = some x → (id, x) ∈ listed := by
  unfold LauncherState.listed at h
  generalize s.list = list at h
  induction list generalizing listed with
  | nil =>
      cases h
      exact ⟨fun x hx => absurd hx List.not_mem_nil, fun id hid => absurd hid List.not_mem_nil⟩
  | cons id list ih =>
      rw [List.mapM_cons, Option.bind_eq_bind, Option.bind_eq_some_iff] at h
      obtain ⟨y, hy, h⟩ := h
      rw [Option.bind_eq_bind, Option.bind_eq_some_iff] at h
      obtain ⟨rest, hrest, h⟩ := h
      cases h
      obtain ⟨x, hx, rfl⟩ := Option.map_eq_some_iff.mp hy
      obtain ⟨hin, hall⟩ := ih hrest
      refine ⟨fun z hz => ?_, fun id' hid' x' hx' => ?_⟩
      · rcases List.mem_cons.mp hz with rfl | hz
        · exact List.mem_cons_self
        · exact List.mem_cons_of_mem _ (hin z hz)
      · rcases List.mem_cons.mp hid' with rfl | hid'
        · rw [hx] at hx'
          cases hx'
          exact List.mem_cons_self
        · exact List.mem_cons_of_mem _ (hall id' hid' x' hx')

theorem svcInstanceLookup_mem {listed : List (Nat × SvcInstance)}
    {className instanceName : WString}
    {allowPidLookup : Bool}
    (h : id ∈ svcInstanceLookup listed className instanceName allowPidLookup) :
    ∃ x ∈ listed, x.1 = id := by
  unfold svcInstanceLookup svcInstanceLookupByPid at h
  split at h <;>
  · obtain ⟨x, hx, hid⟩ := Option.map_eq_some_iff.mp h
    exact ⟨x, List.mem_of_find?_eq_some hx, hid⟩

theorem svcInstanceLookup_none {listed : List (Nat × SvcInstance)}
    {className instanceName : WString}
    (h : svcInstanceLookup listed className instanceName false = none) :
    ∀ x ∈ listed, ¬ x.2.Named className instanceName := by
  unfold svcInstanceLookup at h
  rw [if_neg (by simp), Option.map_eq_none_iff, List.find?_eq_none] at h
  exact fun x hx hnamed => h x hx (decide_eq_true hnamed)

theorem exec_instanceEffect (h : a.Exec s r s') : InstanceEffect s s' a r := by
  obtain ⟨c, h⟩ := h
  cases a with
  | enterLock =>
      simp only [InstanceAction.exec] at h
      split at h
      · cases h
      · next hlocked =>
          cases h
          exact ⟨by simpa using hlocked, rfl⟩
  | lookup className instanceName allowPidLookup =>
      obtain ⟨listed, hlisted, heq⟩ := Option.map_eq_some_iff.mp h
      cases heq
      obtain ⟨hin, hall⟩ := mem_listed hlisted
      refine ⟨rfl, fun id hid => ?_, fun hnone hpid id hid x hx => ?_⟩
      · obtain ⟨x, hx, rfl⟩ := svcInstanceLookup_mem hid
        exact hin x hx
      · subst hpid
        exact svcInstanceLookup_none hnone _ (hall id hid x hx)
  | entries =>
      obtain ⟨listed, -, heq⟩ := Option.map_eq_some_iff.mp h
      cases heq
      exact ⟨rfl, rfl⟩
  | memAlloc className instanceName =>
      cases c with
      | ends error =>
          simp only [InstanceAction.exec] at h
          split at h
          · cases h
            exact ⟨rfl, _, rfl, rfl⟩
          · cases h
            rfl
      | _ => cases h
  | replaceArguments id | createProcess id =>
      cases c with
      | ends error =>
          simp only [InstanceAction.exec] at h
          split at h
          · cases h
          · exact access_writes (fun _ => rfl) h
      | replaces | creates => first | exact access_writes (fun _ => rfl) h | cases h
      | calls => cases h
  | registerWait id =>
      cases c with
      | ends error =>
          simp only [InstanceAction.exec] at h
          split at h
          · next he =>
              obtain ⟨x, -, heq⟩ := Option.map_eq_some_iff.mp h
              cases heq
              exact (if_pos he).symm
          · next he =>
              obtain ⟨x, -, heq⟩ := Option.map_eq_some_iff.mp h
              cases heq
              exact (if_neg he).symm
      | _ => cases h
  | insertTail id =>
      simp only [InstanceAction.exec] at h
      split at h
      · cases h
        rfl
      · cases h
  | removeEntry id =>
      simp only [InstanceAction.exec] at h
      split at h
      · cases h
        exact ⟨rfl, rfl⟩
      · cases h
  | decrement id =>
      obtain ⟨x, hx, heq⟩ := Option.map_eq_some_iff.mp h
      cases heq
      exact ⟨x, hx, rfl, rfl⟩
  | memFree id =>
      obtain ⟨x, -, heq⟩ := Option.map_eq_some_iff.mp h
      cases heq
      rfl
  | terminated =>
      cases c with
      | calls id =>
          simp only [InstanceAction.exec] at h
          split at h
          · next hwaiting =>
              cases h
              exact ⟨hwaiting, rfl⟩
          · cases h
      | _ => cases h
  | read id | setPersistent id | deletePersistent id | closeHandles id =>
      exact access_writes (fun _ => rfl) h
  | accessCheck id | kill id forced =>
      cases c with
      | ends error => exact access_writes (fun _ => rfl) h
      | _ => cases h
  | leaveLock | resetEvent | setEvent | waitEvent =>
      cases h
      rfl
  | configure =>
      cases c with
      | ends error =>
          cases h
          rfl
      | _ => cases h

end Effects

/-! ## Accounts -/

/-- How far the instance of a thread has come. -/
inductive HoldKind
  /-- Allocated, and nobody else knows it. -/
  | building
  /-- Its wait is registered. -/
  | started
  /-- The thread has a reference. -/
  | ref
  /-- The thread has dropped the last one. -/
  | last
  /-- It is not in the list any more. -/
  | gone
  deriving DecidableEq, Repr

structure InstanceAccount where
  /-- Is it inside `SvcInstanceLock`? -/
  inside : Bool
  /-- What it has to make `SvcInstanceEvent`. -/
  owes : Option Bool
  /-- A name that no instance of the list has. -/
  checked : Option (WString × WString)
  /-- What it has found in the list. -/
  found : List Nat
  hold : Option (HoldKind × Nat)
  deriving DecidableEq, Repr

namespace InstanceAccount

def outside (hold : Option (HoldKind × Nat)) : InstanceAccount := ⟨false, none, none, [], hold⟩

def within (checked : Option (WString × WString)) (found : List Nat) : InstanceAccount :=
  ⟨true, none, checked, found, none⟩

def track : (a : InstanceAction) → a.Answer → InstanceAccount → InstanceAccount
  | .enterLock, _, g => { g with inside := true }
  | .leaveLock, _, g => { g with inside := false, checked := none, found := [] }
  | .lookup className instanceName allowPidLookup, r, g =>
      { g with
        checked := if r = none ∧ allowPidLookup = false then
          some (className, instanceName) else none
        found := r.toList }
  | .entries, entries, g => { g with found := entries }
  | .memAlloc .., r, g => { g with hold := r.map fun id => (.building, id) }
  | .registerWait id, error, g =>
      if error = errorSuccess then { g with hold := some (.started, id) } else g
  | .insertTail id, _, g =>
      { g with owes := some false, checked := none, hold := some (.ref, id) }
  | .resetEvent, _, g | .setEvent, _, g => { g with owes := none }
  | .decrement id, refCount, g =>
      { g with hold := if refCount = 0 then some (.last, id) else none }
  | .removeEntry id, empty, g =>
      { g with owes := if empty then some true else none, hold := some (.gone, id) }
  | .memFree _, _, g => { g with hold := none }
  | .terminated, id, g => { g with hold := some (.ref, id) }
  | _, _, g => g

/-- It may use an instance that it holds or has found. -/
def Reaches (g : InstanceAccount) (id : Nat) : Prop :=
  g.hold = some (.ref, id) ∨ g.inside = true ∧ id ∈ g.found

def May (g : InstanceAccount) : InstanceAction → Prop
  | .enterLock => g = .outside g.hold
  | .leaveLock => g.inside = true ∧ g.owes = none ∧
      ∀ id, g.hold ≠ some (.building, id) ∧ g.hold ≠ some (.started, id)
  | .lookup .. | .entries => g = .within none []
  | .memAlloc className instanceName => g = .within (some (className, instanceName)) []
  | .replaceArguments id | .createProcess id | .registerWait id => g.hold = some (.building, id)
  | .insertTail id => g.inside = true ∧ g.owes = none ∧ g.hold = some (.started, id)
  | .resetEvent => g.owes = some false
  | .setEvent => g.owes = some true
  | .decrement id => g = .outside (some (.ref, id))
  | .removeEntry id => g = ⟨true, none, none, [], some (.last, id)⟩
  | .read id | .accessCheck id | .kill id _ | .setPersistent id | .deletePersistent id =>
      g.Reaches id
  | .closeHandles id => g.hold = some (.gone, id)
  | .memFree id => g.hold = some (.gone, id) ∨ g.hold = some (.building, id)
  | .terminated => g = .outside none
  | .configure | .waitEvent => True

end InstanceAccount

def instanceRules : Rules InstanceAction InstanceAction.Answer InstanceAccount where
  start := .outside none
  track := InstanceAccount.track
  May := InstanceAccount.May
  Answers _ _ _ := True
  Settled g := g = .outside none

/-! ## The functions -/

variable {α β : Type} {className instanceName : WString} {id : Nat}

/-- From outside the lock, without an instance, to there. -/
abbrev Settles (p : LauncherProg α) : Prop :=
  instanceRules.Safe (fun _ g => g = .outside none) (.outside none) p

theorem svcInstanceDiscard_safe {error : UInt32} {checked : Option (WString × WString)} :
    instanceRules.Safe (fun r g => g = .within checked [] ∧ ∃ error, r = .error error)
      ⟨true, none, checked, [], some (.building, id)⟩ (svcInstanceDiscard id error) :=
  .perform_bind (.inr rfl) fun _ _ => ⟨rfl, error, rfl⟩

/-- What an account is when a creation ends. -/
def Created (r : Except UInt32 Nat) (g : InstanceAccount) : Prop :=
  match r with
  | .ok id => g = ⟨true, none, none, [], some (.ref, id)⟩
  | .error _ => ∃ checked found, g = .within checked found

theorem svcInstanceFill_safe {checked : Option (WString × WString)} :
    instanceRules.Safe Created ⟨true, none, checked, [], some (.building, id)⟩
      (svcInstanceFill id) := by
  have hdiscard : ∀ error, instanceRules.Safe Created
      ⟨true, none, checked, [], some (.building, id)⟩ (svcInstanceDiscard id error) :=
        fun error =>
    svcInstanceDiscard_safe.mono fun r g ⟨hg, error, hr⟩ => by
      subst hr
      exact ⟨checked, [], hg⟩
  refine .perform_bind rfl fun error _ => ?_
  split
  · exact hdiscard error
  · refine .perform_bind rfl fun error _ => ?_
    split
    · exact hdiscard error
    · refine .perform_bind rfl fun error _ => ?_
      show instanceRules.Safe Created
        (if error = errorSuccess then ⟨true, none, checked, [], some (.started, id)⟩
          else ⟨true, none, checked, [], some (.building, id)⟩) _
      by_cases he : error = errorSuccess
      · rw [if_pos he, if_neg (not_not.mpr he)]
        refine .perform_bind ⟨rfl, rfl, rfl⟩ fun _ _ => ?_
        exact .perform_bind rfl fun _ _ => rfl
      · rw [if_neg he, if_pos he]
        exact hdiscard error

theorem svcInstanceCreateLocked_safe :
    instanceRules.Safe Created (.within none [])
      (svcInstanceCreateLocked className instanceName) := by
  unfold svcInstanceCreateLocked
  split
  · exact ⟨none, [], rfl⟩
  · refine .perform_bind rfl fun found _ => ?_
    cases found with
    | some id => exact ⟨none, [id], rfl⟩
    | none =>
        refine .perform_bind trivial fun error _ => ?_
        split
        · exact ⟨_, [], rfl⟩
        · refine .perform_bind rfl fun block _ => ?_
          cases block with
          | none => exact ⟨_, [], rfl⟩
          | some id => exact svcInstanceFill_safe

theorem svcInstanceCreate_safe :
    instanceRules.Safe (fun r g => g = .outside (r.toOption.map fun id => (.ref, id)))
      (.outside none) (svcInstanceCreate className instanceName) := by
  refine .perform_bind rfl fun _ _ => ?_
  refine svcInstanceCreateLocked_safe.bind fun r g hr => ?_
  cases r with
  | ok id =>
      obtain rfl : g = ⟨true, none, none, [], some (.ref, id)⟩ := hr
      refine .perform_bind ⟨rfl, rfl, fun id' => ⟨?_, ?_⟩⟩ fun _ _ => rfl
      · rintro ⟨⟩
      · rintro ⟨⟩
  | error error =>
      obtain ⟨checked, found, rfl⟩ : ∃ checked found, g = .within checked found := hr
      refine .perform_bind ⟨rfl, rfl, fun id' => ⟨?_, ?_⟩⟩ fun _ _ => rfl
      · rintro ⟨⟩
      · rintro ⟨⟩

theorem svcInstanceUnlink_safe :
    instanceRules.Safe (fun _ g => g = ⟨true, none, none, [], some (.gone, id)⟩)
      ⟨true, none, none, [], some (.last, id)⟩ (svcInstanceUnlink id) := by
  refine .perform_bind rfl fun empty _ => ?_
  cases empty
  · rfl
  · exact ⟨rfl, fun _ _ => rfl⟩

theorem svcInstanceRelease_safe :
    instanceRules.Safe (fun _ g => g = .outside none) (.outside (some (.ref, id)))
      (svcInstanceRelease id) := by
  refine .perform_bind rfl fun refCount _ => ?_
  show instanceRules.Safe _ (.outside (if refCount = 0 then some (.last, id) else none)) _
  by_cases hzero : refCount = 0
  · rw [if_pos hzero, if_neg (not_not.mpr hzero)]
    refine .perform_bind rfl fun _ _ => ?_
    refine svcInstanceUnlink_safe.bind fun _ g hg => ?_
    subst hg
    refine .perform_bind ⟨rfl, rfl, fun id' => ⟨?_, ?_⟩⟩ fun _ _ => ?_
    · rintro ⟨⟩
    · rintro ⟨⟩
    · refine .perform_bind rfl fun _ _ => ?_
      exact ⟨.inl rfl, fun _ _ => rfl⟩
  · rw [if_neg hzero, if_pos hzero]
    rfl

theorem svcInstanceTerminated_safe : Settles svcInstanceTerminated := by
  refine .perform_bind rfl fun id _ => ?_
  refine .perform_bind (.inl rfl) fun _ _ => ?_
  exact svcInstanceRelease_safe

theorem svcInstanceStart_safe : Settles (svcInstanceStart className instanceName) := by
  refine svcInstanceCreate_safe.bind fun r g hg => ?_
  subst hg
  cases r with
  | error error => rfl
  | ok id =>
      refine .perform_bind (.inl rfl) fun _ _ => ?_
      exact svcInstanceRelease_safe.bind fun _ g hg => hg

theorem svcInstanceStartAllPersistent_safe {records : List (WString × WString)} :
    Settles (svcInstanceStartAllPersistent records) := by
  induction records with
  | nil => rfl
  | cons record records ih =>
      refine svcInstanceCreate_safe.bind fun r g hg => ?_
      subst hg
      cases r with
      | error error => exact ih
      | ok id =>
          refine svcInstanceRelease_safe.bind fun _ g hg => ?_
          subst hg
          exact ih

theorem leave_safe {Q : α → InstanceAccount → Prop} {found : List Nat}
    {f : Unit → LauncherProg α}
    {checked : Option (WString × WString)} (h : instanceRules.Safe Q (.outside none) (f ())) :
    instanceRules.Safe Q (.within checked found) (launcherAction .leaveLock >>= f) := by
  refine .perform_bind ⟨rfl, rfl, fun id' => ⟨?_, ?_⟩⟩ fun _ _ => h
  · rintro ⟨⟩
  · rintro ⟨⟩

theorem withInstance_safe {missing : α} {found : Nat → LauncherProg α}
    (h : ∀ id, instanceRules.Safe (fun _ g => g = .within none [id]) (.within none [id])
      (found id)) : Settles (withInstance className instanceName missing found) := by
  refine .perform_bind rfl fun _ _ => ?_
  refine .perform_bind rfl fun r _ => ?_
  cases r with
  | none => exact leave_safe rfl
  | some id =>
      refine (h id).bind fun _ g hg => ?_
      subst hg
      exact leave_safe rfl

theorem svcInstanceStop_safe {forced : Bool} :
    Settles (svcInstanceStop className instanceName forced) := by
  refine withInstance_safe fun id => ?_
  have hreach : InstanceAccount.Reaches (.within none [id]) id :=
    .inr ⟨rfl, List.mem_singleton_self _⟩
  refine .perform_bind hreach fun error _ => ?_
  split
  · rfl
  · refine .perform_bind hreach fun error _ => ?_
    split
    · rfl
    · exact .perform_bind hreach fun _ _ => rfl

theorem svcInstanceGetInfo_safe {size : Nat} :
    Settles (svcInstanceGetInfo className instanceName size) := by
  refine withInstance_safe fun id => ?_
  have hreach : InstanceAccount.Reaches (.within none [id]) id :=
    .inr ⟨rfl, List.mem_singleton_self _⟩
  refine .perform_bind hreach fun error _ => ?_
  split
  · rfl
  · exact .perform_bind hreach fun _ _ => rfl

theorem svcNameList_safe {room : Nat} {found rest : List Nat} (h : ∀ id ∈ rest, id ∈ found) :
    instanceRules.Safe (fun _ g => g = .within none found) (.within none found)
      (svcNameList room rest) := by
  induction rest generalizing room with
  | nil => rfl
  | cons id rest ih =>
      refine .perform_bind (.inr ⟨rfl, h id List.mem_cons_self⟩) fun x _ => ?_
      dsimp only
      split
      · rfl
      · exact (ih fun id' hid' => h id' (List.mem_cons_of_mem _ hid')).bind fun _ g hg => hg

theorem svcKillAll_safe {found rest : List Nat} (h : ∀ id ∈ rest, id ∈ found) :
    instanceRules.Safe (fun _ g => g = .within none found) (.within none found)
      (svcKillAll rest) := by
  induction rest with
  | nil => rfl
  | cons id rest ih =>
      refine .perform_bind (.inr ⟨rfl, h id List.mem_cons_self⟩) fun _ _ => ?_
      exact ih fun id' hid' => h id' (List.mem_cons_of_mem _ hid')

theorem svcInstanceGetNameList_safe {size : Nat} : Settles (svcInstanceGetNameList size) := by
  refine .perform_bind rfl fun _ _ => ?_
  refine .perform_bind rfl fun entries _ => ?_
  refine (svcNameList_safe fun _ h => h).bind fun _ g hg => ?_
  subst hg
  exact leave_safe rfl

theorem svcInstanceStopAndWaitAll_safe : Settles svcInstanceStopAndWaitAll := by
  refine .perform_bind rfl fun _ _ => ?_
  refine .perform_bind rfl fun entries _ => ?_
  refine (svcKillAll_safe fun _ h => h).bind fun _ g hg => ?_
  subst hg
  exact leave_safe ⟨trivial, fun _ _ => rfl⟩

theorem launcherEntry_safe {p : LauncherProg Unit} (h : LauncherEntry p) :
    instanceRules.Safe (fun _ => instanceRules.Settled) instanceRules.start p := by
  cases h with
  | start => exact svcInstanceStart_safe.bind fun _ _ hg => hg
  | startAllPersistent => exact svcInstanceStartAllPersistent_safe
  | stop => exact svcInstanceStop_safe.bind fun _ _ hg => hg
  | getInfo => exact svcInstanceGetInfo_safe.bind fun _ _ hg => hg
  | getNameList => exact svcInstanceGetNameList_safe.bind fun _ _ hg => hg
  | stopAndWaitAll => exact svcInstanceStopAndWaitAll_safe
  | terminated => exact svcInstanceTerminated_safe

end Winspd.Proofs
