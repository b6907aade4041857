import Winspd.Lib.Run
import Winspd.Proofs.ProcessExit
import Winspd.Sys.Adapter

/-!
# Adapter teardown

Any number of threads run the functions of `Sys.Adapter` over one lock. A
thread at an acquisition that is not granted waits for the holders in its way
and, for a shared acquisition, also for the threads that want the lock
exclusive. `SpdDeviceExtensionFini` in `PsSetCreateProcessNotifyRoutine` waits
for every invocation of the notify routine, and it holds the lock while it
waits. An invocation that has not acquired the lock by then never will.

In every run the lock is given back as often as it is taken and the global
extension is there whenever it is used (`adapterRun_inv`). Nobody is deadlocked
as long as the routine is removed only while no invocation is short of the lock
(`adapter_teardown`).

Freedom from deadlocks is an argument about a set of threads that all wait. A thread
that waits for the lock waits for one that holds it or wants it exclusive, and those
who hold it go on, but for the one that removes the routine. This one waits for the
invocations, and the condition says that none of them is in front of the lock. So
the chain of who waits for whom always ends.
-/

namespace Winspd.Proofs

open Winspd.Lib Winspd.Sys

/-! ## The system -/

abbrev ThreadId := Nat

structure AdapterSys where
  globals : AdapterGlobals
  lock : RwLock ThreadId
  threads : ThreadId → Option AdapterThread

def AdapterSys.init (extensions : Addr → AdapterExtension) : AdapterSys :=
  ⟨⟨0, extensions, false⟩, .free, fun _ => none⟩

/-- What can be called. The process manager calls the notify routine while it
has it; `DeviceExtension` is not null. -/
def Enters (g : AdapterGlobals) : AdapterThread → Prop
  | .initAcquire deviceExtension _ | .finiAcquire deviceExtension => deviceExtension ≠ 0
  | .notifyEntered _ _ => g.registered = true
  | .pnpEntered _ _ => True
  | _ => False

def Invoked : AdapterThread → Prop
  | .notifyEntered _ _ | .notifyAcquire _ | .notify _ _ => True
  | _ => False

/-- An invocation that has yet to acquire the lock. -/
def Short : AdapterThread → Prop
  | .notifyEntered false _ | .notifyAcquire _ => True
  | _ => False

inductive AdapterEvent
  | enter (t : ThreadId)
  | acquire (t : ThreadId) (mode : LockMode)
  | release (t : ThreadId)
  | run (t : ThreadId)
  | other

def AdapterEvent.lock : AdapterEvent → Option (LockEvent ThreadId)
  | .acquire t mode => some (.acquire t mode)
  | .release t => some (.release t)
  | _ => none

/-- A thread takes a step, or what the device extensions hold is changed by
those who have a pointer to one. -/
inductive AdapterStep (capacity : UInt32) : AdapterSys → AdapterEvent → AdapterSys → Prop
  | enter {s : AdapterSys} {t : ThreadId} {thread : AdapterThread}
      (idle : s.threads t = none) (entry : Enters s.globals thread) :
      AdapterStep capacity s (.enter t)
        { s with threads := Function.update s.threads t (some thread) }
  | acquire {s : AdapterSys} {t : ThreadId} {thread next : AdapterThread} {mode : LockMode}
      (at_acquire : s.threads t = some thread) (acquires : thread.acquires = some (mode, next))
      (grants : s.lock.Grants mode) :
      AdapterStep capacity s (.acquire t mode)
        { s with
          lock := s.lock.acquire t mode
          threads := Function.update s.threads t (some next) }
  | release {s : AdapterSys} {t : ThreadId} {thread : AdapterThread} {next : Option AdapterThread}
      (at_release : s.threads t = some thread) (releases : thread.releases = some next) :
      AdapterStep capacity s (.release t)
        { s with
          lock := s.lock.release t
          threads := Function.update s.threads t next }
  | run {s : AdapterSys} {t : ThreadId} {thread : AdapterThread} {next : Option AdapterThread}
      {g' : AdapterGlobals} {r : SystemResult}
      (at_run : s.threads t = some thread)
      (exec : adapterRun capacity s.globals r thread = some (g', next))
      (removed : thread = .finiRemove →
        ∀ u thread, s.threads u = some thread → ¬ Invoked thread) :
      AdapterStep capacity s (.run t)
        { s with globals := g', threads := Function.update s.threads t next }
  | other {s : AdapterSys} {extensions : Addr → AdapterExtension} :
      AdapterStep capacity s .other
        { s with globals := { s.globals with extensions := extensions } }

/-! ## What is asked of the threads -/

/-- Thread `t` waits for thread `u`. -/
inductive WaitsFor (s : AdapterSys) (t u : ThreadId) : Prop
  /-- For an exclusive acquisition all holders are in the way. -/
  | holder {thread next : AdapterThread} (at_acquire : s.threads t = some thread)
      (acquires : thread.acquires = some (.exclusive, next)) (holds : s.lock u ≠ none)
  /-- For a shared one the exclusive holder is. -/
  | exclusive {thread next : AdapterThread} (at_acquire : s.threads t = some thread)
      (acquires : thread.acquires = some (.shared, next)) (holds : s.lock u = some .exclusive)
  /-- A shared acquisition queues behind an exclusive one. -/
  | queued {thread thread' next next' : AdapterThread} (at_acquire : s.threads t = some thread)
      (acquires : thread.acquires = some (.shared, next))
      (other_at : s.threads u = some thread')
      (other_acquires : thread'.acquires = some (.exclusive, next'))
  | removal {thread : AdapterThread} (at_removal : s.threads t = some .finiRemove)
      (other_at : s.threads u = some thread) (invoked : Invoked thread)

/-- The device extension a thread is about to use. -/
def usedExtension (g : AdapterGlobals) : AdapterThread → Option Addr
  | .notify _ .returned => none
  | .notify _ _ => some g.spdGlobalDeviceExtension
  | .use (.compare deviceExtension _) | .use (.unprovision deviceExtension _ _)
  | .use (.dereferenceUnprovisioned deviceExtension _) => some deviceExtension
  | .use _ => some g.spdGlobalDeviceExtension
  | .release _ => some g.spdGlobalDeviceExtension
  | _ => none

/-- The steps a thread has still to make, at most. -/
def stepsLeft : AdapterThread → Nat
  | .initAcquire _ _ => 4
  | .initCheck _ _ => 3
  | .initStore _ _ => 2
  | .initRelease _ => 1
  | .finiAcquire _ => 5
  | .finiCheck _ => 4
  | .finiRemove => 3
  | .finiClear => 2
  | .finiRelease => 1
  | .notifyEntered _ _ => notifyFuel .entered + 3
  | .notifyAcquire _ => notifyFuel .entered + 2
  | .notify _ routine => notifyFuel routine + 1
  | .pnpEntered _ _ => 14
  | .getScsiAddress _ => 13
  | .acquire (.unprovision _ _) => 5
  | .acquire _ => 12
  | .check (.unprovision _ _) => 4
  | .check _ => 11
  | .use (.referenceByBtl _ _) | .use (.referenceByDevice _) => 10
  | .use (.setDevice _ _) | .use (.copyNames _) => 9
  | .use (.compare _ _) | .use (.dereference _) | .use (.globalDereference _ _ _) => 8
  | .use (.unprovision _ _ _) => 3
  | .use (.dereferenceUnprovisioned _ _) => 2
  | .release (.storPort _ _) | .acquireNone (.storPort _ _) => 7
  | .storPortDispatchPnp _ _ => 6
  | .release .returned | .acquireNone .returned => 1

/-- A thread goes on in its function. -/
inductive Goes (capacity : UInt32) (thread next : AdapterThread) : Prop
  | acquire {mode : LockMode} (acquires : thread.acquires = some (mode, next))
  | release (releases : thread.releases = some (some next))
  | run {g g' : AdapterGlobals} {r : SystemResult}
      (exec : adapterRun capacity g r thread = some (g', some next))

structure TeardownPromise (capacity : UInt32) (ls : List AdapterEvent) (s : AdapterSys) :
    Prop where
  /-- No threads wait for each other. -/
  noDeadlock : ∀ S : Set ThreadId, ¬ Deadlocked (WaitsFor s) S
  /-- A thread that waits for nobody can have the lock. -/
  granted : ∀ t thread mode next, s.threads t = some thread →
    thread.acquires = some (mode, next) → (∀ u, ¬ WaitsFor s t u) → s.lock.Grants mode
  /-- The extension that is used is the global one, and there is one. -/
  present : ∀ t thread p, s.threads t = some thread →
    usedExtension s.globals thread = some p →
    p = s.globals.spdGlobalDeviceExtension ∧ p ≠ 0
  /-- Every acquisition has been released once, except for those who hold it. -/
  balanced : RwLock.Balanced (ls.filterMap AdapterEvent.lock) s.lock
  /-- Who has returned holds nothing. -/
  returned : ∀ t, s.threads t = none → s.lock t = none
  /-- Every function returns after finitely many steps of its own. -/
  ends : ∀ thread next, Goes capacity thread next → stepsLeft next < stepsLeft thread

/-! ## What the code needs -/

/-- The notify routine is removed only while no invocation is short of the
lock. -/
def RemoveOk (s : AdapterSys) (ev : AdapterEvent) : Prop :=
  ∀ t deviceExtension, ev = .run t → s.threads t = some (.finiCheck deviceExtension) →
    deviceExtension = s.globals.spdGlobalDeviceExtension →
    ∀ u thread, s.threads u = some thread → ¬ Short thread

structure CheckedAdapterStep (capacity : UInt32) (s : AdapterSys) (ev : AdapterEvent)
    (s' : AdapterSys) : Prop where
  step : AdapterStep capacity s ev s'
  ok : RemoveOk s ev

/-! ## Threads -/

variable {capacity : UInt32} {g g' : AdapterGlobals} {r : SystemResult}
  {thread next : AdapterThread} {next' : Option AdapterThread} {mode : LockMode}

def lockHeld : AdapterThread → Option LockMode
  | .initCheck _ _ | .initStore _ _ | .initRelease _ | .finiCheck _ | .finiRemove | .finiClear
  | .finiRelease => some .exclusive
  | .notify _ _ | .check _ | .acquireNone _ | .use _ | .release _ => some .shared
  | _ => none

/-- The process manager has the routine if and only if there is an extension. -/
def Settled (g : AdapterGlobals) : Prop :=
  g.registered = true ↔ g.spdGlobalDeviceExtension ≠ 0

/-- What a thread knows of the globals where it is. -/
def Knows (g : AdapterGlobals) : AdapterThread → Prop
  | .initAcquire deviceExtension _ => deviceExtension ≠ 0
  | .initCheck deviceExtension _ => deviceExtension ≠ 0 ∧ Settled g
  | .initStore deviceExtension _ => deviceExtension ≠ 0 ∧ g.registered = true
  | .initRelease _ | .finiCheck _ | .finiRelease => Settled g
  | .finiAcquire deviceExtension => deviceExtension ≠ 0
  | .finiRemove | .finiClear => g.registered = false
  | .use (.compare deviceExtension _) | .use (.unprovision deviceExtension _ _)
  | .use (.dereferenceUnprovisioned deviceExtension _) =>
      deviceExtension = g.spdGlobalDeviceExtension ∧ g.spdGlobalDeviceExtension ≠ 0
  | .notify _ _ | .use _ | .release _ => g.spdGlobalDeviceExtension ≠ 0
  | _ => True

/-- The globals but for what the extensions hold. -/
def SameGlobals (g g' : AdapterGlobals) : Prop :=
  g'.registered = g.registered ∧ g'.spdGlobalDeviceExtension = g.spdGlobalDeviceExtension

theorem Knows.congr (h : SameGlobals g g') (hk : Knows g thread) : Knows g' thread := by
  obtain ⟨hreg, hglobal⟩ := h
  unfold Knows Settled at hk ⊢
  rw [hreg, hglobal]
  exact hk

theorem Knows.of_unlocked (h : lockHeld thread = none) (hk : Knows g thread) :
    Knows g' thread := by
  cases thread <;> first | exact hk | cases h

/-- What one step of a thread does. -/
structure RunSpec (g : AdapterGlobals) (thread : AdapterThread) (g' : AdapterGlobals)
    (next' : Option AdapterThread) : Prop where
  held : next'.bind lockHeld = lockHeld thread
  globals : lockHeld thread ≠ some .exclusive → SameGlobals g g'
  knows : Knows g thread → ∀ next ∈ next', Knows g' next
  invoked : ∀ next ∈ next', Invoked next → Invoked thread
  short : ∀ next ∈ next', Short next → Short thread
  left : ∀ next ∈ next', stepsLeft next < stepsLeft thread

theorem RunSpec.goOn (hheld : lockHeld next = lockHeld thread)
    (hglobals : lockHeld thread ≠ some .exclusive → SameGlobals g g')
    (hknows : Knows g thread → Knows g' next) (hinvoked : Invoked next → Invoked thread)
    (hshort : Short next → Short thread) (hleft : stepsLeft next < stepsLeft thread) :
    RunSpec g thread g' (some next) := by
  refine ⟨hheld, hglobals, fun hk x hx => ?_, fun x hx h => ?_, fun x hx h => ?_,
    fun x hx => ?_⟩
  · cases hx
    exact hknows hk
  · cases hx
    exact hinvoked h
  · cases hx
    exact hshort h
  · cases hx
    exact hleft

theorem RunSpec.of_use {work : GlobalUse} (hglobals : SameGlobals g g')
    (hknows : Knows g (.use work) → Knows g' next) (hheld : lockHeld next = some .shared)
    (hinvoked : ¬ Invoked next) (hleft : stepsLeft next < stepsLeft (.use work)) :
    RunSpec g (.use work) g' (some next) := by
  have hshort : ¬ Short next := by
    intro h
    cases next <;> first | exact h | cases hheld
  exact .goOn hheld (fun _ => hglobals) hknows (fun h => absurd h hinvoked)
    (fun h => absurd h hshort) hleft

theorem GlobalUse.run_spec {work : GlobalUse} (h : work.run g = some (g', next)) :
    RunSpec g (.use work) g' (some next) := by
  cases work with
  | compare deviceExtension deviceObject =>
      simp only [GlobalUse.run, Option.map_eq_some_iff, Prod.mk.injEq] at h
      obtain ⟨_, -, rfl, rfl⟩ := h
      exact .of_use ⟨rfl, rfl⟩ And.right rfl not_false (by simp [stepsLeft])
  | referenceByBtl deviceObject btl =>
      simp only [GlobalUse.run, Option.bind_eq_bind, Option.bind_eq_some_iff] at h
      obtain ⟨_, -, ⟨dx, storageUnit⟩, -, h⟩ := h
      cases storageUnit <;> cases h
      · exact .of_use ⟨rfl, rfl⟩ id rfl not_false (by simp [stepsLeft])
      · exact .of_use ⟨rfl, rfl⟩ id rfl not_false (by simp [stepsLeft])
  | setDevice deviceObject p =>
      simp only [GlobalUse.run, Option.bind_eq_bind, Option.bind_eq_some_iff] at h
      obtain ⟨_, -, ⟨dx, status⟩, -, h⟩ := h
      cases h
      exact .of_use ⟨rfl, rfl⟩ id rfl not_false (by simp [stepsLeft])
  | dereference p =>
      simp only [GlobalUse.run, Option.bind_eq_bind, Option.bind_eq_some_iff] at h
      obtain ⟨_, -, ⟨dx, calls⟩, -, h⟩ := h
      cases h
      exact .of_use ⟨rfl, rfl⟩ id rfl not_false (by simp [stepsLeft])
  | referenceByDevice deviceObject =>
      simp only [GlobalUse.run, Option.bind_eq_bind, Option.bind_eq_some_iff] at h
      obtain ⟨_, -, ⟨dx, storageUnit⟩, -, h⟩ := h
      cases storageUnit <;> cases h
      · exact .of_use ⟨rfl, rfl⟩ id rfl not_false (by simp [stepsLeft])
      · exact .of_use ⟨rfl, rfl⟩ id rfl not_false (by simp [stepsLeft])
  | copyNames p =>
      simp only [GlobalUse.run, Option.bind_eq_bind, Option.bind_eq_some_iff] at h
      obtain ⟨_, -, object, -, h⟩ := h
      cases h
      exact .of_use ⟨rfl, rfl⟩ id rfl not_false (by simp [stepsLeft])
  | globalDereference p provisionGuid provisionPid =>
      simp only [GlobalUse.run, Option.bind_eq_bind, Option.bind_eq_some_iff] at h
      obtain ⟨_, -, ⟨dx, calls⟩, -, h⟩ := h
      cases h
      exact .of_use ⟨rfl, rfl⟩ id rfl not_false (by simp [stepsLeft])
  | unprovision deviceExtension provisionGuid provisionPid =>
      simp only [GlobalUse.run, Option.bind_eq_bind, Option.bind_eq_some_iff] at h
      obtain ⟨_, -, ⟨dx, status, unit, calls⟩, -, h⟩ := h
      cases unit <;> cases h
      · exact .of_use ⟨rfl, rfl⟩ And.right rfl not_false (by simp [stepsLeft])
      · exact .of_use ⟨rfl, rfl⟩ id rfl not_false (by simp [stepsLeft])
  | dereferenceUnprovisioned deviceExtension p =>
      simp only [GlobalUse.run, Option.bind_eq_bind, Option.bind_eq_some_iff] at h
      obtain ⟨_, -, ⟨dx, calls⟩, -, h⟩ := h
      cases h
      exact .of_use ⟨rfl, rfl⟩ And.right rfl not_false (by simp [stepsLeft])

theorem RunSpec.returns (hheld : lockHeld thread = none) : RunSpec g thread g none :=
  ⟨hheld.symm, fun _ => ⟨rfl, rfl⟩, nofun, nofun, nofun, nofun⟩

theorem adapterRun_spec (h : adapterRun capacity g r thread = some (g', next')) :
    RunSpec g thread g' next' := by
  cases thread with
  | initAcquire | initRelease | finiAcquire | finiRelease | notifyAcquire | acquire | acquireNone
  | release => cases h
  | initCheck deviceExtension busInformation =>
      simp only [adapterRun] at h
      split at h
      · cases h
        exact .goOn rfl (fun hne => absurd rfl hne) And.right id id (by simp [stepsLeft])
      · split at h
        · cases h
          exact .goOn rfl (fun hne => absurd rfl hne) (fun hk => ⟨hk.1, rfl⟩) id id
            (by simp [stepsLeft])
        · cases h
          exact .goOn rfl (fun hne => absurd rfl hne) And.right id id (by simp [stepsLeft])
  | initStore deviceExtension busInformation =>
      simp only [adapterRun, Option.bind_eq_bind, Option.bind_eq_some_iff] at h
      obtain ⟨_, -, h⟩ := h
      cases h
      exact .goOn rfl (fun hne => absurd rfl hne) (fun hk => iff_of_true hk.2 hk.1) id id
        (by simp [stepsLeft])
  | finiCheck deviceExtension =>
      simp only [adapterRun] at h
      split at h
      · cases h
        exact .goOn rfl (fun hne => absurd rfl hne) (fun _ => rfl) id id (by simp [stepsLeft])
      · cases h
        exact .goOn rfl (fun hne => absurd rfl hne) id id id (by simp [stepsLeft])
  | finiRemove =>
      cases h
      exact .goOn rfl (fun _ => ⟨rfl, rfl⟩) id id id (by simp [stepsLeft])
  | finiClear =>
      cases h
      refine .goOn rfl (fun hne => absurd rfl hne) (fun hk => ?_) id id (by simp [stepsLeft])
      exact iff_of_false (by rw [show g.registered = false from hk]; exact Bool.false_ne_true)
        (fun hne => hne rfl)
  | notifyEntered create processId =>
      cases create with
      | true =>
          cases h
          exact .returns rfl
      | false =>
          cases h
          exact .goOn rfl (fun _ => ⟨rfl, rfl⟩) id id id (by simp [stepsLeft])
  | notify processId routine =>
      simp only [adapterRun, Option.bind_eq_bind, Option.bind_eq_some_iff] at h
      obtain ⟨_, -, ⟨dx, routine'⟩, hroutine, h⟩ := h
      cases h
      have hfuel := spdDeviceExtensionNotifyRoutine_fuel hroutine
      exact .goOn rfl (fun _ => ⟨rfl, rfl⟩) id id id (Nat.succ_lt_succ hfuel)
  | pnpEntered minorFunction deviceObject =>
      cases minorFunction <;> cases h
      all_goals exact .goOn rfl (fun _ => ⟨rfl, rfl⟩) id id id (by simp [stepsLeft])
  | getScsiAddress deviceObject =>
      simp only [adapterRun] at h
      split at h <;> cases h
      all_goals exact .goOn rfl (fun _ => ⟨rfl, rfl⟩) id id id (by simp [stepsLeft])
  | check call =>
      simp only [adapterRun] at h
      split at h
      · next hne =>
          cases h
          cases call <;>
            exact .goOn rfl (fun _ => ⟨rfl, rfl⟩)
              (fun _ => by first | exact ⟨rfl, hne⟩ | exact hne)
              id id (by simp [stepsLeft, GlobalCall.found])
      · cases h
        cases call <;>
          exact .goOn rfl (fun _ => ⟨rfl, rfl⟩) id id id (by simp [stepsLeft, GlobalCall.none])
  | use work =>
      simp only [adapterRun, Option.map_eq_some_iff] at h
      obtain ⟨⟨g₁, next⟩, hrun, h⟩ := h
      cases h
      exact GlobalUse.run_spec hrun
  | storPortDispatchPnp provisionGuid provisionPid =>
      simp only [adapterRun] at h
      split at h
      · cases h
        exact .returns rfl
      · cases h
        exact .goOn rfl (fun _ => ⟨rfl, rfl⟩) id id id (by simp [stepsLeft])

/-- A thread about to acquire the lock does not hold it, and a shared one is an
invocation if it goes on as one. -/
theorem acquires_spec (h : thread.acquires = some (mode, next)) :
    lockHeld thread = none ∧ lockHeld next = some mode ∧ (Invoked next → Invoked thread) ∧
      ¬ Short next ∧ stepsLeft next < stepsLeft thread := by
  cases thread with
  | initAcquire | finiAcquire | notifyAcquire =>
      cases h
      exact ⟨rfl, rfl, id, not_false, by simp [stepsLeft]⟩
  | acquire call =>
      cases h
      exact ⟨rfl, rfl, id, not_false, by cases call <;> simp [stepsLeft]⟩
  | _ => cases h

theorem acquires_knows (h : thread.acquires = some (mode, next)) (hk : Knows g thread)
    (hsettled : Settled g) (hregistered : Invoked thread → g.registered = true) :
    Knows g next := by
  cases thread with
  | initAcquire =>
      cases h
      exact ⟨hk, hsettled⟩
  | finiAcquire =>
      cases h
      exact hsettled
  | notifyAcquire =>
      cases h
      exact hsettled.mp (hregistered trivial)
  | acquire call =>
      cases h
      trivial
  | _ => cases h

theorem releases_spec (h : thread.releases = some next') :
    lockHeld thread ≠ none ∧ next'.bind lockHeld = none ∧
      (lockHeld thread = some .exclusive → Knows g thread → Settled g) ∧
      ∀ next ∈ next', Knows g next ∧ ¬ Invoked next ∧ ¬ Short next ∧
        stepsLeft next < stepsLeft thread := by
  have hafter : ∀ after : AfterRelease, after.thread.bind lockHeld = none ∧
      ∀ next ∈ after.thread, Knows g next ∧ ¬ Invoked next ∧ ¬ Short next ∧
        stepsLeft next < stepsLeft (.release after) := by
    intro after
    cases after with
    | storPort provisionGuid provisionPid =>
        refine ⟨rfl, fun next hnext => ?_⟩
        cases hnext
        exact ⟨trivial, not_false, not_false, by simp [stepsLeft]⟩
    | returned => exact ⟨rfl, nofun⟩
  cases thread with
  | initRelease | finiRelease =>
      cases h
      exact ⟨nofun, rfl, fun _ hk => hk, nofun⟩
  | notify processId routine =>
      cases routine with
      | returned =>
          cases h
          exact ⟨nofun, rfl, nofun, nofun⟩
      | _ => cases h
  | acquireNone after =>
      cases h
      refine ⟨nofun, (hafter after).1, nofun, ?_⟩
      cases after <;> exact (hafter _).2
  | release after =>
      cases h
      exact ⟨nofun, (hafter after).1, nofun, (hafter after).2⟩
  | _ => cases h

theorem enters_spec (h : Enters g thread) : lockHeld thread = none ∧ Knows g thread ∧
    (Invoked thread → g.registered = true) := by
  cases thread with
  | initAcquire | finiAcquire => exact ⟨rfl, h, nofun⟩
  | notifyEntered create processId => exact ⟨rfl, trivial, fun _ => h⟩
  | pnpEntered minorFunction deviceObject => exact ⟨rfl, trivial, nofun⟩
  | _ => cases h

/-! ## Runs -/

variable {s s' : AdapterSys} {ev : AdapterEvent} {ls : List AdapterEvent} {t u : ThreadId}

structure AdapterInv (s : AdapterSys) : Prop where
  lock : ∀ t, s.lock t = (s.threads t).bind lockHeld
  excludes : s.lock.Excludes
  settled : (∀ t, s.lock t ≠ some .exclusive) → Settled s.globals
  knows : ∀ t thread, s.threads t = some thread → Knows s.globals thread
  invoked : ∀ t thread, s.threads t = some thread → Invoked thread →
    s.globals.registered = true ∨ ∃ u, s.threads u = some .finiRemove

theorem AdapterInv.lock_eq (hinv : AdapterInv s) (h : s.threads t = some thread) :
    s.lock t = lockHeld thread := by
  rw [hinv.lock, h]
  rfl

/-- A thread that holds the lock exclusive is the only one in it. -/
theorem AdapterInv.alone (hinv : AdapterInv s) (h : s.threads t = some thread)
    (hheld : lockHeld thread = some .exclusive) {other : AdapterThread}
    (hother : s.threads u = some other) (hne : u ≠ t) : lockHeld other = none := by
  by_contra hsome
  refine hne (hinv.excludes t u ?_ ?_)
  · rw [hinv.lock_eq h, hheld]
  · rw [hinv.lock_eq hother]
    exact hsome

theorem threads_update {threads : ThreadId → Option AdapterThread}
    (h : Function.update threads t next' u = some thread) :
    (u = t ∧ next' = some thread) ∨ (u ≠ t ∧ threads u = some thread) := by
  by_cases hut : u = t
  · subst hut
    rw [Function.update_self] at h
    exact .inl ⟨rfl, h⟩
  · rw [Function.update_of_ne hut] at h
    exact .inr ⟨hut, h⟩

/-- The lock is where the threads are, after one of them has moved. -/
theorem lock_update {threads : ThreadId → Option AdapterThread} {lock : RwLock ThreadId}
    (h : ∀ u, lock u = (threads u).bind lockHeld) (t : ThreadId)
    (next' : Option AdapterThread) (u : ThreadId) :
    Function.update lock t (next'.bind lockHeld) u =
      (Function.update threads t next' u).bind lockHeld := by
  by_cases hut : u = t
  · subst hut
    rw [Function.update_self, Function.update_self]
  · rw [Function.update_of_ne hut, Function.update_of_ne hut]
    exact h u

/-- A thread that holds nothing and is not removing the routine moves. -/
theorem AdapterInv.invoked_keep (hinv : AdapterInv s) (h : s.threads t = some thread)
    (hremove : thread ≠ .finiRemove) (hnext : ∀ next ∈ next', Invoked next → Invoked thread)
    {x : ThreadId} {moved : AdapterThread}
    (hx : Function.update s.threads t next' x = some moved) (hinvoked : Invoked moved) :
    s.globals.registered = true ∨ ∃ u, Function.update s.threads t next' u =
      some .finiRemove := by
  have hbefore : s.globals.registered = true ∨ ∃ u, s.threads u = some .finiRemove := by
    rcases threads_update hx with ⟨-, hmoved⟩ | ⟨-, hmoved⟩
    · exact hinv.invoked t thread h (hnext moved hmoved hinvoked)
    · exact hinv.invoked x moved hmoved hinvoked
  refine hbefore.imp id fun ⟨u, hu⟩ => ⟨u, ?_⟩
  have hut : u ≠ t := by
    rintro rfl
    rw [h, Option.some.injEq] at hu
    exact hremove hu
  rw [Function.update_of_ne hut]
  exact hu

theorem AdapterInv.enter (hinv : AdapterInv s) (idle : s.threads t = none)
    (entry : Enters s.globals thread) :
    AdapterInv { s with threads := Function.update s.threads t (some thread) } := by
  obtain ⟨hheld, hknows, hinvoked⟩ := enters_spec entry
  have hlock : Function.update s.lock t ((some thread).bind lockHeld) = s.lock := by
    rw [Option.bind_some, hheld, Function.update_eq_self_iff, hinv.lock, idle]
    rfl
  refine ⟨fun u => ?_, hinv.excludes, hinv.settled, fun x moved hx => ?_,
    fun x moved hx h => ?_⟩
  · have hu := lock_update hinv.lock t (some thread) u
    rwa [hlock] at hu
  · rcases threads_update hx with ⟨-, hmoved⟩ | ⟨-, hmoved⟩
    · cases hmoved
      exact hknows
    · exact hinv.knows x moved hmoved
  · rcases threads_update hx with ⟨-, hmoved⟩ | ⟨-, hmoved⟩
    · cases hmoved
      exact .inl (hinvoked h)
    · refine (hinv.invoked x moved hmoved h).imp id fun ⟨u, hu⟩ => ⟨u, ?_⟩
      have hut : u ≠ t := by
        rintro rfl
        rw [idle] at hu
        cases hu
      exact (Function.update_of_ne hut _ _).trans hu

theorem AdapterInv.acquire (hinv : AdapterInv s) (h : s.threads t = some thread)
    (hacquires : thread.acquires = some (mode, next)) (hgrants : s.lock.Grants mode) :
    AdapterInv { s with
      lock := s.lock.acquire t mode
      threads := Function.update s.threads t (some next) } := by
  obtain ⟨hheld, hmode, hinvoked, -, -⟩ := acquires_spec hacquires
  have hnone : s.lock t = none := by rw [hinv.lock_eq h, hheld]
  have hno : ∀ u, s.lock u ≠ some .exclusive := by
    intro u hu
    cases mode with
    | shared => exact hgrants u hu
    | exclusive =>
        rw [hgrants u] at hu
        cases hu
  have hsettled := hinv.settled hno
  have hremove : thread ≠ .finiRemove := by
    rintro rfl
    cases hheld
  have hregistered : Invoked thread → s.globals.registered = true := by
    intro hi
    rcases hinv.invoked t thread h hi with hreg | ⟨u, hu⟩
    · exact hreg
    · exact absurd (hinv.lock_eq hu) (hno u)
  refine ⟨fun u => ?_, hinv.excludes.acquire hnone hgrants, fun _ => hsettled,
    fun x moved hx => ?_, fun x moved hx hi => ?_⟩
  · have hu := lock_update hinv.lock t (some next) u
    rwa [Option.bind_some, hmode] at hu
  · rcases threads_update hx with ⟨-, hmoved⟩ | ⟨-, hmoved⟩
    · cases hmoved
      exact acquires_knows hacquires (hinv.knows t thread h) hsettled hregistered
    · exact hinv.knows x moved hmoved
  · refine hinv.invoked_keep h hremove (fun x hx => ?_) hx hi
    cases hx
    exact hinvoked

theorem AdapterInv.release (hinv : AdapterInv s) (h : s.threads t = some thread)
    (hreleases : thread.releases = some next') :
    AdapterInv { s with
      lock := s.lock.release t
      threads := Function.update s.threads t next' } := by
  obtain ⟨hheld, hnone, hsettled, hnext⟩ := releases_spec (g := s.globals) hreleases
  have hremove : thread ≠ .finiRemove := by
    rintro rfl
    cases hreleases
  refine ⟨fun u => ?_, hinv.excludes.release, fun hno => ?_, fun x moved hx => ?_,
    fun x moved hx hi => ?_⟩
  · have hu := lock_update hinv.lock t next' u
    rwa [hnone] at hu
  · by_cases hexclusive : lockHeld thread = some .exclusive
    · exact hsettled hexclusive (hinv.knows t thread h)
    · refine hinv.settled fun u hu => hno u ?_
      have hut : u ≠ t := by
        rintro rfl
        exact hexclusive ((hinv.lock_eq h).symm.trans hu)
      exact (Function.update_of_ne hut _ _).trans hu
  · rcases threads_update hx with ⟨-, hmoved⟩ | ⟨-, hmoved⟩
    · exact (hnext moved hmoved).1
    · exact hinv.knows x moved hmoved
  · exact hinv.invoked_keep h hremove (fun x hx hix => absurd hix (hnext x hx).2.1) hx hi

theorem adapterRun_registered (h : adapterRun capacity g r thread = some (g', next'))
    (hreg : g.registered = true) : g'.registered = true ∨ next' = some .finiRemove := by
  have hglobals := (adapterRun_spec h).globals
  cases thread with
  | initCheck deviceExtension busInformation =>
      simp only [adapterRun] at h
      split at h
      · cases h
        exact .inl hreg
      · split at h <;> cases h
        · exact .inl rfl
        · exact .inl hreg
  | initStore deviceExtension busInformation =>
      simp only [adapterRun, Option.bind_eq_bind, Option.bind_eq_some_iff] at h
      obtain ⟨_, -, h⟩ := h
      cases h
      exact .inl hreg
  | finiCheck deviceExtension =>
      simp only [adapterRun] at h
      split at h <;> cases h
      · exact .inr rfl
      · exact .inl hreg
  | finiRemove | finiClear =>
      cases h
      exact .inl hreg
  | initRelease | finiRelease => cases h
  | _ => exact .inl ((hglobals nofun).1.trans hreg)

/-- The routine is removed by `SpdDeviceExtensionFini`. -/
theorem adapterRun_remove (h : adapterRun capacity g r thread = some (g', some .finiRemove)) :
    ∃ deviceExtension, thread = .finiCheck deviceExtension ∧
      deviceExtension = g.spdGlobalDeviceExtension := by
  have hheld := (adapterRun_spec h).held
  cases thread with
  | initCheck deviceExtension busInformation =>
      simp only [adapterRun] at h
      split at h
      · cases h
      · split at h <;> cases h
  | initStore deviceExtension busInformation =>
      simp only [adapterRun, Option.bind_eq_bind, Option.bind_eq_some_iff] at h
      obtain ⟨_, -, h⟩ := h
      cases h
  | finiCheck deviceExtension =>
      simp only [adapterRun] at h
      split at h
      · next heq => exact ⟨deviceExtension, rfl, heq⟩
      · cases h
  | finiRemove | finiClear | initRelease | finiRelease => cases h
  | _ => cases hheld

theorem AdapterInv.run (hinv : AdapterInv s) (h : s.threads t = some thread)
    (hexec : adapterRun capacity s.globals r thread = some (g', next'))
    (hremoved : thread = .finiRemove →
      ∀ u thread, s.threads u = some thread → ¬ Invoked thread) :
    AdapterInv { s with globals := g', threads := Function.update s.threads t next' } := by
  have hspec := adapterRun_spec hexec
  have hlock : Function.update s.lock t (next'.bind lockHeld) = s.lock := by
    rw [Function.update_eq_self_iff, hspec.held, hinv.lock_eq h]
  refine ⟨fun u => ?_, hinv.excludes, fun hno => ?_, fun x moved hx => ?_,
    fun x moved hx hi => ?_⟩
  · have hu := lock_update hinv.lock t next' u
    rwa [hlock] at hu
  · have hshared : lockHeld thread ≠ some .exclusive := by
      rw [← hinv.lock_eq h]
      exact hno t
    obtain ⟨hreg, hglobal⟩ := hspec.globals hshared
    have hsettled := hinv.settled hno
    unfold Settled at hsettled ⊢
    rw [hreg, hglobal]
    exact hsettled
  · rcases threads_update hx with ⟨-, hmoved⟩ | ⟨hne, hmoved⟩
    · exact hspec.knows (hinv.knows t thread h) moved hmoved
    · by_cases hexclusive : lockHeld thread = some .exclusive
      · exact (hinv.knows x moved hmoved).of_unlocked (hinv.alone h hexclusive hmoved hne)
      · exact (hinv.knows x moved hmoved).congr (hspec.globals hexclusive)
  · by_cases hremove : thread = .finiRemove
    · rcases threads_update hx with ⟨-, hmoved⟩ | ⟨-, hmoved⟩
      · exact absurd (hspec.invoked moved hmoved hi) (hremoved hremove t thread h)
      · exact absurd hi (hremoved hremove x moved hmoved)
    · rcases hinv.invoked_keep h hremove hspec.invoked hx hi with hreg | hremoving
      · refine (adapterRun_registered hexec hreg).imp id fun hnext => ⟨t, ?_⟩
        rw [hnext]
        exact Function.update_self _ _ _
      · exact .inr hremoving

theorem AdapterInv.step (hinv : AdapterInv s) (h : AdapterStep capacity s ev s') :
    AdapterInv s' := by
  cases h with
  | enter idle entry => exact hinv.enter idle entry
  | acquire at_acquire acquires grants => exact hinv.acquire at_acquire acquires grants
  | release at_release releases => exact hinv.release at_release releases
  | run at_run exec removed => exact hinv.run at_run exec removed
  | other =>
      exact ⟨hinv.lock, hinv.excludes, hinv.settled,
        fun t thread ht => (hinv.knows t thread ht).congr ⟨rfl, rfl⟩, hinv.invoked⟩

theorem adapterInv_init (extensions : Addr → AdapterExtension) : AdapterInv (.init extensions) :=
  ⟨fun _ => rfl, RwLock.excludes_free, fun _ => iff_of_false Bool.false_ne_true fun h => h rfl,
    nofun, nofun⟩

theorem AdapterStep.lock (h : AdapterStep capacity s ev s') (hinv : AdapterInv s) :
    (ev.lock = none ∧ s'.lock = s.lock) ∨ ∃ e, ev.lock = some e ∧
    s.lock.Step e s'.lock := by
  cases h with
  | acquire at_acquire acquires grants =>
      refine .inr ⟨_, rfl, ?_, grants, rfl⟩
      rw [hinv.lock_eq at_acquire]
      exact (acquires_spec acquires).1
  | release at_release releases =>
      refine .inr ⟨_, rfl, ?_, rfl⟩
      rw [hinv.lock_eq at_release]
      exact (releases_spec (g := s.globals) releases).1
  | enter | run | other => exact .inl ⟨rfl, rfl⟩

theorem adapterRun_inv {extensions : Addr → AdapterExtension}
    (hrun : Run (AdapterStep capacity) (.init extensions) ls s) :
    AdapterInv s ∧ RwLock.Balanced (ls.filterMap AdapterEvent.lock) s.lock := by
  refine hrun.history (I := fun ls s => AdapterInv s ∧
    RwLock.Balanced (ls.filterMap AdapterEvent.lock) s.lock)
    ⟨adapterInv_init extensions, RwLock.balanced_free⟩ fun _ ⟨hinv, hbalanced⟩ h => ?_
  refine ⟨hinv.step h, ?_⟩
  rw [List.filterMap_append]
  rcases h.lock hinv with ⟨hev, hlock⟩ | ⟨e, hev, hlock⟩
  · rw [hlock, List.filterMap_cons, hev, List.filterMap_nil, List.append_nil]
    exact hbalanced
  · rw [List.filterMap_cons, hev, List.filterMap_nil]
    exact hbalanced.step hlock

/-! ## Waiting -/

/-- While the routine is being removed, no invocation is short of the lock. -/
def RemovingOk (s : AdapterSys) : Prop :=
  ∀ t, s.threads t = some .finiRemove → ∀ u thread, s.threads u = some thread →
    ¬ Short thread

/-- A thread moves. If it comes to remove the routine, nobody is short of the
lock. -/
theorem RemovingOk.move {threads : ThreadId → Option AdapterThread} (hok : RemovingOk s)
    (hthreads : threads = Function.update s.threads t next')
    (hshort : (∃ u, s.threads u = some .finiRemove) → ∀ next ∈ next', ¬ Short next)
    (hremove : next' = some .finiRemove →
      ∀ u thread, s.threads u = some thread → ¬ Short thread) :
    ∀ x, threads x = some .finiRemove → ∀ u thread, threads u = some thread →
      ¬ Short thread := by
  intro x hx u moved hu
  subst hthreads
  rcases threads_update hx with ⟨-, hx⟩ | ⟨-, hx⟩
  · rcases threads_update hu with ⟨-, hu⟩ | ⟨-, hu⟩
    · rw [hx, Option.some.injEq] at hu
      subst hu
      exact not_false
    · exact hremove hx u moved hu
  · rcases threads_update hu with ⟨-, hu⟩ | ⟨-, hu⟩
    · exact hshort ⟨x, hx⟩ moved hu
    · exact hok x hx u moved hu

theorem RemovingOk.step (hok : RemovingOk s) (hinv : AdapterInv s)
    (h : CheckedAdapterStep capacity s ev s') : RemovingOk s' := by
  obtain ⟨hstep, hcheck⟩ := h
  cases hstep with
  | @enter t thread idle entry =>
      obtain ⟨hheld, -, hinvoked⟩ := enters_spec entry
      refine hok.move rfl (fun ⟨u, hu⟩ next hnext hshort => ?_) fun hremove => ?_
      · cases hnext
        have hfalse : s.globals.registered = false := hinv.knows u _ hu
        have htrue : s.globals.registered = true := by
          refine hinvoked ?_
          cases thread <;> trivial
        rw [htrue] at hfalse
        cases hfalse
      · cases hremove
        cases hheld
  | @acquire t thread next mode at_acquire acquires grants =>
      refine hok.move rfl (fun _ x hx => ?_) fun hremove => ?_
      · cases hx
        exact (acquires_spec acquires).2.2.2.1
      · cases hremove
        cases thread <;> cases acquires
  | @release t thread next at_release releases =>
      obtain ⟨-, hheld, -, hnext⟩ := releases_spec (g := s.globals) releases
      refine hok.move rfl (fun _ x hx => (hnext x hx).2.2.1) fun hremove => ?_
      rw [hremove] at hheld
      cases hheld
  | @run t thread next g' r at_run exec removed =>
      refine hok.move rfl (fun ⟨u, hu⟩ x hx hshort => ?_) fun hremove => ?_
      · exact hok u hu t thread at_run ((adapterRun_spec exec).short x hx hshort)
      · rw [hremove] at exec
        obtain ⟨deviceExtension, rfl, heq⟩ := adapterRun_remove exec
        exact hcheck t deviceExtension rfl at_run heq
  | other => exact hok

/-- How long a chain of waiting threads can be, by what a thread waits for. -/
def waitRank : AdapterThread → Nat
  | .notifyAcquire _ | .acquire _ => 3
  | .initAcquire _ _ | .finiAcquire _ => 2
  | .finiRemove => 1
  | _ => 0

theorem waitRank_acquires (h : thread.acquires = some (mode, next)) :
    waitRank thread = if mode = .shared then 3 else 2 := by
  cases thread with
  | initAcquire | finiAcquire | notifyAcquire | acquire =>
      cases h
      rfl
  | _ => cases h

theorem waitRank_holds (h : lockHeld thread ≠ none) : waitRank thread ≤ 1 := by
  cases thread with
  | notifyAcquire | acquire | initAcquire | finiAcquire => exact absurd rfl h
  | finiRemove => exact Nat.le_refl 1
  | _ => exact Nat.zero_le 1

theorem WaitsFor.rank (hinv : AdapterInv s) (hok : RemovingOk s) (h : WaitsFor s t u) :
    ∃ thread thread', s.threads t = some thread ∧ s.threads u = some thread' ∧
      waitRank thread' < waitRank thread := by
  have hholder : s.lock u ≠ none → ∃ thread', s.threads u = some thread' ∧
      waitRank thread' ≤ 1 := by
    intro hholds
    rw [hinv.lock u] at hholds
    cases hu : s.threads u with
    | none =>
        rw [hu] at hholds
        exact absurd rfl hholds
    | some thread' =>
        rw [hu] at hholds
        exact ⟨thread', rfl, waitRank_holds hholds⟩
  cases h with
  | @holder thread next at_acquire acquires holds =>
      obtain ⟨thread', hu, hle⟩ := hholder holds
      refine ⟨thread, thread', at_acquire, hu, ?_⟩
      rw [waitRank_acquires acquires, if_neg nofun]
      omega
  | @exclusive thread next at_acquire acquires holds =>
      obtain ⟨thread', hu, hle⟩ := hholder (by rw [holds]; exact nofun)
      refine ⟨thread, thread', at_acquire, hu, ?_⟩
      rw [waitRank_acquires acquires, if_pos rfl]
      omega
  | @queued thread thread' next next' at_acquire acquires other_at other_acquires =>
      refine ⟨thread, thread', at_acquire, other_at, ?_⟩
      rw [waitRank_acquires acquires, waitRank_acquires other_acquires, if_pos rfl, if_neg nofun]
      exact Nat.lt_succ_self 2
  | @removal thread at_removal other_at invoked =>
      refine ⟨.finiRemove, thread, at_removal, other_at, ?_⟩
      have hshort := hok t at_removal u thread other_at
      cases thread with
      | notifyAcquire => exact absurd trivial hshort
      | notifyEntered | notify => exact Nat.zero_lt_one
      | _ => cases invoked

def threadRank (s : AdapterSys) (t : ThreadId) : Nat := (s.threads t).elim 0 waitRank

theorem not_deadlocked (hinv : AdapterInv s) (hok : RemovingOk s) (S : Set ThreadId) :
    ¬ Deadlocked (WaitsFor s) S := by
  refine not_deadlocked_of_rank (threadRank s) (fun t u h => ?_) S
  obtain ⟨thread, thread', ht, hu, hlt⟩ := h.rank hinv hok
  rw [threadRank, threadRank, ht, hu]
  exact hlt

theorem waitsFor_granted (h : s.threads t = some thread)
    (hacquires : thread.acquires = some (mode, next)) (hno : ∀ u, ¬ WaitsFor s t u) :
    s.lock.Grants mode := by
  cases mode with
  | shared => exact fun u hu => hno u (.exclusive h hacquires hu)
  | exclusive => exact fun u => by_contra fun hu => hno u (.holder h hacquires hu)

theorem goes_left (g : AdapterGlobals) (h : Goes capacity thread next) :
    stepsLeft next < stepsLeft thread := by
  cases h with
  | acquire acquires => exact (acquires_spec acquires).2.2.2.2
  | release releases =>
      obtain ⟨-, -, -, hnext⟩ := releases_spec (g := g) releases
      exact (hnext next rfl).2.2.2
  | run exec => exact (adapterRun_spec exec).left next rfl

theorem usedExtension_knows {p : Addr} (hk : Knows g thread)
    (h : usedExtension g thread = some p) : p = g.spdGlobalDeviceExtension ∧ p ≠ 0 := by
  cases thread with
  | notify processId routine =>
      cases routine with
      | returned => cases h
      | _ =>
          cases h
          exact ⟨rfl, hk⟩
  | use work =>
      cases work with
      | compare | unprovision | dereferenceUnprovisioned =>
          cases h
          exact ⟨hk.1, by rw [hk.1]; exact hk.2⟩
      | _ =>
          cases h
          exact ⟨rfl, hk⟩
  | release after =>
      cases h
      exact ⟨rfl, hk⟩
  | _ => cases h

/-- In every run in which the notify routine is removed only while no invocation is short
of the lock, no threads wait for each other, and what is locked is released once. -/
theorem adapter_teardown {extensions : Addr → AdapterExtension}
    (hrun : Run (CheckedAdapterStep capacity) (.init extensions) ls s) :
    TeardownPromise capacity ls s := by
  have hrun' : Run (AdapterStep capacity) (.init extensions) ls s := hrun.mono fun h => h.step
  obtain ⟨hinv, hbalanced⟩ := adapterRun_inv hrun'
  have hok : RemovingOk s := by
    refine (hrun.inv (I := fun s => AdapterInv s ∧ RemovingOk s)
      ⟨adapterInv_init extensions, nofun⟩ fun ⟨hinv, hok⟩ h => ?_).2
    exact ⟨hinv.step h.step, hok.step hinv h⟩
  refine ⟨not_deadlocked hinv hok, fun t thread mode next => waitsFor_granted,
    fun t thread p ht => usedExtension_knows (hinv.knows t thread ht), hbalanced,
    fun t ht => ?_, fun thread next => goes_left s.globals⟩
  rw [hinv.lock, ht]
  rfl

/-! ## An exit while the adapter is removed -/

/-- Two threads, the first of which may hold the lock. -/
def twoThreads (g : AdapterGlobals) (held : Option LockMode) (first second : Option AdapterThread) :
    AdapterSys where
  globals := g
  lock
    | 0 => held
    | _ + 1 => none
  threads
    | 0 => first
    | 1 => second
    | _ + 2 => none

variable {held : Option LockMode} {first second : Option AdapterThread}

theorem AdapterStep.two (h : AdapterStep capacity s ev s') (hlock : ∀ t, s'.lock (t + 1) = none)
    (hthreads : ∀ t, s'.threads (t + 2) = none) :
    AdapterStep capacity s ev
      (twoThreads s'.globals (s'.lock 0) (s'.threads 0) (s'.threads 1)) := by
  have heq : s' = twoThreads s'.globals (s'.lock 0) (s'.threads 0) (s'.threads 1) := by
    obtain ⟨g, lock, threads⟩ := s'
    rw [twoThreads, AdapterSys.mk.injEq]
    refine ⟨rfl, funext fun t => ?_, funext fun t => ?_⟩
    · match t with
      | 0 => rfl
      | t + 1 => exact hlock t
    · match t with
      | 0 | 1 => rfl
      | t + 2 => exact hthreads t
  rw [← heq]
  exact h

def sampleExtensions : Addr → AdapterExtension := fun _ =>
  ⟨spdDeviceExtensionInit 0 fun _ => none, 0⟩

/-- The globals once an adapter has been found. -/
def sampleGlobals : AdapterGlobals where
  spdGlobalDeviceExtension := 0x1000
  extensions := Function.update sampleExtensions 0x1000
    ⟨{ spdDeviceExtensionInit 0 fun _ => none with storageUnitCapacity := 16 }, 0x2000⟩
  registered := true

/-- The adapter is found by thread `0`. -/
theorem sampleAdapter_found :
    Run (CheckedAdapterStep 16) (.init sampleExtensions)
      [.enter 0, .acquire 0 .exclusive, .run 0, .run 0, .release 0]
      (twoThreads sampleGlobals none none none) := by
  have h₁ : AdapterStep 16 (.init sampleExtensions) (.enter 0)
      (twoThreads ⟨0, sampleExtensions, false⟩ none (some (.initAcquire 0x1000 0x2000)) none) :=
    .two (@AdapterStep.enter _ _ _ (.initAcquire 0x1000 0x2000) rfl
      (by decide : (0x1000 : Addr) ≠ 0))
      (fun _ => rfl) fun _ => rfl
  have h₂ : AdapterStep 16
      (twoThreads ⟨0, sampleExtensions, false⟩ none (some (.initAcquire 0x1000 0x2000)) none)
      (.acquire 0 .exclusive)
      (twoThreads ⟨0, sampleExtensions, false⟩ (some .exclusive)
        (some (.initCheck 0x1000 0x2000)) none) :=
    .two (.acquire rfl rfl (by intro u; cases u <;> rfl)) (fun _ => rfl) fun _ => rfl
  have h₃ : AdapterStep 16
      (twoThreads ⟨0, sampleExtensions, false⟩ (some .exclusive)
        (some (.initCheck 0x1000 0x2000)) none) (.run 0)
      (twoThreads ⟨0, sampleExtensions, true⟩ (some .exclusive)
        (some (.initStore 0x1000 0x2000)) none) :=
    .two (.run (r := ⟨.success, none⟩) rfl rfl (by nofun)) (fun _ => rfl) fun _ => rfl
  have h₄ : AdapterStep 16
      (twoThreads ⟨0, sampleExtensions, true⟩ (some .exclusive)
        (some (.initStore 0x1000 0x2000)) none) (.run 0)
      (twoThreads sampleGlobals (some .exclusive) (some (.initRelease .success)) none) :=
    .two (.run (r := ⟨.success, none⟩) rfl rfl (by nofun)) (fun _ => rfl) fun _ => rfl
  have h₅ : AdapterStep 16
      (twoThreads sampleGlobals (some .exclusive) (some (.initRelease .success)) none)
      (.release 0) (twoThreads sampleGlobals none none none) :=
    .two (.release rfl rfl) (fun _ => rfl) fun _ => rfl
  exact .cons ⟨h₁, nofun⟩
    (.cons ⟨h₂, nofun⟩ (.cons ⟨h₃, by rintro _ _ ⟨⟩ ⟨⟩⟩
    (.cons ⟨h₄, by rintro _ _ ⟨⟩ ⟨⟩⟩ (.single ⟨h₅, nofun⟩))))

/-- It is removed by thread `0`, whatever thread `1` is doing. -/
theorem sampleAdapter_removed (second : Option AdapterThread) :
    AdapterStep 16 (twoThreads sampleGlobals none none second) (.enter 0)
        (twoThreads sampleGlobals none (some (.finiAcquire 0x1000)) second) ∧
      AdapterStep 16 (twoThreads sampleGlobals none (some (.finiAcquire 0x1000)) second)
        (.acquire 0 .exclusive)
        (twoThreads sampleGlobals (some .exclusive) (some (.finiCheck 0x1000)) second) ∧
      AdapterStep 16 (twoThreads sampleGlobals (some .exclusive) (some (.finiCheck 0x1000)) second)
        (.run 0)
        (twoThreads { sampleGlobals with registered := false } (some .exclusive)
          (some .finiRemove) second) := by
  refine ⟨?_, ?_, ?_⟩
  · exact .two (@AdapterStep.enter _ _ _ (.finiAcquire 0x1000) rfl
      (by decide : (0x1000 : Addr) ≠ 0)) (fun _ => rfl) fun _ => rfl
  · exact .two (.acquire rfl rfl (by intro u; cases u <;> rfl)) (fun _ => rfl) fun _ => rfl
  · exact .two (.run (r := ⟨.success, none⟩) rfl rfl (by nofun)) (fun _ => rfl) fun _ => rfl

/-- Process `7` exits. Its notification is about to acquire the lock when the
adapter is removed. -/
theorem adapter_teardown_exit :
    ¬ ∀ capacity extensions ls s, Run (AdapterStep capacity) (.init extensions) ls s →
      TeardownPromise capacity ls s := by
  intro hall
  have henter : AdapterStep 16 (twoThreads sampleGlobals none none none) (.enter 1)
      (twoThreads sampleGlobals none none (some (.notifyEntered false 7))) :=
    .two (@AdapterStep.enter _ _ _ (.notifyEntered false 7) rfl (by rfl)) (fun _ => rfl)
      fun _ => rfl
  have hexit : AdapterStep 16
      (twoThreads sampleGlobals none none (some (.notifyEntered false 7))) (.run 1)
      (twoThreads sampleGlobals none none (some (.notifyAcquire 7))) :=
    .two (.run (r := ⟨.success, none⟩) rfl rfl (by nofun)) (fun _ => rfl) fun _ => rfl
  obtain ⟨h₁, h₂, h₃⟩ := sampleAdapter_removed (some (.notifyAcquire 7))
  have hfound := sampleAdapter_found.mono fun h => h.step
  have hrun := ((((hfound.snoc henter).snoc hexit).snoc h₁).snoc h₂).snoc h₃
  refine (hall _ _ _ _ hrun).noDeadlock {0, 1} ⟨⟨0, .inl rfl⟩, fun t ht => ?_⟩
  rcases ht with rfl | rfl
  · exact ⟨1, .inr rfl, .removal rfl rfl trivial⟩
  · exact ⟨0, .inl rfl, .exclusive rfl rfl rfl⟩

/-- The adapter is found and its notify routine removed, with nobody else
there. -/
theorem adapter_teardown_alone :
    ∃ ls s, Run (CheckedAdapterStep 16) (.init sampleExtensions) ls s ∧
      s.threads 0 = some .finiRemove ∧ TeardownPromise 16 ls s := by
  obtain ⟨h₁, h₂, h₃⟩ := sampleAdapter_removed none
  have hok : RemoveOk (twoThreads sampleGlobals (some .exclusive) (some (.finiCheck 0x1000)) none)
      (.run 0) := by
    intro t deviceExtension _ _ _ u thread hu
    match u with
    | 0 =>
        cases hu
        exact not_false
    | 1 | _ + 2 => cases hu
  have hrun :=
    ((sampleAdapter_found.snoc ⟨h₁, nofun⟩).snoc ⟨h₂, nofun⟩).snoc ⟨h₃, hok⟩
  exact ⟨_, _, hrun, rfl, adapter_teardown hrun⟩

end Winspd.Proofs
