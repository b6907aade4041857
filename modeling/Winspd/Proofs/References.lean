import Winspd.Proofs.IoqRun
import Winspd.Proofs.Registry
import Winspd.Sys.Handlers

/-!
# References, while threads run

What a thread of the driver holds is its account: the references it took, the
unit it took out of its slot, the unit it found when it was to take one out,
and the unit it is deleting. `RefsInv` ties the accounts of all threads to the
device extension. `RefsInv.exec` says that an action whose thread may make it
keeps that, whatever the other threads hold.

Units whose last reference is gone stay in the pool until they are freed.
`alive` leaves them out, and what is left is a registry with its references
(`RegistryInv`).
-/

namespace Winspd.Proofs

open Winspd.Lib Winspd.Sys Winspd.Spec

/-! ## Accounts -/

structure UnitRefs where
  /-- The references it took and has not dropped. -/
  references : List UnitPtr
  /-- The unit it took out of its slot and has not dereferenced. -/
  removed : List UnitPtr
  /-- The unit an unprovision found, with its owner, before the owner is read again. -/
  found : Option (UnitPtr × UInt32)
  /-- The unit whose last reference it dropped. -/
  deleting : Option UnitPtr
  deriving DecidableEq, Repr

namespace UnitRefs

def none : UnitRefs := ⟨[], [], .none, .none⟩

def one (unit : UnitPtr) : UnitRefs := ⟨[unit], [], .none, .none⟩

def held (g : UnitRefs) : List UnitPtr := g.removed ++ g.references

def drop (g : UnitRefs) (unit : UnitPtr) : UnitRefs :=
  if unit ∈ g.removed then { g with removed := g.removed.erase unit }
  else { g with references := g.references.erase unit }

def track : (a : UnitAction) → a.Answer → UnitRefs → UnitRefs
  | .unprovision _ processId, some (unit, owner), g =>
      { g with
        found := some (unit, owner)
        removed := if processId = owner then unit :: g.removed else g.removed }
  | .ownerIs _ _, _, g => { g with found := .none }
  | .referenceByBtl _, some unit, g => { g with references := unit :: g.references }
  | .referenceByDevice _, some unit, g => { g with references := unit :: g.references }
  | .dereference unit, delete, g =>
      { g.drop unit with deleting := if delete = true then some unit else .none }
  | .free _, _, g => { g with deleting := .none }
  | _, _, g => g

/-- What a thread may do. After an unprovision has found a unit, it reads the
owner again. -/
def May (g : UnitRefs) : UnitAction → Prop
  | .ownerIs unit processId =>
      ∃ owner, g.found = some (unit, owner) ∧ (owner = processId → unit ∈ g.removed)
  | .dereference unit => g.found = .none ∧ unit ∈ g.held ∧ g.deleting = .none
  | .free unit => g.found = .none ∧ g.deleting = some unit
  | .read unit => g.found = .none ∧ (unit ∈ g.held ∨ g.deleting = some unit)
  | .setDevice unit _ | .setTransactProcessId unit _ | .ioqReset unit _ | .ioqStopped unit
  | .ioqCancelSrb unit _ _ | .ioqPostSrb unit _ _ | .ioqStartProcessingSrb unit
  | .ioqEndProcessingSrb unit _ _ => g.found = .none ∧ unit ∈ g.held
  | _ => g.found = .none

/-- The owner that is read again is the one that was compared. -/
def Answers (g : UnitRefs) : (a : UnitAction) → a.Answer → Prop
  | .ownerIs unit processId, same =>
      ∀ owner, g.found = some (unit, owner) → (same = true ↔ owner = processId)
  | _, _ => True

end UnitRefs

def unitRules : Rules UnitAction UnitAction.Answer UnitRefs where
  start := .none
  track := UnitRefs.track
  May := UnitRefs.May
  Answers := UnitRefs.Answers
  Settled g := g = .none

/-! ## Units that are not being deleted -/

/-- Is the last reference to the unit at `p` gone? -/
def dying (dx : SpdDeviceExtension) (p : Addr) : Bool :=
  (dx.pool p).any fun object => object.unit.refCount = 0

def alivePool (pool : Addr → Option UnitObject) : Addr → Option UnitObject :=
  fun p => (pool p).filter fun object => object.unit.refCount ≠ 0

/-- The device extension without the units whose last reference is gone. -/
def alive (dx : SpdDeviceExtension) : SpdDeviceExtension := { dx with pool := alivePool dx.pool }

variable {dx dx' : SpdDeviceExtension} {held : List Addr} {p x : Addr} {i : Nat}
  {object object' : UnitObject} {s s' : DriverState} {g g' : UnitRefs} {gs gs' : List UnitRefs}
  {ptr : UnitPtr}

theorem alive_pool_eq_some :
    (alive dx).pool p = some object ↔ dx.pool p = some object ∧ object.unit.refCount ≠ 0 := by
  show (dx.pool p).filter _ = some object ↔ _
  rw [Option.filter_eq_some_iff, decide_eq_true_iff]

theorem alive_pool_eq_none :
    (alive dx).pool p = none ↔ dx.pool p = none ∨ dying dx p = true := by
  show (dx.pool p).filter _ = none ↔ _
  unfold dying
  cases dx.pool p <;> simp

theorem dying_iff : dying dx p = true ↔ ∃ object, dx.pool p = some object ∧
    object.unit.refCount = 0 := by
  unfold dying
  rw [Option.any_eq_true]
  simp only [decide_eq_true_eq]

theorem alivePool_update (pool : Addr → Option UnitObject) (p : Addr) (new : Option UnitObject) :
    alivePool (Function.update pool p new) = Function.update (alivePool pool) p
      (new.filter fun object => object.unit.refCount ≠ 0) := by
  funext x
  show (Function.update pool p new x).filter _ =
    (Function.update (alivePool pool) p _ : Addr → Option UnitObject) x
  by_cases hx : x = p
  · rw [hx, Function.update_self, Function.update_self]
  · rw [Function.update_of_ne hx, Function.update_of_ne hx]
    rfl

theorem alive_update (new : Option UnitObject) :
    alive { dx with pool := Function.update dx.pool p new } =
      { alive dx with
        pool := Function.update (alive dx).pool p
          (new.filter fun object => object.unit.refCount ≠ 0) } := by
  show ({ dx with pool := alivePool (Function.update dx.pool p new) } : SpdDeviceExtension) = _
  rw [alivePool_update]
  rfl

theorem alive_fillSlot (hne : object.unit.refCount ≠ 0) :
    alive (fillSlot dx i p object) = fillSlot (alive dx) i p object := by
  have h := alivePool_update dx.pool p (some object)
  rw [Option.filter_some, if_pos (by simpa using hne)] at h
  show ({ fillSlot dx i p object with
    pool := alivePool (Function.update dx.pool p (some object)) } : SpdDeviceExtension) = _
  rw [h]
  rfl

theorem dying_update_ne (new : Option UnitObject) (hx : x ≠ p) :
    dying { dx with pool := Function.update dx.pool p new } x = dying dx x := by
  unfold dying
  rw [show ({ dx with pool := Function.update dx.pool p new } : SpdDeviceExtension).pool x =
    dx.pool x from Function.update_of_ne hx _ _]

theorem dying_update_self (new : Option UnitObject) :
    dying { dx with pool := Function.update dx.pool p new } p =
      new.any fun object => object.unit.refCount = 0 := by
  unfold dying
  rw [show ({ dx with pool := Function.update dx.pool p new } : SpdDeviceExtension).pool p =
    new from Function.update_self _ _ _]

theorem exists_alive (hinv : RegistryInv (alive dx) held) (hp : p ≠ 0)
    (h : p ∈ dx.storageUnits) :
    ∃ object, dx.pool p = some object ∧ object.unit.refCount ≠ 0 := by
  obtain ⟨object, hobject⟩ := hinv.exists_object hp h
  exact ⟨object, alive_pool_eq_some.mp hobject⟩

theorem table_alive (hinv : RegistryInv (alive dx) held) : table (alive dx) = table dx := by
  refine table_congr rfl fun p hp => ?_
  by_cases h0 : p = 0
  · rw [h0, poolEntry_zero, poolEntry_zero]
  · obtain ⟨object, hobject, hcount⟩ := exists_alive hinv h0 hp
    refine poolEntry_congr ?_
    rw [hobject]
    exact alive_pool_eq_some.mpr ⟨hobject, hcount⟩

theorem alive_present (hinv : RegistryInv (alive dx) held) :
    ∀ p ∈ dx.storageUnits, p ≠ 0 → ∃ object, dx.pool p = some object :=
  fun _ hp h0 =>
    let ⟨object, hobject, _⟩ := exists_alive hinv h0 hp
    ⟨object, hobject⟩

/-! ## Sums over the accounts -/

def UnitRefs.heldAddrs (g : UnitRefs) : List Addr := g.held.map UnitPtr.addr

def UnitRefs.removedAddrs (g : UnitRefs) : List Addr := g.removed.map UnitPtr.addr

def UnitRefs.deletingAddrs (g : UnitRefs) : List Addr := (g.deleting.map UnitPtr.addr).toList

/-- The addresses of the units that are held, by any thread. -/
def heldAddrs (gs : List UnitRefs) : List Addr := gs.flatMap UnitRefs.heldAddrs

def removedAddrs (gs : List UnitRefs) : List Addr := gs.flatMap UnitRefs.removedAddrs

def deletingAddrs (gs : List UnitRefs) : List Addr := gs.flatMap UnitRefs.deletingAddrs

/-- It has a pointer that must stay good. -/
def UnitRefs.Has (g : UnitRefs) (ptr : UnitPtr) : Prop := ptr ∈ g.held ∨ g.deleting = some ptr

/-- What a thread that found a unit knows: it has that owner, unless it has been
freed. -/
def FoundOwner (s : DriverState) (ptr : UnitPtr) (owner : UInt32) : Prop :=
  ptr.generation ≤ s.generation ptr.addr ∧ (s.ptr ptr.addr = ptr →
    ∀ object, s.dx.pool ptr.addr = some object → object.unit.ownerProcessId = owner)

/-- The accounts of all threads, against the device extension. -/
structure RefsInv (s : DriverState) (gs : List UnitRefs) : Prop where
  registry : RegistryInv (alive s.dx) (heldAddrs gs)
  null : s.dx.pool 0 = none
  current : ∀ g ∈ gs, ∀ ptr, g.Has ptr → s.ptr ptr.addr = ptr
  found : ∀ g ∈ gs, ∀ ptr owner, g.found = some (ptr, owner) → FoundOwner s ptr owner
  deleting : ∀ p, (deletingAddrs gs).count p = if dying s.dx p then 1 else 0
  once : ∀ p, p ≠ 0 → s.dx.storageUnits.count p + (removedAddrs gs).count p ≤ 1
  queues : ∀ p object, s.dx.pool p = some object →
    ∃ q, Refines object.ioq q ∧ ∀ i ∈ q.items, s.storageUnit i.ext = s.ptr p

theorem heldAddrs_cons : heldAddrs (g :: gs) = g.heldAddrs ++ heldAddrs gs := List.flatMap_cons

theorem removedAddrs_cons : removedAddrs (g :: gs) = g.removedAddrs ++ removedAddrs gs :=
  List.flatMap_cons

theorem deletingAddrs_cons : deletingAddrs (g :: gs) = g.deletingAddrs ++ deletingAddrs gs :=
  List.flatMap_cons

theorem RefsInv.perm (hinv : RefsInv s gs) (hperm : gs.Perm gs') : RefsInv s gs' where
  registry := hinv.registry.perm (hperm.symm.flatMap_right _)
  null := hinv.null
  current g hg := hinv.current g (hperm.mem_iff.mpr hg)
  found g hg := hinv.found g (hperm.mem_iff.mpr hg)
  deleting p := by
    rw [← hinv.deleting p]
    exact (hperm.symm.flatMap_right UnitRefs.deletingAddrs).count_eq p
  once p hp := by
    have hcount : (removedAddrs gs').count p = (removedAddrs gs).count p :=
      (hperm.symm.flatMap_right UnitRefs.removedAddrs).count_eq p
    rw [hcount]
    exact hinv.once p hp
  queues := hinv.queues

theorem RefsInv.enter (hinv : RefsInv s gs) : RefsInv s (.none :: gs) where
  registry := hinv.registry
  null := hinv.null
  current g hg ptr hptr := by
    rcases List.mem_cons.mp hg with rfl | hg
    · rcases hptr with hptr | hptr
      · cases hptr
      · cases hptr
    · exact hinv.current g hg ptr hptr
  found g hg ptr owner h := by
    rcases List.mem_cons.mp hg with rfl | hg
    · cases h
    · exact hinv.found g hg ptr owner h
  deleting := hinv.deleting
  once := hinv.once
  queues := hinv.queues

theorem RefsInv.leave (hinv : RefsInv s (.none :: gs)) : RefsInv s gs where
  registry := hinv.registry
  null := hinv.null
  current g hg := hinv.current g (List.mem_cons_of_mem _ hg)
  found g hg := hinv.found g (List.mem_cons_of_mem _ hg)
  deleting := hinv.deleting
  once := hinv.once
  queues := hinv.queues

/-! ## What an action does -/

theorem mem_heldAddrs (hg : g ∈ gs) (hptr : ptr ∈ g.held) : ptr.addr ∈ heldAddrs gs :=
  List.mem_flatMap.mpr ⟨g, hg, List.mem_map_of_mem hptr⟩

theorem RefsInv.object_of_held (hinv : RefsInv s gs) (hg : g ∈ gs) (hptr : ptr ∈ g.held) :
    ∃ object, s.dx.pool ptr.addr = some object ∧ object.unit.refCount ≠ 0 := by
  obtain ⟨object, hobject⟩ := hinv.registry.object_of_held (mem_heldAddrs hg hptr)
  exact ⟨object, alive_pool_eq_some.mp hobject⟩

theorem RefsInv.refCount (hinv : RefsInv s gs) (hobject : s.dx.pool p = some object)
    (hne : object.unit.refCount ≠ 0) :
    object.unit.refCount.toNat = s.dx.storageUnits.count p + (heldAddrs gs).count p :=
  (hinv.registry.objects p object (alive_pool_eq_some.mpr ⟨hobject, hne⟩)).refCount

theorem RefsInv.ne_zero (hinv : RefsInv s gs) (hobject : s.dx.pool p = some object) : p ≠ 0 := by
  rintro rfl
  rw [hinv.null] at hobject
  cases hobject

theorem RefsInv.account (hinv : RefsInv s (g :: gs)) (hheld : g'.held = g.held)
    (hremoved : g'.removed = g.removed) (hdeleting : g'.deleting = g.deleting)
    (hfound : ∀ ptr owner, g'.found = some (ptr, owner) → FoundOwner s ptr owner) :
    RefsInv s (g' :: gs) where
  registry := by
    have hregistry := hinv.registry
    rw [heldAddrs_cons, UnitRefs.heldAddrs] at hregistry ⊢
    rwa [hheld]
  null := hinv.null
  current h hh ptr hptr := by
    rcases List.mem_cons.mp hh with rfl | hh
    · rw [UnitRefs.Has, hheld, hdeleting] at hptr
      exact hinv.current g List.mem_cons_self ptr hptr
    · exact hinv.current h (List.mem_cons_of_mem _ hh) ptr hptr
  found h hh ptr owner heq := by
    rcases List.mem_cons.mp hh with rfl | hh
    · exact hfound ptr owner heq
    · exact hinv.found h (List.mem_cons_of_mem _ hh) ptr owner heq
  deleting p := by
    have h := hinv.deleting p
    rw [deletingAddrs_cons, UnitRefs.deletingAddrs] at h ⊢
    rwa [hdeleting]
  once p hp := by
    have h := hinv.once p hp
    rw [removedAddrs_cons, UnitRefs.removedAddrs] at h ⊢
    rwa [hremoved]
  queues := hinv.queues

/-- The unit at `p` and the references to it change. It may have been the last
one. -/
theorem RefsInv.update {storageUnit : Addr → UnitPtr} (hinv : RefsInv s (g :: gs))
    (hobject : s.dx.pool p = some object) (hne : object.unit.refCount ≠ 0) (object' : UnitObject)
    (hguid : object'.unit.storageUnitParams.guid = object.unit.storageUnitParams.guid)
    (howner : object'.unit.ownerProcessId = object.unit.ownerProcessId)
    (hcount : object'.unit.refCount.toNat =
      s.dx.storageUnits.count p + (heldAddrs (g' :: gs)).count p)
    (hheld : ∀ x, x ≠ p → g'.heldAddrs.count x = g.heldAddrs.count x)
    (hremoved : ∀ x, g'.removedAddrs.count x ≤ g.removedAddrs.count x)
    (hdeleting : ∀ x, g'.deletingAddrs.count x =
      g.deletingAddrs.count x + if x = p ∧ object'.unit.refCount = 0 then 1 else 0)
    (hhas : ∀ ptr, g'.Has ptr → g.Has ptr ∨ ptr = s.ptr p)
    (hfound : g'.found = none)
    (hqueue : ∃ q, Refines object'.ioq q ∧ ∀ i ∈ q.items, storageUnit i.ext = s.ptr p)
    (hothers : ∀ x y q, x ≠ p → s.dx.pool x = some y → Refines y.ioq q →
      ∀ i ∈ q.items, storageUnit i.ext = s.storageUnit i.ext) :
    RefsInv
      { s with
        dx := { s.dx with pool := Function.update s.dx.pool p (some object') }
        storageUnit := storageUnit } (g' :: gs) := by
  have hp := hinv.ne_zero hobject
  have hunit := hinv.registry.objects p object (alive_pool_eq_some.mpr ⟨hobject, hne⟩)
  have hpos : object'.unit.refCount = 0 ↔
      s.dx.storageUnits.count p + (heldAddrs (g' :: gs)).count p = 0 := by
    rw [← hcount, ← UInt32.toNat_inj]
    rfl
  have hnew : (some object').filter (fun object => object.unit.refCount ≠ 0) =
      if object'.unit.refCount = 0 then none else some object' := by
    by_cases h : object'.unit.refCount = 0 <;> simp [h]
  refine ⟨?_, ?_, ?_, ?_, ?_, ?_, ?_⟩
  · show RegistryInv (alive { s.dx with pool := Function.update s.dx.pool p (some object') }) _
    rw [alive_update, hnew]
    refine (hinv.registry.update (alive_pool_eq_some.mpr ⟨hobject, hne⟩) (fun hmem => ?_)
      (fun y hy => ?_) (fun hnone => ?_) (fun x hx => ?_)).2
    · have hslot : 0 < s.dx.storageUnits.count p := List.count_pos_iff.mpr hmem
      rw [if_neg (fun h => by have := hpos.mp h; omega)]
      exact ⟨object', rfl, hguid, howner⟩
    · split at hy
      · cases hy
      · next h =>
          cases hy
          refine ⟨Nat.pos_of_ne_zero fun h0 => h (hpos.mpr h0), hcount, ?_⟩
          obtain ⟨q, hq, -⟩ := hqueue
          exact ⟨q, hq⟩
    · split at hnone
      · next h => exact hpos.mp h
      · cases hnone
    · rw [heldAddrs_cons, heldAddrs_cons, List.count_append, List.count_append, hheld x hx]
  · exact (Function.update_of_ne hp.symm _ _).trans hinv.null
  · intro h hh ptr hptr
    rcases List.mem_cons.mp hh with rfl | hh
    · rcases hhas ptr hptr with hptr | rfl
      · exact hinv.current g List.mem_cons_self ptr hptr
      · rfl
    · exact hinv.current h (List.mem_cons_of_mem _ hh) ptr hptr
  · intro h hh ptr owner heq
    rcases List.mem_cons.mp hh with rfl | hh
    · rw [hfound] at heq
      cases heq
    · obtain ⟨hle, hown⟩ := hinv.found h (List.mem_cons_of_mem _ hh) ptr owner heq
      refine ⟨hle, fun hcur y hy => ?_⟩
      by_cases hx : ptr.addr = p
      · have hy' : Function.update s.dx.pool p (some object') ptr.addr = some y := hy
        rw [hx, Function.update_self, Option.some.injEq] at hy'
        rw [← hy', howner]
        exact hown hcur object (by rw [hx, hobject])
      · exact hown hcur y ((Function.update_of_ne hx _ _).symm.trans hy)
  · intro x
    have hx := hinv.deleting x
    rw [deletingAddrs_cons, List.count_append] at hx ⊢
    rw [hdeleting x]
    by_cases hxp : x = p
    · subst hxp
      have hdying : dying s.dx x = false := by
        unfold dying
        rw [hobject, Option.any_some, decide_eq_false_iff_not]
        exact hne
      rw [dying_update_self, Option.any_some]
      rw [hdying] at hx
      simp only [true_and, decide_eq_true_eq]
      simp only [Bool.false_eq_true, if_false] at hx
      omega
    · rw [dying_update_ne _ hxp, if_neg (fun h => hxp h.1)]
      exact hx
  · intro x hx
    have h := hinv.once x hx
    have hle := hremoved x
    rw [removedAddrs_cons, List.count_append] at h ⊢
    show s.dx.storageUnits.count x + _ ≤ 1
    omega
  · intro x y hy
    by_cases hxp : x = p
    · subst hxp
      have hy' : Function.update s.dx.pool x (some object') x = some y := hy
      rw [Function.update_self, Option.some.injEq] at hy'
      rw [← hy']
      exact hqueue
    · have hy' := (Function.update_of_ne hxp _ _).symm.trans hy
      obtain ⟨q, hq, hitems⟩ := hinv.queues x y hy'
      refine ⟨q, hq, fun i hi => ?_⟩
      exact (hothers x y q hxp hy' hq i hi).trans (hitems i hi)

theorem mem_deletingAddrs (hg : g ∈ gs) (hptr : g.deleting = some ptr) :
    ptr.addr ∈ deletingAddrs gs :=
  List.mem_flatMap.mpr
    ⟨g, hg, by rw [UnitRefs.deletingAddrs, hptr]; exact List.mem_singleton_self _⟩

theorem RefsInv.dying_of_deleting (hinv : RefsInv s gs) (hg : g ∈ gs)
    (hptr : g.deleting = some ptr) : dying s.dx ptr.addr = true := by
  have hpos : 0 < (deletingAddrs gs).count ptr.addr :=
    List.count_pos_iff.mpr (mem_deletingAddrs hg hptr)
  rw [hinv.deleting] at hpos
  by_contra h
  rw [if_neg h] at hpos
  omega

theorem RefsInv.exists_object (hinv : RefsInv s gs) (hg : g ∈ gs) (hptr : g.Has ptr) :
    ∃ object, s.dx.pool ptr.addr = some object := by
  rcases hptr with hptr | hptr
  · obtain ⟨object, hobject, -⟩ := hinv.object_of_held hg hptr
    exact ⟨object, hobject⟩
  · obtain ⟨object, hobject, -⟩ := dying_iff.mp (hinv.dying_of_deleting hg hptr)
    exact ⟨object, hobject⟩

theorem removedAddrs_subset (h : p ∈ removedAddrs gs) : p ∈ heldAddrs gs := by
  obtain ⟨g, hg, hp⟩ := List.mem_flatMap.mp h
  obtain ⟨ptr, hptr, rfl⟩ := List.mem_map.mp hp
  exact mem_heldAddrs hg (List.mem_append_left _ hptr)

theorem RefsInv.fill (hinv : RefsInv s gs) (hp : p ≠ 0) (hfresh : s.dx.pool p = none)
    (hfree : s.dx.storageUnits[i]? = some 0) (hone : object.unit.refCount = 1)
    (hnew : Refines object.ioq .empty)
    (hguid : ∀ j e, (table s.dx).content j = some e →
      e.guid ≠ object.unit.storageUnitParams.guid) :
    RefsInv
      { s with
        dx := fillSlot s.dx i p object
        generation := Function.update s.generation p (s.generation p + 1) } gs := by
  have hne : object.unit.refCount ≠ 0 := by
    rw [hone]
    decide
  have hnone : ∀ g ∈ gs, ∀ ptr, g.Has ptr → ptr.addr ≠ p := by
    intro g hg ptr hptr heq
    obtain ⟨y, hy⟩ := hinv.exists_object hg hptr
    rw [heq, hfresh] at hy
    cases hy
  have hremoved : (removedAddrs gs).count p = 0 := by
    rw [List.count_eq_zero]
    intro hmem
    obtain ⟨g, hg, hp'⟩ := List.mem_flatMap.mp (removedAddrs_subset hmem)
    obtain ⟨ptr, hptr, heq⟩ := List.mem_map.mp hp'
    exact hnone g hg ptr (.inl hptr) heq
  have hslots : s.dx.storageUnits.count p = 0 := by
    rw [List.count_eq_zero]
    intro hmem
    obtain ⟨y, hy⟩ := alive_present hinv.registry p hmem hp
    rw [hfresh] at hy
    cases hy
  have hdying : dying s.dx p = false := by
    unfold dying
    rw [hfresh]
    rfl
  have hgen : ∀ x, x ≠ p → Function.update s.generation p (s.generation p + 1) x =
      s.generation x := fun x hx => Function.update_of_ne hx _ _
  have hself : Function.update s.generation p (s.generation p + 1) p = s.generation p + 1 :=
    Function.update_self _ _ _
  refine ⟨?_, ?_, ?_, ?_, ?_, ?_, ?_⟩
  · show RegistryInv (alive (fillSlot s.dx i p object)) _
    rw [alive_fillSlot hne]
    refine (hinv.registry.fill hp (alive_pool_eq_none.mpr (.inl hfresh)) hfree
      ⟨Nat.one_pos, by rw [hone]; rfl, .empty, hnew⟩ ?_).2
    rw [table_alive hinv.registry]
    exact hguid
  · exact (Function.update_of_ne hp.symm _ _).trans hinv.null
  · intro g hg ptr hptr
    show UnitPtr.mk ptr.addr (Function.update s.generation p (s.generation p + 1) ptr.addr) = ptr
    rw [hgen _ (hnone g hg ptr hptr)]
    exact hinv.current g hg ptr hptr
  · intro g hg ptr owner heq
    obtain ⟨hle, hown⟩ := hinv.found g hg ptr owner heq
    show ptr.generation ≤ Function.update s.generation p (s.generation p + 1) ptr.addr ∧
      (UnitPtr.mk ptr.addr (Function.update s.generation p (s.generation p + 1) ptr.addr) = ptr →
        ∀ y, Function.update s.dx.pool p (some object) ptr.addr = some y →
          y.unit.ownerProcessId = owner)
    by_cases hx : ptr.addr = p
    · rw [hx] at hle
      rw [hx, hself]
      refine ⟨by omega, fun hcur => ?_⟩
      have heq : s.generation p + 1 = ptr.generation := congrArg UnitPtr.generation hcur
      omega
    · rw [hgen _ hx, Function.update_of_ne hx]
      exact ⟨hle, hown⟩
  · intro x
    have hx := hinv.deleting x
    show _ = if dying (fillSlot s.dx i p object) x = true then 1 else 0
    by_cases hxp : x = p
    · subst hxp
      have hdying' : dying (fillSlot s.dx i x object) x = false := by
        refine (@dying_update_self s.dx x (some object)).trans ?_
        rw [Option.any_some, decide_eq_false_iff_not]
        exact hne
      rw [hdying', ← hdying]
      exact hx
    · rw [show dying (fillSlot s.dx i p object) x = dying s.dx x from
        @dying_update_ne s.dx p x _ hxp]
      exact hx
  · intro x hx
    have h := hinv.once x hx
    have hset := count_set (b := p) hfree x
    show (s.dx.storageUnits.set i p).count x + _ ≤ 1
    rw [if_neg (Ne.symm hx)] at hset
    by_cases hxp : p = x
    · subst hxp
      rw [if_pos rfl] at hset
      omega
    · rw [if_neg hxp] at hset
      omega
  · intro x y hy
    have hy' : Function.update s.dx.pool p (some object) x = some y := hy
    by_cases hxp : x = p
    · subst hxp
      rw [Function.update_self, Option.some.injEq] at hy'
      rw [← hy']
      exact ⟨.empty, hnew, fun i hi => (by cases hi)⟩
    · rw [Function.update_of_ne hxp] at hy'
      obtain ⟨q, hq, hitems⟩ := hinv.queues x y hy'
      refine ⟨q, hq, fun j hj => ?_⟩
      show s.storageUnit j.ext =
        ⟨x, Function.update s.generation p (s.generation p + 1) x⟩
      rw [hgen x hxp]
      exact hitems j hj

/-- A unit is taken out of its slot, by the thread with account `g`. -/
theorem RefsInv.clear {owner : UInt32} (hinv : RefsInv s (g :: gs)) (hp : p ≠ 0)
    (hi : s.dx.storageUnits[i]? = some p)
    (howner : ∀ object, s.dx.pool p = some object → object.unit.ownerProcessId = owner) :
    RefsInv { s with dx := clearSlot s.dx i }
      ({ g with found := some (s.ptr p, owner), removed := s.ptr p :: g.removed } :: gs) := by
  have hset : ∀ x, x ≠ 0 → (s.dx.storageUnits.set i 0).count x + (if p = x then 1 else 0) =
      s.dx.storageUnits.count x := by
    intro x hx
    have h := count_set (b := 0) hi x
    rwa [if_neg hx.symm] at h
  refine ⟨(hinv.registry.clear hp hi).2, hinv.null, ?_, ?_, hinv.deleting, ?_, hinv.queues⟩
  · intro h hh ptr hptr
    rcases List.mem_cons.mp hh with rfl | hh
    · rcases hptr with hptr | hptr
      · rcases List.mem_cons.mp hptr with rfl | hptr
        · rfl
        · exact hinv.current g List.mem_cons_self ptr (.inl hptr)
      · exact hinv.current g List.mem_cons_self ptr (.inr hptr)
    · exact hinv.current h (List.mem_cons_of_mem _ hh) ptr hptr
  · intro h hh ptr o heq
    rcases List.mem_cons.mp hh with rfl | hh
    · cases heq
      exact ⟨Nat.le_refl _, fun _ => howner⟩
    · exact hinv.found h (List.mem_cons_of_mem _ hh) ptr o heq
  · intro x hx
    have h := hinv.once x hx
    have hcount := hset x hx
    show (s.dx.storageUnits.set i 0).count x + _ ≤ 1
    rw [removedAddrs_cons, List.count_append, UnitRefs.removedAddrs] at h ⊢
    rw [List.map_cons, List.count_cons]
    simp only [beq_iff_eq, DriverState.ptr]
    omega

theorem RefsInv.free (hinv : RefsInv s (g :: gs)) (hdeleting : g.deleting = some ptr)
    (hfound : g.found = none) :
    RefsInv { s with dx := { s.dx with pool := Function.update s.dx.pool ptr.addr none } }
      ({ g with deleting := none } :: gs) := by
  have hdying := hinv.dying_of_deleting List.mem_cons_self hdeleting
  have halive : alive { s.dx with pool := Function.update s.dx.pool ptr.addr none } =
      alive s.dx := by
    rw [alive_update, Option.filter_none, Function.update_eq_self_iff.mpr
      (alive_pool_eq_none.mpr (.inr hdying)).symm]
  have hpool : ∀ x y, Function.update s.dx.pool ptr.addr none x = some y →
      x ≠ ptr.addr ∧ s.dx.pool x = some y := by
    intro x y hy
    by_cases hx : x = ptr.addr
    · rw [hx, Function.update_self] at hy
      cases hy
    · exact ⟨hx, (Function.update_of_ne hx _ _).symm.trans hy⟩
  refine ⟨?_, ?_, ?_, ?_, ?_, hinv.once, ?_⟩
  · show RegistryInv (alive { s.dx with pool := Function.update s.dx.pool ptr.addr none }) _
    rw [halive]
    exact hinv.registry
  · show Function.update s.dx.pool ptr.addr none 0 = none
    rw [Function.update_apply, hinv.null, ite_self]
  · intro h hh x hx
    rcases List.mem_cons.mp hh with rfl | hh
    · rcases hx with hx | hx
      · exact hinv.current g List.mem_cons_self x (.inl hx)
      · cases hx
    · exact hinv.current h (List.mem_cons_of_mem _ hh) x hx
  · intro h hh x owner heq
    rcases List.mem_cons.mp hh with rfl | hh
    · rw [show g.found = some (x, owner) from heq] at hfound
      cases hfound
    · obtain ⟨hle, hown⟩ := hinv.found h (List.mem_cons_of_mem _ hh) x owner heq
      exact ⟨hle, fun hcur y hy => hown hcur y (hpool _ _ hy).2⟩
  · intro x
    have hx := hinv.deleting x
    rw [deletingAddrs_cons, List.count_append] at hx ⊢
    rw [show ({ g with deleting := none } : UnitRefs).deletingAddrs = [] from rfl]
    rw [UnitRefs.deletingAddrs, hdeleting] at hx
    show [].count x + _ = if dying { s.dx with
      pool := Function.update s.dx.pool ptr.addr none } x = true then 1 else 0
    rw [List.count_nil]
    rw [show (Option.map UnitPtr.addr (some ptr)).toList = [ptr.addr] from rfl,
      List.count_singleton] at hx
    by_cases hxp : x = ptr.addr
    · subst hxp
      rw [dying_update_self]
      rw [hdying, if_pos rfl] at hx
      simp only [beq_self_eq_true, if_true] at hx
      simp only [Option.any_none, Bool.false_eq_true, if_false]
      omega
    · rw [dying_update_ne _ hxp, ← hx]
      simp [Ne.symm hxp]
  · intro x y hy
    exact hinv.queues x y (hpool x y hy).2

end Winspd.Proofs
