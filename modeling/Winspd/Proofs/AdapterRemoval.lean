import Winspd.Proofs.Adapter
import Winspd.Proofs.Ledger

/-!
# Adapter removal

When StorPort removes the adapter it calls `SpdHwFreeAdapterResources`, which
forgets the device extension and removes the notify routine. The units that are
still in the array stay there: their owners' exits are no longer noticed, and
nobody else has a pointer to them.

Until then a unit is released by its owner, by its owner's exit or by its
disk's removal, each of which takes it out of the array and dereferences it.
Once all handlers have returned, what is allocated is what is in the array
(`UnitsInv.pool_eq_none`), so the adapter leaves nothing behind if and only if
the array is empty.
-/

namespace Winspd.Proofs

open Winspd.Lib Winspd.Sys Winspd.Spec

variable {s s' : RegistrySys} {ev : UnitsEvent} {ls : List UnitsEvent} {p : Addr}
  {capacity : UInt32}

/-- Every unit and every queue has been freed once for every time it was
allocated, and every SRB completed once for every time it was posted. -/
structure AdapterReleased (ls : List UnitsEvent) : Prop where
  memory : AllFreed (memoryEvents ls)
  srbs : (postedSrbs ls).Perm (completedSrbs ls)

theorem UnitsInv.pool_eq_none (hinv : UnitsInv ls s) (hheld : s.held = [])
    (hempty : ∀ x ∈ s.dx.storageUnits, x = 0) : s.dx.pool p = none := by
  cases hpool : s.dx.pool p with
  | none => rfl
  | some object =>
      have hpos := (hinv.inv.objects p object hpool).pos
      have hne := hinv.inv.ne_of_object hpool
      have hcount : s.dx.storageUnits.count p = 0 :=
        List.count_eq_zero.mpr fun hmem => hne (hempty p hmem)
      rw [refs, hcount, hheld] at hpos
      exact absurd hpos (Nat.lt_irrefl 0)

theorem UnitsInv.not_freed (hinv : UnitsInv ls s) (hp : p ∈ s.dx.storageUnits) (hne : p ≠ 0) :
    ¬ AllFreed (memoryEvents ls) := by
  intro hfreed
  obtain ⟨object, hobject⟩ := hinv.inv.exists_object hne hp
  have htrue := (hinv.memory.of_present hobject).1
  rw [hfreed (.unit p)] at htrue
  cases htrue

theorem UnitsInv.released (hinv : UnitsInv ls s) (hheld : s.held = [])
    (hempty : ∀ x ∈ s.dx.storageUnits, x = 0) : AdapterReleased ls := by
  have hnone : ∀ p, s.dx.pool p = none := fun p => hinv.pool_eq_none hheld hempty
  refine ⟨fun b => ?_, ?_⟩
  · cases b with
    | unit p => exact (hinv.memory.of_absent (hnone p)).1
    | ioq p => exact (hinv.memory.of_absent (hnone p)).2
  · rw [List.perm_iff_count]
    rintro ⟨p, srb⟩
    obtain ⟨srbs, hqueued, hcount⟩ := hinv.srbs p
    rw [hnone p] at hqueued
    obtain rfl : srbs = [] := hqueued
    exact hcount srb

/-- When StorPort frees an adapter's resources, every unit and every queue has been freed
and every SRB completed if and only if the array is empty. -/
theorem spdHwFreeAdapterResources_released (hcap : capacity.toNat ≤ 256)
    (hrun : Run UnitsStep (.init capacity) ls s) (hlast : UnitsStep s ev s')
    (hop : ev.op = .freeAdapterResources) :
    AdapterReleased (ls ++ [ev]) ↔ ∀ x ∈ s.dx.storageUnits, x = 0 := by
  have hinv := unitsRun_inv hcap (hrun.snoc hlast)
  obtain ⟨hreturned, hexec, -, hheld⟩ := hlast
  rw [hop] at hreturned hexec hheld
  have hdx : s.dx = s'.dx := congrArg Prod.fst (Option.some.inj hexec)
  have hheld' : s'.held = [] := hheld.trans hreturned
  rw [hdx]
  constructor
  · intro hreleased x hx
    by_contra hne
    exact hinv.not_freed hx hne hreleased.memory
  · exact hinv.released hheld'

theorem sampleProvision_units : ∃ dx, UnitsStep (.init 16)
    ⟨.registry (.provision sampleUnit 7 (some 0x5000) (some zeroedIoq)),
      ⟨.success, 0, none⟩, [],
      [.alloc (.unit 0x5000), .alloc (.ioq 0x5000)]⟩ ⟨dx, []⟩ ∧
    ∃ dx₁ dx₂, spdStorageUnitUnprovision dx (.guid sampleUnit.guid) 7 =
        some (dx₁, .success, some 0x5000, []) ∧
      spdStorageUnitDereference dx₁ 0x5000 = some (dx₂, []) ∧
      UnitsOp.memory dx₁ .success (.registry (.dereference 0x5000)) =
        [.free (.ioq 0x5000), .free (.unit 0x5000)] ∧
      dx₂.storageUnits = List.replicate 16 0 := by
  obtain ⟨dx, dx₁, dx₂, hexec, h₁, h₂, h₃, h₄⟩ : ∃ dx dx₁ dx₂,
      RegistryOp.exec (RegistrySys.init 16).dx
        (.provision sampleUnit 7 (some 0x5000) (some zeroedIoq)) =
          some (dx, ⟨.success, 0, none⟩) ∧
      spdStorageUnitUnprovision dx (.guid sampleUnit.guid) 7 =
        some (dx₁, .success, some 0x5000, []) ∧
      spdStorageUnitDereference dx₁ 0x5000 = some (dx₂, []) ∧
      UnitsOp.memory dx₁ .success (.registry (.dereference 0x5000)) =
        [.free (.ioq 0x5000), .free (.unit 0x5000)] ∧
      dx₂.storageUnits = List.replicate 16 0 := ⟨_, _, _, rfl, rfl, rfl, rfl, rfl⟩
  refine ⟨dx, ⟨fun p hp => ?_, ?_, rfl, rfl⟩, dx₁, dx₂, h₁, h₂, h₃, h₄⟩
  · cases hp
    exact ⟨by decide, rfl⟩
  · simp only [UnitsOp.exec, hexec, Option.map_some]

/-- A unit is provisioned, and the adapter is removed before the unit's disk has
been started. -/
theorem spdHwFreeAdapterResources_provisioned :
    ¬ ∀ capacity ls s ev s', capacity.toNat ≤ 256 → Run UnitsStep (.init capacity) ls s →
      UnitsStep s ev s' → ev.op = .freeAdapterResources → AdapterReleased (ls ++ [ev]) := by
  intro hall
  obtain ⟨dx, hprovision, -⟩ := sampleProvision_units
  have hfree :
      UnitsStep ⟨dx, []⟩ ⟨.freeAdapterResources, ⟨.success, -1, none⟩, [], []⟩
        ⟨dx, []⟩ :=
    ⟨rfl, rfl, rfl, rfl⟩
  have hreleased := hall 16 _ _ _ _ (by decide) (.single hprovision) hfree rfl
  have hunit := hreleased.memory (.unit 0x5000)
  revert hunit
  decide

/-- Its owner unprovisions it first. -/
theorem spdHwFreeAdapterResources_unprovisioned :
    ∃ ls s ev s', Run UnitsStep (.init 16) ls s ∧ UnitsStep s ev s' ∧
      ev.op = .freeAdapterResources ∧
      memoryEvents ls = [.alloc (.unit 0x5000), .alloc (.ioq 0x5000), .free (.ioq 0x5000),
        .free (.unit 0x5000)] ∧ AdapterReleased (ls ++ [ev]) := by
  obtain ⟨dx, hprovision, dx₁, dx₂, h₁, h₂, h₃, h₄⟩ := sampleProvision_units
  have hunprovision : UnitsStep ⟨dx, []⟩
      ⟨.registry (.unprovision (.guid sampleUnit.guid) 7),
        ⟨.success, -1, some 0x5000⟩, [], []⟩
      ⟨dx₁, [0x5000]⟩ :=
    ⟨trivial, by simp only [UnitsOp.exec, h₁, Option.map_some], rfl, rfl⟩
  have hdereference : UnitsStep ⟨dx₁, [0x5000]⟩
      ⟨.registry (.dereference 0x5000), ⟨.success, -1, none⟩, [],
        [.free (.ioq 0x5000), .free (.unit 0x5000)]⟩ ⟨dx₂, []⟩ :=
    ⟨List.mem_singleton_self _, by simp only [UnitsOp.exec, h₂, Option.map_some],
      h₃.symm, rfl⟩
  have hfree :
      UnitsStep ⟨dx₂, []⟩ ⟨.freeAdapterResources, ⟨.success, -1, none⟩, [], []⟩
      ⟨dx₂, []⟩ := ⟨rfl, rfl, rfl, rfl⟩
  have hrun := Run.cons hprovision (.cons hunprovision (.single hdereference))
  refine ⟨_, _, _, _, hrun, hfree, rfl, rfl, ?_⟩
  refine (spdHwFreeAdapterResources_released (by decide) hrun hfree rfl).mpr fun x hx => ?_
  rw [h₄] at hx
  exact List.eq_of_mem_replicate hx

end Winspd.Proofs
