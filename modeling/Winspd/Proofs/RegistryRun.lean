import Winspd.Lib.Run
import Winspd.Proofs.Posting
import Winspd.Proofs.Registry

/-!
# Runs of the registry

Any process provisions and unprovisions units, in any order, while SRBs and
service requests take references to units, work on them and give the references
back. `RegistryStep` is one such step. What is asked of the steps is that the
pool hands out memory that is not in use, that a reference is given back by
who holds it, and that there are fewer than `2 ^ 32 - 2` of them, which is what
a `RefCount` can count.

`RegistryOp.exec_agree` says of every step that it can be made, keeps
`RegistryInv`, and does to the table what the registry of `Spec.Registry` does.
-/

namespace Winspd.Proofs

open Winspd.Lib Winspd.Sys Winspd.Spec

/-! ## The system -/

inductive RegistryOp
  | provision (params : StorageUnitParams) (processId : UInt32) (unitMem : Option Addr)
      (ioqMem : Option SpdIoq)
  | unprovision (key : UnitKey) (processId : UInt32)
  | referenceByBtl (btl : UInt32)
  | referenceByDevice (deviceObject : Addr)
  | dereference (p : Addr)
  | setDevice (p deviceObject : Addr)
  | setTransactProcessId (p : Addr) (processId : UInt32)
  /-- The queue of a unit has been worked on. -/
  | work (p : Addr) (ioq : SpdIoq)

/-- What an operation answers: a status, a BTL and a unit. -/
structure RegistryResult where
  status : NtStatus
  btl : UInt32
  unit : Option Addr

def RegistryOp.exec (dx : SpdDeviceExtension) :
    RegistryOp → Option (SpdDeviceExtension × RegistryResult)
  | .provision params processId unitMem ioqMem =>
      (spdStorageUnitProvision dx params processId unitMem ioqMem).map fun r =>
        (r.1, ⟨r.2.1, r.2.2, none⟩)
  | .unprovision key processId =>
      (spdStorageUnitUnprovision dx key processId).map fun r => (r.1, ⟨r.2.1, -1, r.2.2.1⟩)
  | .referenceByBtl btl =>
      (spdStorageUnitReferenceByBtl dx btl).map fun r => (r.1, ⟨.success, -1, r.2⟩)
  | .referenceByDevice deviceObject =>
      (spdStorageUnitReferenceByDevice dx deviceObject).map fun r => (r.1, ⟨.success, -1, r.2⟩)
  | .dereference p =>
      (spdStorageUnitDereference dx p).map fun r => (r.1, ⟨.success, -1, none⟩)
  | .setDevice p deviceObject =>
      (spdStorageUnitSetDevice dx p deviceObject).map fun r => (r.1, ⟨r.2, -1, none⟩)
  | .setTransactProcessId p processId =>
      (spdIoctlSetTransactProcessIdStore dx p processId).map fun dx =>
        (dx, ⟨.success, -1, none⟩)
  | .work p ioq =>
      (dx.pool p).map fun object =>
        ({ dx with pool := Function.update dx.pool p (some { object with ioq := ioq }) },
          ⟨.success, -1, none⟩)

/-- The references that are held after the operation. -/
def RegistryOp.held (held : List Addr) (unit : Option Addr) : RegistryOp → List Addr
  | .dereference p => held.erase p
  | _ => unit.toList ++ held

def RegistryOp.Allowed (dx : SpdDeviceExtension) (held : List Addr) : RegistryOp → Prop
  | .provision _ _ unitMem _ => ∀ p, unitMem = some p → p ≠ 0 ∧ dx.pool p = none
  | .unprovision _ _ => True
  | .referenceByBtl _ | .referenceByDevice _ => held.length + 2 < 2 ^ 32
  | .dereference p | .setDevice p _ | .setTransactProcessId p _ => p ∈ held
  | .work p ioq => p ∈ held ∧ ∃ q, Refines ioq q

structure RegistryEvent where
  op : RegistryOp
  result : RegistryResult

structure RegistrySys where
  dx : SpdDeviceExtension
  held : List Addr

/-- A device extension without units, and an empty pool. -/
def RegistrySys.init (capacity : UInt32) : RegistrySys :=
  ⟨spdDeviceExtensionInit capacity fun _ => none, []⟩

structure RegistryStep (s : RegistrySys) (ev : RegistryEvent) (s' : RegistrySys) : Prop where
  allowed : ev.op.Allowed s.dx s.held
  exec : ev.op.exec s.dx = some (s'.dx, ev.result)
  held : s'.held = ev.op.held s.held ev.result.unit

/-! ## The steps -/

variable {dx dx' : SpdDeviceExtension} {held : List Addr} {s s' : RegistrySys}
  {ev : RegistryEvent} {ls : List RegistryEvent} {t t' : Registry} {p : Addr}
  {r : RegistryResult} {op : RegistryOp} {capacity : UInt32}

def RegistryOp.Spec (t : Registry) (r : RegistryResult) (t' : Registry) : RegistryOp → Prop
  | .provision params processId (some p) (some _) =>
      ∃ found, t.provision ⟨p, params.guid, processId⟩ = (t', r.status, found) ∧
        r.btl = btlOf found
  | .unprovision key processId =>
      ∃ found, t.unprovision key processId = (t', r.status, found) ∧
        r.unit = found.map Entry.addr
  | _ => t' = t

/-- What is in a slot was there before, or has just been provisioned. -/
theorem RegistryOp.Spec.content {i : Nat} {e : Entry} (hspec : op.Spec t r t')
    (hguids : t.GuidsDistinct) (he : t'.content i = some e) :
    t.content i = some e ∨ ∃ params processId p mem,
      op = .provision params processId (some p) (some mem) ∧ r.status = .success ∧
        e = ⟨p, params.guid, processId⟩ := by
  cases op with
  | provision params processId unitMem ioqMem =>
      cases unitMem with
      | none =>
          obtain rfl : t' = t := hspec
          exact .inl he
      | some p =>
          cases ioqMem with
          | none =>
              obtain rfl : t' = t := hspec
              exact .inl he
          | some mem =>
              obtain ⟨found, hprovision, -⟩ := hspec
              obtain ⟨-, heq⟩ | ⟨-, -, heq⟩ | ⟨j, -, hfree, heq⟩ :=
                Registry.provision_cases t ⟨p, params.guid, processId⟩
              · rw [hprovision, Prod.mk.injEq] at heq
                rw [heq.1] at he
                exact .inl he
              · rw [hprovision, Prod.mk.injEq] at heq
                rw [heq.1] at he
                exact .inl he
              · rw [hprovision, Prod.mk.injEq, Prod.mk.injEq] at heq
                rw [heq.1] at he
                by_cases hi : i = j
                · rw [hi, Slots.content_fill_self (Slots.lt_length_of_lowestFree hfree),
                    Option.some.injEq] at he
                  exact .inr ⟨params, processId, p, mem, rfl, heq.2.1, he.symm⟩
                · rw [Slots.content_fill_ne hi] at he
                  exact .inl he
  | unprovision key processId =>
      obtain ⟨found, hunprovision, -⟩ := hspec
      obtain ⟨-, heq⟩ | ⟨j, e', -, -, heq⟩ | ⟨j, e', -, -, heq⟩ :=
        Registry.unprovision_cases hguids key processId
      · rw [hunprovision, Prod.mk.injEq] at heq
        rw [heq.1] at he
        exact .inl he
      · rw [hunprovision, Prod.mk.injEq] at heq
        rw [heq.1] at he
        exact .inl he
      · rw [hunprovision, Prod.mk.injEq] at heq
        rw [heq.1] at he
        exact .inl (Slots.content_of_clear he)
  | referenceByBtl | referenceByDevice | dereference | setDevice | setTransactProcessId | work =>
      obtain rfl : t' = t := hspec
      exact .inl he

def RegistryOp.KeepsArray : RegistryOp → Prop
  | .provision _ _ _ _ | .unprovision _ _ => False
  | _ => True

/-- A step that is made: what it does to the table, and that the table stays
one. -/
structure RegistryAgree (dx : SpdDeviceExtension) (held : List Addr) (op : RegistryOp)
    (dx' : SpdDeviceExtension) (r : RegistryResult) : Prop where
  exec : op.exec dx = some (dx', r)
  spec : op.Spec (table dx) r (table dx')
  inv : RegistryInv dx' (op.held held r.unit)
  length : dx'.storageUnits.length = dx.storageUnits.length
  frame : op.KeepsArray → dx' = { dx with pool := dx'.pool }

/-- A unit that is held is changed, and its references are not. -/
theorem RegistryInv.set {object : UnitObject} (hinv : RegistryInv dx held)
    (hobject : dx.pool p = some object) (object' : UnitObject)
    (hguid : object'.unit.storageUnitParams.guid = object.unit.storageUnitParams.guid)
    (howner : object'.unit.ownerProcessId = object.unit.ownerProcessId)
    (hcount : object'.unit.refCount = object.unit.refCount)
    (hqueue : ∃ q, Refines object'.ioq q) :
    table { dx with pool := Function.update dx.pool p (some object') } = table dx ∧
      RegistryInv { dx with pool := Function.update dx.pool p (some object') } held := by
  have hunit := hinv.objects p object hobject
  refine hinv.update hobject (fun _ => ⟨object', rfl, hguid, howner⟩) (fun object₁ h => ?_)
    (fun h => by cases h) (fun _ _ => rfl)
  cases h
  exact ⟨hunit.pos, by rw [hcount]; exact hunit.refCount, hqueue⟩

theorem RegistryOp.exec_agree (hinv : RegistryInv dx held) (hallowed : op.Allowed dx held)
    (hmem : ∀ params processId ioqMem, op ≠ .provision params processId none ioqMem) :
    ∃ dx' r, RegistryAgree dx held op dx' r := by
  cases op with
  | provision params processId unitMem ioqMem =>
      cases unitMem with
      | none => exact absurd rfl (hmem params processId ioqMem)
      | some p =>
          obtain ⟨hp, hfresh⟩ := hallowed p rfl
          cases ioqMem with
          | none =>
              exact ⟨dx, ⟨.insufficientResources, -1, none⟩, rfl, rfl, hinv, rfl,
                False.elim⟩
          | some mem =>
              obtain ⟨t, status, found, dx', hspec, hexec, hdx, rfl, hinv'⟩ :=
                spdStorageUnitProvision_agree hinv hp hfresh params processId mem
              refine ⟨dx', ⟨status, btlOf found, none⟩, ?_,
                ⟨found, hspec, rfl⟩, hinv', ?_,
                False.elim⟩
              · simp only [RegistryOp.exec, hexec, Option.map_some]
              · rw [hdx]
                cases found with
                | none => rfl
                | some i => exact List.length_set ..
  | unprovision key processId =>
      obtain ⟨t, status, found, dx', calls, hspec, hexec, rfl, hinv', hfailed, hdone⟩ :=
        spdStorageUnitUnprovision_agree hinv key processId
      refine ⟨dx', ⟨status, -1, found.map Entry.addr⟩, ?_, ⟨found, hspec, rfl⟩, hinv', ?_,
        False.elim⟩
      · simp only [RegistryOp.exec, hexec, Option.map_some]
      · obtain ⟨-, heq⟩ | ⟨i, e, hnames, -, heq⟩ | ⟨i, e, hnames, -, heq⟩ :=
          Registry.unprovision_cases hinv.guids key processId
        · rw [hspec, Prod.mk.injEq, Prod.mk.injEq] at heq
          rw [hfailed (by simp [heq.2.1])]
        · rw [hspec, Prod.mk.injEq, Prod.mk.injEq] at heq
          rw [hfailed (by simp [heq.2.1])]
        · rw [hspec, Prod.mk.injEq, Prod.mk.injEq] at heq
          rw [(hdone i e hnames heq.2.1).1]
          exact List.length_set ..
  | referenceByBtl btl =>
      obtain ⟨dx', hexec, hframe, htable, hinv'⟩ :=
        spdStorageUnitReferenceByBtl_agree hinv hallowed btl
      exact ⟨dx', ⟨.success, -1, dx.unitByBtl btl⟩,
        by simp only [RegistryOp.exec, hexec, Option.map_some], htable, hinv', by rw [hframe],
        fun _ => hframe⟩
  | referenceByDevice deviceObject =>
      obtain ⟨dx', found, hexec, hframe, htable, hinv'⟩ :=
        spdStorageUnitReferenceByDevice_agree hinv hallowed deviceObject
      exact ⟨dx', ⟨.success, -1, found⟩,
        by simp only [RegistryOp.exec, hexec, Option.map_some], htable, hinv', by rw [hframe],
        fun _ => hframe⟩
  | dereference p =>
      obtain ⟨dx', calls, hexec, hframe, htable, hinv'⟩ :=
        spdStorageUnitDereference_agree hinv hallowed
      exact ⟨dx', ⟨.success, -1, none⟩,
        by simp only [RegistryOp.exec, hexec, Option.map_some], htable, hinv', by rw [hframe],
        fun _ => hframe⟩
  | setDevice p deviceObject =>
      obtain ⟨object, hobject⟩ := hinv.object_of_held hallowed
      by_cases h0 : object.unit.deviceObject = 0
      · obtain ⟨htable, hinv'⟩ := hinv.set hobject
          { object with unit := { object.unit with deviceObject := deviceObject } }
          rfl rfl rfl (hinv.objects p object hobject).queue
        exact ⟨_, ⟨.success, -1, none⟩, by
          simp only [RegistryOp.exec, spdStorageUnitSetDevice,
          hobject, Option.bind_eq_bind, Option.bind_some, if_pos h0, Option.map_some], htable,
          hinv', rfl, fun _ => rfl⟩
      · exact ⟨dx, ⟨.objectNameCollision, -1, none⟩, by simp only [RegistryOp.exec,
          spdStorageUnitSetDevice, hobject, Option.bind_eq_bind, Option.bind_some, if_neg h0,
          Option.map_some], rfl, hinv, rfl, fun _ => rfl⟩
  | setTransactProcessId p processId =>
      obtain ⟨object, hobject⟩ := hinv.object_of_held hallowed
      obtain ⟨htable, hinv'⟩ := hinv.set hobject
        { object with unit := { object.unit with transactProcessId := processId } }
        rfl rfl rfl (hinv.objects p object hobject).queue
      exact ⟨_, ⟨.success, -1, none⟩, by simp only [RegistryOp.exec,
        spdIoctlSetTransactProcessIdStore, hobject, Option.bind_eq_bind, Option.bind_some,
        Option.map_some], htable, hinv', rfl, fun _ => rfl⟩
  | work p ioq =>
      obtain ⟨object, hobject⟩ := hinv.object_of_held hallowed.1
      obtain ⟨htable, hinv'⟩ := hinv.set hobject { object with ioq := ioq } rfl rfl rfl
        hallowed.2
      exact ⟨_, ⟨.success, -1, none⟩, by
        simp only [RegistryOp.exec, hobject, Option.map_some],
        htable, hinv', rfl, fun _ => rfl⟩

/-- A provision that gets no memory for the unit stops the machine. -/
theorem RegistryOp.exec_no_unit {params : StorageUnitParams} {processId : UInt32}
    {ioqMem : Option SpdIoq} :
      RegistryOp.exec dx (.provision params processId none ioqMem) = none := rfl

theorem RegistryInv.step (hinv : RegistryInv s.dx s.held) (h : RegistryStep s ev s') :
    RegistryInv s'.dx s'.held ∧ ev.op.Spec (table s.dx) ev.result (table s'.dx) ∧
      s'.dx.storageUnits.length = s.dx.storageUnits.length ∧
      (ev.op.KeepsArray → s'.dx = { s.dx with pool := s'.dx.pool }) := by
  obtain ⟨dx', r, hagree⟩ := RegistryOp.exec_agree hinv h.allowed fun params processId
    ioqMem heq => by
    have hexec := h.exec
    rw [heq, RegistryOp.exec_no_unit] at hexec
    cases hexec
  have hexec := hagree.exec
  rw [h.exec, Option.some.injEq, Prod.mk.injEq] at hexec
  obtain ⟨rfl, rfl⟩ := hexec
  refine ⟨?_, hagree.spec, hagree.length, hagree.frame⟩
  rw [h.held]
  exact hagree.inv

theorem registryInv_init (hcap : capacity.toNat ≤ 256) :
    RegistryInv (RegistrySys.init capacity).dx (RegistrySys.init capacity).held := by
  have htable : table (RegistrySys.init capacity).dx = Slots.empty capacity.toNat := by
    rw [table, slotsOf]
    show (List.replicate capacity.toNat 0).map _ = _
    rw [List.map_replicate, poolEntry_zero]
    rfl
  refine ⟨List.length_replicate, hcap, ?_, ?_, rfl, List.not_mem_nil, ?_, ?_⟩
  · rw [htable, Slots.occupied_empty]
    rfl
  · rw [htable]
    exact Slots.keysDistinct_empty _
  · intro p hp hpos
    have hcount : (List.replicate capacity.toNat (0 : Addr)).count p = 0 := by
      rw [List.count_eq_zero]
      exact fun hmem => hp (List.eq_of_mem_replicate hmem)
    have hpos' : 0 < (List.replicate capacity.toNat (0 : Addr)).count p + 0 := hpos
    omega
  · intro p object h
    cases h

theorem registryRun_inv (hcap : capacity.toNat ≤ 256)
    (hrun : Run RegistryStep (.init capacity) ls s) :
    RegistryInv s.dx s.held ∧ s.dx.storageUnits.length = capacity.toNat :=
  hrun.inv (I := fun s => RegistryInv s.dx s.held ∧ s.dx.storageUnits.length = capacity.toNat)
    ⟨registryInv_init hcap, List.length_replicate⟩ fun ⟨hinv, hlen⟩ h =>
      let ⟨hinv', _, hlen', _⟩ := hinv.step h
      ⟨hinv', hlen'.trans hlen⟩

/-! ## What the registry promises -/

/-- Slot `i` holds the unit at `p`. -/
structure InSlot (dx : SpdDeviceExtension) (i : Nat) (p : Addr) (object : UnitObject) : Prop where
  slot : dx.storageUnits[i]? = some p
  ne : p ≠ 0
  unit : dx.pool p = some object

def HasGuid (dx : SpdDeviceExtension) (guid : Guid) : Prop :=
  ∃ i p object, InSlot dx i p object ∧ object.unit.storageUnitParams.guid = guid

/-- The key names the unit of slot `i`. -/
def Named (dx : SpdDeviceExtension) (key : UnitKey) (i : Nat) (p : Addr) (object : UnitObject) :
    Prop :=
  InSlot dx i p object ∧
    match key with
    | .guid guid => object.unit.storageUnitParams.guid = guid
    | .index index => i = index.toNat

/-- The device extension in every reachable state. -/
structure RegistryOk (capacity : UInt32) (dx : SpdDeviceExtension) : Prop where
  capacity_eq : dx.storageUnitCapacity = capacity
  slots : dx.storageUnits.length = capacity.toNat
  units : ∀ p ∈ dx.storageUnits, p ≠ 0 → ∃ object, dx.pool p = some object
  count : dx.storageUnitCount.toNat = dx.storageUnits.countP (· ≠ 0)
  count_le : dx.storageUnitCount.toNat ≤ dx.storageUnitCapacity.toNat
  guids : ∀ i j p p' object object', InSlot dx i p object → InSlot dx j p' object' →
    object.unit.storageUnitParams.guid = object'.unit.storageUnitParams.guid → i = j

/-- A provision that got its memory. -/
structure ProvisionOk (dx : SpdDeviceExtension) (params : StorageUnitParams) (processId : UInt32)
    (p : Addr) (mem : SpdIoq) (dx' : SpdDeviceExtension) (r : RegistryResult) : Prop where
  outcome : r.status = .success ∨ r.status = .objectNameCollision ∨ r.status = .cannotMake
  /-- The unit is in the lowest slot that was free, whose BTL is the answer. -/
  success : r.status = .success → ∃ i, r.btl = spdBtlFromIndex (UInt32.ofNat i) ∧
    dx.storageUnits[i]? = some 0 ∧
    (∀ j < i, ∃ x, dx.storageUnits[j]? = some x ∧ x ≠ 0) ∧
    dx' = fillSlot dx i p ⟨newStorageUnit params processId, spdIoqCreate mem⟩
  collision : r.status = .objectNameCollision ↔ HasGuid dx params.guid
  cannotMake : r.status = .cannotMake ↔
    ¬ HasGuid dx params.guid ∧ ∀ x ∈ dx.storageUnits, x ≠ 0
  failed : r.status ≠ .success → dx' = dx

/-- An unprovision takes out the unit that is named if the caller owns it. -/
structure UnprovisionOk (dx : SpdDeviceExtension) (key : UnitKey) (processId : UInt32)
    (dx' : SpdDeviceExtension) (r : RegistryResult) : Prop where
  owned : ∀ i p object, Named dx key i p object → object.unit.ownerProcessId = processId →
    r.status = .success ∧ dx'.storageUnits = dx.storageUnits.set i 0 ∧
      dx'.storageUnitCount.toNat + 1 = dx.storageUnitCount.toNat
  otherwise :
    (∀ i p object, Named dx key i p object → object.unit.ownerProcessId ≠ processId) →
    r.status ≠ .success ∧ dx' = dx

theorem content_iff_inSlot {i : Nat} {e : Entry} : (table dx).content i = some e ↔
    ∃ p object, InSlot dx i p object ∧
      e = ⟨p, object.unit.storageUnitParams.guid, object.unit.ownerProcessId⟩ := by
  rw [content_table]
  constructor
  · rintro ⟨p, object, hslot, hp, hobject, rfl⟩
    exact ⟨p, object, ⟨hslot, hp, hobject⟩, rfl⟩
  · rintro ⟨p, object, hin, rfl⟩
    exact ⟨p, object, hin.slot, hin.ne, hin.unit, rfl⟩

theorem hasGuid_iff {guid : Guid} :
    HasGuid dx guid ↔ ∃ i e, (table dx).content i = some e ∧ e.guid = guid := by
  constructor
  · rintro ⟨i, p, object, hin, rfl⟩
    exact ⟨i, _, content_iff_inSlot.mpr ⟨p, object, hin, rfl⟩, rfl⟩
  · rintro ⟨i, e, he, rfl⟩
    obtain ⟨p, object, hin, rfl⟩ := content_iff_inSlot.mp he
    exact ⟨i, p, object, hin, rfl⟩

theorem RegistryInv.occupied (hinv : RegistryInv dx held) :
    (table dx).occupied = dx.storageUnits.countP (· ≠ 0) := by
  rw [Slots.occupied, table, slotsOf, List.countP_map]
  refine List.countP_congr fun p hp => ?_
  simp only [Function.comp_apply, decide_eq_true_eq]
  constructor
  · rintro hsome rfl
    cases hsome
  · intro h0
    obtain ⟨object, hobject⟩ := hinv.exists_object h0 hp
    rw [poolEntry, if_neg h0, hobject]
    rfl

theorem RegistryInv.ok (hinv : RegistryInv dx held)
    (hlen : dx.storageUnits.length = capacity.toNat) :
    RegistryOk capacity dx := by
  have hcount := hinv.count
  have hle := Slots.occupied_le_length (t := table dx)
  rw [table_length, hinv.length] at hle
  refine ⟨UInt32.toNat_inj.mp (hinv.length.symm.trans hlen), hlen,
    fun p hp h0 => hinv.exists_object h0 hp, by rw [hcount, hinv.occupied], by omega, ?_⟩
  intro i j p p' object object' hi hj heq
  exact hinv.guids i j _ _ (content_iff_inSlot.mpr ⟨p, object, hi, rfl⟩)
    (content_iff_inSlot.mpr ⟨p', object', hj, rfl⟩) heq

theorem provisionOk (hinv : RegistryInv dx held) {params : StorageUnitParams} {processId : UInt32}
    {mem : SpdIoq} (hp : p ≠ 0) (hfresh : dx.pool p = none)
    (hexec : RegistryOp.exec dx (.provision params processId (some p) (some mem)) = some (dx', r)) :
    ProvisionOk dx params processId p mem dx' r := by
  obtain ⟨t, status, found, dx₁, hspec, hprovision, hdx, -, -⟩ :=
    spdStorageUnitProvision_agree hinv hp hfresh params processId mem
  simp only [RegistryOp.exec, hprovision, Option.map_some, Option.some.injEq,
    Prod.mk.injEq] at hexec
  obtain ⟨rfl, rfl⟩ := hexec
  have hguid : HasGuid dx params.guid ↔ _ := hasGuid_iff
  obtain ⟨hdup, heq⟩ | ⟨hnew, hfull, heq⟩ | ⟨i, hnew, hfree, heq⟩ :=
    Registry.provision_cases (table dx) ⟨p, params.guid, processId⟩
  · rw [hspec, Prod.mk.injEq, Prod.mk.injEq] at heq
    obtain ⟨-, rfl, rfl⟩ := heq
    have hhas : HasGuid dx params.guid := hguid.mpr hdup
    exact ⟨.inr (.inl rfl), fun h => (by cases h), iff_of_true rfl hhas,
      iff_of_false (by simp) fun h => h.1 hhas, fun _ => hdx⟩
  · rw [hspec, Prod.mk.injEq, Prod.mk.injEq] at heq
    obtain ⟨-, rfl, rfl⟩ := heq
    have hhas : ¬ HasGuid dx params.guid := fun h =>
      let ⟨i, e, he, hg⟩ := hguid.mp h
      hnew i e he hg
    refine ⟨.inr (.inr rfl), fun h => (by cases h), iff_of_false (by simp) hhas,
      iff_of_true rfl ⟨hhas, fun x hx h0 => ?_⟩, fun _ => hdx⟩
    obtain ⟨j, hj, rfl⟩ := List.mem_iff_getElem.mp hx
    obtain ⟨e, he⟩ := Slots.lowestFree_eq_none.mp hfull j (by rwa [table_length])
    have hslot := hinv.free_iff.mpr ((List.getElem?_eq_getElem hj).trans (congrArg some h0))
    rw [Slots.content, hslot] at he
    cases he
  · rw [hspec, Prod.mk.injEq, Prod.mk.injEq] at heq
    obtain ⟨-, rfl, rfl⟩ := heq
    have hhas : ¬ HasGuid dx params.guid := fun h =>
      let ⟨i, e, he, hg⟩ := hguid.mp h
      hnew i e he hg
    obtain ⟨hslot, hbefore⟩ := Slots.lowestFree_eq_some.mp hfree
    have hslot0 := hinv.free_iff.mp hslot
    refine ⟨.inl rfl, fun _ => ⟨i, rfl, hslot0, fun j hj => ?_, hdx⟩,
      iff_of_false (by simp) hhas,
      iff_of_false (by simp) fun h => h.2 0 (List.mem_of_getElem? hslot0) rfl,
      fun h => absurd rfl h⟩
    obtain ⟨e, he⟩ := hbefore j hj
    obtain ⟨x, object, hin, -⟩ := content_iff_inSlot.mp he
    exact ⟨x, hin.slot, hin.ne⟩

theorem names_iff {key : UnitKey} {i : Nat} {e : Entry} : (table dx).Names key i e ↔
    ∃ p object, Named dx key i p object ∧
      e = ⟨p, object.unit.storageUnitParams.guid, object.unit.ownerProcessId⟩ := by
  unfold Registry.Names Named
  rw [content_iff_inSlot]
  constructor
  · rintro ⟨⟨p, object, hin, rfl⟩, hkey⟩
    exact ⟨p, object, ⟨hin, hkey⟩, rfl⟩
  · rintro ⟨p, object, ⟨hin, hkey⟩, rfl⟩
    exact ⟨⟨p, object, hin, rfl⟩, hkey⟩

theorem unprovisionOk (hinv : RegistryInv dx held) {key : UnitKey} {processId : UInt32}
    (hexec : RegistryOp.exec dx (.unprovision key processId) = some (dx', r)) :
    UnprovisionOk dx key processId dx' r := by
  obtain ⟨t, status, found, dx₁, calls, hspec, hunprovision, -, -, hfailed, hdone⟩ :=
    spdStorageUnitUnprovision_agree hinv key processId
  simp only [RegistryOp.exec, hunprovision, Option.map_some, Option.some.injEq,
    Prod.mk.injEq] at hexec
  obtain ⟨rfl, rfl⟩ := hexec
  obtain ⟨hno, heq⟩ | ⟨i, e, hnames, howner, heq⟩ | ⟨i, e, hnames, howner, heq⟩ :=
    Registry.unprovision_cases hinv.guids key processId
  · rw [hspec, Prod.mk.injEq, Prod.mk.injEq] at heq
    obtain ⟨-, rfl, -⟩ := heq
    refine ⟨fun i p object hnamed _ => ?_, fun _ => ⟨by simp, hfailed (by simp)⟩⟩
    exact absurd (names_iff.mpr ⟨p, object, hnamed, rfl⟩) (hno i _)
  · rw [hspec, Prod.mk.injEq, Prod.mk.injEq] at heq
    obtain ⟨-, rfl, -⟩ := heq
    refine ⟨fun j p object hnamed hown => ?_, fun _ => ⟨by simp, hfailed (by simp)⟩⟩
    have hnames' := names_iff.mpr ⟨p, object, hnamed, rfl⟩
    obtain rfl := hnames.unique hinv.guids hnames'
    have hcontent := hnames.1.symm.trans hnames'.1
    rw [Option.some.injEq] at hcontent
    rw [hcontent] at howner
    exact absurd hown howner
  · rw [hspec, Prod.mk.injEq, Prod.mk.injEq] at heq
    obtain ⟨-, rfl, -⟩ := heq
    obtain ⟨hunits, hcount⟩ := hdone i e hnames rfl
    refine ⟨fun j p object hnamed _ => ⟨rfl, ?_, ?_⟩, fun hno => ?_⟩
    · obtain rfl := hnames.unique hinv.guids (names_iff.mpr ⟨p, object, hnamed, rfl⟩)
      exact hunits
    · have hclear := Slots.occupied_clear hnames.1
      have hinvcount := hinv.count
      have hone : (1 : UInt32).toNat = 1 := rfl
      rw [hcount]
      show (dx.storageUnitCount - 1).toNat + 1 = _
      rw [UInt32.toNat_sub_of_le _ _ (by rw [UInt32.le_iff_toNat_le]; omega)]
      omega
    · obtain ⟨p, object, hnamed, rfl⟩ := names_iff.mp hnames
      exact absurd howner (hno i p object hnamed)

/-- What holds in every state, and of every step from it. -/
structure RegistryPromise (capacity : UInt32) (s : RegistrySys) : Prop where
  ok : RegistryOk capacity s.dx
  provision : ∀ ev s' params processId p mem, RegistryStep s ev s' →
    ev.op = .provision params processId (some p) (some mem) →
    ProvisionOk s.dx params processId p mem s'.dx ev.result
  /-- Without memory for its queue no unit is provisioned. -/
  noMemory : ∀ ev s' params processId unitMem, RegistryStep s ev s' →
    ev.op = .provision params processId unitMem none →
    ev.result.status = .insufficientResources ∧ s'.dx = s.dx
  unprovision : ∀ ev s' key processId, RegistryStep s ev s' →
    ev.op = .unprovision key processId →
    UnprovisionOk s.dx key processId s'.dx ev.result
  /-- Nothing else touches the array or the count. -/
  others : ∀ ev s', RegistryStep s ev s' → ev.op.KeepsArray →
    s'.dx.storageUnits = s.dx.storageUnits ∧ s'.dx.storageUnitCount = s.dx.storageUnitCount
  /-- Every operation goes through. -/
  served : ∀ op : RegistryOp, op.Allowed s.dx s.held →
    (∀ params processId ioqMem, op ≠ .provision params processId none ioqMem) →
    ∃ ev s', ev.op = op ∧ RegistryStep s ev s'

/-- In every reachable state no two units have one GUID. A provision takes the lowest free
slot, an unprovision frees what its caller owns, and what fails changes nothing. -/
theorem spdStorageUnit_registry (hcap : capacity.toNat ≤ 256)
    (hrun : Run RegistryStep (.init capacity) ls s) : RegistryPromise capacity s := by
  obtain ⟨hinv, hlen⟩ := registryRun_inv hcap hrun
  refine ⟨hinv.ok hlen, ?_, ?_, ?_, ?_, ?_⟩
  · intro ev s' params processId p mem h hop
    have hallowed := h.allowed
    have hexec := h.exec
    rw [hop] at hallowed hexec
    obtain ⟨hp, hfresh⟩ := hallowed p rfl
    exact provisionOk hinv hp hfresh hexec
  · intro ev s' params processId unitMem h hop
    have hexec := h.exec
    rw [hop] at hexec
    cases unitMem with
    | none => cases hexec
    | some p =>
        have heq : some (s.dx, (⟨.insufficientResources, -1, none⟩ : RegistryResult)) =
            some (s'.dx, ev.result) := hexec
        rw [Option.some.injEq, Prod.mk.injEq] at heq
        rw [← heq.1, ← heq.2]
        exact ⟨rfl, rfl⟩
  · intro ev s' key processId h hop
    have hexec := h.exec
    rw [hop] at hexec
    exact unprovisionOk hinv hexec
  · intro ev s' h hkeeps
    obtain ⟨-, -, -, hframe⟩ := hinv.step h
    rw [hframe hkeeps]
    exact ⟨rfl, rfl⟩
  · intro op hallowed hmem
    obtain ⟨dx', r, hagree⟩ := RegistryOp.exec_agree hinv hallowed hmem
    exact ⟨⟨op, r⟩, ⟨dx', op.held s.held r.unit⟩, rfl, hallowed, hagree.exec, rfl⟩

/-- `DriverEntry` never sets more slots than a BTL can name. -/
theorem spdStorageUnitCapacity_le (value : Option UInt32) :
    (spdStorageUnitCapacity value).toNat ≤ 256 := by
  have hmin : spdIoctlStorageUnitCapacity.toNat ≤ 256 := by decide
  have hmax : spdIoctlStorageUnitMaxCapacity.toNat ≤ 256 := by decide
  unfold spdStorageUnitCapacity
  split
  · exact hmin
  · split
    · next h =>
        have hle := UInt32.le_iff_toNat_le.mp h.2
        omega
    · exact hmin

/-- One unit, provisioned in a driver that was not configured. -/
theorem spdStorageUnit_registry_provision :
    ∃ ev s, Run RegistryStep (.init (spdStorageUnitCapacity none)) [ev] s ∧
      ev.op = .provision sampleUnit 7 (some 0x5000) (some zeroedIoq) ∧
      ev.result = ⟨.success, 0, none⟩ ∧ RegistryPromise (spdStorageUnitCapacity none) s := by
  obtain ⟨dx, hexec⟩ :
      ∃ dx, RegistryOp.exec (RegistrySys.init (spdStorageUnitCapacity none)).dx
      (.provision sampleUnit 7 (some 0x5000) (some zeroedIoq)) =
        some (dx, ⟨.success, 0, none⟩) := ⟨_, rfl⟩
  have hstep : RegistryStep (.init (spdStorageUnitCapacity none))
      ⟨.provision sampleUnit 7 (some 0x5000) (some zeroedIoq), ⟨.success, 0, none⟩⟩
        ⟨dx, []⟩ := by
    refine ⟨fun p hp => ?_, hexec, rfl⟩
    cases hp
    exact ⟨by decide, rfl⟩
  exact ⟨_, _, .single hstep, rfl, rfl,
    spdStorageUnit_registry (spdStorageUnitCapacity_le none) (.single hstep)⟩

end Winspd.Proofs
