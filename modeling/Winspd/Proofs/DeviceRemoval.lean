import Winspd.Proofs.ProcessExit
import Winspd.Sys.Dispatch

/-!
# Device removal

`SpdDispatchPnp` finds the unit of a device that is removed by the device, but
takes it out by its GUID and its owner, after StorPort has been called. In the
meantime the owner may have unprovisioned the unit and provisioned another one
with the same GUID.

A unit is its address and its generation, the number of units provisioned at
that address so far. `began` keeps the registry as it was when the removal
began. The removal takes out no unit but one that was associated with the
device then, as long as its owner does not provision the GUID again before the
removal is through (`spdDispatchPnp_removes`); if it does, the removal can go on
to take out the new unit (`RemoveInv.reprovisioned`).
-/

namespace Winspd.Proofs

open Winspd.Lib Winspd.Sys Winspd.Spec

variable {dx dx' : SpdDeviceExtension} {held : List Addr} {deviceObject p : Addr}
  {capacity processId provisionPid : UInt32} {guid provisionGuid : Guid}

/-! ## The system -/

def removeHeld : RemoveDevice → List Addr
  | .found p _ _ | .release p => [p]
  | _ => []

/-- The GUID and the owner the removal is going to unprovision. -/
def removeNames : RemoveDevice → Option (Guid × UInt32)
  | .found _ guid processId | .calling guid processId | .called guid processId =>
      if processId = -1 then none else some (guid, processId)
  | _ => none

/-- The registry, the references all others hold, the generations of the units,
the removal, and the registry when it began. -/
structure RemoveSys where
  dx : SpdDeviceExtension
  held : List Addr
  generation : Addr → Nat
  removal : RemoveDevice
  began : Option (SpdDeviceExtension × (Addr → Nat))

def RemoveSys.registry (s : RemoveSys) : RegistrySys := ⟨s.dx, s.held ++ removeHeld s.removal⟩

def RegistryEvent.made (ev : RegistryEvent) : List Addr :=
  match ev.op with
  | .provision _ _ (some p) (some _) => if ev.result.status = .success then [p] else []
  | _ => []

inductive RemoveEvent
  | other (ev : RegistryEvent)
  | removal

/-- The device is removed, and everybody else goes on. -/
inductive RemoveStep (deviceObject : Addr) : RemoveSys → RemoveEvent → RemoveSys → Prop
  | other {s s' : RemoveSys} {ev : RegistryEvent}
      (step : RegistryStep s.registry ev s'.registry)
      (own : ∀ p, ev.op = .dereference p → p ∈ s.held)
      (generation : s'.generation = fun p => s.generation p + ev.made.count p)
      (removal : s'.removal = s.removal)
      (began : s'.began = s.began) : RemoveStep deviceObject s (.other ev) s'
  | removal {s s' : RemoveSys}
      (exec : spdDispatchPnpRemove s.dx deviceObject s.removal = some (s'.dx, s'.removal))
      (room : s.held.length + 2 < 2 ^ 32)
      (held : s'.held = s.held)
      (generation : s'.generation = s.generation)
      (began : s'.began =
        match s.removal with
        | .entered => some (s.dx, s.generation)
        | _ => s.began) : RemoveStep deviceObject s .removal s'

variable {s s' : RemoveSys} {ev : RemoveEvent} {ls : List RemoveEvent}

/-! ## What is asked of a removal -/

/-- The unit at `p` is registered, and it is the device's. -/
def Associated (deviceObject : Addr) (dx : SpdDeviceExtension) (p : Addr) : Prop :=
  ∃ i object, InSlot dx i p object ∧ object.unit.deviceObject = deviceObject

/-- The unit at `p` is one that was associated with the device when the removal
began. -/
def Target (deviceObject : Addr) (s : RemoveSys) (p : Addr) : Prop :=
  ∃ dx₀ generation₀, s.began = some (dx₀, generation₀) ∧
    Associated deviceObject dx₀ p ∧
    s.generation p = generation₀ p

/-- A unit is taken out of its slot, and it is the right one. -/
def RemovesTarget (deviceObject : Addr) (s s' : RemoveSys) : Prop :=
  ∃ i p object, InSlot s.dx i p object ∧ s'.dx.storageUnits = s.dx.storageUnits.set i 0 ∧
    Target deviceObject s p

def RemovalOk (deviceObject : Addr) (s s' : RemoveSys) : Prop :=
  RemovesTarget deviceObject s s' ∨ s'.dx.storageUnits = s.dx.storageUnits

/-! ## What the code needs -/

def ProvisionRefused (dx : SpdDeviceExtension) (params : StorageUnitParams)
    (ioqMem : Option SpdIoq) : Prop :=
  HasGuid dx params.guid ∨ (∀ x ∈ dx.storageUnits, x ≠ 0) ∨ ioqMem = none

/-- The owner of a unit that is being removed does not provision its GUID. -/
def ReprovisionOk (s : RemoveSys) : RemoveEvent → Prop
  | .other ev => ∀ params processId unitMem ioqMem,
      ev.op = .provision params processId unitMem ioqMem →
      removeNames s.removal = some (params.guid, processId) →
      ProvisionRefused s.dx params ioqMem
  | .removal => True

structure CheckedRemoveStep (deviceObject : Addr) (s : RemoveSys) (ev : RemoveEvent)
    (s' : RemoveSys) : Prop where
  step : RemoveStep deviceObject s ev s'
  ok : ReprovisionOk s ev

theorem provision_not_refused (hinv : RegistryInv dx held) {params : StorageUnitParams}
    {mem : SpdIoq} {r : RegistryResult} (hp : p ≠ 0) (hfresh : dx.pool p = none)
    (hexec : RegistryOp.exec dx (.provision params processId (some p) (some mem)) =
      some (dx', r)) (hst : r.status = .success) : ¬ ProvisionRefused dx params (some mem) := by
  have hok := provisionOk hinv hp hfresh hexec
  rintro (hguid | hfull | hnone)
  · have hcollision := hok.collision.mpr hguid
    rw [hst] at hcollision
    cases hcollision
  · obtain ⟨i, -, hslot, -⟩ := hok.success hst
    exact hfull 0 (List.mem_of_getElem? hslot) rfl
  · cases hnone

/-! ## The lookup -/

theorem findUnit_holds {pool : Addr → Option UnitObject} {P : SpdStorageUnit → Bool}
    {ps : List Addr} {k j : Nat} (h : findUnit pool P k ps = some (some (j, p))) :
    p ∈ ps ∧ p ≠ 0 ∧ ∃ object, pool p = some object ∧ P object.unit = true := by
  induction ps generalizing k with
  | nil => cases h
  | cons x ps ih =>
      rw [findUnit] at h
      by_cases h0 : x = 0
      · rw [if_pos h0] at h
        obtain ⟨hmem, hrest⟩ := ih h
        exact ⟨List.mem_cons_of_mem _ hmem, hrest⟩
      · rw [if_neg h0] at h
        cases hobject : pool x with
        | none =>
            rw [hobject] at h
            cases h
        | some object =>
            rw [hobject] at h
            simp only at h
            split at h
            · next hP =>
                cases h
                exact ⟨List.mem_cons_self, h0, object, hobject, hP⟩
            · obtain ⟨hmem, hrest⟩ := ih h
              exact ⟨List.mem_cons_of_mem _ hmem, hrest⟩

theorem referenceByDevice_associated
    (h : spdStorageUnitReferenceByDevice dx deviceObject = some (dx', some p)) :
    Associated deviceObject dx p := by
  rw [spdStorageUnitReferenceByDevice, Option.bind_eq_bind, Option.bind_eq_some_iff] at h
  obtain ⟨found, hfound, h⟩ := h
  cases found with
  | none => cases h
  | some r =>
      obtain ⟨j, x⟩ := r
      simp only [Option.map_eq_some_iff, Prod.mk.injEq, Option.some.injEq] at h
      obtain ⟨_, -, -, rfl⟩ := h
      obtain ⟨hmem, hne, object, hobject, hP⟩ := findUnit_holds hfound
      obtain ⟨i, hi, hslot⟩ := List.mem_iff_getElem.mp hmem
      refine ⟨i, object, ⟨?_, hne, hobject⟩, ?_⟩
      · rw [← hslot]
        exact List.getElem?_eq_getElem hi
      · exact (of_decide_eq_true hP).symm

/-! ## Steps -/

structure RemoveInv (s : RemoveSys) : Prop where
  inv : RegistryInv s.dx s.registry.held
  past : ∀ dx₀ generation₀, s.began = some (dx₀, generation₀) →
    ∀ p, generation₀ p ≤ s.generation p

/-- Every unit that the removal would take out is one it may take out. -/
def NamesTarget (deviceObject : Addr) (s : RemoveSys) : Prop :=
  ∀ guid processId, removeNames s.removal = some (guid, processId) →
    ∀ i e, (table s.dx).content i = some e → e.guid = guid → e.ownerProcessId = processId →
      Target deviceObject s e.addr

theorem perm_head_last (held : List Addr) (p : Addr) : (held ++ [p]).Perm ([p] ++ held) :=
  List.perm_append_comm

theorem perm_erase_last (held : List Addr) (p : Addr) :
    (held ++ []).Perm ((held ++ [p]).erase p) := by
  have herase := (perm_head_last held p).symm.erase p
  rw [List.singleton_append, List.erase_cons_head] at herase
  rwa [List.append_nil]

theorem dereference_removal (hinv : RegistryInv dx (held ++ [p])) :
    ∃ dx' calls, spdStorageUnitDereference dx p = some (dx', calls) ∧
      dx' = { dx with pool := dx'.pool } ∧ table dx' = table dx ∧
      RegistryInv dx' (held ++ []) := by
  obtain ⟨dx', calls, hexec, hframe, htable, hinv'⟩ :=
    spdStorageUnitDereference_agree hinv (List.mem_append_right _ (List.mem_singleton_self p))
  exact ⟨dx', calls, hexec, hframe, htable, hinv'.perm (perm_erase_last held p)⟩

/-- What a step of the removal does to the registry and to its names. -/
inductive RemovalCase (deviceObject : Addr) (s : RemoveSys) (dx' : SpdDeviceExtension)
    (removal' : RemoveDevice) : Prop
  /-- The unit was found, and its names were copied. -/
  | found {i : Nat} {e : Entry} (entered : s.removal = .entered)
      (table_eq : table dx' = table s.dx) (units : dx'.storageUnits = s.dx.storageUnits)
      (content : (table s.dx).content i = some e)
      (associated : Associated deviceObject s.dx e.addr)
      (names : removal' = .found e.addr e.guid e.ownerProcessId)
  /-- Nothing happened to the table. -/
  | kept (table_eq : table dx' = table s.dx) (units : dx'.storageUnits = s.dx.storageUnits)
      (names : ∀ n, removeNames removal' = some n → removeNames s.removal = some n)
  /-- The unit with the names was taken out. -/
  | taken {i : Nat} {e : Entry} {guid : Guid} {processId : UInt32}
      (called : s.removal = .called guid processId)
      (names : removeNames s.removal = some (guid, processId))
      (content : (table s.dx).content i = some e) (hguid : e.guid = guid)
      (howner : e.ownerProcessId = processId)
      (units : dx'.storageUnits = s.dx.storageUnits.set i 0)
      (gone : removeNames removal' = none)

theorem removal_cases (deviceObject : Addr) (hinv : RegistryInv s.dx s.registry.held)
    (hroom : s.held.length + 2 < 2 ^ 32) (hreturned : s.removal ≠ .returned) :
    ∃ dx' removal', spdDispatchPnpRemove s.dx deviceObject s.removal = some (dx', removal') ∧
      RegistryInv dx' (s.held ++ removeHeld removal') ∧
      RemovalCase deviceObject s dx' removal' := by
  obtain ⟨dx, held, generation, removal, began⟩ := s
  simp only [RemoveSys.registry] at hinv hroom hreturned
  cases removal with
  | returned => exact absurd rfl hreturned
  | entered =>
      have hinv₀ : RegistryInv dx held := hinv.perm (List.Perm.of_eq (List.append_nil held).symm)
      obtain ⟨dx', found, hexec, hframe, htable, hinv'⟩ :=
        spdStorageUnitReferenceByDevice_agree hinv₀ hroom deviceObject
      have hunits : dx'.storageUnits = dx.storageUnits := by rw [hframe]
      cases found with
      | none =>
          refine ⟨dx', .calling nullGuid (-1), ?_, ?_, .kept htable hunits fun n hn => ?_⟩
          · simp only [spdDispatchPnpRemove, hexec, Option.bind_eq_bind, Option.bind_some]
          · exact hinv'.perm (List.Perm.of_eq (List.append_nil held))
          · rw [removeNames, if_pos rfl] at hn
            cases hn
      | some p =>
          obtain ⟨i, object₀, hin, hdevice⟩ := referenceByDevice_associated hexec
          have hcontent := content_iff_inSlot.mpr ⟨p, object₀, hin, rfl⟩
          -- the names are copied from the unit with the new reference
          obtain ⟨p', object, hin', heq⟩ := content_iff_inSlot.mp (htable ▸ hcontent)
          obtain rfl : p = p' := congrArg Entry.addr heq
          refine ⟨dx', _, ?_, ?_, .found rfl htable hunits hcontent
            ⟨i, object₀, hin, hdevice⟩ rfl⟩
          · simp only [spdDispatchPnpRemove, hexec, hin'.unit, Option.bind_eq_bind,
              Option.bind_some, Option.some.injEq, Prod.mk.injEq, RemoveDevice.found.injEq,
              true_and]
            exact ⟨(congrArg Entry.guid heq).symm, (congrArg Entry.ownerProcessId heq).symm⟩
          · exact hinv'.perm (perm_head_last held p)
  | found p guid processId =>
      obtain ⟨dx', calls, hexec, hframe, htable, hinv'⟩ := dereference_removal hinv
      refine ⟨dx', .calling guid processId, ?_, hinv', .kept htable (by rw [hframe])
        fun n hn => hn⟩
      simp only [spdDispatchPnpRemove, hexec, Option.map_some]
  | calling guid processId =>
      exact ⟨dx, .called guid processId, rfl, hinv, .kept rfl rfl fun n hn => hn⟩
  | called guid processId =>
      by_cases hnone : processId = -1
      · refine ⟨dx, .returned, ?_, hinv, .kept rfl rfl fun n hn => by cases hn⟩
        rw [spdDispatchPnpRemove, if_pos hnone]
      · have hinv₀ : RegistryInv dx held :=
          hinv.perm (List.Perm.of_eq (List.append_nil held).symm)
        obtain ⟨t, status, found, dx', calls, hspec, hexec, -, hinv', hfailed, hdone⟩ :=
          spdStorageUnitUnprovision_agree hinv₀ (.guid guid) processId
        have hrefused : ∀ {status'}, status' ≠ .success →
            (table dx).unprovision (.guid guid) processId = (table dx, status', none) →
            ∃ dx' removal', spdDispatchPnpRemove dx deviceObject (.called guid processId) =
              some (dx', removal') ∧ RegistryInv dx' (held ++ removeHeld removal') ∧
              RemovalCase deviceObject ⟨dx, held, generation, .called guid processId, began⟩ dx'
                removal' := by
          intro status' hne heq
          rw [hspec, Prod.mk.injEq, Prod.mk.injEq] at heq
          obtain ⟨-, rfl, rfl⟩ := heq
          obtain rfl := hfailed hne
          refine ⟨dx', .returned, ?_, hinv, .kept rfl rfl fun n hn => by cases hn⟩
          simp only [spdDispatchPnpRemove, if_neg hnone, hexec, Option.bind_eq_bind,
            Option.bind_some, Option.map_none]
        obtain ⟨-, heq⟩ | ⟨i, e, -, -, heq⟩ | ⟨i, e, hnames, howner, heq⟩ :=
          Registry.unprovision_cases hinv₀.guids (.guid guid) processId
        · exact hrefused (by simp) heq
        · exact hrefused (by simp) heq
        · rw [hspec, Prod.mk.injEq, Prod.mk.injEq] at heq
          obtain ⟨-, rfl, rfl⟩ := heq
          obtain ⟨hunits, -⟩ := hdone i e hnames rfl
          refine ⟨dx', .release e.addr, ?_, hinv'.perm (perm_head_last held e.addr),
            .taken rfl (if_neg hnone) hnames.1 hnames.2 howner hunits rfl⟩
          simp only [spdDispatchPnpRemove, if_neg hnone, hexec, Option.bind_eq_bind,
            Option.bind_some, Option.map_some]
  | release p =>
      obtain ⟨dx', calls, hexec, hframe, htable, hinv'⟩ := dereference_removal hinv
      refine ⟨dx', .returned, ?_, hinv', .kept htable (by rw [hframe]) fun n hn => by cases hn⟩
      simp only [spdDispatchPnpRemove, hexec, Option.map_some]

theorem removal_of_exec {dx' : SpdDeviceExtension} {removal' : RemoveDevice}
    (hinv : RegistryInv s.dx s.registry.held) (hroom : s.held.length + 2 < 2 ^ 32)
    (hexec : spdDispatchPnpRemove s.dx deviceObject s.removal = some (dx', removal')) :
    RegistryInv dx' (s.held ++ removeHeld removal') ∧
    RemovalCase deviceObject s dx' removal' := by
  have hreturned : s.removal ≠ .returned := by
    intro hreturned
    rw [hreturned] at hexec
    cases hexec
  obtain ⟨dx₁, removal₁, hexec₁, hinv₁, hcase⟩ :=
    removal_cases deviceObject hinv hroom hreturned
  rw [hexec, Option.some.injEq, Prod.mk.injEq] at hexec₁
  obtain ⟨rfl, rfl⟩ := hexec₁
  exact ⟨hinv₁, hcase⟩

/-! ## Runs -/

theorem RemoveStep.base (hinv : RemoveInv s) (h : RemoveStep deviceObject s ev s') :
    RemoveInv s' := by
  cases h with
  | other step own generation removal began =>
      refine ⟨(hinv.inv.step step).1, fun dx₀ generation₀ hbegan p => ?_⟩
      rw [began] at hbegan
      rw [generation]
      exact (hinv.past dx₀ generation₀ hbegan p).trans (Nat.le_add_right _ _)
  | removal exec room held generation began =>
      obtain ⟨hinv', -⟩ := removal_of_exec hinv.inv room exec
      refine ⟨by rwa [RemoveSys.registry, held], fun dx₀ generation₀ hbegan p => ?_⟩
      rw [began] at hbegan
      rw [generation]
      split at hbegan
      · cases hbegan
        exact Nat.le_refl _
      · exact hinv.past dx₀ generation₀ hbegan p

theorem made_notMem {ev : RegistryEvent} (h : RegistryStep s.registry ev s'.registry)
    (hp : s.dx.pool p ≠ none) : p ∉ ev.made := by
  intro hmem
  have hallowed := h.allowed
  unfold RegistryEvent.made at hmem
  split at hmem
  · next x mem hop =>
      split at hmem
      · rw [List.mem_singleton] at hmem
        rw [hop] at hallowed
        exact hp (by rw [hmem]; exact (hallowed x rfl).2)
      · cases hmem
  · cases hmem

theorem NamesTarget.step (hinv : RemoveInv s) (htarget : NamesTarget deviceObject s)
    (h : CheckedRemoveStep deviceObject s ev s') : NamesTarget deviceObject s' := by
  obtain ⟨h, hok⟩ := h
  intro guid processId hnames i e he hguid howner
  cases h with
  | other step own generation removal began =>
      rw [removal] at hnames
      obtain ⟨-, hspec, -, -⟩ := hinv.inv.step step
      obtain hbefore | ⟨params, owner, p, mem, hop, hst, rfl⟩ := hspec.content hinv.inv.guids he
      · obtain ⟨dx₀, generation₀, hbegan, hassociated, hgeneration⟩ :=
          htarget guid processId hnames i e hbefore hguid howner
        obtain ⟨p, object, hin, rfl⟩ := content_iff_inSlot.mp hbefore
        refine ⟨dx₀, generation₀, by rw [began, hbegan], hassociated, ?_⟩
        have hunit : s.dx.pool p = some object := hin.unit
        have hold := List.count_eq_zero.mpr (made_notMem step (by rw [hunit]; simp))
        rw [generation]
        simp only [hold, Nat.add_zero]
        exact hgeneration
      · -- the owner provisioned the GUID again
        obtain rfl : params.guid = guid := hguid
        obtain rfl : owner = processId := howner
        have hallowed := step.allowed
        have hexec := step.exec
        rw [hop] at hallowed hexec
        obtain ⟨hp, hfresh⟩ := hallowed p rfl
        exact absurd (hok params owner (some p) (some mem) hop hnames)
          (provision_not_refused hinv.inv hp hfresh hexec hst)
  | removal exec room held generation began =>
      obtain ⟨-, hcase⟩ := removal_of_exec hinv.inv room exec
      cases hcase with
      | @found j e₀ entered table_eq units content associated names =>
          -- the GUID is registered once, so the unit is the one that was found
          rw [names, removeNames] at hnames
          split at hnames
          · cases hnames
          · rw [Option.some.injEq, Prod.mk.injEq] at hnames
            rw [table_eq] at he
            obtain rfl := hinv.inv.guids i j e e₀ he content (hguid.trans hnames.1.symm)
            rw [he, Option.some.injEq] at content
            subst content
            refine ⟨s.dx, s.generation, by rw [began, entered], associated, ?_⟩
            rw [generation]
      | kept table_eq units names =>
          rw [table_eq] at he
          have hbefore := names _ hnames
          obtain ⟨dx₀, generation₀, hbegan, hassociated, hgeneration⟩ :=
            htarget guid processId hbefore i e he hguid howner
          refine ⟨dx₀, generation₀, ?_, hassociated, by rw [generation]; exact hgeneration⟩
          rw [began]
          split
          · next hentered =>
              rw [hentered] at hbefore
              cases hbefore
          · exact hbegan
      | taken _ _ _ _ _ _ gone =>
          rw [gone] at hnames
          cases hnames

/-- A step of the removal is as it should be while its names stand for what it
found. -/
theorem NamesTarget.ok (hinv : RemoveInv s) (htarget : NamesTarget deviceObject s)
    (h : RemoveStep deviceObject s .removal s') : RemovalOk deviceObject s s' := by
  cases h with
  | removal exec room held generation began =>
      obtain ⟨-, hcase⟩ := removal_of_exec hinv.inv room exec
      cases hcase with
      | found _ _ units => exact .inr units
      | kept _ units => exact .inr units
      | @taken i e guid processId called names content hguid howner units gone =>
          obtain ⟨p, object, hin, rfl⟩ := content_iff_inSlot.mp content
          exact .inl ⟨i, p, object, hin, units,
            htarget guid processId names i _ content hguid howner⟩

theorem removeInv_init (deviceObject : Addr) {s₀ : RegistrySys}
    (hinv : RegistryInv s₀.dx s₀.held) :
    RemoveInv ⟨s₀.dx, s₀.held, fun _ => 0, .entered, none⟩ ∧
      NamesTarget deviceObject ⟨s₀.dx, s₀.held, fun _ => 0, .entered, none⟩ := by
  refine ⟨⟨hinv.perm (List.Perm.of_eq (List.append_nil _)), ?_⟩, ?_⟩
  · intro dx₀ generation₀ hbegan
    cases hbegan
  · intro guid processId hnames
    cases hnames

/-! ## Reprovisioning -/

variable {generation : Addr → Nat} {began : Option (SpdDeviceExtension × (Addr → Nat))}
  {i : Nat} {e : Entry}

/-- Back from StorPort, the removal takes out whatever unit has its names. -/
theorem removal_takes_called (hinv : RegistryInv dx held) (hroom : held.length + 2 < 2 ^ 32)
    (hpid : e.ownerProcessId ≠ -1) (he : (table dx).content i = some e)
    (hnot : ¬ Target deviceObject
      ⟨dx, held, generation, .called e.guid e.ownerProcessId, began⟩ e.addr) :
    ∃ s₂, RemoveStep deviceObject
        ⟨dx, held, generation, .called e.guid e.ownerProcessId, began⟩ .removal s₂ ∧
      ¬ RemovalOk deviceObject ⟨dx, held, generation, .called e.guid e.ownerProcessId, began⟩
        s₂ := by
  obtain ⟨t, status, found, dx₂, calls, hspec, hexec, -, hinv', -, hdone⟩ :=
    spdStorageUnitUnprovision_agree hinv (.guid e.guid) e.ownerProcessId
  have hnamed : (table dx).Names (.guid e.guid) i e := ⟨he, rfl⟩
  have hlookup := (Registry.lookup_eq_some hinv.guids).mpr hnamed
  simp only [Registry.unprovision, hlookup, ne_eq, not_true_eq_false, if_false,
    Prod.mk.injEq] at hspec
  obtain ⟨-, rfl, rfl⟩ := hspec
  obtain ⟨hunits, -⟩ := hdone i e hnamed rfl
  obtain ⟨p, object, hin, rfl⟩ := content_iff_inSlot.mp he
  refine ⟨⟨dx₂, held, generation, .release p, began⟩, .removal ?_ hroom rfl rfl rfl, ?_⟩
  · simp only [spdDispatchPnpRemove, if_neg hpid, hexec, Option.bind_eq_bind, Option.bind_some,
      Option.map_some]
  · have hcleared : dx₂.storageUnits[i]? = some 0 := by
      obtain ⟨hi, -⟩ := List.getElem?_eq_some_iff.mp hin.slot
      rw [show dx₂.storageUnits = dx.storageUnits.set i 0 from hunits, List.getElem?_set_self hi]
    have hgone : dx₂.storageUnits[i]? ≠ some p := by
      rw [hcleared, ne_eq, Option.some.injEq]
      exact fun h => hin.ne h.symm
    rintro (⟨j, p', object', hin', hunits', htarget⟩ | hsame)
    · by_cases hij : i = j
      · subst hij
        have hslot := hin.slot.symm.trans hin'.slot
        rw [Option.some.injEq] at hslot
        subst hslot
        exact hnot htarget
      · refine hgone ?_
        rw [show dx₂.storageUnits = dx.storageUnits.set j 0 from hunits',
          List.getElem?_set_ne (Ne.symm hij), hin.slot]
    · refine hgone ?_
      rw [show dx₂.storageUnits = dx.storageUnits from hsame, hin.slot]

theorem storPort_step (hroom : held.length + 2 < 2 ^ 32) :
    RemoveStep deviceObject ⟨dx, held, generation, .calling guid processId, began⟩ .removal
      ⟨dx, held, generation, .called guid processId, began⟩ :=
  .removal rfl hroom rfl rfl rfl

/-- From a state in which the removal's names stand for a unit that it may not
take out, it goes on to take that unit out. -/
theorem removal_takes (hinv : RemoveInv s) (hroom : s.held.length + 2 < 2 ^ 32)
    (hnames : removeNames s.removal = some (e.guid, e.ownerProcessId))
    (he : (table s.dx).content i = some e) (hnot : ¬ Target deviceObject s e.addr) :
    ∃ ls s₁ s₂, Run (RemoveStep deviceObject) s ls s₁ ∧
      RemoveStep deviceObject s₁ .removal s₂ ∧ ¬ RemovalOk deviceObject s₁ s₂ := by
  obtain ⟨dx, held, generation, removal, began⟩ := s
  have hsplit : ∀ {guid : Guid} {processId : UInt32}, (if processId = -1 then none
      else some (guid, processId)) = some (e.guid, e.ownerProcessId) →
        guid = e.guid ∧ processId = e.ownerProcessId ∧ e.ownerProcessId ≠ -1 := by
    intro guid processId h
    split at h
    · cases h
    · next hpid =>
        cases h
        exact ⟨rfl, rfl, hpid⟩
  simp only at hnames he hroom
  cases removal with
  | entered | release | returned => cases hnames
  | found p guid processId =>
      obtain ⟨rfl, rfl, hpid⟩ := hsplit hnames
      obtain ⟨dx₁, calls, hexec, -, htable, hinv₁⟩ := dereference_removal hinv.inv
      rw [List.append_nil] at hinv₁
      obtain ⟨s₂, hstep, hbad⟩ := removal_takes_called hinv₁ hroom hpid (htable ▸ he) hnot
      have hderef : RemoveStep deviceObject
          ⟨dx, held, generation, .found p e.guid e.ownerProcessId, began⟩ .removal
          ⟨dx₁, held, generation, .calling e.guid e.ownerProcessId, began⟩ :=
        .removal (by simp only [spdDispatchPnpRemove, hexec, Option.map_some]) hroom rfl rfl rfl
      exact ⟨_, _, s₂, .cons hderef (.single (storPort_step hroom)), hstep, hbad⟩
  | calling guid processId =>
      obtain ⟨rfl, rfl, hpid⟩ := hsplit hnames
      have hinv₁ : RegistryInv dx held :=
        hinv.inv.perm (List.Perm.of_eq (List.append_nil held).symm)
      obtain ⟨s₂, hstep, hbad⟩ := removal_takes_called hinv₁ hroom hpid he hnot
      exact ⟨_, _, s₂, .single (storPort_step hroom), hstep, hbad⟩
  | called guid processId =>
      obtain ⟨rfl, rfl, hpid⟩ := hsplit hnames
      have hinv₁ : RegistryInv dx held :=
        hinv.inv.perm (List.Perm.of_eq (List.append_nil held).symm)
      obtain ⟨s₂, hstep, hbad⟩ := removal_takes_called hinv₁ hroom hpid he hnot
      exact ⟨[], _, s₂, .nil, hstep, hbad⟩

/-- A provision that is not refused puts its unit into a slot. -/
theorem provision_content (hinv : RegistryInv dx held) {params : StorageUnitParams}
    {mem : SpdIoq} {r : RegistryResult} (hp : p ≠ 0) (hfresh : dx.pool p = none)
    (hexec : RegistryOp.exec dx (.provision params processId (some p) (some mem)) =
      some (dx', r)) (hrefused : ¬ ProvisionRefused dx params (some mem)) :
    r.status = .success ∧ ∃ i, (table dx').content i =
      some ⟨p, params.guid, processId⟩ := by
  have hok := provisionOk hinv hp hfresh hexec
  have hst : r.status = .success := by
    rcases hok.outcome with h | h | h
    · exact h
    · exact absurd (.inl (hok.collision.mp h)) hrefused
    · exact absurd (.inr (.inl (hok.cannotMake.mp h).2)) hrefused
  obtain ⟨i, -, hslot, -, rfl⟩ := hok.success hst
  obtain ⟨hi, -⟩ := List.getElem?_eq_some_iff.mp hslot
  refine ⟨hst, i,
    content_iff_inSlot.mpr ⟨p, _, ⟨?_, hp, Function.update_self _ _ _⟩, rfl⟩⟩
  exact List.getElem?_set_self hi

/-- The owner provisions the GUID again before the removal is through: the
removal can go on to take out the new unit. -/
theorem RemoveInv.reprovisioned (hinv : RemoveInv s) (hroom : s.held.length + 2 < 2 ^ 32)
    (h : RemoveStep deviceObject s ev s') (hbad : ¬ ReprovisionOk s ev) :
    ∃ ls s₁ s₂, Run (RemoveStep deviceObject) s' ls s₁ ∧
      RemoveStep deviceObject s₁ .removal s₂ ∧ ¬ RemovalOk deviceObject s₁ s₂ := by
  have hinv' := RemoveStep.base hinv h
  cases h with
  | removal => exact absurd trivial hbad
  | other step own generation removal began =>
      simp only [ReprovisionOk, not_forall] at hbad
      obtain ⟨params, processId, unitMem, ioqMem, hop, hnames, hrefused⟩ := hbad
      have hallowed := step.allowed
      have hexec := step.exec
      have hheld := step.held
      rw [hop] at hallowed hexec hheld
      cases unitMem with
      | none => cases hexec
      | some p =>
          cases ioqMem with
          | none => exact absurd (.inr (.inr rfl)) hrefused
          | some mem =>
              obtain ⟨hp, hfresh⟩ := hallowed p rfl
              obtain ⟨hst, i, he⟩ := provision_content hinv.inv hp hfresh hexec hrefused
              have hunit := hexec
              rw [RegistryOp.exec, Option.map_eq_some_iff] at hunit
              obtain ⟨_, -, hunit⟩ := hunit
              have hsame : s'.held = s.held := by
                rw [← (Prod.mk.inj hunit).2] at hheld
                have happend : s'.held ++ removeHeld s'.removal =
                    s.held ++ removeHeld s.removal := hheld
                rw [removal] at happend
                exact List.append_cancel_right happend
              have hnames' : removeNames s'.removal = some (params.guid, processId) := by
                rw [removal, hnames]
              refine removal_takes hinv' (by rw [hsame]; exact hroom) hnames' he ?_
              rintro ⟨dx₀, generation₀, hbegan, -, hgeneration⟩
              rw [began] at hbegan
              have hle := hinv.past dx₀ generation₀ hbegan p
              have hone : s'.generation p = s.generation p + 1 := by
                rw [generation]
                simp only [RegistryEvent.made, hop, hst, if_true, List.count_singleton_self]
              have heq : s'.generation p = generation₀ p := hgeneration
              omega

/-! ## Every removal -/

/-- The removal of a device, begun in any reachable state of the registry, takes
out a unit that was associated with the device then or none, while no owner
provisions the GUID of a unit that is being removed; and a step that breaks this
can be followed by one that takes out another unit. -/
theorem spdDispatchPnp_removes (hcap : capacity.toNat ≤ 256) {ls₀ : List RegistryEvent}
    {s₀ : RegistrySys} (hrun₀ : Run RegistryStep (.init capacity) ls₀ s₀)
    (hrun : Run (CheckedRemoveStep deviceObject)
      ⟨s₀.dx, s₀.held, fun _ => 0, .entered, none⟩ ls s) :
    (∀ s', RemoveStep deviceObject s .removal s' → RemovalOk deviceObject s s') ∧
      ∀ ev s', s.held.length + 2 < 2 ^ 32 → RemoveStep deviceObject s ev s' →
        ¬ ReprovisionOk s ev →
        ∃ ls' s₁ s₂, Run (RemoveStep deviceObject) s' ls' s₁ ∧
          RemoveStep deviceObject s₁ .removal s₂ ∧ ¬ RemovalOk deviceObject s₁ s₂ := by
  obtain ⟨hinv, htarget⟩ := hrun.inv
    (I := fun s => RemoveInv s ∧ NamesTarget deviceObject s)
    (removeInv_init deviceObject (registryRun_inv hcap hrun₀).1)
    fun ⟨hinv, htarget⟩ h => ⟨RemoveStep.base hinv h.step, htarget.step hinv h⟩
  exact ⟨fun s' h => htarget.ok hinv h, fun ev s' hroom h hbad => hinv.reprovisioned
    hroom h hbad⟩

/-! ## A disk that comes back -/

theorem sampleRemoval : ∃ dx₀ dx₁ dx₂ : SpdDeviceExtension,
    (∃ ls, Run RegistryStep (.init (spdStorageUnitCapacity none)) ls ⟨dx₀, []⟩) ∧
      spdDispatchPnpRemove dx₀ 0x7000 .entered = some (dx₁, .found 0x5000 sampleUnit.guid 7) ∧
      spdDispatchPnpRemove dx₁ 0x7000 (.found 0x5000 sampleUnit.guid 7) =
        some (dx₂, .calling sampleUnit.guid 7) ∧
      ∃ dx₃ dx₄ dx₅ : SpdDeviceExtension,
        RegistryOp.exec dx₂ (.unprovision (.guid sampleUnit.guid) 7) =
          some (dx₃, ⟨.success, -1, some 0x5000⟩) ∧
        RegistryOp.exec dx₃ (.dereference 0x5000) = some (dx₄, ⟨.success, -1, none⟩) ∧
        dx₄.pool 0x5000 = none ∧
        RegistryOp.exec dx₄ (.provision sampleUnit 7 (some 0x5000) (some zeroedIoq)) =
          some (dx₅, ⟨.success, 0, none⟩) ∧
        (table dx₅).content 0 = some ⟨0x5000, sampleUnit.guid, 7⟩ := by
  obtain ⟨a₁, a₂, a₃, a₄, h₁, h₂, h₃, h₄, dx₁, dx₂, dx₃, dx₄,
      dx₅, hrest⟩ :
      ∃ a₁ a₂ a₃ a₄ : SpdDeviceExtension,
        RegistryOp.exec (RegistrySys.init (spdStorageUnitCapacity none)).dx
          (.provision sampleUnit 7 (some 0x5000) (some zeroedIoq)) =
            some (a₁, ⟨.success, 0, none⟩) ∧
        RegistryOp.exec a₁ (.referenceByBtl 0) = some (a₂, ⟨.success, -1, some 0x5000⟩) ∧
        RegistryOp.exec a₂ (.setDevice 0x5000 0x7000) = some (a₃, ⟨.success, -1, none⟩) ∧
        RegistryOp.exec a₃ (.dereference 0x5000) = some (a₄, ⟨.success, -1, none⟩) ∧
        ∃ dx₁ dx₂ dx₃ dx₄ dx₅ : SpdDeviceExtension,
          spdDispatchPnpRemove a₄ 0x7000 .entered =
            some (dx₁, .found 0x5000 sampleUnit.guid 7) ∧
          spdDispatchPnpRemove dx₁ 0x7000 (.found 0x5000 sampleUnit.guid 7) =
            some (dx₂, .calling sampleUnit.guid 7) ∧
          RegistryOp.exec dx₂ (.unprovision (.guid sampleUnit.guid) 7) =
            some (dx₃, ⟨.success, -1, some 0x5000⟩) ∧
          RegistryOp.exec dx₃ (.dereference 0x5000) = some (dx₄, ⟨.success, -1, none⟩) ∧
          dx₄.pool 0x5000 = none ∧
          RegistryOp.exec dx₄ (.provision sampleUnit 7 (some 0x5000) (some zeroedIoq)) =
            some (dx₅, ⟨.success, 0, none⟩) ∧
          (table dx₅).content 0 = some ⟨0x5000, sampleUnit.guid, 7⟩ :=
    ⟨_, _, _, _, rfl, rfl, rfl, rfl, _, _, _, _, _, rfl, rfl, rfl, rfl, rfl, rfl, rfl⟩
  obtain ⟨hfound, hcalling, hrest⟩ := hrest
  have hs₁ : RegistryStep (.init (spdStorageUnitCapacity none))
      ⟨.provision sampleUnit 7 (some 0x5000) (some zeroedIoq), ⟨.success, 0, none⟩⟩
        ⟨a₁, []⟩ := by
    refine ⟨fun p hp => ?_, h₁, rfl⟩
    cases hp
    exact ⟨by decide, rfl⟩
  have hs₂ : RegistryStep ⟨a₁, []⟩ ⟨.referenceByBtl 0, ⟨.success, -1, some 0x5000⟩⟩
      ⟨a₂, [0x5000]⟩ := ⟨show 0 + 2 < 2 ^ 32 by decide, h₂, rfl⟩
  have hs₃ :
      RegistryStep ⟨a₂, [0x5000]⟩ ⟨.setDevice 0x5000 0x7000, ⟨.success, -1, none⟩⟩
      ⟨a₃, [0x5000]⟩ := ⟨List.mem_singleton_self _, h₃, rfl⟩
  have hs₄ : RegistryStep ⟨a₃, [0x5000]⟩ ⟨.dereference 0x5000, ⟨.success, -1, none⟩⟩
      ⟨a₄, []⟩ := ⟨List.mem_singleton_self _, h₄, rfl⟩
  have hrun := Run.cons hs₁ (.cons hs₂ (.cons hs₃ (.single hs₄)))
  exact ⟨a₄, dx₁, dx₂, ⟨_, hrun⟩, hfound, hcalling, dx₃, dx₄, dx₅, hrest⟩

/-- While StorPort removes the device, the owner unprovisions the unit and
provisions its GUID again, at the same address. The new unit is taken out. -/
theorem spdDispatchPnp_reprovisioned :
    ∃ ls₀ s₀ ls s s', Run RegistryStep (.init (spdStorageUnitCapacity none)) ls₀ s₀ ∧
      Run (RemoveStep 0x7000) ⟨s₀.dx, s₀.held, fun _ => 0, .entered, none⟩ ls s ∧
      RemoveStep 0x7000 s .removal s' ∧ ¬ RemovalOk 0x7000 s s' := by
  obtain ⟨dx₀, dx₁, dx₂, ⟨ls₀, hrun₀⟩, hfound, hcalling, dx₃, dx₄, dx₅,
      hunprovision, hderef,
    hfree, hprovision, he⟩ := sampleRemoval
  have hroom : ([] : List Addr).length + 2 < 2 ^ 32 := by decide
  have h₁ : RemoveStep 0x7000 ⟨dx₀, [], fun _ => 0, .entered, none⟩ .removal
      ⟨dx₁, [], fun _ => 0, .found 0x5000 sampleUnit.guid 7, some (dx₀, fun _ => 0)⟩ :=
    .removal hfound hroom rfl rfl rfl
  have h₂ : RemoveStep 0x7000
      ⟨dx₁, [], fun _ => 0, .found 0x5000 sampleUnit.guid 7, some (dx₀, fun _ => 0)⟩
      .removal
      ⟨dx₂, [], fun _ => 0, .calling sampleUnit.guid 7, some (dx₀, fun _ => 0)⟩ :=
    .removal hcalling hroom rfl rfl rfl
  have h₃ : RemoveStep 0x7000
      ⟨dx₂, [], fun _ => 0, .calling sampleUnit.guid 7, some (dx₀, fun _ => 0)⟩
      (.other ⟨.unprovision (.guid sampleUnit.guid) 7, ⟨.success, -1, some 0x5000⟩⟩)
      ⟨dx₃, [0x5000], fun _ => 0, .calling sampleUnit.guid 7, some (dx₀, fun _ => 0)⟩ :=
    .other ⟨trivial, hunprovision, rfl⟩ (fun p h => by cases h) rfl rfl rfl
  have h₄ : RemoveStep 0x7000
      ⟨dx₃, [0x5000], fun _ => 0, .calling sampleUnit.guid 7, some (dx₀, fun _ => 0)⟩
      (.other ⟨.dereference 0x5000, ⟨.success, -1, none⟩⟩)
      ⟨dx₄, [], fun _ => 0, .calling sampleUnit.guid 7, some (dx₀, fun _ => 0)⟩ := by
    refine .other ⟨List.mem_singleton_self _, hderef, rfl⟩ (fun p h => ?_) rfl rfl rfl
    cases h
    exact List.mem_singleton_self _
  have h₅ : RemoveStep 0x7000
      ⟨dx₄, [], fun _ => 0, .calling sampleUnit.guid 7, some (dx₀, fun _ => 0)⟩
      (.other ⟨.provision sampleUnit 7 (some 0x5000) (some zeroedIoq), ⟨.success, 0, none⟩⟩)
      ⟨dx₅, [], fun p => 0 + [0x5000].count p, .calling sampleUnit.guid 7,
        some (dx₀, fun _ => 0)⟩ := by
    refine .other ⟨fun p hp => ?_, hprovision, rfl⟩ (fun p h => by cases h) rfl rfl rfl
    cases hp
    exact ⟨by decide, hfree⟩
  have hrun := Run.cons h₁ (.cons h₂ (.cons h₃ (.cons h₄ (.cons h₅ (.single
    (storPort_step hroom))))))
  have hinv₀ := (registryRun_inv (spdStorageUnitCapacity_le none) hrun₀).1
  have hinv : RemoveInv _ := hrun.inv (removeInv_init 0x7000 hinv₀).1
    fun hinv h => RemoveStep.base hinv h
  -- the new unit has the GUID and the owner, but not the generation
  have hnot :
      ¬ Target 0x7000 ⟨dx₅, [], fun p => 0 + [0x5000].count p, .called sampleUnit.guid 7,
      some (dx₀, fun _ => 0)⟩ 0x5000 := by
    rintro ⟨_, _, hbegan, -, hgeneration⟩
    cases hbegan
    exact absurd (show 1 = 0 from hgeneration) (by decide)
  obtain ⟨s', hstep, hbad⟩ := removal_takes_called
    (hinv.inv.perm (List.Perm.of_eq (List.append_nil _).symm)) hroom (by decide) he hnot
  exact ⟨_, _, _, _, s', hrun₀, hrun, hstep, hbad⟩

/-- A removal that nobody disturbs. -/
theorem spdDispatchPnp_removes_alone :
    ∃ ls₀ s₀ ls s, Run RegistryStep (.init (spdStorageUnitCapacity none)) ls₀ s₀ ∧
      Run (CheckedRemoveStep 0x7000) ⟨s₀.dx, s₀.held, fun _ => 0, .entered, none⟩ ls s ∧
      s.removal = .calling sampleUnit.guid 7 ∧
      (∀ s', RemoveStep 0x7000 s .removal s' → RemovalOk 0x7000 s s') := by
  obtain ⟨dx₀, dx₁, dx₂, ⟨ls₀, hrun₀⟩, hfound, hcalling, -⟩ := sampleRemoval
  have hroom : ([] : List Addr).length + 2 < 2 ^ 32 := by decide
  have h₁ : RemoveStep 0x7000 ⟨dx₀, [], fun _ => 0, .entered, none⟩ .removal
      ⟨dx₁, [], fun _ => 0, .found 0x5000 sampleUnit.guid 7, some (dx₀, fun _ => 0)⟩ :=
    .removal hfound hroom rfl rfl rfl
  have hrun : Run (CheckedRemoveStep 0x7000) ⟨dx₀, [], fun _ => 0, .entered, none⟩
      [.removal, .removal]
      ⟨dx₂, [], fun _ => 0, .calling sampleUnit.guid 7, some (dx₀, fun _ => 0)⟩ :=
    .cons ⟨h₁, trivial⟩ (.single ⟨.removal hcalling hroom rfl rfl rfl, trivial⟩)
  exact ⟨ls₀, _, _, _, hrun₀, hrun, rfl,
    (spdDispatchPnp_removes (spdStorageUnitCapacity_le none) hrun₀ hrun).1⟩

end Winspd.Proofs
