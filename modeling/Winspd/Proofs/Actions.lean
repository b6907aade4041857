import Winspd.Proofs.References

/-!
# What the actions keep

One lemma for each thing an action does: it takes a reference, takes a unit out
of its slot, drops a reference, changes a unit it holds or works on its queue.
`RefsInv.exec` puts them together. What is asked of an action is in
`UnitAction.Allowed`, which is what the pool and StorPort promise, and in its
last two hypotheses: that the references fit a `RefCount`, and that an
unprovision does not take another unit for the one it found.
-/

namespace Winspd.Proofs

open Winspd.Lib Winspd.Sys Winspd.Spec

variable {dx dx' : SpdDeviceExtension} {held : List Addr} {p x : Addr} {i : Nat}
  {object object' : UnitObject} {s s' : DriverState} {g g' : UnitRefs} {gs gs' : List UnitRefs}
  {ptr : UnitPtr} {a : UnitAction} {q : Queue} {ioq ioq' : SpdIoq} {calls : List IoqCall}
  {status : NtStatus}

/-- What an action can count on: the pool hands out memory that is not in use,
an SRB that is posted is in no queue, and an extension is one SRB's. -/
def UnitAction.Allowed (s : DriverState) : UnitAction → Prop
  | .provision _ _ unitMem _ => ∀ p, unitMem = some p → p ≠ 0 ∧ s.dx.pool p = none
  | .ioqPostSrb _ srb ext => ext ≠ 0 ∧ ∀ p object q, s.dx.pool p = some object →
      Refines object.ioq q → ∀ i ∈ q.items, i.srb ≠ srb ∧ i.ext ≠ ext
  | .ioqCancelSrb _ srb ext => ∀ p object q, s.dx.pool p = some object →
      Refines object.ioq q → ∀ i ∈ q.items, i.ext = ext → i.srb = srb
  | _ => True

/-- The references to a unit: its slot's, and those the threads hold. -/
def outstanding (s : DriverState) (gs : List UnitRefs) (p : Addr) : Nat :=
  s.dx.storageUnits.count p + (heldAddrs gs).count p

/-- A reference that is taken can be counted. -/
def UnitAction.Counted (s : DriverState) (gs : List UnitRefs) :
    (a : UnitAction) → a.Answer → Prop
  | .referenceByBtl _, some unit => outstanding s gs unit.addr + 1 < 2 ^ 32
  | .referenceByDevice _, some unit => outstanding s gs unit.addr + 1 < 2 ^ 32
  | _, _ => True

/-- An unprovision that reads the owner again reads it of the unit it found, or
does not read itself. -/
def UnitAction.RereadOk (s : DriverState) : UnitAction → Prop
  | .ownerIs unit processId => s.ptr unit.addr = unit ∨
      ∀ object, s.dx.pool unit.addr = some object → object.unit.ownerProcessId ≠ processId
  | _ => True

structure UnitExec (s : DriverState) (a : UnitAction) (r : a.Answer) (s' : DriverState) : Prop where
  allowed : UnitAction.Allowed s a
  exec : a.exec s = some (s', r)

/-! ## Lookups -/

theorem findUnit_congr {pool pool' : Addr → Option UnitObject} {P : SpdStorageUnit → Bool}
    {ps : List Addr} {k : Nat} (h : ∀ p ∈ ps, p ≠ 0 → pool' p = pool p) :
    findUnit pool' P k ps = findUnit pool P k ps := by
  induction ps generalizing k with
  | nil => rfl
  | cons p ps ih =>
      have hrest : ∀ p ∈ ps, p ≠ 0 → pool' p = pool p :=
        fun p hp => h p (List.mem_cons_of_mem _ hp)
      unfold findUnit
      by_cases h0 : p = 0
      · rw [if_pos h0, if_pos h0, ih hrest]
      · rw [if_neg h0, if_neg h0, h p List.mem_cons_self h0, ih hrest]

theorem alive_pool_of_slot (hinv : RegistryInv (alive dx) held) :
    ∀ p ∈ dx.storageUnits, p ≠ 0 → (alive dx).pool p = dx.pool p := by
  intro p hp h0
  obtain ⟨object, hobject, hne⟩ := exists_alive hinv h0 hp
  rw [hobject]
  exact alive_pool_eq_some.mpr ⟨hobject, hne⟩

theorem unprovisionLookup_alive (hinv : RegistryInv (alive dx) held) (key : UnitKey) :
    unprovisionLookup (alive dx) key = unprovisionLookup dx key := by
  cases key with
  | index index => rfl
  | guid guid => exact findUnit_congr (alive_pool_of_slot hinv)

theorem unprovisionLookup_slot (hinv : RegistryInv (alive dx) held) {key : UnitKey}
    (h : unprovisionLookup dx key = some (some (i, p))) :
    dx.storageUnits[i]? = some p ∧ p ≠ 0 := by
  rw [← unprovisionLookup_alive hinv, unprovisionLookup_eq hinv, Option.some.injEq,
    Option.map_eq_some_iff] at h
  obtain ⟨⟨j, e⟩, hl, heq⟩ := h
  cases heq
  obtain ⟨hcontent, -⟩ := (Registry.lookup_eq_some hinv.guids).mp hl
  obtain ⟨p, object, hslot, hp, -, rfl⟩ := content_table.mp hcontent
  exact ⟨hslot, hp⟩

theorem unitByBtl_slot {btl : UInt32} (h : dx.unitByBtl btl = some p) :
    p ≠ 0 ∧ p ∈ dx.storageUnits := by
  unfold SpdDeviceExtension.unitByBtl SpdDeviceExtension.unitAt at h
  split at h
  · cases h
  · split at h
    · next hslot =>
        split at h
        · cases h
        · next h0 =>
            cases h
            exact ⟨h0, List.mem_of_getElem? hslot⟩
    · cases h

/-! ## References -/

theorem RefsInv.reference (hinv : RefsInv s (g :: gs)) (hp : p ≠ 0)
    (hslot : p ∈ s.dx.storageUnits) (hfound : g.found = none)
    (hlt : s.dx.storageUnits.count p + (heldAddrs (g :: gs)).count p + 1 < 2 ^ 32)
    (hadd : s.dx.addRef p = some dx') :
    RefsInv { s with dx := dx' } ({ g with references := s.ptr p :: g.references } :: gs) := by
  obtain ⟨object, hobject, hne⟩ := exists_alive hinv.registry hp hslot
  have hcount := hinv.refCount hobject hne
  rw [SpdDeviceExtension.addRef, hobject] at hadd
  cases hadd
  have hsucc : (object.unit.refCount + 1).toNat = object.unit.refCount.toNat + 1 := by
    rw [UInt32.toNat_add]
    show (object.unit.refCount.toNat + 1) % 2 ^ 32 = _
    omega
  have hheld :
      ∀ x, ({ g with references := s.ptr p :: g.references } : UnitRefs).heldAddrs.count x =
      g.heldAddrs.count x + if p = x then 1 else 0 := by
    intro x
    simp only [UnitRefs.heldAddrs, UnitRefs.held, List.map_append, List.map_cons,
      List.count_append, List.count_cons, beq_iff_eq, DriverState.ptr]
    omega
  have hpos : ¬ (object.unit.refCount + 1 = 0) := by
    intro h
    rw [← UInt32.toNat_inj, hsucc] at h
    cases h
  refine hinv.update hobject hne
    { object with unit := { object.unit with refCount := object.unit.refCount + 1 } } rfl rfl ?_ ?_
    (fun x => Nat.le_refl _) ?_ ?_ hfound (hinv.queues p object hobject)
    (fun _ _ _ _ _ _ _ _ => rfl)
  · show (object.unit.refCount + 1).toNat = _
    have h := hheld p
    rw [if_pos rfl] at h
    rw [hsucc, hcount, heldAddrs_cons, heldAddrs_cons, List.count_append, List.count_append, h]
    omega
  · intro x hx
    rw [hheld x, if_neg (Ne.symm hx), Nat.add_zero]
  · intro x
    show _ = _ + if x = p ∧ object.unit.refCount + 1 = 0 then 1 else 0
    rw [if_neg fun h => hpos h.2]
    rfl
  · intro ptr hptr
    rcases hptr with hptr | hptr
    · rw [UnitRefs.held, List.mem_append, List.mem_cons] at hptr
      rcases hptr with hptr | rfl | hptr
      · exact .inl (.inl (List.mem_append_left _ hptr))
      · exact .inr rfl
      · exact .inl (.inl (List.mem_append_right _ hptr))
    · exact .inl (.inr hptr)

theorem UnitRefs.count_drop (hptr : ptr ∈ g.held) (x : Addr) :
    (g.drop ptr).heldAddrs.count x + (if ptr.addr = x then 1 else 0) = g.heldAddrs.count x := by
  have herase : ∀ l : List UnitPtr, ptr ∈ l →
      ((l.erase ptr).map UnitPtr.addr).count x + (if ptr.addr = x then 1 else 0) =
        (l.map UnitPtr.addr).count x := by
    intro l hl
    rw [((List.perm_cons_erase hl).map UnitPtr.addr).count_eq x, List.map_cons, List.count_cons]
    simp only [beq_iff_eq]
  unfold UnitRefs.drop
  split
  · next h =>
      have hx := herase _ h
      simp only [UnitRefs.heldAddrs, UnitRefs.held, List.map_append, List.count_append] at hx ⊢
      omega
  · next h =>
      have hx := herase _ ((List.mem_append.mp hptr).resolve_left h)
      simp only [UnitRefs.heldAddrs, UnitRefs.held, List.map_append, List.count_append] at hx ⊢
      omega

theorem UnitRefs.drop_held {unit : UnitPtr} (h : ptr ∈ (g.drop unit).held) : ptr ∈ g.held := by
  unfold UnitRefs.drop at h
  split at h
  · rcases List.mem_append.mp h with h | h
    · exact List.mem_append_left _ (List.mem_of_mem_erase h)
    · exact List.mem_append_right _ h
  · rcases List.mem_append.mp h with h | h
    · exact List.mem_append_left _ h
    · exact List.mem_append_right _ (List.mem_of_mem_erase h)

theorem UnitRefs.drop_removed (x : Addr) :
    (g.drop ptr).removedAddrs.count x ≤ g.removedAddrs.count x := by
  unfold UnitRefs.drop
  split
  · exact List.Sublist.count_le _ (List.erase_sublist.map _)
  · exact Nat.le_refl _

theorem UnitRefs.drop_found : (g.drop ptr).found = g.found := by
  unfold UnitRefs.drop
  split <;> rfl

theorem UnitRefs.drop_deleting : (g.drop ptr).deleting = g.deleting := by
  unfold UnitRefs.drop
  split <;> rfl

theorem RefsInv.dereference {delete : Bool} (hinv : RefsInv s (g :: gs)) (hptr : ptr ∈ g.held)
    (hfound : g.found = none) (hdeleting : g.deleting = none)
    (hexec : dereferenceSection s.dx ptr.addr = some (dx', delete)) :
    RefsInv { s with dx := dx' }
      ({ g.drop ptr with deleting := if delete = true then some ptr else none } :: gs) := by
  obtain ⟨object, hobject, hne⟩ := hinv.object_of_held List.mem_cons_self hptr
  have hcur : s.ptr ptr.addr = ptr := hinv.current g List.mem_cons_self ptr (.inl hptr)
  have hcount := hinv.refCount hobject hne
  rw [dereferenceSection, hobject] at hexec
  cases hexec
  have hdrop := UnitRefs.count_drop hptr
  have hone : (1 : UInt32).toNat = 1 := rfl
  have hpos : object.unit.refCount.toNat ≠ 0 := fun h => hne (UInt32.toNat_inj.mp h)
  have hpred : (object.unit.refCount - 1).toNat = object.unit.refCount.toNat - 1 :=
    UInt32.toNat_sub_of_le _ _ (by rw [UInt32.le_iff_toNat_le]; omega)
  refine hinv.update hobject hne
    { object with unit := { object.unit with refCount := object.unit.refCount - 1 } } rfl rfl ?_ ?_
    (fun x => UnitRefs.drop_removed x) ?_ ?_ (UnitRefs.drop_found.trans hfound)
    (hinv.queues ptr.addr object hobject) (fun _ _ _ _ _ _ _ _ => rfl)
  · show (object.unit.refCount - 1).toNat = s.dx.storageUnits.count ptr.addr + List.count ptr.addr
      ((g.drop ptr).heldAddrs ++ heldAddrs gs)
    have h := hdrop ptr.addr
    rw [if_pos rfl] at h
    rw [heldAddrs_cons, List.count_append] at hcount
    rw [hpred, List.count_append]
    omega
  · intro x hx
    show (g.drop ptr).heldAddrs.count x = _
    have h := hdrop x
    rwa [if_neg (Ne.symm hx)] at h
  · intro x
    rw [UnitRefs.deletingAddrs, UnitRefs.deletingAddrs, hdeleting]
    by_cases hzero : object.unit.refCount - 1 = 0
    · by_cases hx : x = ptr.addr
      · simp [hzero, hx]
      · simp [hzero, hx, Ne.symm hx]
    · simp [hzero]
  · intro x hx
    rcases hx with hx | hx
    · exact .inl (.inl (UnitRefs.drop_held hx))
    · refine .inr ?_
      split at hx
      · cases hx
        exact hcur.symm
      · cases hx

/-! ## The units a thread holds -/

/-- The unit at `p` changes, and neither its owner nor its references do. -/
theorem RefsInv.set {storageUnit : Addr → UnitPtr} (hinv : RefsInv s (g :: gs))
    (hptr : ptr ∈ g.held) (hfound : g.found = none)
    (hobject : s.dx.pool ptr.addr = some object) (object' : UnitObject)
    (hguid : object'.unit.storageUnitParams.guid = object.unit.storageUnitParams.guid)
    (howner : object'.unit.ownerProcessId = object.unit.ownerProcessId)
    (hcount : object'.unit.refCount = object.unit.refCount)
    (hqueue : ∃ q, Refines object'.ioq q ∧ ∀ i ∈ q.items, storageUnit i.ext = ptr)
    (hothers : ∀ x y q, x ≠ ptr.addr → s.dx.pool x = some y → Refines y.ioq q →
      ∀ i ∈ q.items, storageUnit i.ext = s.storageUnit i.ext) :
    RefsInv
      { s with
        dx := { s.dx with pool := Function.update s.dx.pool ptr.addr (some object') }
        storageUnit := storageUnit } (g :: gs) := by
  obtain ⟨y, hy, hne⟩ := hinv.object_of_held List.mem_cons_self hptr
  rw [hobject, Option.some.injEq] at hy
  subst hy
  have hcur : s.ptr ptr.addr = ptr := hinv.current g List.mem_cons_self ptr (.inl hptr)
  refine hinv.update hobject hne object' hguid howner ?_ (fun _ _ => rfl) (fun _ => Nat.le_refl _)
    (fun x => ?_) (fun _ h => .inl h) hfound (by rwa [hcur]) hothers
  · rw [hcount]
    exact hinv.refCount hobject hne
  · rw [hcount, if_neg fun h => hne h.2]
    rfl

theorem ioqOp_keeps {op : IoqOp} (hr : Refines ioq q) (ha : op.Allowed q.items)
    (h : op.exec ioq = some (ioq', calls, status)) :
    ∃ q', Refines ioq' q' ∧ ∀ i ∈ q'.items, i ∈ q.items ∨ op = .post i := by
  have hagree := exec_agree hr ha
  rw [h] at hagree
  obtain ⟨q', hspec, hr'⟩ := hagree.of_some
  obtain ⟨done, -, hperm⟩ := @spec_items q ⟨op, calls, status⟩ q' hr.wf ha hspec
  refine ⟨q', hr', fun i hi => ?_⟩
  rcases List.mem_append.mp (hperm.mem_iff.mpr (List.mem_append_right _ hi)) with hi | hi
  · exact .inl hi
  · refine .inr ?_
    cases op with
    | post j =>
        simp only [IoqEvent.accepted] at hi
        split at hi
        · rw [List.mem_singleton.mp hi]
        · cases hi
    | _ => cases hi

theorem RefsInv.onIoq {α : Type} {f : SpdIoq → Option (SpdIoq × α)} {r : α}
    {storageUnit : Addr → UnitPtr} (hinv : RefsInv s (g :: gs)) (hptr : ptr ∈ g.held)
    (hfound : g.found = none) (h : onIoq s.dx ptr.addr f = some (dx', r))
    (hf : ∀ object q ioq r, s.dx.pool ptr.addr = some object → Refines object.ioq q →
      f object.ioq = some (ioq, r) →
        ∃ q', Refines ioq q' ∧ ∀ i ∈ q'.items, i ∈ q.items ∨ storageUnit i.ext = ptr)
    (hstore : ∀ x y q, s.dx.pool x = some y → Refines y.ioq q →
      ∀ i ∈ q.items, storageUnit i.ext = s.storageUnit i.ext) :
    RefsInv { s with dx := dx', storageUnit := storageUnit } (g :: gs) := by
  unfold Sys.onIoq at h
  simp only [Option.bind_eq_bind, Option.bind_eq_some_iff] at h
  obtain ⟨object, hobject, ⟨ioq, r'⟩, hcall, h⟩ := h
  cases h
  have hcur : s.ptr ptr.addr = ptr := hinv.current g List.mem_cons_self ptr (.inl hptr)
  obtain ⟨q, hq, hitems⟩ := hinv.queues ptr.addr object hobject
  obtain ⟨q', hq', hitems'⟩ := hf object q ioq r' hobject hq hcall
  refine hinv.set hptr hfound hobject { object with ioq := ioq } rfl rfl rfl
    ⟨q', hq', fun i hi => ?_⟩ fun x y q _ hy hq => hstore x y q hy hq
  rcases hitems' i hi with hi | hi
  · rw [hstore ptr.addr object q hobject hq i hi, hitems i hi, hcur]
  · exact hi

theorem RefsInv.ioqOp {op : IoqOp} {r : List IoqCall × NtStatus} (hinv : RefsInv s (g :: gs))
    (hptr : ptr ∈ g.held) (hfound : g.found = none) (hpost : ∀ i, op ≠ .post i)
    (hallowed : ∀ live, op.Allowed live)
    (h : Sys.onIoq s.dx ptr.addr op.exec = some (dx', r)) :
    RefsInv { s with dx := dx' } (g :: gs) := by
  refine hinv.onIoq (f := fun ioq => op.exec ioq) hptr hfound h
    (fun object q ioq r _ hq hcall => ?_)
    fun _ _ _ _ _ _ _ => rfl
  obtain ⟨q', hq', hitems⟩ := ioqOp_keeps hq (hallowed q.items) hcall
  exact ⟨q', hq', fun i hi => .inl ((hitems i hi).resolve_right (hpost i))⟩

/-! ## Every action -/

theorem provision_outcome {params : StorageUnitParams} {processId btl : UInt32} {mem : SpdIoq}
    (hinv : RegistryInv (alive dx) held)
    (hexec : spdStorageUnitProvision dx params processId (some p) (some mem) =
      some (dx', status, btl)) :
    (dx' = dx ∧ status ≠ .success) ∨ ∃ i, status = .success ∧
      dx' = fillSlot dx i p ⟨newStorageUnit params processId, spdIoqCreate mem⟩ ∧
      dx.storageUnits[i]? = some 0 ∧
      ∀ j e, (table dx).content j = some e → e.guid ≠ params.guid := by
  have hlen : 0 + dx.storageUnits.length ≤ 256 := by
    rw [Nat.zero_add]
    exact Nat.le_trans (Nat.le_of_eq hinv.length) hinv.capacity
  obtain ⟨calls, hdelete⟩ := spdIoqDelete_create mem
  have hscan := provisionScan_eq params.guid (-1) (alive_present hinv) hlen
  rw [show slotsOf dx.pool dx.storageUnits = table dx from rfl,
    show UInt32.ofNat 0 = 0 from rfl] at hscan
  rcases hscan with ⟨duplicate, btl', -, hscan⟩ | ⟨hslot, hscan⟩
  · simp only [spdStorageUnitProvision, hscan, hdelete, Option.bind_eq_bind,
      Option.bind_some] at hexec
    cases hexec
    exact .inl ⟨rfl, fun h => by cases h⟩
  · cases hfree : (table dx).lowestFree with
    | none =>
        simp only [spdStorageUnitProvision, hscan, scanBtl_full hfree, hdelete, Option.bind_eq_bind,
          Option.bind_some, if_true] at hexec
        cases hexec
        exact .inl ⟨rfl, fun h => by cases h⟩
    | some i =>
        have hbtl := scanBtl_lowest hfree
        have hlt : i < 256 := by
          have h := Slots.lt_length_of_lowestFree hfree
          rw [table_length] at h
          omega
        have hslot0 : dx.storageUnits[i]? = some 0 := by
          have h := (Slots.lowestFree_eq_some.mp hfree).1
          rw [← table_alive hinv] at h
          exact hinv.free_iff.mp h
        simp only [spdStorageUnitProvision, hscan, hbtl, if_neg (spdBtlFromIndex_ne hlt),
          Option.bind_eq_bind, Option.bind_some, spdIndexFromBtl,
          spdIoctlBtlT_spdBtlFromIndex hlt] at hexec
        cases hexec
        exact .inr ⟨i, rfl, rfl, hslot0, fun j e he => by
          simpa using Slots.slotWith_eq_none.mp hslot j e he⟩

/-- What a provision does with the address it is given. -/
inductive ProvisionCase (s : DriverState) (params : StorageUnitParams) (processId : UInt32)
    (p : Addr) : Option SpdIoq → NtStatus → DriverState → Prop
  | noQueue {status : NtStatus} : ProvisionCase s params processId p none status s
  | refused {mem : SpdIoq} {status : NtStatus} (hfailed : status ≠ .success) :
      ProvisionCase s params processId p (some mem) status s
  | filled {mem : SpdIoq} {i : Nat} (hslot : s.dx.storageUnits[i]? = some 0)
      (hguid : ∀ j e, (table s.dx).content j = some e → e.guid ≠ params.guid) :
      ProvisionCase s params processId p (some mem) .success
        { s with
          dx := fillSlot s.dx i p ⟨newStorageUnit params processId, spdIoqCreate mem⟩
          generation := Function.update s.generation p (s.generation p + 1) }

theorem unitExec_provision {params : StorageUnitParams} {processId : UInt32}
    {unitMem : Option Addr} {ioqMem : Option SpdIoq} {r : NtStatus × UInt32}
    (hinv : RefsInv s gs)
    (hexec : UnitExec s (.provision params processId unitMem ioqMem) r s') :
    ∃ p, unitMem = some p ∧ p ≠ 0 ∧ s.dx.pool p = none ∧
      ProvisionCase s params processId p ioqMem r.1 s' := by
  obtain ⟨hallowed, hexec⟩ := hexec
  simp only [UnitAction.exec, Option.map_eq_some_iff] at hexec
  obtain ⟨⟨dx', status, btl⟩, hexec, heq⟩ := hexec
  cases heq
  cases unitMem with
  | none => cases hexec
  | some p =>
      obtain ⟨hp, hfresh⟩ := hallowed p rfl
      refine ⟨p, rfl, hp, hfresh, ?_⟩
      cases ioqMem with
      | none =>
          cases hexec
          exact .noQueue
      | some mem =>
          obtain ⟨rfl, hfailed⟩ | ⟨i, rfl, rfl, hslot, hguid⟩ :=
            provision_outcome hinv.registry hexec
          · have hbump : UnitAction.bump s (some p) status = s.generation := by
              cases status with
              | success => exact absurd rfl hfailed
              | _ => rfl
            simp only [hbump]
            exact .refused hfailed
          · exact .filled hslot hguid

theorem unitExec_free {unit : UnitPtr} {r : List IoqCall} (hexec : UnitExec s (.free unit) r s') :
    ∃ object, s.dx.pool unit.addr = some object ∧
      s' = { s with dx := { s.dx with pool := Function.update s.dx.pool unit.addr none } } := by
  have hrun := hexec.exec
  simp only [UnitAction.exec, freeUnit, Option.bind_eq_bind, Option.map_eq_some_iff,
    Option.bind_eq_some_iff] at hrun
  obtain ⟨x, ⟨object, hobject, calls, -, hrun⟩, heq⟩ := hrun
  cases hrun
  cases heq
  exact ⟨object, hobject, rfl⟩

theorem RefsInv.provision {params : StorageUnitParams} {processId : UInt32}
    {unitMem : Option Addr} {ioqMem : Option SpdIoq} {r : NtStatus × UInt32}
    (hinv : RefsInv s gs)
    (hexec : UnitExec s (.provision params processId unitMem ioqMem) r s') : RefsInv s' gs := by
  obtain ⟨status, btl⟩ := r
  obtain ⟨p, -, hp, hfresh, hcase⟩ := unitExec_provision hinv hexec
  cases hcase with
  | noQueue => exact hinv
  | refused => exact hinv
  | @filled mem i hslot hguid =>
      exact hinv.fill hp hfresh hslot rfl (spdIoqCreate_refines mem) hguid

theorem RefsInv.unprovision {key : UnitKey} {processId : UInt32}
    {r : Option (UnitPtr × UInt32)} (hinv : RefsInv s (g :: gs))
    (hexec : UnitExec s (.unprovision key processId) r s') :
    RefsInv s' (UnitRefs.track (.unprovision key processId) r g :: gs) := by
  obtain ⟨-, hexec⟩ := hexec
  simp only [UnitAction.exec, Option.map_eq_some_iff] at hexec
  obtain ⟨⟨dx', found⟩, hexec, heq⟩ := hexec
  cases heq
  rw [unprovisionSection, Option.bind_eq_bind, Option.bind_eq_some_iff] at hexec
  obtain ⟨lookup, hlookup, hexec⟩ := hexec
  cases lookup with
  | none =>
      cases hexec
      exact hinv
  | some x =>
      obtain ⟨i, p⟩ := x
      simp only [Option.bind_eq_bind, Option.bind_eq_some_iff] at hexec
      obtain ⟨object, hobject, hexec⟩ := hexec
      cases hexec
      obtain ⟨hslot, hp⟩ := unprovisionLookup_slot hinv.registry hlookup
      have howner : ∀ y, s.dx.pool p = some y →
          y.unit.ownerProcessId = object.unit.ownerProcessId := fun y hy => by
        rw [hobject, Option.some.injEq] at hy
        rw [hy]
      by_cases howns : processId = object.unit.ownerProcessId
      · simp only [if_pos howns, Option.map_some, UnitRefs.track]
        exact hinv.clear hp hslot howner
      · simp only [if_neg howns, Option.map_some, UnitRefs.track]
        refine hinv.account rfl rfl rfl fun ptr owner heq => ?_
        cases heq
        exact ⟨Nat.le_refl _, fun _ => howner⟩

theorem RefsInv.ownerIs {unit : UnitPtr} {processId : UInt32} {same : Bool}
    (hinv : RefsInv s (g :: gs)) (hmay : g.May (.ownerIs unit processId))
    (hreread : UnitAction.RereadOk s (.ownerIs unit processId))
    (hexec : UnitExec s (.ownerIs unit processId) same s') :
    RefsInv s' ({ g with found := none } :: gs) ∧ g.Answers (.ownerIs unit processId) same := by
  obtain ⟨-, hexec⟩ := hexec
  simp only [UnitAction.exec, Option.map_eq_some_iff] at hexec
  obtain ⟨object, hobject, heq⟩ := hexec
  cases heq
  refine ⟨hinv.account rfl rfl rfl fun _ _ h => (by cases h), fun owner howner => ?_⟩
  obtain ⟨owner', hfound, hremoved⟩ := hmay
  rw [howner, Option.some.injEq, Prod.mk.injEq] at hfound
  obtain ⟨-, rfl⟩ := hfound
  obtain ⟨-, hknown⟩ := hinv.found g List.mem_cons_self unit owner howner
  rw [decide_eq_true_iff]
  constructor
  · intro hsame
    rcases hreread with hcur | hother
    · rw [hsame, hknown hcur object hobject]
    · exact absurd hsame.symm (hother object hobject)
  · intro hsame
    have hheld : unit ∈ g.held := List.mem_append_left _ (hremoved hsame)
    rw [← hsame, hknown (hinv.current g List.mem_cons_self unit (.inl hheld)) object hobject]

theorem RefsInv.postSrb {unit : UnitPtr} {srb ext : Addr} {r : List IoqCall × NtStatus}
    (hinv : RefsInv s (g :: gs)) (hptr : unit ∈ g.held) (hfound : g.found = none)
    (hexec : UnitExec s (.ioqPostSrb unit srb ext) r s') : RefsInv s' (g :: gs) := by
  obtain ⟨⟨hext, hfresh⟩, hexec⟩ := hexec
  simp only [UnitAction.exec, Option.map_eq_some_iff] at hexec
  obtain ⟨⟨dx', r⟩, hexec, heq⟩ := hexec
  cases heq
  refine hinv.onIoq hptr hfound hexec (fun object q ioq r hobject hq hcall => ?_)
    fun x y q hy hq i hi => ?_
  · obtain ⟨calls, status⟩ := r
    obtain ⟨q', hq', hitems⟩ := @ioqOp_keeps q object.ioq ioq calls status
      (.post ⟨ext, srb⟩) hq
      ⟨hext, hfresh unit.addr object q hobject hq⟩ hcall
    refine ⟨q', hq', fun i hi => ?_⟩
    rcases hitems i hi with hi | heq
    · exact .inl hi
    · cases heq
      exact .inr (Function.update_self _ _ _)
  · exact Function.update_of_ne (hfresh x y q hy hq i hi).2 _ _

theorem RefsInv.cancelSrb {unit : UnitPtr} {srb ext : Addr} {r : List IoqCall × NtStatus}
    (hinv : RefsInv s (g :: gs)) (hptr : unit ∈ g.held) (hfound : g.found = none)
    (hexec : UnitExec s (.ioqCancelSrb unit srb ext) r s') : RefsInv s' (g :: gs) := by
  obtain ⟨hown, hexec⟩ := hexec
  simp only [UnitAction.exec, Option.map_eq_some_iff] at hexec
  obtain ⟨⟨dx', r⟩, hexec, heq⟩ := hexec
  cases heq
  refine hinv.onIoq hptr hfound hexec (fun object q ioq r hobject hq hcall => ?_)
    fun _ _ _ _ _ _ _ => rfl
  by_cases hmem : ext ∈ q.items.map Item.ext
  · obtain ⟨i, hi, rfl⟩ := List.mem_map.mp hmem
    have hsrb : i.srb = srb := hown unit.addr object q hobject hq i hi rfl
    subst hsrb
    obtain ⟨calls, status⟩ := r
    obtain ⟨q', hq', hitems⟩ := @ioqOp_keeps q object.ioq ioq calls status
      (.cancel i) hq hi hcall
    exact ⟨q', hq', fun j hj => .inl ((hitems j hj).resolve_right fun h => by cases h)⟩
  · -- the queue does not have the SRB
    exact ⟨q, spdIoqCancelSrb_notMem hq hmem hcall, fun i hi => .inl hi⟩

/-- An action keeps the invariant, and answers what its thread may count on. -/
theorem RefsInv.exec {r : a.Answer} (hinv : RefsInv s (g :: gs)) (hmay : g.May a)
    (hcounted : UnitAction.Counted s (g :: gs) a r) (hreread : UnitAction.RereadOk s a)
    (hexec : UnitExec s a r s') :
    RefsInv s' (UnitRefs.track a r g :: gs) ∧ g.Answers a r := by
  cases a with
  | provision => exact ⟨hinv.provision hexec, trivial⟩
  | unprovision => exact ⟨hinv.unprovision hexec, trivial⟩
  | ownerIs => exact hinv.ownerIs hmay hreread hexec
  | referenceByBtl btl =>
      have hrun := hexec.exec
      simp only [UnitAction.exec, Option.map_eq_some_iff] at hrun
      obtain ⟨⟨dx', found⟩, hrun, heq⟩ := hrun
      cases heq
      unfold spdStorageUnitReferenceByBtl at hrun
      split at hrun
      · cases hrun
        exact ⟨hinv, trivial⟩
      · next p hunit =>
          rw [Option.map_eq_some_iff] at hrun
          obtain ⟨_, hadd, heq⟩ := hrun
          cases heq
          obtain ⟨hp, hslot⟩ := unitByBtl_slot hunit
          exact ⟨hinv.reference hp hslot hmay hcounted hadd, trivial⟩
  | referenceByDevice deviceObject =>
      have hrun := hexec.exec
      simp only [UnitAction.exec, Option.map_eq_some_iff] at hrun
      obtain ⟨⟨dx', found⟩, hrun, heq⟩ := hrun
      cases heq
      rw [spdStorageUnitReferenceByDevice, Option.bind_eq_bind, Option.bind_eq_some_iff] at hrun
      obtain ⟨result, hlookup, hrun⟩ := hrun
      cases result with
      | none =>
          cases hrun
          exact ⟨hinv, trivial⟩
      | some x =>
          obtain ⟨j, p⟩ := x
          simp only [Option.map_eq_some_iff] at hrun
          obtain ⟨_, hadd, heq⟩ := hrun
          cases heq
          obtain ⟨result, hresult, hslot⟩ := findUnit_mem (alive_present hinv.registry)
          rw [hlookup, Option.some.injEq] at hresult
          obtain ⟨hslot, hp⟩ := hslot j p hresult.symm
          exact ⟨hinv.reference hp hslot hmay hcounted hadd, trivial⟩
  | dereference unit =>
      have hrun := hexec.exec
      simp only [UnitAction.exec, Option.map_eq_some_iff] at hrun
      obtain ⟨⟨dx', delete⟩, hrun, heq⟩ := hrun
      cases heq
      exact ⟨hinv.dereference hmay.2.1 hmay.1 hmay.2.2 hrun, trivial⟩
  | free unit =>
      obtain ⟨object, -, rfl⟩ := unitExec_free hexec
      exact ⟨hinv.free hmay.2 hmay.1, trivial⟩
  | getUseBitmap =>
      have hrun := hexec.exec
      simp only [UnitAction.exec, Option.map_eq_some_iff] at hrun
      obtain ⟨x, -, heq⟩ := hrun
      cases heq
      exact ⟨hinv, trivial⟩
  | read | ioqStopped =>
      have hrun := hexec.exec
      simp only [UnitAction.exec, Option.map_eq_some_iff] at hrun
      obtain ⟨object, -, heq⟩ := hrun
      cases heq
      exact ⟨hinv, trivial⟩
  | setDevice unit deviceObject =>
      have hrun := hexec.exec
      simp only [UnitAction.exec, spdStorageUnitSetDevice, Option.bind_eq_bind,
        Option.map_eq_some_iff, Option.bind_eq_some_iff] at hrun
      obtain ⟨x, ⟨object, hobject, hset⟩, heq⟩ := hrun
      cases heq
      split at hset
      · cases hset
        have hcur := hinv.current g List.mem_cons_self unit (.inl hmay.2)
        have hqueue := hinv.queues unit.addr object hobject
        rw [hcur] at hqueue
        exact ⟨hinv.set hmay.2 hmay.1 hobject _ rfl rfl rfl hqueue fun _ _ _ _ _ _ _ _ => rfl,
          trivial⟩
      · cases hset
        exact ⟨hinv, trivial⟩
  | setTransactProcessId unit processId =>
      have hrun := hexec.exec
      simp only [UnitAction.exec, spdIoctlSetTransactProcessIdStore, Option.bind_eq_bind,
        Option.map_eq_some_iff, Option.bind_eq_some_iff] at hrun
      obtain ⟨x, ⟨object, hobject, hset⟩, heq⟩ := hrun
      cases hset
      cases heq
      have hcur := hinv.current g List.mem_cons_self unit (.inl hmay.2)
      have hqueue := hinv.queues unit.addr object hobject
      rw [hcur] at hqueue
      exact ⟨hinv.set hmay.2 hmay.1 hobject _ rfl rfl rfl hqueue fun _ _ _ _ _ _ _ _ => rfl,
        trivial⟩
  | ioqReset unit stop =>
      have hrun := hexec.exec
      simp only [UnitAction.exec, Option.map_eq_some_iff] at hrun
      obtain ⟨x, hrun, heq⟩ := hrun
      cases heq
      exact ⟨@RefsInv.ioqOp x.1 s g gs unit (.reset stop) x.2 hinv hmay.2 hmay.1
        (fun _ h => by cases h) (fun _ => trivial) hrun, trivial⟩
  | ioqStartProcessingSrb unit =>
      have hrun := hexec.exec
      simp only [UnitAction.exec, Option.map_eq_some_iff] at hrun
      obtain ⟨x, hrun, heq⟩ := hrun
      cases heq
      exact ⟨@RefsInv.ioqOp x.1 s g gs unit .start x.2 hinv hmay.2 hmay.1
        (fun _ h => by cases h) (fun _ => trivial) hrun, trivial⟩
  | ioqEndProcessingSrb unit hint status =>
      have hrun := hexec.exec
      simp only [UnitAction.exec, Option.map_eq_some_iff] at hrun
      obtain ⟨x, hrun, heq⟩ := hrun
      cases heq
      exact ⟨@RefsInv.ioqOp x.1 s g gs unit (.finish hint status) x.2 hinv hmay.2 hmay.1
        (fun _ h => by cases h) (fun _ => trivial) hrun, trivial⟩
  | ioqCancelSrb => exact ⟨hinv.cancelSrb hmay.2 hmay.1 hexec, trivial⟩
  | ioqPostSrb => exact ⟨hinv.postSrb hmay.2 hmay.1 hexec, trivial⟩
  | wait => cases hexec.exec

end Winspd.Proofs
