import Mathlib.Data.List.Count
import Winspd.Lib.Lifetimes
import Winspd.Proofs.IoqRun
import Winspd.Proofs.RegistryRun

/-!
# Blocks and SRBs

What the registry's operations allocate and free, and what work on the units'
queues posts and completes. `UnitsOp` is an operation of the registry, an
operation on the queue of a unit its caller has a reference to, or
`SpdHwFreeAdapterResources`. An event keeps the calls its operation made and
the blocks it allocated and freed, so that a history of events is the history
of every block and of every SRB.

Two things hold along every run. A block is allocated while its unit is in the
pool (`MemoryOk`), and an SRB that was posted to a unit has been completed
unless it is in the unit's queue (`SrbsOk`).
-/

namespace Winspd.Proofs

open Winspd.Lib Winspd.Sys Winspd.Spec

/-! ## The system -/

/-- The nonpaged memory of a unit: `SPD_STORAGE_UNIT` and `SPD_IOQ`. -/
inductive UnitBlock
  | unit (p : Addr)
  | ioq (p : Addr)
  deriving DecidableEq, Repr

inductive UnitsOp
  | registry (op : RegistryOp)
  | queue (p : Addr) (op : IoqOp)
  | freeAdapterResources

structure UnitsEvent where
  op : UnitsOp
  result : RegistryResult
  calls : List IoqCall
  memory : List (MemoryEvent UnitBlock)

def UnitsOp.exec (dx : SpdDeviceExtension) :
    UnitsOp → Option (SpdDeviceExtension × RegistryResult × List IoqCall)
  | .registry (.unprovision key processId) =>
      (spdStorageUnitUnprovision dx key processId).map fun r =>
        (r.1, ⟨r.2.1, -1, r.2.2.1⟩, r.2.2.2)
  | .registry (.dereference p) =>
      (spdStorageUnitDereference dx p).map fun r => (r.1, ⟨.success, -1, none⟩, r.2)
  | .registry op => (op.exec dx).map fun r => (r.1, r.2, [])
  | .queue p op => do
      let object ← dx.pool p
      let (ioq, calls, status) ← op.exec object.ioq
      some ({ dx with pool := Function.update dx.pool p (some { object with ioq := ioq }) },
        ⟨status, -1, none⟩, calls)
  | .freeAdapterResources => some (spdHwFreeAdapterResources dx, ⟨.success, -1, none⟩, [])

/-- The blocks an operation allocates and frees. A provision that fails frees
what it has allocated, and the last dereference deletes the queue and the
unit. -/
def UnitsOp.memory (dx : SpdDeviceExtension) (status : NtStatus) :
    UnitsOp → List (MemoryEvent UnitBlock)
  | .registry (.provision _ _ (some p) none) => [.alloc (.unit p), .free (.unit p)]
  | .registry (.provision _ _ (some p) (some _)) =>
      if status = .success then [.alloc (.unit p), .alloc (.ioq p)]
      else [.alloc (.unit p), .alloc (.ioq p), .free (.ioq p), .free (.unit p)]
  | .registry (.dereference p) =>
      match dx.pool p with
      | some object =>
          if object.unit.refCount - 1 = 0 then [.free (.ioq p), .free (.unit p)] else []
      | none => []
  | _ => []

def UnitsOp.held (held : List Addr) (unit : Option Addr) : UnitsOp → List Addr
  | .registry op => op.held held unit
  | _ => held

/-- Work on a queue is done by who has a reference to its unit, and as the
callers of the queue promise. -/
def UnitsOp.Allowed (dx : SpdDeviceExtension) (held : List Addr) : UnitsOp → Prop
  | .registry (.work _ _) => False
  | .registry op => op.Allowed dx held
  | .queue p op => p ∈ held ∧
      ∀ object q, dx.pool p = some object → Refines object.ioq q → op.Allowed q.items
  | .freeAdapterResources => held = []

structure UnitsStep (s : RegistrySys) (ev : UnitsEvent) (s' : RegistrySys) : Prop where
  allowed : ev.op.Allowed s.dx s.held
  exec : ev.op.exec s.dx = some (s'.dx, ev.result, ev.calls)
  memory : ev.memory = ev.op.memory s.dx ev.result.status
  held : s'.held = ev.op.held s.held ev.result.unit

/-- The SRB the event posted, with the unit it was posted to. -/
def UnitsEvent.posted (ev : UnitsEvent) : List (Addr × Addr) :=
  match ev.op with
  | .queue p (.post i) => if ev.result.status = .success then [(p, i.srb)] else []
  | _ => []

def UnitsEvent.unit (ev : UnitsEvent) : Option Addr :=
  match ev.op with
  | .registry (.unprovision _ _) => ev.result.unit
  | .registry (.dereference p) => some p
  | .queue p _ => some p
  | _ => none

/-- The SRBs the event completed, with the unit they were posted to. -/
def UnitsEvent.completed (ev : UnitsEvent) : List (Addr × Addr) :=
  match ev.unit with
  | some p => (ev.calls.filterMap completedSrb).map fun srb => (p, srb)
  | none => []

def memoryEvents (ls : List UnitsEvent) : List (MemoryEvent UnitBlock) :=
  ls.flatMap UnitsEvent.memory

def postedSrbs (ls : List UnitsEvent) : List (Addr × Addr) := ls.flatMap UnitsEvent.posted

def completedSrbs (ls : List UnitsEvent) : List (Addr × Addr) := ls.flatMap UnitsEvent.completed

/-! ## What one event does -/

variable {dx dx' : SpdDeviceExtension} {held : List Addr} {s s' : RegistrySys} {ev : UnitsEvent}
  {ls : List UnitsEvent} {p x : Addr} {capacity : UInt32} {r : RegistryResult}
  {calls : List IoqCall} {es : List (MemoryEvent UnitBlock)}

theorem ioqOp_items (ev : IoqEvent) {object : UnitObject} {q : Queue} {ioq : SpdIoq}
    (hr : Refines object.ioq q) (ha : ev.op.Allowed q.items)
    (hexec : ev.op.exec object.ioq = some (ioq, ev.calls, ev.status)) :
    ∃ q', Refines ioq q' ∧ ev.op.spec q = some (q', ev.calls, ev.status) ∧ ∀ srb,
      (q.items.map Item.srb).count srb + (ev.accepted.map Item.srb).count srb =
        ev.completed.count srb + (q'.items.map Item.srb).count srb := by
  have hagree := exec_agree hr ha
  rw [hexec] at hagree
  obtain ⟨q', hspec, hr'⟩ := hagree.of_some
  obtain ⟨done, hdone, hperm⟩ := spec_items hr.wf ha hspec
  refine ⟨q', hr', hspec, fun srb => ?_⟩
  have hcount := (hperm.map Item.srb).count_eq srb
  rw [List.map_append, List.map_append, List.count_append, List.count_append] at hcount
  rw [hdone]
  exact hcount

theorem UnitsOp.exec_registry {op : RegistryOp}
    (h : UnitsOp.exec dx (.registry op) = some (dx', r, calls)) : op.exec dx = some (dx', r) := by
  cases op with
  | unprovision key processId =>
      simp only [UnitsOp.exec, Option.map_eq_some_iff] at h
      obtain ⟨x, hx, h⟩ := h
      cases h
      simp only [RegistryOp.exec, hx, Option.map_some]
  | dereference p =>
      simp only [UnitsOp.exec, Option.map_eq_some_iff] at h
      obtain ⟨x, hx, h⟩ := h
      cases h
      simp only [RegistryOp.exec, hx, Option.map_some]
  | _ =>
      simp only [UnitsOp.exec, Option.map_eq_some_iff] at h
      obtain ⟨x, hx, h⟩ := h
      cases h
      exact hx

theorem UnitsOp.exec_queue {op : IoqOp} (h : UnitsOp.exec dx (.queue p op) = some (dx', r, calls)) :
    ∃ object ioq, dx.pool p = some object ∧ op.exec object.ioq = some (ioq, calls, r.status) ∧
      dx' = { dx with pool := Function.update dx.pool p (some { object with ioq := ioq }) } := by
  simp only [UnitsOp.exec, Option.bind_eq_bind, Option.bind_eq_some_iff] at h
  obtain ⟨object, hobject, ⟨ioq, calls', status⟩, hexec, h⟩ := h
  cases h
  exact ⟨object, ioq, hobject, hexec, rfl⟩

theorem UnitsStep.inv (h : UnitsStep s ev s') (hinv : RegistryInv s.dx s.held) :
    RegistryInv s'.dx s'.held := by
  obtain ⟨hallowed, hexec, -, hheld⟩ := h
  obtain ⟨op, result, calls, memory⟩ := ev
  cases op with
  | registry op =>
      have hstep : RegistryStep s ⟨op, result⟩ s' := by
        refine ⟨?_, UnitsOp.exec_registry hexec, hheld⟩
        cases op with
        | work => exact absurd hallowed not_false
        | _ => exact hallowed
      exact (hinv.step hstep).1
  | queue p op =>
      obtain ⟨object, ioq, hobject, hop, hdx⟩ := UnitsOp.exec_queue hexec
      obtain ⟨q, hr⟩ := (hinv.objects p object hobject).queue
      obtain ⟨q', hr', -⟩ := ioqOp_items ⟨op, calls, result.status⟩ hr
        (hallowed.2 object q hobject hr) hop
      have hstep : RegistryStep s ⟨.work p ioq, ⟨.success, -1, none⟩⟩ s' := by
        refine ⟨⟨hallowed.1, q', hr'⟩, ?_, hheld⟩
        simp only [RegistryOp.exec, hobject, Option.map_some, hdx]
      exact (hinv.step hstep).1
  | freeAdapterResources =>
      have hdx : s.dx = s'.dx := congrArg Prod.fst (Option.some.inj hexec)
      rw [hheld, ← hdx]
      exact hinv

/-! ## Blocks -/

/-- The blocks of the units in the pool are allocated, and no others. -/
def MemoryOk (es : List (MemoryEvent UnitBlock)) (dx : SpdDeviceExtension) : Prop :=
  ∀ p, lifetime (.unit p) es = some (dx.pool p).isSome ∧
    lifetime (.ioq p) es = some (dx.pool p).isSome

def SameUnits (dx dx' : SpdDeviceExtension) : Prop :=
  ∀ p, (dx'.pool p).isSome = (dx.pool p).isSome

theorem MemoryOk.same (h : MemoryOk es dx) (hsame : SameUnits dx dx') : MemoryOk es dx' := by
  intro p
  rw [hsame p]
  exact h p

theorem sameUnits_update {object object' : UnitObject} (h : dx.pool p = some object) :
    SameUnits dx { dx with pool := Function.update dx.pool p (some object') } := by
  intro x
  show (Function.update dx.pool p (some object') x).isSome = _
  by_cases hx : x = p
  · subst hx
    rw [Function.update_self, h]
    rfl
  · rw [Function.update_of_ne hx]

/-- Events of the blocks of `p`, after which `p` is in the pool or is not. -/
theorem MemoryOk.update {es' : List (MemoryEvent UnitBlock)} (h : MemoryOk es dx)
    (new : Option UnitObject)
    (hunit : lifetime (.unit p) (es ++ es') = some new.isSome)
    (hioq : lifetime (.ioq p) (es ++ es') = some new.isSome)
    (hes : ∀ e ∈ es', e = .alloc (.unit p) ∨ e = .alloc (.ioq p) ∨ e = .free (.ioq p) ∨
      e = .free (.unit p)) {pool : Addr → Option UnitObject}
    (hpool : pool = Function.update dx.pool p new) {dx' : SpdDeviceExtension}
    (hdx : dx'.pool = pool) : MemoryOk (es ++ es') dx' := by
  intro x
  rw [hdx, hpool]
  by_cases hx : x = p
  · subst hx
    rw [Function.update_self]
    exact ⟨hunit, hioq⟩
  · rw [Function.update_of_ne hx]
    have hpx : p ≠ x := Ne.symm hx
    constructor
    · rw [lifetime_other fun e he => ?_]
      · exact (h x).1
      · rcases hes e he with rfl | rfl | rfl | rfl <;> simp [hpx]
    · rw [lifetime_other fun e he => ?_]
      · exact (h x).2
      · rcases hes e he with rfl | rfl | rfl | rfl <;> simp [hpx]

theorem MemoryOk.of_absent (h : MemoryOk es dx) (hp : dx.pool p = none) :
    lifetime (.unit p) es = some false ∧ lifetime (.ioq p) es = some false := by
  have hboth := h p
  rw [hp] at hboth
  exact hboth

theorem MemoryOk.of_present {object : UnitObject} (h : MemoryOk es dx)
    (hp : dx.pool p = some object) :
    lifetime (.unit p) es = some true ∧ lifetime (.ioq p) es = some true := by
  have hboth := h p
  rw [hp] at hboth
  exact hboth

theorem MemoryOk.noQueue (h : MemoryOk es dx) (hp : dx.pool p = none) :
    MemoryOk (es ++ [.alloc (.unit p), .free (.unit p)]) dx := by
  obtain ⟨hunit, hioq⟩ := h.of_absent hp
  have hself : dx.pool = Function.update dx.pool p none := by rw [← hp, Function.update_eq_self]
  refine h.update none ?_ ?_ (fun e he => ?_) hself rfl
  · rw [lifetime_append hunit]
    simp [MemoryEvent.next]
  · rw [lifetime_append hioq]
    simp [MemoryEvent.next]
  · simp only [List.mem_cons, List.not_mem_nil, or_false] at he
    rcases he with rfl | rfl <;> simp

theorem MemoryOk.noPlace (h : MemoryOk es dx) (hp : dx.pool p = none) :
    MemoryOk (es ++ [.alloc (.unit p), .alloc (.ioq p), .free (.ioq p), .free (.unit p)]) dx := by
  obtain ⟨hunit, hioq⟩ := h.of_absent hp
  have hself : dx.pool = Function.update dx.pool p none := by rw [← hp, Function.update_eq_self]
  refine h.update none ?_ ?_ (fun e he => ?_) hself rfl
  · rw [lifetime_append hunit]
    simp [MemoryEvent.next]
  · rw [lifetime_append hioq]
    simp [MemoryEvent.next]
  · simp only [List.mem_cons, List.not_mem_nil, or_false] at he
    rcases he with rfl | rfl | rfl | rfl <;> simp

theorem MemoryOk.provisioned {object : UnitObject} (h : MemoryOk es dx) (hp : dx.pool p = none)
    (hdx : dx'.pool = Function.update dx.pool p (some object)) :
    MemoryOk (es ++ [.alloc (.unit p), .alloc (.ioq p)]) dx' := by
  obtain ⟨hunit, hioq⟩ := h.of_absent hp
  refine h.update (some object) ?_ ?_ (fun e he => ?_) rfl hdx
  · rw [lifetime_append hunit]
    simp [MemoryEvent.next]
  · rw [lifetime_append hioq]
    simp [MemoryEvent.next]
  · simp only [List.mem_cons, List.not_mem_nil, or_false] at he
    rcases he with rfl | rfl <;> simp

theorem MemoryOk.freed {object : UnitObject} (h : MemoryOk es dx) (hp : dx.pool p = some object)
    (hdx : dx'.pool = Function.update dx.pool p none) :
    MemoryOk (es ++ [.free (.ioq p), .free (.unit p)]) dx' := by
  obtain ⟨hunit, hioq⟩ := h.of_present hp
  refine h.update none ?_ ?_ (fun e he => ?_) rfl hdx
  · rw [lifetime_append hunit]
    simp [MemoryEvent.next]
  · rw [lifetime_append hioq]
    simp [MemoryEvent.next]
  · simp only [List.mem_cons, List.not_mem_nil, or_false] at he
    rcases he with rfl | rfl <;> simp

theorem memoryOk_provision {params : StorageUnitParams} {processId : UInt32}
    {unitMem : Option Addr} {ioqMem : Option SpdIoq} (hinv : RegistryInv dx held)
    (hm : MemoryOk es dx) (hfresh : ∀ p, unitMem = some p → p ≠ 0 ∧ dx.pool p = none)
    (hexec : RegistryOp.exec dx (.provision params processId unitMem ioqMem) = some (dx', r)) :
    MemoryOk (es ++ UnitsOp.memory dx r.status
      (.registry (.provision params processId unitMem ioqMem))) dx' := by
  cases unitMem with
  | none => cases hexec
  | some p =>
      obtain ⟨hp, hnone⟩ := hfresh p rfl
      cases ioqMem with
      | none =>
          obtain rfl : dx = dx' := congrArg Prod.fst (Option.some.inj hexec)
          exact hm.noQueue hnone
      | some mem =>
          obtain ⟨t, status, found, dx₁, hspec, hprovision, hdx, -, -⟩ :=
            spdStorageUnitProvision_agree hinv hp hnone params processId mem
          simp only [RegistryOp.exec, hprovision, Option.map_some, Option.some.injEq,
            Prod.mk.injEq] at hexec
          obtain ⟨rfl, rfl⟩ := hexec
          obtain ⟨hfailed, rfl⟩ | ⟨i, hsuccess, rfl⟩ :
              (status ≠ .success ∧ found = none) ∨ ∃ i, status = .success ∧
              found = some i := by
            obtain ⟨-, heq⟩ | ⟨-, -, heq⟩ | ⟨i, -, -, heq⟩ :=
              Registry.provision_cases (table dx) ⟨p, params.guid, processId⟩
            all_goals
              rw [hspec, Prod.mk.injEq, Prod.mk.injEq] at heq
              obtain ⟨-, rfl, rfl⟩ := heq
            · exact .inl ⟨by decide, rfl⟩
            · exact .inl ⟨by decide, rfl⟩
            · exact .inr ⟨i, rfl, rfl⟩
          · have hevents : UnitsOp.memory dx status
                (.registry (.provision params processId (some p) (some mem))) =
                [.alloc (.unit p), .alloc (.ioq p), .free (.ioq p), .free (.unit p)] :=
              if_neg hfailed
            rw [hdx]
            simp only [hevents]
            exact hm.noPlace hnone
          · have hevents : UnitsOp.memory dx status
                (.registry (.provision params processId (some p) (some mem))) =
                [.alloc (.unit p), .alloc (.ioq p)] := if_pos hsuccess
            simp only [hevents]
            exact hm.provisioned hnone (congrArg SpdDeviceExtension.pool hdx)

theorem dereference_effect (hexec : spdStorageUnitDereference dx p = some (dx', calls)) :
    ∃ object, dx.pool p = some object ∧
      ((object.unit.refCount - 1 = 0 ∧ spdIoqDelete object.ioq = some calls ∧
          dx' = { dx with pool := Function.update dx.pool p none }) ∨
        (object.unit.refCount - 1 ≠ 0 ∧ calls = [] ∧ ∃ object',
          dx' = { dx with pool := Function.update dx.pool p (some object') } ∧
            object'.ioq = object.ioq)) := by
  rw [spdStorageUnitDereference, Option.bind_eq_bind, Option.bind_eq_some_iff] at hexec
  obtain ⟨object, hobject, hexec⟩ := hexec
  refine ⟨object, hobject, ?_⟩
  by_cases hlast : object.unit.refCount - 1 = 0
  · simp only [hlast, if_true, Option.bind_eq_bind, Option.bind_eq_some_iff] at hexec
    obtain ⟨calls', hdelete, hexec⟩ := hexec
    cases hexec
    exact .inl ⟨hlast, hdelete, rfl⟩
  · simp only [hlast, if_false] at hexec
    cases hexec
    exact .inr ⟨hlast, rfl, _, rfl, rfl⟩

theorem memoryOk_dereference (hm : MemoryOk es dx)
    (hexec : spdStorageUnitDereference dx p = some (dx', calls)) :
    MemoryOk (es ++ UnitsOp.memory dx r.status (.registry (.dereference p))) dx' := by
  obtain ⟨object, hobject, ⟨hlast, -, rfl⟩ | ⟨hmore, -, object', rfl, -⟩⟩ :=
    dereference_effect hexec
  · simp only [UnitsOp.memory, hobject, if_pos hlast]
    exact hm.freed hobject rfl
  · simp only [UnitsOp.memory, hobject, if_neg hmore, List.append_nil]
    exact hm.same (sameUnits_update hobject)

/-- What a unit in the pool is replaced by has its queue, unless it says
otherwise. -/
inductive PoolEffect (dx dx' : SpdDeviceExtension) : Prop
  | same (h : dx'.pool = dx.pool)
  | set {p : Addr} {object object' : UnitObject} (hobject : dx.pool p = some object)
      (hpool : dx'.pool = Function.update dx.pool p (some object'))
      (hioq : object'.ioq = object.ioq)

theorem addRef_effect (h : dx.addRef p = some dx') : PoolEffect dx dx' := by
  rw [SpdDeviceExtension.addRef, Option.bind_eq_bind, Option.bind_eq_some_iff] at h
  obtain ⟨object, hobject, h⟩ := h
  cases h
  exact .set hobject rfl rfl

/-- The operations that neither make nor remove a unit and leave the queues
alone. -/
def RegistryOp.KeepsQueues : RegistryOp → Prop
  | .referenceByBtl _ | .referenceByDevice _ | .setDevice _ _ | .setTransactProcessId _ _ => True
  | _ => False

theorem RegistryOp.poolEffect {op : RegistryOp} (hop : op.KeepsQueues)
    (hexec : op.exec dx = some (dx', r)) : PoolEffect dx dx' := by
  cases op with
  | referenceByBtl btl =>
      simp only [RegistryOp.exec, Option.map_eq_some_iff] at hexec
      obtain ⟨⟨dx₁, found⟩, hexec, heq⟩ := hexec
      cases heq
      unfold spdStorageUnitReferenceByBtl at hexec
      split at hexec
      · cases hexec
        exact .same rfl
      · rw [Option.map_eq_some_iff] at hexec
        obtain ⟨_, hadd, heq⟩ := hexec
        cases heq
        exact addRef_effect hadd
  | referenceByDevice deviceObject =>
      simp only [RegistryOp.exec, Option.map_eq_some_iff] at hexec
      obtain ⟨⟨dx₁, found⟩, hexec, heq⟩ := hexec
      cases heq
      rw [spdStorageUnitReferenceByDevice, Option.bind_eq_bind, Option.bind_eq_some_iff] at hexec
      obtain ⟨result, -, hexec⟩ := hexec
      cases result with
      | none =>
          cases hexec
          exact .same rfl
      | some x =>
          simp only [Option.map_eq_some_iff] at hexec
          obtain ⟨_, hadd, heq⟩ := hexec
          cases heq
          exact addRef_effect hadd
  | setDevice p deviceObject =>
      simp only [RegistryOp.exec, Option.map_eq_some_iff] at hexec
      obtain ⟨⟨dx₁, status⟩, hexec, heq⟩ := hexec
      cases heq
      rw [spdStorageUnitSetDevice, Option.bind_eq_bind, Option.bind_eq_some_iff] at hexec
      obtain ⟨object, hobject, hexec⟩ := hexec
      split at hexec
      · cases hexec
        exact .set hobject rfl rfl
      · cases hexec
        exact .same rfl
  | setTransactProcessId p processId =>
      simp only [RegistryOp.exec, Option.map_eq_some_iff] at hexec
      obtain ⟨dx₁, hexec, heq⟩ := hexec
      cases heq
      rw [spdIoctlSetTransactProcessIdStore, Option.bind_eq_bind, Option.bind_eq_some_iff] at hexec
      obtain ⟨object, hobject, hexec⟩ := hexec
      cases hexec
      exact .set hobject rfl rfl
  | _ => exact absurd hop not_false

/-- What an unprovision does to the pool, with the calls of the queue it
stops. -/
theorem unprovision_effect {key : UnitKey} {processId : UInt32} {status : NtStatus}
    {unit : Option Addr}
    (hexec : spdStorageUnitUnprovision dx key processId = some (dx', status, unit, calls)) :
    (dx' = dx ∧ unit = none ∧ calls = []) ∨ ∃ p object ioq, dx.pool p = some object ∧
      unit = some p ∧ spdIoqReset object.ioq true = some (ioq, calls) ∧
      dx'.pool = Function.update dx.pool p (some { object with ioq := ioq }) := by
  rw [spdStorageUnitUnprovision, Option.bind_eq_bind, Option.bind_eq_some_iff] at hexec
  obtain ⟨found, -, hexec⟩ := hexec
  cases found with
  | none =>
      cases hexec
      exact .inl ⟨rfl, rfl, rfl⟩
  | some x =>
      obtain ⟨index, p⟩ := x
      simp only [Option.bind_eq_bind, Option.bind_eq_some_iff] at hexec
      obtain ⟨object, hobject, hexec⟩ := hexec
      split at hexec
      · cases hexec
        exact .inl ⟨rfl, rfl, rfl⟩
      · simp only [Option.bind_eq_some_iff] at hexec
        obtain ⟨⟨ioq, calls'⟩, hreset, hexec⟩ := hexec
        cases hexec
        exact .inr ⟨p, object, ioq, hobject, rfl, hreset, rfl⟩

theorem PoolEffect.sameUnits (h : PoolEffect dx dx') : SameUnits dx dx' := by
  intro x
  cases h with
  | same hpool => rw [hpool]
  | @set p object object' hobject hpool hioq =>
      rw [hpool]
      exact @sameUnits_update dx p object _ hobject x

theorem UnitsOp.memoryOk {op : UnitsOp} (hinv : RegistryInv dx held) (hm : MemoryOk es dx)
    (hallowed : op.Allowed dx held) (hexec : op.exec dx = some (dx', r, calls)) :
    MemoryOk (es ++ op.memory dx r.status) dx' := by
  cases op with
  | registry op =>
      have hreg := UnitsOp.exec_registry hexec
      cases op with
      | provision => exact memoryOk_provision hinv hm hallowed hreg
      | dereference p =>
          simp only [UnitsOp.exec, Option.map_eq_some_iff] at hexec
          obtain ⟨⟨dx₁, calls₁⟩, hderef, heq⟩ := hexec
          cases heq
          exact memoryOk_dereference hm hderef
      | unprovision key processId =>
          simp only [UnitsOp.exec, Option.map_eq_some_iff] at hexec
          obtain ⟨⟨dx₁, status, unit, calls₁⟩, hunprovision, heq⟩ := hexec
          cases heq
          show MemoryOk (es ++ []) dx₁
          rw [List.append_nil]
          obtain ⟨rfl, -, -⟩ | ⟨p, object, ioq, hobject, -, -, hpool⟩ :=
            unprovision_effect hunprovision
          · exact hm
          · refine hm.same fun x => ?_
            rw [hpool]
            exact @sameUnits_update dx p object _ hobject x
      | work => exact absurd hallowed not_false
      | referenceByBtl | referenceByDevice | setDevice | setTransactProcessId =>
          show MemoryOk (es ++ []) dx'
          rw [List.append_nil]
          exact hm.same (RegistryOp.poolEffect (by trivial) hreg).sameUnits
  | queue p op =>
      obtain ⟨object, ioq, hobject, -, hdx⟩ := UnitsOp.exec_queue hexec
      show MemoryOk (es ++ []) dx'
      rw [List.append_nil, hdx]
      exact hm.same (sameUnits_update hobject)
  | freeAdapterResources =>
      cases hexec
      show MemoryOk (es ++ []) dx
      rw [List.append_nil]
      exact hm

/-! ## SRBs -/

/-- The SRBs in the queue of a unit, if there is one. -/
def Queued (object : Option UnitObject) (srbs : List Addr) : Prop :=
  match object with
  | none => srbs = []
  | some object => ∃ q, Refines object.ioq q ∧ srbs = q.items.map Item.srb

/-- What was posted was completed or is queued. -/
def SrbsOk (posted completed : List (Addr × Addr)) (dx : SpdDeviceExtension) : Prop :=
  ∀ p, ∃ srbs, Queued (dx.pool p) srbs ∧
    ∀ srb, posted.count (p, srb) = completed.count (p, srb) + srbs.count srb

/-- The SRBs an event moves, unit by unit. -/
def SrbEffect (dx dx' : SpdDeviceExtension) (posted completed : List (Addr × Addr)) : Prop :=
  ∀ p srbs, Queued (dx.pool p) srbs → ∃ srbs', Queued (dx'.pool p) srbs' ∧
    ∀ srb, srbs.count srb + posted.count (p, srb) = completed.count (p, srb) + srbs'.count srb

theorem SrbsOk.step {posted completed posted' completed' : List (Addr × Addr)}
    (h : SrbsOk posted completed dx) (heffect : SrbEffect dx dx' posted' completed') :
    SrbsOk (posted ++ posted') (completed ++ completed') dx' := by
  intro p
  obtain ⟨srbs, hqueued, hcount⟩ := h p
  obtain ⟨srbs', hqueued', hcount'⟩ := heffect p srbs hqueued
  refine ⟨srbs', hqueued', fun srb => ?_⟩
  have h₁ := hcount srb
  have h₂ := hcount' srb
  rw [List.count_append, List.count_append]
  omega

theorem Queued.congr {object object' : UnitObject} {srbs : List Addr}
    (h : object'.ioq = object.ioq) (hq : Queued (some object) srbs) :
    Queued (some object') srbs := by
  obtain ⟨q, hr, hsrbs⟩ := hq
  exact ⟨q, by rw [h]; exact hr, hsrbs⟩

theorem PoolEffect.srbs (h : PoolEffect dx dx') : SrbEffect dx dx' [] [] := by
  intro x srbs hq
  refine ⟨srbs, ?_, fun _ => Nat.add_comm _ _⟩
  cases h with
  | same hpool => rwa [hpool]
  | @set p object object' hobject hpool hioq =>
      rw [hpool]
      by_cases hx : x = p
      · subst hx
        rw [Function.update_self]
        rw [hobject] at hq
        exact hq.congr hioq
      · rwa [Function.update_of_ne hx]

theorem srbEffect_update {new : Option UnitObject} (posted completed : List Addr)
    (hpool : dx'.pool = Function.update dx.pool p new)
    (h : ∀ srbs, Queued (dx.pool p) srbs → ∃ srbs', Queued new srbs' ∧
      ∀ srb, srbs.count srb + posted.count srb = completed.count srb + srbs'.count srb) :
    SrbEffect dx dx' (posted.map fun srb => (p, srb)) (completed.map fun srb => (p, srb)) := by
  intro x srbs hq
  rw [hpool]
  by_cases hx : x = p
  · subst hx
    rw [Function.update_self]
    obtain ⟨srbs', hq', hcount⟩ := h srbs hq
    refine ⟨srbs', hq', fun srb => ?_⟩
    rw [List.count_map_of_injective _ _ (Prod.mk_right_injective x),
      List.count_map_of_injective _ _ (Prod.mk_right_injective x)]
    exact hcount srb
  · rw [Function.update_of_ne hx]
    refine ⟨srbs, hq, fun srb => ?_⟩
    have hzero : ∀ l : List Addr, (l.map fun srb => (p, srb)).count (x, srb) = 0 := by
      intro l
      rw [List.count_eq_zero]
      intro hmem
      obtain ⟨y, -, heq⟩ := List.mem_map.mp hmem
      exact hx (congrArg Prod.fst heq).symm
    rw [hzero, hzero, Nat.add_comm]

theorem reset_queued {object : UnitObject} {stop : Bool} {ioq : SpdIoq} {srbs : List Addr}
    (hreset : spdIoqReset object.ioq stop = some (ioq, calls)) (hq : Queued (some object) srbs) :
    Queued (some { object with ioq := ioq }) [] ∧
      ∀ srb, srbs.count srb = (calls.filterMap completedSrb).count srb := by
  obtain ⟨q, hr, rfl⟩ := hq
  have hexec : IoqOp.exec object.ioq (.reset stop) = some (ioq, calls, .success) := by
    simp only [IoqOp.exec, hreset, Option.map_some]
  obtain ⟨q', hr', hspec, hcount⟩ := ioqOp_items ⟨.reset stop, calls, .success⟩ hr
    trivial hexec
  have hnil : q'.items = [] := by
    have hq' : (q.reset stop).1 = q' := congrArg Prod.fst (Option.some.inj hspec)
    rw [← hq', Queue.reset]
    split
    · next hstopped => exact hr.wf.drained hstopped
    · rfl
  rw [hnil] at hcount
  exact ⟨⟨q', hr', by rw [hnil]; rfl⟩, hcount⟩

theorem srbEffect_provision {params : StorageUnitParams} {processId : UInt32}
    {unitMem : Option Addr} {ioqMem : Option SpdIoq} (hinv : RegistryInv dx held)
    (hfresh : ∀ p, unitMem = some p → p ≠ 0 ∧ dx.pool p = none)
    (hexec : RegistryOp.exec dx (.provision params processId unitMem ioqMem) = some (dx', r)) :
    SrbEffect dx dx' [] [] := by
  cases unitMem with
  | none => cases hexec
  | some p =>
      obtain ⟨hp, hnone⟩ := hfresh p rfl
      cases ioqMem with
      | none =>
          obtain rfl : dx = dx' := congrArg Prod.fst (Option.some.inj hexec)
          exact (PoolEffect.same rfl).srbs
      | some mem =>
          obtain ⟨t, status, found, dx₁, -, hprovision, hdx, -, -⟩ :=
            spdStorageUnitProvision_agree hinv hp hnone params processId mem
          simp only [RegistryOp.exec, hprovision, Option.map_some, Option.some.injEq,
            Prod.mk.injEq] at hexec
          obtain ⟨rfl, -⟩ := hexec
          cases found with
          | none =>
              rw [hdx]
              exact (PoolEffect.same rfl).srbs
          | some i =>
              refine srbEffect_update (p := p) [] []
                (congrArg SpdDeviceExtension.pool hdx) fun srbs hq => ?_
              rw [hnone] at hq
              obtain rfl : srbs = [] := hq
              exact ⟨[], ⟨.empty, spdIoqCreate_refines mem, rfl⟩, fun _ => rfl⟩

theorem srbEffect_dereference (hexec : spdStorageUnitDereference dx p = some (dx', calls)) :
    SrbEffect dx dx' [] ((calls.filterMap completedSrb).map fun srb => (p, srb)) := by
  obtain ⟨object, hobject, ⟨-, hdelete, rfl⟩ | ⟨-, rfl, object', rfl, hioq⟩⟩ :=
    dereference_effect hexec
  · rw [spdIoqDelete, Option.map_eq_some_iff] at hdelete
    obtain ⟨⟨ioq, calls₁⟩, hreset, heq⟩ := hdelete
    cases heq
    refine srbEffect_update [] _ rfl fun srbs hq => ?_
    rw [hobject] at hq
    exact ⟨[], rfl, (reset_queued hreset hq).2⟩
  · exact (PoolEffect.set hobject rfl hioq).srbs

theorem UnitsEvent.srbEffect (hinv : RegistryInv dx held) (hallowed : ev.op.Allowed dx held)
    (hexec : ev.op.exec dx = some (dx', ev.result, ev.calls)) :
    SrbEffect dx dx' ev.posted ev.completed := by
  obtain ⟨op, result, calls, memory⟩ := ev
  cases op with
  | registry op =>
      have hreg := UnitsOp.exec_registry hexec
      cases op with
      | provision => exact srbEffect_provision hinv hallowed hreg
      | dereference p =>
          simp only [UnitsOp.exec, Option.map_eq_some_iff] at hexec
          obtain ⟨⟨dx₁, calls₁⟩, hderef, heq⟩ := hexec
          cases heq
          exact srbEffect_dereference hderef
      | unprovision key processId =>
          simp only [UnitsOp.exec, Option.map_eq_some_iff] at hexec
          obtain ⟨⟨dx₁, status, unit, calls₁⟩, hunprovision, heq⟩ := hexec
          cases heq
          obtain ⟨rfl, rfl, rfl⟩ | ⟨p, object, ioq, hobject, rfl, hreset, hpool⟩ :=
            unprovision_effect hunprovision
          · exact (PoolEffect.same rfl).srbs
          · refine srbEffect_update [] _ hpool fun srbs hq => ?_
            rw [hobject] at hq
            obtain ⟨hq', hcount⟩ := reset_queued hreset hq
            exact ⟨[], hq', hcount⟩
      | work => exact absurd hallowed not_false
      | referenceByBtl | referenceByDevice | setDevice | setTransactProcessId =>
          exact (RegistryOp.poolEffect (by trivial) hreg).srbs
  | queue p op =>
      obtain ⟨object, ioq, hobject, hop, hdx⟩ := UnitsOp.exec_queue hexec
      have hposted : UnitsEvent.posted ⟨.queue p op, result, calls, memory⟩ =
          ((IoqEvent.accepted ⟨op, calls, result.status⟩).map Item.srb).map fun srb =>
            (p, srb) := by
        cases op with
        | post i =>
            by_cases hst : result.status = .success
            · simp only [UnitsEvent.posted, IoqEvent.accepted, hst, if_true, List.map_cons,
                List.map_nil]
            · simp only [UnitsEvent.posted, IoqEvent.accepted, hst, if_false, List.map_nil]
        | _ => rfl
      rw [hposted]
      refine srbEffect_update _ _ (congrArg SpdDeviceExtension.pool hdx) fun srbs hq => ?_
      rw [hobject] at hq
      obtain ⟨q, hr, rfl⟩ := hq
      obtain ⟨q', hr', -, hcount⟩ := ioqOp_items ⟨op, calls, result.status⟩ hr
        (hallowed.2 object q hobject hr) hop
      exact ⟨_, ⟨q', hr', rfl⟩, hcount⟩
  | freeAdapterResources =>
      cases hexec
      exact (PoolEffect.same rfl).srbs

/-! ## Runs -/

structure UnitsInv (ls : List UnitsEvent) (s : RegistrySys) : Prop where
  inv : RegistryInv s.dx s.held
  memory : MemoryOk (memoryEvents ls) s.dx
  srbs : SrbsOk (postedSrbs ls) (completedSrbs ls) s.dx

theorem UnitsInv.step (hinv : UnitsInv ls s) (h : UnitsStep s ev s') :
    UnitsInv (ls ++ [ev]) s' := by
  have hmemory : memoryEvents (ls ++ [ev]) =
      memoryEvents ls ++ ev.op.memory s.dx ev.result.status := by
    simp [memoryEvents, h.memory]
  have hposted : postedSrbs (ls ++ [ev]) = postedSrbs ls ++ ev.posted := by simp [postedSrbs]
  have hcompleted : completedSrbs (ls ++ [ev]) = completedSrbs ls ++ ev.completed := by
    simp [completedSrbs]
  refine ⟨h.inv hinv.inv, ?_, ?_⟩
  · rw [hmemory]
    exact UnitsOp.memoryOk hinv.inv hinv.memory h.allowed h.exec
  · rw [hposted, hcompleted]
    exact hinv.srbs.step (UnitsEvent.srbEffect hinv.inv h.allowed h.exec)

theorem unitsRun_inv (hcap : capacity.toNat ≤ 256)
    (hrun : Run UnitsStep (.init capacity) ls s) : UnitsInv ls s :=
  hrun.history (I := UnitsInv)
    ⟨registryInv_init hcap, fun _ => ⟨rfl, rfl⟩, fun _ => ⟨[], rfl, fun _ => rfl⟩⟩
    fun _ hinv h => hinv.step h

end Winspd.Proofs
