import Winspd.Proofs.Service
import Winspd.Proofs.Requests
import Winspd.Sys.Handlers
import Winspd.Sys.Shared

/-!
# The storage unit objects of a process

An object keeps the BTL and the GUID it got its unit by, and asks the driver by
these for as long as it exists, also when its unit was unprovisioned and the slot
or the GUID is another unit's. The driver compares no more than process ids, and
they are those of one process.

`ObjectStep` is any interleaving of what the objects of one process ask, and of
everything else that happens to the registry: requests of other processes, SRBs,
designations. `SpdStorageUnitShutdown`, the first half of `SpdStorageUnitDelete`,
the end of a dispatcher thread and a `SpdStorageUnitSendResponse` that failed are
the same `UNPROVISION`.

While the unit of an object is provisioned, its BTL and its GUID lead to it
(`ObjectInv.own`). So it is isolated from the others up to then, and what goes
wrong is what it asks later (`storage_units_isolated`).
-/

namespace Winspd.Proofs

open Winspd.Lib Winspd.Sys Winspd.Spec

/-! ## The system -/

/-- Where a call of an object is while it holds a reference. -/
inductive TransactStage
  /-- Before the access check. -/
  | referenced
  /-- Before the data buffer is mapped, and the response is passed on. -/
  | admitted
  /-- Waiting for an SRB. -/
  | waiting
  /-- Nothing is left but the dereference. -/
  | over
  deriving DecidableEq, Repr

structure ObjectCall where
  object : Nat
  unit : Addr
  /-- The unit of the object was not provisioned any more when the call looked for
  it. -/
  late : Bool
  stage : TransactStage
  rsp : Option TransactRsp
  req : Bool
  dataBuffer : Option (List UInt8)
  deriving DecidableEq

/-- The driver, and the objects of a process by their numbers. A number is given to
one object only. -/
structure ObjectSys where
  dx : SpdDeviceExtension
  /-- The references to units that the calls of the objects do not hold. -/
  others : List Addr
  calls : List ObjectCall
  objects : Nat → Option Shared.StorageUnit
  /-- The number of the next object. -/
  next : Nat
  /-- The object that provisioned the unit at an address, if it is one of these. -/
  madeBy : Addr → Option Nat

namespace ObjectSys

def init (capacity : UInt32) : ObjectSys where
  dx := spdDeviceExtensionInit capacity fun _ => none
  others := []
  calls := []
  objects := fun _ => none
  next := 0
  madeBy := fun _ => none

def held (s : ObjectSys) : List Addr := s.others ++ s.calls.map ObjectCall.unit

/-- The unit that the object provisioned is in the array. -/
def provisioned (s : ObjectSys) (object : Nat) : Bool :=
  s.dx.storageUnits.any fun p => p ≠ 0 ∧ s.madeBy p = some object

/-- Whose the unit is that was provisioned at `unitMem`. -/
def made (s : ObjectSys) (unitMem : Option Addr) (maker : Option Nat) : Addr → Option Nat :=
  match unitMem with
  | none => s.madeBy
  | some p => Function.update s.madeBy p maker

/-- The request that an object sends found a unit. -/
def call (s : ObjectSys) (object : Nat) (stage : TransactStage) (rsp : Option TransactRsp)
    (req : Bool) (dataBuffer : Option (List UInt8)) (service : Option Service) : List ObjectCall :=
  (service.map fun service =>
    ⟨object, service.unit, !s.provisioned object, stage, rsp, req, dataBuffer⟩).toList ++
      s.calls

def goesTo (s : ObjectSys) (dx : SpdDeviceExtension) (c : ObjectCall) (stage : TransactStage) :
    ObjectSys :=
  { s with dx := dx, calls := { c with stage := stage } :: s.calls.erase c }

end ObjectSys

inductive ObjectOp
  | create (params : StorageUnitParams) (unitMem : Option Addr) (ioqMem : Option SpdIoq)
  /-- A dispatcher thread, or `SpdStorageUnitSendResponse`. -/
  | transact (object : Nat) (rsp : Option TransactRsp) (req : Bool)
      (dataBuffer : Option (List UInt8))
  | shutdown (object : Nat)
  /-- The rest of `SpdStorageUnitDelete`. -/
  | delete (object : Nat)
  | access (c : ObjectCall)
  /-- The data buffer is mapped, and the response is passed on. The SRBs are in
  `mem`. -/
  | respond (c : ObjectCall) (mem : ScsiMem)
  | receive (c : ObjectCall) (mem : ScsiMem)
  /-- The data buffer cannot be mapped, or the wait for an SRB ends. -/
  | ends (c : ObjectCall) (status : NtStatus)
  | leave (c : ObjectCall)
  /-- What is not a request of the objects. -/
  | other (op : RegistryOp)

/-- What an operation answers, the unit it took out and the request it got. -/
structure ObjectResult where
  status : NtStatus
  unit : Option Addr
  request : Option (TransactReq × List UInt8)

def RegistryOp.provided (status : NtStatus) : RegistryOp → Option Addr
  | .provision _ _ unitMem _ => if status = .success then unitMem else none
  | _ => none

def ObjectOp.exec (processId : UInt32) (s : ObjectSys) :
    ObjectOp → Option (ObjectSys × ObjectResult)
  | .create params unitMem ioqMem => do
      let (dx, r) ← arriveExec s.dx (Shared.spdStorageUnitHandleOpen processId params)
          unitMem ioqMem
      if r.status = .success then
        some
          ({ s with
              dx := dx
              objects := Function.update s.objects s.next (some ⟨params, r.btl⟩)
              next := s.next + 1
              madeBy := s.made unitMem (some s.next) }, ⟨r.status, none, none⟩)
      else some ({ s with dx := dx }, ⟨r.status, none, none⟩)
  | .transact object rsp req dataBuffer => do
      let storageUnit ← s.objects object
      let (dx, r) ← arriveExec s.dx
        (Shared.spdStorageUnitHandleTransact processId storageUnit rsp req dataBuffer) none none
      some
        ({ s with dx := dx, calls := s.call object .referenced rsp req dataBuffer r.service },
          ⟨r.status, none, none⟩)
  | .shutdown object => do
      let storageUnit ← s.objects object
      let (dx, r) ← arriveExec s.dx (Shared.spdStorageUnitHandleShutdown processId storageUnit)
        none none
      some
        ({ s with dx := dx, calls := s.call object .over none false none r.service },
          ⟨r.status, r.service.map Service.unit, none⟩)
  | .delete object =>
      some ({ s with objects := Function.update s.objects object none }, ⟨.success, none, none⟩)
  | .access c =>
      if c.stage = .referenced then
        (spdIoctlTransactAccess s.dx c.unit processId).map fun status =>
          (s.goesTo s.dx c (if status = .success then .admitted else .over),
            ⟨status, none, none⟩)
      else none
  | .respond c mem =>
      if c.stage = .admitted then
        let stage := if c.req then .waiting else .over
        match c.rsp with
        | none => some (s.goesTo s.dx c stage, ⟨.success, none, none⟩)
        | some rsp =>
            (onIoq s.dx c.unit fun ioq =>
              (spdIoqEndProcessingSrb (spdSrbExecuteScsiComplete rsp c.dataBuffer) ioq mem
                rsp.hint).map fun r => (r.1, ())).map fun r =>
                  (s.goesTo r.1 c stage, ⟨.success, none, none⟩)
      else none
  | .receive c mem =>
      if c.stage = .waiting then
        (onIoq s.dx c.unit fun ioq =>
          (spdIoqStartProcessingSrb spdSrbExecuteScsiPrepare ioq
            ⟨mem, .zero, c.dataBuffer.getD []⟩).map fun r =>
              (r.1, r.2.1, r.2.2.2, spdIoqStopped r.1)).map fun r =>
          -- it waits again for nothing, unless the queue is stopped
          (s.goesTo r.1 c
              (if r.2.2.1 = .unsuccessful ∧ r.2.2.2 = false then .waiting else .over),
            ⟨r.2.2.1, none,
              if r.2.2.1 = .success then some (r.2.1.req, r.2.1.dataBuffer) else none⟩)
      else none
  | .ends c status =>
      if c.stage = .admitted ∨ c.stage = .waiting then
        some (s.goesTo s.dx c .over, ⟨status, none, none⟩)
      else none
  | .leave c =>
      if c.stage = .over then
        (spdStorageUnitDereference s.dx c.unit).map fun r =>
          ({ s with dx := r.1, calls := s.calls.erase c }, ⟨.success, none, none⟩)
      else none
  | .other op =>
      (op.exec s.dx).map fun r =>
        ({ s with
            dx := r.1
            others := op.held s.others r.2.unit
            madeBy := s.made (op.provided r.2.status) none }, ⟨r.2.status, none, none⟩)

/-- The operation provisions or unprovisions for another process. -/
def RegistryOp.Foreign (processId : UInt32) : RegistryOp → Prop
  | .provision _ process _ _ | .unprovision _ process => process ≠ processId
  | _ => True

def RegistryOp.needs : RegistryOp → List Addr
  | .dereference p | .setDevice p _ | .setTransactProcessId p _ | .work p _ => [p]
  | _ => []

def ObjectOp.Allowed (processId : UInt32) (s : ObjectSys) : ObjectOp → Prop
  | .create _ unitMem _ => ∀ p, unitMem = some p → p ≠ 0 ∧ s.dx.pool p = none
  | .transact _ _ _ _ => s.held.length + 2 < 2 ^ 32
  | .shutdown _ | .delete _ => True
  | .access c | .respond c _ | .receive c _ | .ends c _ | .leave c => c ∈ s.calls
  | .other op => op.Foreign processId ∧ op.Allowed s.dx s.held ∧ ∀ p ∈ op.needs,
      p ∈ s.others

structure ObjectEvent where
  op : ObjectOp
  result : ObjectResult

structure ObjectStep (processId : UInt32) (s : ObjectSys) (ev : ObjectEvent) (s' : ObjectSys) :
    Prop where
  allowed : ev.op.Allowed processId s
  exec : ev.op.exec processId s = some (s', ev.result)

variable {processId btl : UInt32} {s s' : ObjectSys} {ev : ObjectEvent} {ls : List ObjectEvent}
  {dx dx' : SpdDeviceExtension} {held held' : List Addr} {p : Addr} {a i : Nat} {e : Entry}
  {u : Shared.StorageUnit} {c : ObjectCall}

/-! ## What an object finds -/

theorem RegistryInv.lt_of_content (hinv : RegistryInv dx held) (h : (table dx).content i = some e) :
    i < 256 := by
  have hlt := Slots.lt_length_of_content h
  rw [table_length, hinv.length] at hlt
  exact Nat.lt_of_lt_of_le hlt hinv.capacity

theorem RegistryInv.unitByBtl_of_content (hinv : RegistryInv dx held)
    (h : (table dx).content i = some e) :
    dx.unitByBtl (spdBtlFromIndex (UInt32.ofNat i)) = some e.addr := by
  have hlt := hinv.lt_of_content h
  rw [SpdDeviceExtension.unitByBtl, spdIoctlBtlB_spdBtlFromIndex hlt,
    spdIoctlBtlL_spdBtlFromIndex hlt, spdIoctlBtlT_spdBtlFromIndex hlt, hinv.unitAt, h]
  rfl

theorem RegistryInv.content_of_unitByBtl (hinv : RegistryInv dx held)
    (h : dx.unitByBtl btl = some p) : ∃ i e, (table dx).content i = some e ∧ e.addr = p := by
  unfold SpdDeviceExtension.unitByBtl at h
  split at h
  · cases h
  · rw [hinv.unitAt, Option.map_eq_some_iff] at h
    obtain ⟨e, he, haddr⟩ := h
    exact ⟨_, e, he, haddr⟩

theorem pool_of_content (h : (table dx).content i = some e) :
    ∃ object, dx.pool e.addr = some object := by
  obtain ⟨p, object, -, -, hobject, rfl⟩ := content_table.mp h
  exact ⟨object, hobject⟩

theorem provisioned_iff (hinv : RegistryInv s.dx held) : s.provisioned a = true ↔
    ∃ i e, (table s.dx).content i = some e ∧ s.madeBy e.addr = some a := by
  simp only [ObjectSys.provisioned, List.any_eq_true, decide_eq_true_eq, ne_eq]
  constructor
  · rintro ⟨p, hp, h0, hmade⟩
    obtain ⟨object, hobject⟩ := hinv.exists_object h0 hp
    obtain ⟨i, hi⟩ := List.mem_iff_getElem?.mp hp
    exact ⟨i, _, content_table.mpr ⟨p, object, hi, h0, hobject, rfl⟩, hmade⟩
  · rintro ⟨i, e, he, hmade⟩
    obtain ⟨p, object, hi, h0, -, rfl⟩ := content_table.mp he
    exact ⟨p, List.mem_of_getElem? hi, h0, hmade⟩

/-- What every reachable state satisfies. While an object exists, the unit that it
provisioned is where its BTL and its GUID lead, if it is anywhere. -/
structure ObjectInv (processId : UInt32) (s : ObjectSys) : Prop where
  registry : RegistryInv s.dx s.held
  objects_lt : ∀ a u, s.objects a = some u → a < s.next
  madeBy_lt : ∀ p a, s.madeBy p = some a → a < s.next
  own : ∀ i e a u, (table s.dx).content i = some e → s.madeBy e.addr = some a →
    s.objects a = some u → u.btl = spdBtlFromIndex (UInt32.ofNat i) ∧
      e.guid = u.storageUnitParams.guid ∧ e.ownerProcessId = processId
  calls : ∀ c ∈ s.calls, c.late = false ↔ s.madeBy c.unit = some c.object

theorem ObjectInv.found_by_btl (hinv : ObjectInv processId s) (hu : s.objects a = some u)
    (h : s.dx.unitByBtl u.btl = some p) :
    (!s.provisioned a) = false ↔ s.madeBy p = some a := by
  obtain ⟨i, e, he, rfl⟩ := hinv.registry.content_of_unitByBtl h
  rw [Bool.not_eq_false', provisioned_iff hinv.registry]
  constructor
  · rintro ⟨j, e', he', hmade⟩
    obtain ⟨hbtl, -, -⟩ := hinv.own j e' a u he' hmade hu
    rw [hbtl, hinv.registry.unitByBtl_of_content he', Option.some.injEq] at h
    rwa [h] at hmade
  · exact fun hmade => ⟨i, e, he, hmade⟩

theorem ObjectInv.found_by_guid (hinv : ObjectInv processId s) (hu : s.objects a = some u)
    (h : (table s.dx).Names (.guid u.storageUnitParams.guid) i e) :
    (!s.provisioned a) = false ↔ s.madeBy e.addr = some a := by
  rw [Bool.not_eq_false', provisioned_iff hinv.registry]
  constructor
  · rintro ⟨j, e', he', hmade⟩
    obtain ⟨-, hguid, -⟩ := hinv.own j e' a u he' hmade hu
    obtain rfl := h.unique hinv.registry.guids ⟨he', hguid⟩
    rw [h.1, Option.some.injEq] at he'
    rwa [he']
  · exact fun hmade => ⟨i, e, h.1, hmade⟩

/-! ## Steps -/

theorem ObjectInv.keep (hinv : ObjectInv processId s) (hregistry : RegistryInv s'.dx s'.held)
    (htable : ∀ i e, (table s'.dx).content i = some e → (table s.dx).content i = some e)
    (hmade : s'.madeBy = s.madeBy) (hnext : s'.next = s.next)
    (hobjects : ∀ a u, s'.objects a = some u → s.objects a = some u)
    (hcalls : ∀ c ∈ s'.calls, c.late = false ↔ s.madeBy c.unit = some c.object) :
    ObjectInv processId s' := by
  refine ⟨hregistry, fun a u hu => ?_, fun p a h => ?_, fun i e a u he hby hu => ?_,
    fun c hc => ?_⟩
  · rw [hnext]
    exact hinv.objects_lt a u (hobjects a u hu)
  · rw [hnext]
    rw [hmade] at h
    exact hinv.madeBy_lt p a h
  · rw [hmade] at hby
    exact hinv.own i e a u (htable i e he) hby (hobjects a u hu)
  · rw [hmade]
    exact hcalls c hc

/-- A step that provisions the unit at `p`. -/
theorem ObjectInv.provide {maker : Option Nat} (hinv : ObjectInv processId s)
    (hfresh : s.dx.pool p = none) (hregistry : RegistryInv s'.dx s'.held)
    (hmade : s'.madeBy = Function.update s.madeBy p maker) (hcalls : s'.calls = s.calls)
    (hnext : s.next ≤ s'.next) (hmaker : ∀ a, maker = some a → a < s'.next)
    (hobjects : ∀ a u, s'.objects a = some u →
      a < s'.next ∧ (a < s.next → s.objects a = some u))
    (htable : ∀ i e, (table s'.dx).content i = some e → (table s.dx).content i = some e ∨
      e.addr = p ∧ ∀ a u, maker = some a → s'.objects a = some u →
        u.btl = spdBtlFromIndex (UInt32.ofNat i) ∧ e.guid = u.storageUnitParams.guid ∧
          e.ownerProcessId = processId) :
    ObjectInv processId s' := by
  refine ⟨hregistry, fun a u hu => (hobjects a u hu).1, fun q a h => ?_,
    fun i e a u he hby hu => ?_, fun c hc => ?_⟩
  · rw [hmade] at h
    by_cases hq : q = p
    · rw [hq, Function.update_self] at h
      exact hmaker a h
    · rw [Function.update_of_ne hq] at h
      exact Nat.lt_of_lt_of_le (hinv.madeBy_lt q a h) hnext
  · rw [hmade] at hby
    rcases htable i e he with hold | ⟨haddr, hnew⟩
    · -- a unit that was there before is at another address
      have hne : e.addr ≠ p := by
        intro hp
        obtain ⟨object, hobject⟩ := pool_of_content hold
        rw [hp, hfresh] at hobject
        cases hobject
      rw [Function.update_of_ne hne] at hby
      exact hinv.own i e a u hold hby ((hobjects a u hu).2 (hinv.madeBy_lt _ _ hby))
    · rw [haddr, Function.update_self] at hby
      exact hnew a u hby hu
  · rw [hcalls] at hc
    have hne : c.unit ≠ p := by
      intro hp
      obtain ⟨object, hobject⟩ := hinv.registry.object_of_held
        (List.mem_append_right s.others (List.mem_map_of_mem hc))
      rw [hp, hfresh] at hobject
      cases hobject
    rw [hmade, Function.update_of_ne hne]
    exact hinv.calls c hc

/-- A provision that succeeds fills a slot, whose BTL is the answer. -/
theorem provision_fills {params : StorageUnitParams} {process : UInt32} {unitMem : Option Addr}
    {ioqMem : Option SpdIoq} {r : RegistryResult} (hinv : RegistryInv dx held)
    (hfresh : ∀ p, unitMem = some p → p ≠ 0 ∧ dx.pool p = none)
    (hexec : RegistryOp.exec dx (.provision params process unitMem ioqMem) = some (dx', r)) :
    RegistryInv dx' held ∧ ((r.status ≠ .success ∧ table dx' = table dx) ∨
      r.status = .success ∧ ∃ p j, unitMem = some p ∧
      r.btl = spdBtlFromIndex (UInt32.ofNat j) ∧
        table dx' = (table dx).fill j ⟨p, params.guid, process⟩) := by
  have hstep : RegistryStep ⟨dx, held⟩ ⟨.provision params process unitMem ioqMem, r⟩
      ⟨dx', r.unit.toList ++ held⟩ := ⟨hfresh, hexec, rfl⟩
  obtain ⟨hinv', hspec, -, -⟩ := hinv.step hstep
  have hunit : r.unit = none := by
    rw [RegistryOp.exec, Option.map_eq_some_iff] at hexec
    obtain ⟨x, -, hx⟩ := hexec
    cases hx
    rfl
  rw [hunit] at hinv'
  refine ⟨hinv', ?_⟩
  cases unitMem with
  | none =>
      rw [RegistryOp.exec_no_unit] at hexec
      cases hexec
  | some p =>
      cases ioqMem with
      | none =>
          rw [RegistryOp.exec, spdStorageUnitProvision, Option.map_some, Option.some.injEq,
            Prod.mk.injEq] at hexec
          rw [← hexec.1, ← hexec.2]
          exact .inl ⟨by simp, rfl⟩
      | some mem =>
          obtain ⟨found, hprovision, hbtl⟩ := hspec
          obtain ⟨-, heq⟩ | ⟨-, -, heq⟩ | ⟨j, -, -, heq⟩ :=
            Registry.provision_cases (table dx) ⟨p, params.guid, process⟩
          · rw [hprovision, Prod.mk.injEq, Prod.mk.injEq] at heq
            exact .inl ⟨ne_of_eq_of_ne heq.2.1 (by simp), heq.1⟩
          · rw [hprovision, Prod.mk.injEq, Prod.mk.injEq] at heq
            exact .inl ⟨ne_of_eq_of_ne heq.2.1 (by simp), heq.1⟩
          · rw [hprovision, Prod.mk.injEq, Prod.mk.injEq] at heq
            rw [heq.2.2] at hbtl
            exact .inr ⟨heq.2.1, p, j, rfl, hbtl, heq.1⟩

theorem create_registry {params : StorageUnitParams} {unitMem : Option Addr}
    {ioqMem : Option SpdIoq} {r : ServiceResult}
    (hexec : arriveExec dx (Shared.spdStorageUnitHandleOpen processId params) unitMem ioqMem =
      some (dx', r)) :
    (dx' = dx ∧ r.status ≠ .success) ∨
      RegistryOp.exec dx (.provision params processId unitMem ioqMem) =
        some (dx', ⟨r.status, r.btl, none⟩) := by
  have harrive : arriveExec dx (Shared.spdStorageUnitHandleOpen processId params) unitMem ioqMem =
      (spdIoctlProvision dx (Shared.spdStorageUnitHandleOpen processId params) params unitMem
        ioqMem).map fun r => (r.1, ⟨r.2.1, r.2.2, none⟩) := rfl
  rw [harrive, Option.map_eq_some_iff] at hexec
  obtain ⟨⟨dx₁, status, btl⟩, h, hr⟩ := hexec
  cases hr
  obtain ⟨rfl, hstatus⟩ | h := spdIoctlProvision_registry h
  · exact .inl ⟨rfl, ne_of_eq_of_ne hstatus (by simp)⟩
  · exact .inr h

/-- An object's transact call finds what its BTL leads to, or nothing. -/
theorem transact_registry {rsp : Option TransactRsp} {req : Bool}
    {dataBuffer : Option (List UInt8)} {r : ServiceResult} (hinv : RegistryInv dx held)
    (hlt : held.length + 2 < 2 ^ 32)
    (hexec : arriveExec dx (Shared.spdStorageUnitHandleTransact processId u rsp req dataBuffer)
      none none = some (dx', r)) :
    table dx' = table dx ∧ RegistryInv dx' ((r.service.map Service.unit).toList ++ held) ∧
      ∀ service, r.service = some service → dx.unitByBtl u.btl = some service.unit := by
  have harrive : arriveExec dx (Shared.spdStorageUnitHandleTransact processId u rsp req dataBuffer)
      none none = (spdIoctlTransactReference dx
        (Shared.spdStorageUnitHandleTransact processId u rsp req dataBuffer) u.btl req rsp.isSome
          dataBuffer).map fun r => (r.1, ⟨r.2.1, -1, r.2.2.map fun p =>
            ⟨Shared.spdStorageUnitHandleTransact processId u rsp req dataBuffer, p,
              .referenced⟩⟩) := rfl
  rw [harrive, Option.map_eq_some_iff] at hexec
  obtain ⟨⟨dx₁, status, found⟩, h, hr⟩ := hexec
  cases hr
  obtain ⟨rfl, rfl⟩ | h := spdIoctlTransactReference_registry h
  · exact ⟨rfl, hinv, fun service hservice => (by cases hservice)⟩
  · obtain ⟨dx₂, href, -, htable, hinv'⟩ := spdStorageUnitReferenceByBtl_agree hinv hlt u.btl
    rw [RegistryOp.exec, href] at h
    cases h
    refine ⟨htable, ?_, fun service hservice => ?_⟩
    · rw [Option.map_map]
      show RegistryInv dx₂ (((dx.unitByBtl u.btl).map fun p => p).toList ++ held)
      rwa [Option.map_id']
    · obtain ⟨p, hp, rfl⟩ := Option.map_eq_some_iff.mp hservice
      exact hp

/-- An object's unprovision takes out the unit with its GUID, if the process owns
it. -/
theorem shutdown_registry {r : ServiceResult} (hinv : RegistryInv dx held)
    (hexec : arriveExec dx (Shared.spdStorageUnitHandleShutdown processId u) none none =
      some (dx', r)) :
    RegistryInv dx' ((r.service.map Service.unit).toList ++ held) ∧
      ((r.service = none ∧ table dx' = table dx ∧
          ∀ i e, (table dx).Names (.guid u.storageUnitParams.guid) i e →
            e.ownerProcessId ≠ processId) ∨
        ∃ i e, (table dx).Names (.guid u.storageUnitParams.guid) i e ∧
          e.ownerProcessId = processId ∧ r.service.map Service.unit = some e.addr ∧
          table dx' = (table dx).clear i) := by
  have harrive : arriveExec dx (Shared.spdStorageUnitHandleShutdown processId u) none none =
      (spdStorageUnitUnprovision dx (.guid u.storageUnitParams.guid) processId).map fun r =>
        (r.1, ⟨r.2.1, -1, r.2.2.1.map fun p =>
          ⟨Shared.spdStorageUnitHandleShutdown processId u, p, .over⟩⟩) := rfl
  obtain ⟨t, status, found, dx₁, calls, hspec, hunprovision, rfl, hinv', -, -⟩ :=
    spdStorageUnitUnprovision_agree hinv (.guid u.storageUnitParams.guid) processId
  rw [harrive, hunprovision] at hexec
  cases hexec
  have hunit : Option.map Service.unit ((found.map Entry.addr).map fun p =>
      ⟨Shared.spdStorageUnitHandleShutdown processId u, p, .over⟩) = found.map Entry.addr := by
    cases found <;> rfl
  refine ⟨by rwa [hunit], ?_⟩
  obtain ⟨hno, heq⟩ | ⟨i, e, hnames, howner, heq⟩ | ⟨i, e, hnames, howner, heq⟩ :=
    Registry.unprovision_cases hinv.guids (.guid u.storageUnitParams.guid) processId
  · rw [hspec, Prod.mk.injEq, Prod.mk.injEq] at heq
    obtain ⟨htable, -, rfl⟩ := heq
    exact .inl ⟨rfl, htable, fun i e hnames => absurd hnames (hno i e)⟩
  · rw [hspec, Prod.mk.injEq, Prod.mk.injEq] at heq
    obtain ⟨htable, -, rfl⟩ := heq
    refine .inl ⟨rfl, htable, fun j e' hnames' => ?_⟩
    obtain rfl := hnames.unique hinv.guids hnames'
    have hcontent := hnames.1.symm.trans hnames'.1
    rw [Option.some.injEq] at hcontent
    rwa [← hcontent]
  · rw [hspec, Prod.mk.injEq, Prod.mk.injEq] at heq
    obtain ⟨htable, -, rfl⟩ := heq
    exact .inr ⟨i, e, hnames, howner, hunit, htable⟩

theorem onIoq_registry {α : Type} {f : SpdIoq → Option (SpdIoq × α)} {x : α}
    (hinv : RegistryInv dx held) (hheld : p ∈ held)
    (hf : ∀ q ioq ioq' x, Refines ioq q → f ioq = some (ioq', x) → ∃ q', Refines ioq' q')
    (hexec : onIoq dx p f = some (dx', x)) : table dx' = table dx ∧ RegistryInv dx' held := by
  obtain ⟨object, hobject⟩ := hinv.object_of_held hheld
  obtain ⟨q, hq⟩ := (hinv.objects p object hobject).queue
  simp only [onIoq, hobject, Option.bind_eq_bind, Option.bind_some,
    Option.bind_eq_some_iff] at hexec
  obtain ⟨⟨ioq, y⟩, hcall, hexec⟩ := hexec
  cases hexec
  exact hinv.set hobject { object with ioq := ioq } rfl rfl rfl (hf q _ _ _ hq hcall)

theorem held_erase (hc : c ∈ s.calls) :
    s.held.Perm (s.others ++ (c.unit :: (s.calls.erase c).map ObjectCall.unit)) :=
  ((List.perm_cons_erase hc).map ObjectCall.unit).append_left s.others

theorem held_mem (hc : c ∈ s.calls) : c.unit ∈ s.held :=
  List.mem_append_right _ (List.mem_map_of_mem hc)

theorem ObjectInv.goesTo {stage : TransactStage} (hinv : ObjectInv processId s) (hc : c ∈ s.calls)
    (hregistry : table dx = table s.dx ∧ RegistryInv dx s.held) :
    ObjectInv processId (s.goesTo dx c stage) := by
  refine hinv.keep (hregistry.2.perm (held_erase hc).symm) (fun i e he => ?_) rfl rfl
    (fun a u hu => hu) fun c' hc' => ?_
  · rw [← hregistry.1]
    exact he
  · rcases List.mem_cons.mp hc' with rfl | hc'
    · exact hinv.calls c hc
    · exact hinv.calls c' (List.mem_of_mem_erase hc')

theorem call_unit {stage : TransactStage} {rsp : Option TransactRsp} {req : Bool}
    {dataBuffer : Option (List UInt8)} (service : Option Service) :
    (s.call a stage rsp req dataBuffer service).map ObjectCall.unit =
      (service.map Service.unit).toList ++ s.calls.map ObjectCall.unit := by
  cases service <;> rfl

theorem ObjectInv.asked {stage : TransactStage} {rsp : Option TransactRsp} {req : Bool}
    {dataBuffer : Option (List UInt8)} {service : Option Service} (hinv : ObjectInv processId s)
    (hregistry : RegistryInv dx ((service.map Service.unit).toList ++ s.held))
    (htable : ∀ i e, (table dx).content i = some e → (table s.dx).content i = some e)
    (hfound : ∀ sv, service = some sv →
      ((!s.provisioned a) = false ↔ s.madeBy sv.unit = some a)) :
    ObjectInv processId
      { s with dx := dx, calls := s.call a stage rsp req dataBuffer service } := by
  refine hinv.keep (hregistry.perm ?_) htable rfl rfl (fun a u hu => hu) fun c hc => ?_
  · show (s.others ++ (s.call a stage rsp req dataBuffer service).map ObjectCall.unit).Perm
      ((service.map Service.unit).toList ++ (s.others ++ s.calls.map ObjectCall.unit))
    rw [call_unit, ← List.append_assoc, ← List.append_assoc]
    exact List.perm_append_comm.append_right _
  · rcases List.mem_append.mp hc with hc | hc
    · obtain ⟨sv, hsv, rfl⟩ := Option.map_eq_some_iff.mp (Option.mem_toList.mp hc)
      exact hfound sv hsv
    · exact hinv.calls c hc

theorem other_held {op : RegistryOp} (hneeds : ∀ p ∈ op.needs, p ∈ s.others)
    (unit : Option Addr) :
    op.held s.held unit = op.held s.others unit ++ s.calls.map ObjectCall.unit := by
  cases op with
  | dereference p => exact List.erase_append_left _ (hneeds p (List.mem_singleton_self p))
  | _ => exact (List.append_assoc _ _ _).symm

theorem content_of_provided {params : StorageUnitParams} {process : UInt32} {j : Nat}
    (htable : table dx' = (table dx).fill j ⟨p, params.guid, process⟩)
    (he : (table dx').content i = some e) :
    (table dx).content i = some e ∨ i = j ∧ e = ⟨p, params.guid, process⟩ := by
  rw [htable] at he
  exact Slots.content_of_fill he

theorem ObjectInv.create {params : StorageUnitParams} {unitMem : Option Addr}
    {ioqMem : Option SpdIoq} {r : ObjectResult} (hinv : ObjectInv processId s)
    (hfresh : ∀ p, unitMem = some p → p ≠ 0 ∧ s.dx.pool p = none)
    (hexec : ObjectOp.exec processId s (.create params unitMem ioqMem) = some (s', r)) :
    ObjectInv processId s' := by
  simp only [ObjectOp.exec, Option.bind_eq_bind, Option.bind_eq_some_iff] at hexec
  obtain ⟨⟨dx, sr⟩, harrive, hexec⟩ := hexec
  have hfailed : table dx = table s.dx → RegistryInv dx s.held →
      ObjectInv processId { s with dx := dx } := fun htable hregistry =>
    hinv.keep hregistry (fun i e he => htable ▸ he) rfl rfl (fun a u hu => hu) hinv.calls
  obtain ⟨rfl, hstatus⟩ | hprovision := create_registry harrive
  · rw [if_neg hstatus] at hexec
    cases hexec
    exact hfailed rfl hinv.registry
  · obtain ⟨hregistry, ⟨hstatus, htable⟩ | ⟨hstatus, p, j, rfl, hbtl, htable⟩⟩ :=
      provision_fills hinv.registry hfresh hprovision
    · have hstatus' : sr.status ≠ .success := hstatus
      rw [if_neg hstatus'] at hexec
      cases hexec
      exact hfailed htable hregistry
    · have hstatus' : sr.status = .success := hstatus
      have hbtl' : sr.btl = spdBtlFromIndex (UInt32.ofNat j) := hbtl
      rw [if_pos hstatus'] at hexec
      cases hexec
      refine hinv.provide (hfresh p rfl).2 hregistry rfl rfl (Nat.le_succ _) (fun a ha => ?_)
        (fun a u hu => ?_) fun i e he => ?_
      · cases ha
        exact Nat.lt_succ_self _
      · have hu' : Function.update s.objects s.next (some ⟨params, sr.btl⟩) a = some u := hu
        by_cases ha : a = s.next
        · exact ⟨ha ▸ Nat.lt_succ_self _, fun hlt => absurd ha (Nat.ne_of_lt hlt)⟩
        · rw [Function.update_of_ne ha] at hu'
          exact ⟨Nat.lt_succ_of_lt (hinv.objects_lt a u hu'), fun _ => hu'⟩
      · rcases content_of_provided htable he with hold | ⟨rfl, rfl⟩
        · exact .inl hold
        · refine .inr ⟨rfl, fun a u ha hu => ?_⟩
          cases ha
          have hu' : Function.update s.objects s.next (some ⟨params, sr.btl⟩) s.next = some u :=
            hu
          rw [Function.update_self, Option.some.injEq] at hu'
          rw [← hu']
          exact ⟨hbtl', rfl, rfl⟩

theorem ObjectInv.other {op : RegistryOp} {r : ObjectResult} (hinv : ObjectInv processId s)
    (hallowed : op.Allowed s.dx s.held) (hneeds : ∀ p ∈ op.needs, p ∈ s.others)
    (hexec : ObjectOp.exec processId s (.other op) = some (s', r)) : ObjectInv processId s' := by
  simp only [ObjectOp.exec, Option.map_eq_some_iff] at hexec
  obtain ⟨⟨dx, rr⟩, hop, hexec⟩ := hexec
  cases hexec
  have hstep : RegistryStep ⟨s.dx, s.held⟩ ⟨op, rr⟩ ⟨dx, op.held s.held rr.unit⟩ :=
    ⟨hallowed, hop, rfl⟩
  obtain ⟨hregistry, hspec, -, -⟩ := hinv.registry.step hstep
  have hregistry' : RegistryInv dx (op.held s.others rr.unit ++ s.calls.map ObjectCall.unit) := by
    rw [← other_held hneeds]
    exact hregistry
  cases hnew : op.provided rr.status with
  | none =>
      refine hinv.keep hregistry' (fun i e he => ?_) rfl rfl (fun a u hu => hu) hinv.calls
      rcases hspec.content hinv.registry.guids he
        with hold | ⟨params, process, p, mem, rfl, hs, -⟩
      · exact hold
      · have hs' : rr.status = .success := hs
        rw [RegistryOp.provided, if_pos hs'] at hnew
        cases hnew
  | some p =>
      cases op with
      | provision params process unitMem ioqMem =>
          obtain ⟨hs, rfl⟩ := Option.ite_none_right_eq_some.mp hnew
          obtain ⟨-, ⟨hstatus, -⟩ | ⟨-, q, j, hq, -, htable⟩⟩ :=
            provision_fills hinv.registry hallowed hop
          · exact absurd hs hstatus
          cases hq
          refine hinv.provide (hallowed p rfl).2 hregistry' rfl rfl (Nat.le_refl _)
            (fun a ha => by cases ha)
            (fun a u hu => ⟨hinv.objects_lt a u hu, fun _ => hu⟩) fun i e he => ?_
          rcases content_of_provided htable he with hold | ⟨rfl, rfl⟩
          · exact .inl hold
          · exact .inr ⟨rfl, fun a u ha => (by cases ha)⟩
      | _ => cases hnew

theorem ObjectInv.step (hinv : ObjectInv processId s) (h : ObjectStep processId s ev s') :
    ObjectInv processId s' := by
  obtain ⟨op, r⟩ := ev
  have hallowed : op.Allowed processId s := h.allowed
  have hexec : op.exec processId s = some (s', r) := h.exec
  cases op with
  | create params unitMem ioqMem => exact hinv.create hallowed hexec
  | transact a rsp req dataBuffer =>
      simp only [ObjectOp.exec, Option.bind_eq_bind, Option.bind_eq_some_iff] at hexec
      obtain ⟨u, hu, ⟨dx, sr⟩, harrive, hexec⟩ := hexec
      cases hexec
      obtain ⟨htable, hregistry, hfound⟩ := transact_registry hinv.registry hallowed harrive
      exact hinv.asked hregistry (fun i e he => htable ▸ he) fun sv hsv =>
        hinv.found_by_btl hu (hfound sv hsv)
  | shutdown a =>
      simp only [ObjectOp.exec, Option.bind_eq_bind, Option.bind_eq_some_iff] at hexec
      obtain ⟨u, hu, ⟨dx, sr⟩, harrive, hexec⟩ := hexec
      cases hexec
      obtain ⟨hregistry, ⟨hnone, htable, -⟩ | ⟨i, e, hnames, -, hunit, htable⟩⟩ :=
        shutdown_registry hinv.registry harrive
      · refine hinv.asked hregistry (fun i e he => htable ▸ he) fun sv hsv => ?_
        rw [hnone] at hsv
        cases hsv
      · refine hinv.asked hregistry (fun j e' he => ?_) fun sv hsv => ?_
        · have he' : (table dx).content j = some e' := he
          rw [htable] at he'
          exact Slots.content_of_clear he'
        · rw [hsv, Option.map_some, Option.some.injEq] at hunit
          rw [hunit]
          exact hinv.found_by_guid hu hnames
  | delete a =>
      cases hexec
      refine hinv.keep hinv.registry (fun i e he => he) rfl rfl (fun b u hu => ?_) hinv.calls
      have hu' : Function.update s.objects a none b = some u := hu
      by_cases hb : b = a
      · rw [hb, Function.update_self] at hu'
        cases hu'
      · rwa [Function.update_of_ne hb] at hu'
  | access c =>
      simp only [ObjectOp.exec] at hexec
      split at hexec
      · obtain ⟨status, -, hexec⟩ := Option.map_eq_some_iff.mp hexec
        cases hexec
        exact hinv.goesTo hallowed ⟨rfl, hinv.registry⟩
      · cases hexec
  | respond c mem =>
      simp only [ObjectOp.exec] at hexec
      split at hexec
      · split at hexec
        · cases hexec
          exact hinv.goesTo hallowed ⟨rfl, hinv.registry⟩
        · next rsp _ =>
            obtain ⟨⟨dx, x⟩, hcall, hexec⟩ := Option.map_eq_some_iff.mp hexec
            cases hexec
            refine hinv.goesTo hallowed (onIoq_registry hinv.registry (held_mem hallowed)
              (fun q ioq ioq' x hr hcall => ?_) hcall)
            obtain ⟨⟨ioq₁, w, calls⟩, hend, heq⟩ := Option.map_eq_some_iff.mp hcall
            cases heq
            have hagree := spdIoqEndProcessingSrb_agree hr
              (spdSrbExecuteScsiComplete rsp c.dataBuffer) mem rsp.hint
            rw [hend] at hagree
            obtain ⟨q', -, hr'⟩ := hagree.of_some
            exact ⟨q', hr'⟩
      · cases hexec
  | receive c mem =>
      simp only [ObjectOp.exec] at hexec
      split at hexec
      · obtain ⟨⟨dx, x⟩, hcall, hexec⟩ := Option.map_eq_some_iff.mp hexec
        cases hexec
        refine hinv.goesTo hallowed (onIoq_registry hinv.registry (held_mem hallowed)
          (fun q ioq ioq' x hr hcall => ?_) hcall)
        obtain ⟨⟨ioq₁, w, calls, status⟩, hstart, heq⟩ := Option.map_eq_some_iff.mp hcall
        cases heq
        have hagree := spdIoqStartProcessingSrb_agree hr spdSrbExecuteScsiPrepare
          ⟨mem, .zero, c.dataBuffer.getD []⟩
        rw [hstart] at hagree
        obtain ⟨q', -, hr'⟩ := hagree.of_some
        exact ⟨q', hr'⟩
      · cases hexec
  | ends c status =>
      simp only [ObjectOp.exec] at hexec
      split at hexec
      · cases hexec
        exact hinv.goesTo hallowed ⟨rfl, hinv.registry⟩
      · cases hexec
  | leave c =>
      simp only [ObjectOp.exec] at hexec
      split at hexec
      · obtain ⟨⟨dx, calls⟩, hderef, hexec⟩ := Option.map_eq_some_iff.mp hexec
        cases hexec
        obtain ⟨dx₁, calls₁, hderef₁, -, htable, hregistry⟩ :=
          spdStorageUnitDereference_agree hinv.registry (held_mem hallowed)
        rw [hderef] at hderef₁
        cases hderef₁
        have hperm := (held_erase hallowed).erase c.unit
        refine hinv.keep (hregistry.perm ?_) (fun i e he => htable ▸ he) rfl rfl
          (fun a u hu => hu) fun c' hc' => hinv.calls c' (List.mem_of_mem_erase hc')
        refine (hperm.trans ?_).symm
        have hmiddle : (s.others ++ c.unit :: (s.calls.erase c).map ObjectCall.unit).Perm
            (c.unit :: (s.others ++ (s.calls.erase c).map ObjectCall.unit)) := List.perm_middle
        have herase := hmiddle.erase c.unit
        rwa [List.erase_cons_head] at herase
      · cases hexec
  | other op =>
      obtain ⟨-, hop, hneeds⟩ := hallowed
      exact hinv.other hop hneeds hexec

theorem objectRun_inv {value : Option UInt32}
    (hrun : Run (ObjectStep processId) (.init (spdStorageUnitCapacity value)) ls s) :
    ObjectInv processId s :=
  hrun.inv (I := ObjectInv processId)
    ⟨registryInv_init (spdStorageUnitCapacity_le value), fun a u hu => (by cases hu),
      fun p a h => (by cases h), fun i e a u _ h => (by cases h), fun c hc => (by cases hc)⟩
    fun hinv h => hinv.step h

/-! ## Whose requests, and whose unit -/

/-- A request that an object gets is of the unit it provisioned itself, and so is the
unit that it takes out. -/
def Isolated (s : ObjectSys) (ev : ObjectEvent) : Prop :=
  match ev.op with
  | .shutdown a => ∀ p, ev.result.unit = some p → s.madeBy p = some a
  | .receive c _ => ∀ request, ev.result.request = some request →
      s.madeBy c.unit = some c.object
  | _ => True

/-- There is nothing to get from the queue. -/
def NothingPending (ioq : SpdIoq) : Prop :=
  ioq.stopped = true ∨ ioq.listEntry.flink .pendingList = some .pendingList

/-- The unit of the object is still there, when it shuts down or when its call looks
for it. Later there is no unit of the process with the GUID any more, and nothing to
get from the unit that the call found. -/
def InTime (processId : UInt32) (s : ObjectSys) (ev : ObjectEvent) : Prop :=
  match ev.op with
  | .shutdown a => s.provisioned a = true ∨ ∀ u i p object, s.objects a = some u →
      InSlot s.dx i p object → object.unit.storageUnitParams.guid = u.storageUnitParams.guid →
        object.unit.ownerProcessId ≠ processId
  | .receive c _ => c.late = false ∨
      ∀ object, s.dx.pool c.unit = some object → NothingPending object.ioq
  | _ => True

theorem spdIoqStartProcessingSrb_success {ω : Type} {prepare : Addr → Addr → ω → Option ω}
    {ioq ioq' : SpdIoq} {w w' : ω} {calls : List IoqCall} {status : NtStatus}
    (h : spdIoqStartProcessingSrb prepare ioq w = some (ioq', w', calls, status)) :
    status = .success ↔ ¬ NothingPending ioq := by
  unfold spdIoqStartProcessingSrb at h
  split at h
  · next hst =>
      cases h
      exact iff_of_false (by simp) (not_not.mpr (.inl hst))
  · next hst =>
      split at h
      · next hempty =>
          cases h
          exact iff_of_false (by simp) (not_not.mpr (.inr hempty))
      · next hempty =>
          simp only [Option.bind_eq_bind, Option.bind_eq_some_iff] at h
          obtain ⟨entry, -, ext, -, removed, -, w₁, -, inserted, -, h⟩ := h
          cases h
          exact iff_of_true rfl fun hnothing => hnothing.elim hst hempty

theorem ObjectInv.shutdown_isolated {r : ObjectResult} (hinv : ObjectInv processId s)
    (hexec : ObjectOp.exec processId s (.shutdown a) = some (s', r)) :
    Isolated s ⟨.shutdown a, r⟩ ↔ InTime processId s ⟨.shutdown a, r⟩ := by
  simp only [ObjectOp.exec, Option.bind_eq_bind, Option.bind_eq_some_iff] at hexec
  obtain ⟨u, hu, ⟨dx, sr⟩, harrive, hexec⟩ := hexec
  cases hexec
  obtain ⟨-, ⟨hnone, -, hforeign⟩ | ⟨i, e, hnames, howner, hunit, -⟩⟩ :=
    shutdown_registry hinv.registry harrive
  · -- it takes out nothing
    refine iff_of_true (fun p hp => ?_) (.inr fun u' i p object hu' hslot hguid => ?_)
    · have hp' : sr.service.map Service.unit = some p := hp
      rw [hnone] at hp'
      cases hp'
    · rw [hu, Option.some.injEq] at hu'
      subst hu'
      exact hforeign i _ ⟨content_iff_inSlot.mpr ⟨p, object, hslot, rfl⟩, hguid⟩
  · have hisolated :
        Isolated s ⟨.shutdown a, ⟨sr.status, sr.service.map Service.unit, none⟩⟩ ↔
        s.madeBy e.addr = some a := by
      constructor
      · exact fun h => h e.addr hunit
      · intro hmade p hp
        have hp' : sr.service.map Service.unit = some p := hp
        rw [hunit, Option.some.injEq] at hp'
        rwa [← hp']
    rw [hisolated, ← hinv.found_by_guid hu hnames, Bool.not_eq_false']
    constructor
    · exact .inl
    · rintro (hprovisioned | hno)
      · exact hprovisioned
      · obtain ⟨hcontent, hguid⟩ := hnames
        obtain ⟨p, object, hslot, rfl⟩ := content_iff_inSlot.mp hcontent
        exact absurd howner (hno u i p object hu hslot hguid)

theorem ObjectInv.receive_isolated {mem : ScsiMem} {r : ObjectResult}
    (hinv : ObjectInv processId s) (hc : c ∈ s.calls)
    (hexec : ObjectOp.exec processId s (.receive c mem) = some (s', r)) :
    Isolated s ⟨.receive c mem, r⟩ ↔ InTime processId s ⟨.receive c mem, r⟩ := by
  obtain ⟨object, hobject⟩ := hinv.registry.object_of_held (held_mem hc)
  simp only [ObjectOp.exec] at hexec
  split at hexec
  · obtain ⟨⟨dx, x⟩, hcall, hexec⟩ := Option.map_eq_some_iff.mp hexec
    cases hexec
    simp only [onIoq, hobject, Option.bind_eq_bind, Option.bind_some,
      Option.bind_eq_some_iff] at hcall
    obtain ⟨⟨ioq, y⟩, hcall, heq⟩ := hcall
    cases heq
    obtain ⟨⟨ioq₁, w, calls, status⟩, hstart, heq⟩ := Option.map_eq_some_iff.mp hcall
    cases heq
    have hsuccess := spdIoqStartProcessingSrb_success hstart
    have hpending :
        (∀ object', s.dx.pool c.unit = some object' → NothingPending object'.ioq) ↔
        NothingPending object.ioq := by
      rw [hobject]
      exact ⟨fun h => h object rfl, fun h object' heq => Option.some.inj heq ▸ h⟩
    by_cases hnothing : NothingPending object.ioq
    · have hstatus : status ≠ .success := fun hs => hsuccess.mp hs hnothing
      refine iff_of_true (fun request hrequest => ?_) (.inr (hpending.mpr hnothing))
      have hrequest' : (if status = .success then some (w.req, w.dataBuffer) else none) =
          some request := hrequest
      rw [if_neg hstatus] at hrequest'
      cases hrequest'
    · have hstatus : status = .success := hsuccess.mpr hnothing
      have hisolated : Isolated s ⟨.receive c mem, ⟨status, none,
          if status = .success then some (w.req, w.dataBuffer) else none⟩⟩ ↔
            s.madeBy c.unit = some c.object :=
        ⟨fun h => h (w.req, w.dataBuffer) (if_pos hstatus), fun h _ _ => h⟩
      rw [hisolated, ← hinv.calls c hc]
      exact ⟨.inl, fun h => h.resolve_right fun h => hnothing (hpending.mp h)⟩
  · cases hexec

/-- In every run, whatever the interleaving, an object only gets requests of its own
unit and only takes out its own unit, exactly if it is in time. -/
theorem storage_units_isolated {value : Option UInt32}
    (hrun : Run (ObjectStep processId) (.init (spdStorageUnitCapacity value)) ls s)
    (hstep : ObjectStep processId s ev s') : Isolated s ev ↔ InTime processId s ev := by
  have hinv := objectRun_inv hrun
  obtain ⟨op, r⟩ := ev
  cases op with
  | shutdown a => exact hinv.shutdown_isolated hstep.exec
  | receive c mem => exact hinv.receive_isolated hstep.allowed hstep.exec
  | _ => exact Iff.rfl

/-- Two objects of the process 1. The second one gets the slot and the GUID of the
first one. -/
def sampleCreate (unitMem : Addr) : ObjectOp :=
  .create sampleUnit (some unitMem) (some zeroedIoq)

def ObjectSys.after (s : ObjectSys) (op : ObjectOp) : ObjectSys :=
  ((op.exec 1 s).map Prod.fst).getD s

def oneObject : ObjectSys :=
  (ObjectSys.init (spdStorageUnitCapacity none)).after (sampleCreate 0x5000)

def replacedObject : ObjectSys :=
  (oneObject.after (.shutdown 0)).after (sampleCreate 0x6000)

theorem oneObject_run : Run (ObjectStep 1) (.init (spdStorageUnitCapacity none))
    [⟨sampleCreate 0x5000, ⟨.success, none, none⟩⟩] oneObject := by
  refine .single ⟨fun p hp => ?_, rfl⟩
  cases hp
  exact ⟨by decide, rfl⟩

theorem oneObject_shutdown : ObjectStep 1 oneObject
    ⟨.shutdown 0, ⟨.success, some 0x5000, none⟩⟩ (oneObject.after (.shutdown 0)) :=
  ⟨trivial, rfl⟩

theorem replacedObject_run : Run (ObjectStep 1) (.init (spdStorageUnitCapacity none))
    [⟨sampleCreate 0x5000, ⟨.success, none, none⟩⟩,
      ⟨.shutdown 0, ⟨.success, some 0x5000, none⟩⟩,
      ⟨sampleCreate 0x6000, ⟨.success, none, none⟩⟩] replacedObject := by
  refine oneObject_run.append (.cons oneObject_shutdown (.single ⟨fun p hp => ?_, rfl⟩))
  cases hp
  exact ⟨by decide, rfl⟩

/-- The first `SpdStorageUnitShutdown` takes out the unit of the object. One more, such
as that of `SpdStorageUnitDelete`, takes out the unit of the other object. -/
theorem storage_units_isolated_shutdown_twice :
    Isolated oneObject ⟨.shutdown 0, ⟨.success, some 0x5000, none⟩⟩ ∧
      ∃ s', ObjectStep 1 replacedObject
          ⟨.shutdown 0, ⟨.success, some 0x6000, none⟩⟩ s' ∧
        ¬ InTime 1 replacedObject ⟨.shutdown 0, ⟨.success, some 0x6000, none⟩⟩ := by
  constructor
  · exact (storage_units_isolated oneObject_run oneObject_shutdown).mpr (.inl rfl)
  · have hstep : ObjectStep 1 replacedObject ⟨.shutdown 0, ⟨.success, some 0x6000, none⟩⟩
        (replacedObject.after (.shutdown 0)) := ⟨trivial, rfl⟩
    refine ⟨_, hstep, fun htime => ?_⟩
    have hmade : some 1 = some 0 :=
      (storage_units_isolated replacedObject_run hstep).mpr htime 0x6000 rfl
    cases hmade

end Winspd.Proofs
