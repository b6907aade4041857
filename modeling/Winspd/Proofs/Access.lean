import Winspd.Proofs.Service
import Winspd.Sys.Shared

/-!
# Who may transact with a unit

`TRANSACT` checks the caller against `TransactProcessId`, `UNPROVISION` against
`OwnerProcessId`. `SET_TRANSACT_PID` stores to the former and checks nobody.

What the driver remembers of a unit is its `Rights`. `ServiceStep.rightsStep` says
what a step does to them. Whoever passes the access check is the unit's
provisioner or was designated by it for as long as every `SET_TRANSACT_PID` that
changes a designation is the provisioner's (`spdIoctl_access`); a process that
wants to pass only has to designate itself first
(`spdIoctl_access_foreign`).

A history says who has provisioned a unit and whom it has designated since then
(`Provisioner`, `Designated`), and the memory of the driver is compared with that.
The address of a unit that was freed can be that of a later one, so a history only
counts from the last provision of the address on.
-/

namespace Winspd.Proofs

open Winspd.Lib Winspd.Sys Winspd.Spec

/-! ## What a history says -/

/-- The process that provisioned the unit at `p` by this event. -/
def ServiceEvent.provides (p : Addr) (ev : ServiceEvent) : Option UInt32 :=
  match ev.op with
  | .arrive irp (some q) _ =>
      match serviceRequest irp with
      | some (.provision _) =>
          if q = p ∧ ev.result.status = .success then some irp.requestorProcessId else none
      | _ => none
  | _ => none

/-- The store of `SET_TRANSACT_PID` on the unit at `p`: the process that
requests it and the process it designates. -/
def ServiceOp.stores (p : Addr) : ServiceOp → Option (UInt32 × UInt32)
  | .resume service =>
      match serviceRequest service.irp with
      | some (.setTransactPid _ processId) =>
          if service.unit = p then some (service.irp.requestorProcessId, processId) else none
      | _ => none
  | _ => none

/-- The process that passes the access check of `TRANSACT` on the unit at
`p`. -/
def ServiceEvent.passes (p : Addr) (ev : ServiceEvent) : Option UInt32 :=
  match ev.op with
  | .resume service =>
      match serviceRequest service.irp with
      | some (.transact _ _ _ _ _) =>
          if service.unit = p ∧ ev.result.status = .success then
            some service.irp.requestorProcessId
          else none
      | _ => none
  | _ => none

/-- `owner` provisioned the unit that is at `p` now. -/
def Provisioner (ls : List ServiceEvent) (p : Addr) (owner : UInt32) : Prop :=
  LastIs (ServiceEvent.provides p) ls owner

/-- The provisioner of the unit at `p` has designated `processId`. -/
def Designated (ls : List ServiceEvent) (p : Addr) (processId : UInt32) : Prop :=
  ∃ pre ev post owner, ls = pre ++ ev :: post ∧ ev.op.stores p = some (owner, processId) ∧
    Provisioner pre p owner ∧ ∀ ev' ∈ post, ev'.provides p = none

variable {dx dx' : SpdDeviceExtension} {p x : Addr} {r : ServiceResult} {ev : ServiceEvent}
  {s s' : ServiceSys} {ls : List ServiceEvent} {capacity owner processId : UInt32}
  {irp : Irp} {unitMem : Option Addr} {ioqMem : Option SpdIoq}

theorem Designated.keep (h : Designated ls p processId) (hev : ev.provides p = none) :
    Designated (ls ++ [ev]) p processId := by
  obtain ⟨pre, ev₀, post, owner, rfl, hstores, howner, hpost⟩ := h
  refine ⟨pre, ev₀, post ++ [ev], owner, by simp, hstores, howner, fun ev' hmem => ?_⟩
  rcases List.mem_append.mp hmem with hmem | hmem
  · exact hpost ev' hmem
  · rw [List.mem_singleton.mp hmem, hev]

theorem Designated.last (h : ev.op.stores p = some (owner, processId))
    (howner : Provisioner ls p owner) : Designated (ls ++ [ev]) p processId :=
  ⟨ls, ev, [], owner, rfl, h, howner, fun _ hmem => absurd hmem List.not_mem_nil⟩

/-! ## Rights -/

/-- What the driver remembers of who may do what with a unit. -/
structure Rights where
  ownerProcessId : UInt32
  transactProcessId : UInt32

def unitRights (object : UnitObject) : Rights :=
  ⟨object.unit.ownerProcessId, object.unit.transactProcessId⟩

def rights (pool : Addr → Option UnitObject) (p : Addr) : Option Rights := (pool p).map unitRights

variable {pool : Addr → Option UnitObject} {object object' : UnitObject} {rop : RegistryOp}
  {rr : RegistryResult}

theorem rights_update (new : Option UnitObject) :
    rights (Function.update pool p new) = Function.update (rights pool) p (new.map unitRights) := by
  funext x
  unfold rights
  by_cases h : x = p
  · subst h
    rw [Function.update_self, Function.update_self]
  · rw [Function.update_of_ne h, Function.update_of_ne h]

theorem rights_update_same (hobject : pool p = some object)
    (hrights : unitRights object' = unitRights object) :
    rights (Function.update pool p (some object')) = rights pool := by
  rw [rights_update, Option.map_some, hrights]
  have h : some (unitRights object) = rights pool p := by rw [rights, hobject, Option.map_some]
  rw [h, Function.update_eq_self]

/-- What an operation of the registry does to the rights. -/
def RegistryOp.Rights (before after : Addr → Option Rights) (status : NtStatus) :
    RegistryOp → Prop
  | .provision _ processId unitMem _ =>
      (status ≠ .success ∧ after = before) ∨
      (status = .success ∧ ∃ p, unitMem = some p ∧
        after = Function.update before p (some ⟨processId, processId⟩))
  | .setTransactProcessId p processId =>
      ∃ r, before p = some r ∧
        after = Function.update before p (some ⟨r.ownerProcessId, processId⟩)
  | .dereference p => after = before ∨ after = Function.update before p none
  | _ => after = before

theorem addRef_rights (h : dx.addRef p = some dx') : rights dx'.pool = rights dx.pool := by
  rw [SpdDeviceExtension.addRef, Option.bind_eq_bind, Option.bind_eq_some_iff] at h
  obtain ⟨object, hobject, heq⟩ := h
  cases heq
  exact rights_update_same hobject rfl

theorem provision_rights {params : StorageUnitParams}
    (hexec : RegistryOp.exec dx (.provision params processId unitMem ioqMem) = some (dx', rr)) :
    RegistryOp.Rights (rights dx.pool) (rights dx'.pool) rr.status
      (.provision params processId unitMem ioqMem) := by
  rw [RegistryOp.exec, Option.map_eq_some_iff] at hexec
  obtain ⟨⟨dx₁, status, btl⟩, h, hr⟩ := hexec
  cases hr
  unfold spdStorageUnitProvision at h
  split at h
  · cases h
  · next p =>
      split at h
      · cases h
        exact .inl ⟨by simp, rfl⟩
      · rw [Option.bind_eq_bind, Option.bind_eq_some_iff] at h
        obtain ⟨⟨duplicate, btl₁⟩, -, h⟩ := h
        cases duplicate with
        | some _ =>
            simp only [Option.bind_eq_bind, Option.bind_eq_some_iff] at h
            obtain ⟨_, -, h⟩ := h
            cases h
            exact .inl ⟨by simp, rfl⟩
        | none =>
            simp only at h
            split at h
            · rw [Option.bind_eq_bind, Option.bind_eq_some_iff] at h
              obtain ⟨_, -, h⟩ := h
              cases h
              exact .inl ⟨by simp, rfl⟩
            · cases h
              exact .inr ⟨rfl, p, rfl, rights_update _⟩

theorem unprovision_rights {key : UnitKey}
    (hexec : RegistryOp.exec dx (.unprovision key processId) = some (dx', rr)) :
    rights dx'.pool = rights dx.pool := by
  rw [RegistryOp.exec, Option.map_eq_some_iff] at hexec
  obtain ⟨⟨dx₁, status, found, calls⟩, h, hr⟩ := hexec
  cases hr
  rw [spdStorageUnitUnprovision, Option.bind_eq_bind, Option.bind_eq_some_iff] at h
  obtain ⟨found, -, h⟩ := h
  cases found with
  | none =>
      cases h
      rfl
  | some r =>
      simp only [Option.bind_eq_bind, Option.bind_eq_some_iff] at h
      obtain ⟨object, hobject, h⟩ := h
      split at h
      · cases h
        rfl
      · rw [Option.bind_eq_some_iff] at h
        obtain ⟨⟨ioq, calls⟩, -, h⟩ := h
        cases h
        exact rights_update_same hobject rfl

theorem RegistryOp.exec_rights (hexec : rop.exec dx = some (dx', rr)) :
    rop.Rights (rights dx.pool) (rights dx'.pool) rr.status := by
  cases rop with
  | provision params processId unitMem ioqMem => exact provision_rights hexec
  | unprovision key processId => exact unprovision_rights hexec
  | referenceByBtl btl =>
      rw [RegistryOp.exec, Option.map_eq_some_iff] at hexec
      obtain ⟨⟨dx₁, found⟩, h, hr⟩ := hexec
      cases hr
      unfold spdStorageUnitReferenceByBtl at h
      split at h
      · cases h
        rfl
      · rw [Option.map_eq_some_iff] at h
        obtain ⟨dx₂, hadd, h⟩ := h
        cases h
        exact addRef_rights hadd
  | referenceByDevice deviceObject =>
      rw [RegistryOp.exec, Option.map_eq_some_iff] at hexec
      obtain ⟨⟨dx₁, found⟩, h, hr⟩ := hexec
      cases hr
      rw [spdStorageUnitReferenceByDevice, Option.bind_eq_bind, Option.bind_eq_some_iff] at h
      obtain ⟨found₁, -, h⟩ := h
      cases found₁ with
      | none =>
          cases h
          rfl
      | some _ =>
          rw [Option.map_eq_some_iff] at h
          obtain ⟨dx₂, hadd, h⟩ := h
          cases h
          exact addRef_rights hadd
  | dereference p =>
      rw [RegistryOp.exec, Option.map_eq_some_iff] at hexec
      obtain ⟨⟨dx₁, calls⟩, h, hr⟩ := hexec
      cases hr
      rw [spdStorageUnitDereference, Option.bind_eq_bind, Option.bind_eq_some_iff] at h
      obtain ⟨object, hobject, h⟩ := h
      simp only at h
      split at h
      · rw [Option.bind_eq_bind, Option.bind_eq_some_iff] at h
        obtain ⟨_, -, h⟩ := h
        cases h
        exact .inr (rights_update none)
      · cases h
        exact .inl (rights_update_same hobject rfl)
  | setDevice p deviceObject =>
      rw [RegistryOp.exec, Option.map_eq_some_iff] at hexec
      obtain ⟨⟨dx₁, status⟩, h, hr⟩ := hexec
      cases hr
      rw [spdStorageUnitSetDevice, Option.bind_eq_bind, Option.bind_eq_some_iff] at h
      obtain ⟨object, hobject, h⟩ := h
      split at h
      · cases h
        exact rights_update_same hobject rfl
      · cases h
        rfl
  | setTransactProcessId p processId =>
      rw [RegistryOp.exec, Option.map_eq_some_iff] at hexec
      obtain ⟨dx₁, h, hr⟩ := hexec
      cases hr
      rw [spdIoctlSetTransactProcessIdStore, Option.bind_eq_bind, Option.bind_eq_some_iff] at h
      obtain ⟨object, hobject, h⟩ := h
      cases h
      exact ⟨unitRights object, by rw [rights, hobject, Option.map_some], rights_update _⟩
  | work p ioq =>
      rw [RegistryOp.exec, Option.map_eq_some_iff] at hexec
      obtain ⟨object, hobject, hr⟩ := hexec
      cases hr
      exact rights_update_same hobject rfl

/-- What a step does to the rights to the unit at `p`. -/
inductive RightsStep (p : Addr) (ev : ServiceEvent) (before after : Option Rights) : Prop
  | kept : ev.provides p = none → ev.op.stores p = none → after = before ∨ after = none →
      RightsStep p ev before after
  | provided (owner : UInt32) : ev.provides p = some owner → ev.op.stores p = none →
      before = none → after = some ⟨owner, owner⟩ → RightsStep p ev before after
  | stored (caller processId : UInt32) (r : Rights) : ev.provides p = none →
      ev.op.stores p = some (caller, processId) → before = some r →
      after = some ⟨r.ownerProcessId, processId⟩ → RightsStep p ev before after

theorem provides_other (h : ∀ params, serviceRequest irp ≠ some (.provision params)) :
    ServiceEvent.provides p ⟨.arrive irp unitMem ioqMem, r⟩ = none := by
  cases unitMem with
  | none => rfl
  | some q =>
      cases hrequest : serviceRequest irp with
      | none => simp only [ServiceEvent.provides, hrequest]
      | some params =>
          cases params with
          | provision params => exact absurd hrequest (h params)
          | _ => simp only [ServiceEvent.provides, hrequest]

theorem provides_provision {params : StorageUnitParams} {q : Addr}
    (h : serviceRequest irp = some (.provision params)) :
    ServiceEvent.provides p ⟨.arrive irp (some q) ioqMem, r⟩ =
      if q = p ∧ r.status = .success then some irp.requestorProcessId else none := by
  simp only [ServiceEvent.provides, h]

theorem provides_failed {op : ServiceOp} (h : r.status ≠ .success) :
    ServiceEvent.provides p ⟨op, r⟩ = none := by
  unfold ServiceEvent.provides
  split
  · split
    · exact if_neg fun hand => h hand.2
    · rfl
  · rfl

theorem arriveExec_rights (hfresh : ∀ p, unitMem = some p → p ≠ 0 ∧ dx.pool p = none)
    (hexec : arriveExec dx irp unitMem ioqMem = some (dx', r)) :
    RightsStep p ⟨.arrive irp unitMem ioqMem, r⟩ (rights dx.pool p) (rights dx'.pool p) := by
  have hkept : rights dx'.pool = rights dx.pool →
      (∀ params, serviceRequest irp ≠ some (.provision params)) →
      RightsStep p ⟨.arrive irp unitMem ioqMem, r⟩ (rights dx.pool p) (rights dx'.pool p) :=
    fun hrights hne => .kept (provides_other hne) rfl (.inl (congrFun hrights p))
  unfold arriveExec at hexec
  split at hexec
  · next params hrequest =>
      rw [Option.map_eq_some_iff] at hexec
      obtain ⟨⟨dx₁, status, btl⟩, h, hr⟩ := hexec
      rw [Prod.mk.injEq] at hr
      obtain ⟨rfl, rfl⟩ := hr
      obtain ⟨hdx, hstatus⟩ | h := spdIoctlProvision_registry h
      · have hdx' : dx₁ = dx := hdx
        rw [hdx']
        exact .kept (provides_failed (by simp [hstatus])) rfl (.inl rfl)
      · rcases RegistryOp.exec_rights h with ⟨hstatus, hrights⟩ | ⟨hstatus, q,
          rfl, hrights⟩
        · exact .kept (provides_failed hstatus) rfl (.inl (congrFun hrights p))
        · by_cases hqp : q = p
          · subst hqp
            refine .provided irp.requestorProcessId ?_ rfl ?_ ?_
            · rw [provides_provision hrequest, if_pos ⟨rfl, hstatus⟩]
            · rw [rights, (hfresh q rfl).2, Option.map_none]
            · rw [hrights, Function.update_self]
          · refine .kept ?_ rfl (.inl ?_)
            · rw [provides_provision hrequest, if_neg fun hand => hqp hand.1]
            · rw [hrights, Function.update_of_ne (Ne.symm hqp)]
  · next guid hrequest =>
      rw [Option.map_eq_some_iff] at hexec
      obtain ⟨⟨dx₁, status, found, calls⟩, h, hr⟩ := hexec
      cases hr
      refine hkept ?_ (by simp [hrequest])
      obtain ⟨rfl, -⟩ | h := spdIoctlUnprovision_registry h
      · rfl
      · exact RegistryOp.exec_rights h
  · next hrequest =>
      rw [Option.map_eq_some_iff] at hexec
      obtain ⟨⟨dx₁, status, found⟩, h, hr⟩ := hexec
      cases hr
      refine hkept ?_ (by simp [hrequest])
      obtain ⟨rfl, -⟩ | h := spdIoctlTransactReference_registry h
      · rfl
      · exact RegistryOp.exec_rights h
  · next hrequest =>
      rw [Option.map_eq_some_iff] at hexec
      obtain ⟨⟨dx₁, status, found⟩, h, hr⟩ := hexec
      cases hr
      refine hkept ?_ (by simp [hrequest])
      obtain ⟨rfl, -⟩ | h := spdIoctlSetTransactProcessIdReference_registry h
      · rfl
      · exact RegistryOp.exec_rights h
  · cases hexec
  · next hrequest =>
      cases hexec
      exact hkept rfl (by simp [hrequest])
  · next hrequest =>
      cases hexec
      exact hkept rfl (by simp [hrequest])

theorem ServiceStep.rightsStep (h : ServiceStep s ev s') (p : Addr) :
    RightsStep p ev (rights s.dx.pool p) (rights s'.dx.pool p) := by
  obtain ⟨op, r⟩ := ev
  have hexec := h.exec
  cases op with
  | arrive irp unitMem ioqMem => exact arriveExec_rights h.allowed.1 hexec
  | resume service =>
      have hexec' : (if service.phase = .referenced then resumeExec s.dx service.irp service.unit
        else none) = some (s'.dx, r) := hexec
      split at hexec'
      · unfold resumeExec at hexec'
        split at hexec'
        · next hrequest =>
            rw [Option.map_eq_some_iff] at hexec'
            obtain ⟨status, -, hr⟩ := hexec'
            rw [Prod.mk.injEq] at hr
            rw [← hr.1]
            exact .kept rfl (by simp only [ServiceOp.stores, hrequest]) (.inl rfl)
        · next btl processId hrequest =>
            rw [Option.map_eq_some_iff] at hexec'
            obtain ⟨dx₁, hstore, hr⟩ := hexec'
            rw [Prod.mk.injEq] at hr
            obtain ⟨rfl, -⟩ := hr
            have hset : RegistryOp.exec s.dx (.setTransactProcessId service.unit processId) =
                some (s'.dx, ⟨.success, -1, none⟩) := by
              rw [RegistryOp.exec, hstore, Option.map_some]
            obtain ⟨r₀, hbefore, hafter⟩ := RegistryOp.exec_rights hset
            by_cases hp : service.unit = p
            · subst hp
              refine .stored service.irp.requestorProcessId processId r₀ rfl ?_ hbefore ?_
              · simp only [ServiceOp.stores, hrequest, if_true]
              · rw [hafter, Function.update_self]
            · refine .kept rfl ?_ (.inl ?_)
              · simp only [ServiceOp.stores, hrequest, if_neg hp]
              · rw [hafter, Function.update_of_ne (Ne.symm hp)]
        · cases hexec'
      · cases hexec'
  | work service ioq =>
      have hexec' : (if service.phase = .admitted then _ else none) = some (s'.dx, r) := hexec
      split at hexec'
      · rw [Option.map_eq_some_iff] at hexec'
        obtain ⟨object, hobject, hr⟩ := hexec'
        rw [Prod.mk.injEq] at hr
        obtain ⟨hdx, -⟩ := hr
        rw [← hdx]
        have hsame : rights (Function.update s.dx.pool service.unit
            (some { object with ioq := ioq })) = rights s.dx.pool :=
          rights_update_same hobject rfl
        exact .kept rfl rfl (.inl (congrFun hsame p))
      · cases hexec'
  | leave service =>
      have hexec' : (if service.phase = .referenced then none
        else (spdStorageUnitDereference s.dx service.unit).map _) = some (s'.dx, r) := hexec
      split at hexec'
      · cases hexec'
      · rw [Option.map_eq_some_iff] at hexec'
        obtain ⟨⟨dx₁, calls⟩, hderef, hr⟩ := hexec'
        rw [Prod.mk.injEq] at hr
        obtain ⟨rfl, -⟩ := hr
        have hop : RegistryOp.exec s.dx (.dereference service.unit) =
            some (s'.dx, ⟨.success, -1, none⟩) := by
          rw [RegistryOp.exec, hderef, Option.map_some]
        refine .kept rfl rfl ?_
        rcases RegistryOp.exec_rights hop with hsame | hfreed
        · exact .inl (congrFun hsame p)
        · rw [hfreed, Function.update_apply]
          split
          · exact .inr rfl
          · exact .inl rfl

theorem ServiceStep.passes (h : ServiceStep s ev s') (hpass : ev.passes p = some processId) :
    ∃ r, rights s.dx.pool p = some r ∧ r.transactProcessId = processId := by
  obtain ⟨op, r⟩ := ev
  cases op with
  | resume service =>
      have hexec : (if service.phase = .referenced then resumeExec s.dx service.irp service.unit
        else none) = some (s'.dx, r) := h.exec
      cases hrequest : serviceRequest service.irp with
      | none => simp [ServiceEvent.passes, hrequest] at hpass
      | some params =>
          cases params with
          | transact btl reqValid rspValid dataBuffer rsp =>
              have hpass' : (if service.unit = p ∧ r.status = .success then
                  some service.irp.requestorProcessId else none) = some processId := by
                simpa only [ServiceEvent.passes, hrequest] using hpass
              obtain ⟨⟨hunit, hstatus⟩, hprocess⟩ := Option.ite_none_right_eq_some.mp hpass'
              rw [Option.some.injEq] at hprocess
              split at hexec
              · simp only [resumeExec, hrequest, Option.map_eq_some_iff] at hexec
                obtain ⟨status, haccess, hr⟩ := hexec
                rw [spdIoctlTransactAccess, Option.bind_eq_bind, Option.bind_eq_some_iff] at haccess
                obtain ⟨object, hobject, haccess⟩ := haccess
                rw [Prod.mk.injEq] at hr
                rw [← hr.2] at hstatus
                have hstatus' : status = .success := hstatus
                refine ⟨unitRights object, ?_, ?_⟩
                · rw [rights, ← hunit, hobject, Option.map_some]
                · rw [Option.some.injEq, hstatus'] at haccess
                  have hsame := (ite_eq_right_iff.mp haccess).mt (by simp)
                  rw [← hprocess]
                  exact (not_not.mp hsame).symm
              · cases hexec
          | _ => simp [ServiceEvent.passes, hrequest] at hpass
  | _ => cases hpass

/-! ## Runs -/

/-- The check that `SET_TRANSACT_PID` does not make: the caller owns the unit,
or what it stores is there already. -/
def DesignationOk (s : ServiceSys) (ev : ServiceEvent) : Prop :=
  ∀ p caller processId r, ev.op.stores p = some (caller, processId) →
    rights s.dx.pool p = some r →
    caller = r.ownerProcessId ∨ processId = r.transactProcessId

structure CheckedStep (s : ServiceSys) (ev : ServiceEvent) (s' : ServiceSys) : Prop where
  step : ServiceStep s ev s'
  ok : DesignationOk s ev

/-- The rights the driver remembers are the ones the history gives. -/
def AccessInv (ls : List ServiceEvent) (s : ServiceSys) : Prop :=
  ∀ p r, rights s.dx.pool p = some r → Provisioner ls p r.ownerProcessId ∧
    (r.transactProcessId = r.ownerProcessId ∨ Designated ls p r.transactProcessId)

theorem AccessInv.step (hinv : AccessInv ls s) (h : CheckedStep s ev s') :
    AccessInv (ls ++ [ev]) s' := by
  intro p r' hr'
  cases h.step.rightsStep p with
  | kept hprov _ hafter =>
      rcases hafter with hsame | hnone
      · obtain ⟨howner, htransact⟩ := hinv p r' (hsame ▸ hr')
        exact ⟨howner.keep hprov, htransact.imp_right fun hd => hd.keep hprov⟩
      · rw [hnone] at hr'
        cases hr'
  | provided owner hprov _ _ hafter =>
      rw [hafter, Option.some.injEq] at hr'
      rw [← hr']
      exact ⟨.last hprov, .inl rfl⟩
  | stored caller processId r hprov hstores hbefore hafter =>
      rw [hafter, Option.some.injEq] at hr'
      rw [← hr']
      obtain ⟨howner, htransact⟩ := hinv p r hbefore
      refine ⟨howner.keep hprov, ?_⟩
      rcases h.ok p caller processId r hstores hbefore with hcaller | hsame
      · rw [hcaller] at hstores
        exact .inr (.last hstores howner)
      · show processId = r.ownerProcessId ∨ Designated _ p processId
        rw [hsame]
        exact htransact.imp_right fun hd => hd.keep hprov

theorem accessInv_run (hrun : Run CheckedStep (.init capacity) ls s) : AccessInv ls s :=
  hrun.history (I := AccessInv) (fun p r hr => by cases hr) fun _ hinv h => hinv.step h

/-- The designation of a unit changes by a request of its provisioner. -/
def ChangedByProvisioner (ls : List ServiceEvent) (s : ServiceSys) (ev : ServiceEvent)
    (s' : ServiceSys) : Prop :=
  ∀ p r r', rights s.dx.pool p = some r → rights s'.dx.pool p = some r' →
    r'.transactProcessId ≠ r.transactProcessId →
    ∃ owner, Provisioner ls p owner ∧ ev.op.stores p = some (owner, r'.transactProcessId)

/-- A step changes designations by their provisioners' requests only, exactly
when it meets the check. -/
theorem AccessInv.changed_iff (hinv : AccessInv ls s) (h : ServiceStep s ev s') :
    ChangedByProvisioner ls s ev s' ↔ DesignationOk s ev := by
  constructor
  · intro hchanged p caller processId r hstores hbefore
    by_cases hsame : processId = r.transactProcessId
    · exact .inr hsame
    cases h.rightsStep p with
    | kept _ hnone _ =>
        rw [hnone] at hstores
        cases hstores
    | provided _ _ hnone _ _ =>
        rw [hnone] at hstores
        cases hstores
    | stored caller' processId' r' _ hstores' hbefore' hafter =>
        rw [hstores, Option.some.injEq, Prod.mk.injEq] at hstores'
        obtain ⟨rfl, rfl⟩ := hstores'
        obtain ⟨owner, howner, hstores'⟩ := hchanged p r _ hbefore hafter hsame
        rw [hstores, Option.some.injEq, Prod.mk.injEq] at hstores'
        rw [hstores'.1]
        exact .inl (howner.unique (hinv p r hbefore).1)
  · intro hok p r r' hbefore hafter hne
    cases h.rightsStep p with
    | kept _ _ h' =>
        rcases h' with hsame | hnone
        · rw [hsame, hbefore, Option.some.injEq] at hafter
          rw [hafter] at hne
          exact absurd rfl hne
        · rw [hnone] at hafter
          cases hafter
    | provided _ _ _ hnone _ =>
        rw [hbefore] at hnone
        cases hnone
    | stored caller processId r₀ _ hstores hbefore' hafter' =>
        rw [hbefore, Option.some.injEq] at hbefore'
        rw [hafter, Option.some.injEq] at hafter'
        subst hbefore' hafter'
        refine ⟨caller, ?_, hstores⟩
        rcases hok p caller processId r hstores hbefore with hcaller | hsame
        · rw [hcaller]
          exact (hinv p r hbefore).1
        · exact absurd hsame hne

/-- What holds in every state of a run whose `SET_TRANSACT_PID`s meet the
check. -/
structure AccessPromise (ls : List ServiceEvent) (s : ServiceSys) : Prop where
  passes : ∀ ev s' p processId, ServiceStep s ev s' → ev.passes p = some processId →
    Provisioner ls p processId ∨ Designated ls p processId
  changes : ∀ ev s', ServiceStep s ev s' →
    (ChangedByProvisioner ls s ev s' ↔ DesignationOk s ev)

/-- In every run whose designations come from the provisioner, or change nothing, a request
passes only for the unit's provisioner or for a process that he has designated; and a
step changes a designation in another way exactly when it does not meet this check. -/
theorem spdIoctl_access (hrun : Run CheckedStep (.init capacity) ls s) : AccessPromise ls s := by
  have hinv := accessInv_run hrun
  refine ⟨fun ev s' p processId h hpass => ?_, fun ev s' h => hinv.changed_iff h⟩
  obtain ⟨r, hr, hprocess⟩ := h.passes hpass
  obtain ⟨howner, htransact⟩ := hinv p r hr
  rw [hprocess] at htransact
  rcases htransact with heq | hdesignated
  · rw [heq]
    exact .inl howner
  · exact .inr hdesignated

/-! ## A process that designates itself -/

theorem designationOk_of_stores (h : ∀ p, ev.op.stores p = none) : DesignationOk s ev := by
  intro p caller processId r hstores
  rw [h p] at hstores
  cases hstores

section
variable {btl caller : UInt32}

/-- The `TRANSACT` a dispatcher begins with. -/
def firstTransact (caller btl : UInt32) : Irp :=
  Shared.spdIoctlTransact caller btl none true (some [])

def arriveEvent (irp : Irp) (p : Addr) : ServiceEvent :=
  ⟨.arrive irp none none, ⟨.success, -1, some ⟨irp, p, .referenced⟩⟩⟩

def storeEvent (caller btl processId : UInt32) (p : Addr) : ServiceEvent :=
  ⟨.resume ⟨Shared.spdIoctlSetTransactProcessId caller btl processId, p, .referenced⟩,
    ⟨.success, -1,
      some ⟨Shared.spdIoctlSetTransactProcessId caller btl processId, p, .over⟩⟩⟩

def accessEvent (caller btl : UInt32) (p : Addr) : ServiceEvent :=
  ⟨.resume ⟨firstTransact caller btl, p, .referenced⟩,
    ⟨.success, -1, some ⟨firstTransact caller btl, p, .admitted⟩⟩⟩

theorem arriveExec_transact (h : spdStorageUnitReferenceByBtl dx btl = some (dx', some p)) :
    arriveExec dx (firstTransact caller btl) none none =
      some (dx', (arriveEvent (firstTransact caller btl) p).result) := by
  show (spdIoctlTransactReference dx (firstTransact caller btl) btl true false (some [])).map _ = _
  have hlength : ¬ (sizeofTransactParams > (firstTransact caller btl).inputBufferLength ∨
      sizeofTransactParams > (firstTransact caller btl).outputBufferLength) := by
    show ¬ (sizeofTransactParams > sizeofTransactParams ∨
        sizeofTransactParams > sizeofTransactParams)
    decide
  unfold spdIoctlTransactReference
  rw [if_neg hlength, if_neg (by simp), h]
  rfl

theorem arriveExec_setTransactPid
    (h : spdStorageUnitReferenceByBtl dx btl = some (dx', some p)) :
    arriveExec dx (Shared.spdIoctlSetTransactProcessId caller btl processId) none none = some (dx',
      (arriveEvent (Shared.spdIoctlSetTransactProcessId caller btl processId) p).result) := by
  show (spdIoctlSetTransactProcessIdReference dx _ btl).map _ = _
  have hlength : ¬ sizeofSetTransactPidParams >
      (Shared.spdIoctlSetTransactProcessId caller btl processId).inputBufferLength := by
    show ¬ sizeofSetTransactPidParams > sizeofSetTransactPidParams
    decide
  unfold spdIoctlSetTransactProcessIdReference
  rw [if_neg hlength, h]
  rfl

/-- A request that names the unit at `p` takes its reference. -/
theorem arriveEvent_step (hinv : RegistryInv s.dx (heldBy s.inFlight))
    (hlt : s.inFlight.length + 2 < 2 ^ 32) (hunit : s.dx.unitByBtl btl = some p) (irp : Irp)
    (harrive : ∀ dx', spdStorageUnitReferenceByBtl s.dx btl = some (dx', some p) →
      arriveExec s.dx irp none none = some (dx', (arriveEvent irp p).result)) :
    ∃ s', ServiceStep s (arriveEvent irp p) s' ∧
      s'.inFlight = ⟨irp, p, .referenced⟩ :: s.inFlight ∧ s'.dx.unitByBtl btl = some p ∧
      rights s'.dx.pool = rights s.dx.pool := by
  obtain ⟨dx', hreference, hframe, -, -⟩ := spdStorageUnitReferenceByBtl_agree hinv
    (show (heldBy s.inFlight).length + 2 < 2 ^ 32 by rwa [heldBy, List.length_map]) btl
  rw [hunit] at hreference
  have hop : RegistryOp.exec s.dx (.referenceByBtl btl) =
      some (dx', ⟨.success, -1, some p⟩) := by
    rw [RegistryOp.exec, hreference, Option.map_some]
  refine ⟨⟨dx', ⟨irp, p, .referenced⟩ :: s.inFlight⟩,
    ⟨⟨fun q hq => (by cases hq), hlt⟩, harrive dx' hreference, rfl⟩, rfl, ?_,
    RegistryOp.exec_rights hop⟩
  rw [hframe]
  exact hunit

theorem storeEvent_step {r : Rights} (hrights : rights s.dx.pool p = some r)
    (hmem : ⟨Shared.spdIoctlSetTransactProcessId caller btl processId, p, .referenced⟩ ∈
      s.inFlight) :
    ∃ s', ServiceStep s (storeEvent caller btl processId p) s' ∧
      s'.inFlight.length = s.inFlight.length ∧ s'.dx.unitByBtl = s.dx.unitByBtl ∧
      rights s'.dx.pool p = some ⟨r.ownerProcessId, processId⟩ := by
  obtain ⟨object, hobject, rfl⟩ := Option.map_eq_some_iff.mp hrights
  have hexec : ServiceOp.exec s.dx (storeEvent caller btl processId p).op =
      some ({ s.dx with pool := Function.update s.dx.pool p (some { object with
        unit := { object.unit with transactProcessId := processId } }) },
        (storeEvent caller btl processId p).result) := by
    show (spdIoctlSetTransactProcessIdStore s.dx p processId).map _ = _
    rw [spdIoctlSetTransactProcessIdStore, hobject]
    rfl
  refine ⟨⟨_, _⟩, ⟨hmem, hexec, rfl⟩, ?_, rfl, ?_⟩
  · show (s.inFlight.erase _).length + 1 = _
    rw [List.length_erase_of_mem hmem]
    have := List.length_pos_of_mem hmem
    omega
  · show rights (Function.update s.dx.pool p _) p = _
    rw [rights_update, Function.update_self]
    rfl

theorem accessEvent_step {r : Rights} (hrights : rights s.dx.pool p = some r)
    (hpid : r.transactProcessId = caller)
    (hmem : ⟨firstTransact caller btl, p, .referenced⟩ ∈ s.inFlight) :
    ∃ s', ServiceStep s (accessEvent caller btl p) s' := by
  obtain ⟨object, hobject, rfl⟩ := Option.map_eq_some_iff.mp hrights
  have hexec : ServiceOp.exec s.dx (accessEvent caller btl p).op =
      some (s.dx, (accessEvent caller btl p).result) := by
    show (spdIoctlTransactAccess s.dx p caller).map _ = _
    rw [spdIoctlTransactAccess, hobject, Option.bind_eq_bind, Option.bind_some,
      if_neg (show ¬ caller ≠ object.unit.transactProcessId from not_not.mpr hpid.symm)]
    rfl
  exact ⟨⟨s.dx, (accessEvent caller btl p).result.service.toList ++ s.inFlight.erase _⟩, hmem,
    hexec, rfl⟩

/-- Any process passes the access check of any unit that is provisioned, once it
has designated itself. -/
theorem foreign_passes {r : Rights} (hinv : RegistryInv s.dx (heldBy s.inFlight))
    (hlt : s.inFlight.length + 3 < 2 ^ 32) (hunit : s.dx.unitByBtl btl = some p)
    (hrights : rights s.dx.pool p = some r) (caller processId : UInt32) :
    ∃ s₁ s₂ s₃ s₄,
      ServiceStep s
        (arriveEvent (Shared.spdIoctlSetTransactProcessId caller btl processId) p) s₁ ∧
      ServiceStep s₁ (storeEvent caller btl processId p) s₂ ∧
      ServiceStep s₂ (arriveEvent (firstTransact processId btl) p) s₃ ∧
      ServiceStep s₃ (accessEvent processId btl p) s₄ ∧
      rights s₁.dx.pool = rights s.dx.pool := by
  obtain ⟨s₁, h₁, hin₁, hunit₁, hrights₁⟩ := arriveEvent_step hinv (by omega) hunit
    (Shared.spdIoctlSetTransactProcessId caller btl processId) fun _ h =>
      arriveExec_setTransactPid h
  have hrights₁' : rights s₁.dx.pool p = some r := by rw [hrights₁, hrights]
  obtain ⟨s₂, h₂, hlen₂, hunit₂, hrights₂⟩ := storeEvent_step hrights₁'
    (by rw [hin₁]; exact List.mem_cons_self)
  rw [hin₁, List.length_cons] at hlen₂
  obtain ⟨s₃, h₃, hin₃, -, hrights₃⟩ :=
    arriveEvent_step (h₂.inv (h₁.inv hinv)) (by omega)
    (by rw [hunit₂]; exact hunit₁) (firstTransact processId btl) fun _ h =>
      arriveExec_transact h
  obtain ⟨s₄, h₄⟩ := accessEvent_step (by rw [hrights₃, hrights₂]) rfl
    (by rw [hin₃]; exact List.mem_cons_self)
  exact ⟨s₁, s₂, s₃, s₄, h₁, h₂, h₃, h₄, hrights₁⟩

end

def sampleProvision : ServiceEvent :=
  ⟨.arrive (Shared.spdIoctlProvision 1 sampleUnit) (some 0x5000) (some zeroedIoq),
    ⟨.success, 0, none⟩⟩

theorem sampleProvision_step : ∃ s, ServiceStep (.init 16) sampleProvision s ∧
    s.inFlight = [] ∧
    s.dx.unitByBtl 0 = some 0x5000 ∧ rights s.dx.pool 0x5000 = some ⟨1, 1⟩ := by
  refine ⟨⟨_, []⟩, ⟨⟨fun p hp => ?_, by decide⟩, rfl, rfl⟩, rfl, rfl, rfl⟩
  cases hp
  exact ⟨by decide, rfl⟩

/-- The history of `caller` designating process 2, and of process 2 coming to
the access check. -/
def sampleHistory (caller : UInt32) : List ServiceEvent :=
  [sampleProvision, arriveEvent (Shared.spdIoctlSetTransactProcessId caller 0 2) 0x5000,
    storeEvent caller 0 2 0x5000, arriveEvent (firstTransact 2 0) 0x5000]

theorem sampleHistory_steps (caller : UInt32) : ∃ s₀ s₁ s₂ s₃ s₄,
    ServiceStep (.init 16) sampleProvision s₀ ∧
    ServiceStep s₀ (arriveEvent (Shared.spdIoctlSetTransactProcessId caller 0 2) 0x5000) s₁ ∧
    ServiceStep s₁ (storeEvent caller 0 2 0x5000) s₂ ∧
    ServiceStep s₂ (arriveEvent (firstTransact 2 0) 0x5000) s₃ ∧
    ServiceStep s₃ (accessEvent 2 0 0x5000) s₄ ∧
    rights s₁.dx.pool 0x5000 = some ⟨1, 1⟩ := by
  obtain ⟨s₀, h₀, hin₀, hunit₀, hrights₀⟩ := sampleProvision_step
  have hinv : RegistryInv s₀.dx (heldBy s₀.inFlight) := h₀.inv (registryInv_init (by decide))
  obtain ⟨s₁, s₂, s₃, s₄, h₁, h₂, h₃, h₄, hsame⟩ :=
    foreign_passes hinv (by rw [hin₀]; decide) hunit₀ hrights₀ caller 2
  exact ⟨s₀, s₁, s₂, s₃, s₄, h₀, h₁, h₂, h₃, h₄, by rw [hsame, hrights₀]⟩

/-- The provisioner designates process 2. -/
theorem spdIoctl_access_designated :
    ∃ s ev s', Run CheckedStep (.init 16) (sampleHistory 1) s ∧ ServiceStep s ev s' ∧
      ev.passes 0x5000 = some 2 ∧ AccessPromise (sampleHistory 1) s := by
  obtain ⟨s₀, s₁, s₂, s₃, s₄, h₀, h₁, h₂, h₃, h₄, hrights⟩ :=
    sampleHistory_steps 1
  have hok : DesignationOk s₁ (storeEvent 1 0 2 0x5000) := by
    intro p caller processId r hstores hr
    have hstores' : (if (0x5000 : Addr) = p then some ((1 : UInt32), (2 : UInt32)) else none) =
        some (caller, processId) := hstores
    obtain ⟨rfl, hpair⟩ := Option.ite_none_right_eq_some.mp hstores'
    rw [Option.some.injEq, Prod.mk.injEq] at hpair
    rw [hrights, Option.some.injEq] at hr
    rw [← hr]
    exact .inl hpair.1.symm
  have hrun : Run CheckedStep (.init 16) (sampleHistory 1) s₃ :=
    (((Run.single ⟨h₀, designationOk_of_stores fun _ => rfl⟩).snoc
      ⟨h₁, designationOk_of_stores fun _ => rfl⟩).snoc ⟨h₂, hok⟩).snoc
      ⟨h₃, designationOk_of_stores fun _ => rfl⟩
  exact ⟨s₃, _, s₄, hrun, h₄, rfl, spdIoctl_access hrun⟩

/-- Process 2 designates itself. -/
theorem spdIoctl_access_foreign :
    ∃ s ev s', Run ServiceStep (.init 16) (sampleHistory 2) s ∧ ServiceStep s ev s' ∧
      ev.passes 0x5000 = some 2 ∧ ¬ Provisioner (sampleHistory 2) 0x5000 2 ∧
      ¬ Designated (sampleHistory 2) 0x5000 2 := by
  obtain ⟨s₀, s₁, s₂, s₃, s₄, h₀, h₁, h₂, h₃, h₄, -⟩ :=
    sampleHistory_steps 2
  have hprovides : ∀ ev ∈ sampleHistory 2, ev.provides 0x5000 ≠ some 2 := by
    intro ev hev
    simp only [sampleHistory, List.mem_cons, List.not_mem_nil, or_false] at hev
    rcases hev with rfl | rfl | rfl | rfl <;> decide
  have hstores : ∀ ev ∈ sampleHistory 2, ∀ owner, ev.op.stores 0x5000 = some (owner, 2) →
      owner = 2 := by
    intro ev hev owner h
    simp only [sampleHistory, List.mem_cons, List.not_mem_nil, or_false] at hev
    rcases hev with rfl | rfl | rfl | rfl <;> cases h
    rfl
  refine ⟨s₃, _, s₄, (((Run.single h₀).snoc h₁).snoc h₂).snoc h₃, h₄, rfl, ?_, ?_⟩
  · rintro ⟨pre, ev, post, hls, hprovide, -⟩
    exact hprovides ev (by rw [hls]; simp) hprovide
  · rintro ⟨pre, ev, post, owner, hls, hstore, ⟨pre', ev', post', rfl, hprovide, -⟩, -⟩
    obtain rfl := hstores ev (by rw [hls]; simp) owner hstore
    exact hprovides ev' (by rw [hls]; simp) hprovide

end Winspd.Proofs
