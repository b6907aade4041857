import Winspd.Proofs.RegistryRun

/-!
# Service requests of many processes

`ServiceStep` is one step of the service requests that are being processed.
`PROVISION` and `UNPROVISION` do their work under the spin lock when they
arrive. `TRANSACT` and `SET_TRANSACT_PID` arrive by taking a reference; the
access check or the store is a step of its own, then comes what `TRANSACT` does
to the queue, and last the reference is given back. Between two steps of one
request any others can run, so the unit a request holds may have been
unprovisioned before its access check.

Every step does to the registry what one of its operations does, or nothing
(`ServiceOp.exec_registry`). The invariant of `RegistryRun` therefore holds in
every run of service requests.
-/

namespace Winspd.Proofs

open Winspd.Lib Winspd.Sys Winspd.Spec

/-! ## The system -/

/-- How far a request that holds a reference has come. -/
inductive ServicePhase
  /-- Before the access check of `TRANSACT` or the store of
  `SET_TRANSACT_PID`. -/
  | referenced
  /-- Past the access check. -/
  | admitted
  /-- Nothing is left but the dereference. -/
  | over
  deriving DecidableEq

/-- A request that holds a reference to a unit. -/
structure Service where
  irp : Irp
  unit : Addr
  phase : ServicePhase
  deriving DecidableEq

inductive ServiceOp
  | arrive (irp : Irp) (unitMem : Option Addr) (ioqMem : Option SpdIoq)
  /-- The access check, or the store. -/
  | resume (service : Service)
  /-- `TRANSACT` has worked on the queue of the unit. -/
  | work (service : Service) (ioq : SpdIoq)
  | leave (service : Service)

/-- What a step answers: the status and BTL of the request, and the request
itself while it holds a reference. -/
structure ServiceResult where
  status : NtStatus
  btl : UInt32
  service : Option Service

def arriveExec (dx : SpdDeviceExtension) (irp : Irp) (unitMem : Option Addr)
    (ioqMem : Option SpdIoq) : Option (SpdDeviceExtension × ServiceResult) :=
  match serviceRequest irp with
  | some (.provision params) =>
      (spdIoctlProvision dx irp params unitMem ioqMem).map fun r => (r.1, ⟨r.2.1, r.2.2, none⟩)
  | some (.unprovision guid) =>
      (spdIoctlUnprovision dx irp guid).map fun r =>
        (r.1, ⟨r.2.1, -1, r.2.2.1.map fun p => ⟨irp, p, .over⟩⟩)
  | some (.transact btl reqValid rspValid dataBuffer _) =>
      (spdIoctlTransactReference dx irp btl reqValid rspValid dataBuffer).map fun r =>
        (r.1, ⟨r.2.1, -1, r.2.2.map fun p => ⟨irp, p, .referenced⟩⟩)
  | some (.setTransactPid btl _) =>
      (spdIoctlSetTransactProcessIdReference dx irp btl).map fun r =>
        (r.1, ⟨r.2.1, -1, r.2.2.map fun p => ⟨irp, p, .referenced⟩⟩)
  -- not among the requests of these runs: it changes nothing
  | some .list => none
  | some .other | none => some (dx, ⟨.invalidParameter, -1, none⟩)

/-- The access check of `TRANSACT`, or the store of `SET_TRANSACT_PID`. -/
def resumeExec (dx : SpdDeviceExtension) (irp : Irp) (p : Addr) :
    Option (SpdDeviceExtension × ServiceResult) :=
  match serviceRequest irp with
  | some (.transact _ _ _ _ _) =>
      (spdIoctlTransactAccess dx p irp.requestorProcessId).map fun status =>
        (dx, ⟨status, -1, some ⟨irp, p, if status = .success then .admitted else .over⟩⟩)
  | some (.setTransactPid _ processId) =>
      (spdIoctlSetTransactProcessIdStore dx p processId).map fun dx =>
        (dx, ⟨.success, -1, some ⟨irp, p, .over⟩⟩)
  | _ => none

def ServiceOp.exec (dx : SpdDeviceExtension) :
    ServiceOp → Option (SpdDeviceExtension × ServiceResult)
  | .arrive irp unitMem ioqMem => arriveExec dx irp unitMem ioqMem
  | .resume service =>
      if service.phase = .referenced then resumeExec dx service.irp service.unit else none
  | .work service ioq =>
      if service.phase = .admitted then
        (dx.pool service.unit).map fun object =>
          ({ dx with pool :=
            Function.update dx.pool service.unit (some { object with ioq := ioq }) },
            ⟨.success, -1, some service⟩)
      else none
  | .leave service =>
      if service.phase = .referenced then none
      else (spdStorageUnitDereference dx service.unit).map fun r => (r.1, ⟨.success, -1, none⟩)

/-- The requests an operation leaves as they are. -/
def ServiceOp.others (inFlight : List Service) : ServiceOp → List Service
  | .arrive _ _ _ => inFlight
  | .resume service | .work service _ | .leave service => inFlight.erase service

def ServiceOp.Allowed (dx : SpdDeviceExtension) (inFlight : List Service) : ServiceOp → Prop
  | .arrive _ unitMem _ =>
      (∀ p, unitMem = some p → p ≠ 0 ∧ dx.pool p = none) ∧ inFlight.length + 2 < 2 ^ 32
  | .resume service | .leave service => service ∈ inFlight
  | .work service ioq => service ∈ inFlight ∧ ∃ q, Refines ioq q

structure ServiceEvent where
  op : ServiceOp
  result : ServiceResult

structure ServiceSys where
  dx : SpdDeviceExtension
  inFlight : List Service

def ServiceSys.init (capacity : UInt32) : ServiceSys :=
  ⟨spdDeviceExtensionInit capacity fun _ => none, []⟩

structure ServiceStep (s : ServiceSys) (ev : ServiceEvent) (s' : ServiceSys) : Prop where
  allowed : ev.op.Allowed s.dx s.inFlight
  exec : ev.op.exec s.dx = some (s'.dx, ev.result)
  inFlight : s'.inFlight = ev.result.service.toList ++ ev.op.others s.inFlight

/-! ## Steps are operations of the registry -/

variable {dx dx' : SpdDeviceExtension} {held held' : List Addr} {inFlight : List Service}
  {irp : Irp} {unitMem : Option Addr} {ioqMem : Option SpdIoq} {p : Addr} {op : ServiceOp}
  {r : ServiceResult}

def heldBy (inFlight : List Service) : List Addr := inFlight.map Service.unit

/-- What a step is to the registry: nothing, or an operation that leaves the
references the requests then hold. -/
inductive RegistryEffect (dx : SpdDeviceExtension) (held : List Addr) (dx' : SpdDeviceExtension)
    (held' : List Addr) : Prop
  | none : dx' = dx → held'.Perm held → RegistryEffect dx held dx' held'
  | op (rop : RegistryOp) (rr : RegistryResult) : rop.Allowed dx held →
      rop.exec dx = some (dx', rr) → held'.Perm (rop.held held rr.unit) →
      RegistryEffect dx held dx' held'

theorem RegistryEffect.inv (heffect : RegistryEffect dx held dx' held')
    (hinv : RegistryInv dx held) : RegistryInv dx' held' := by
  cases heffect with
  | none hdx hperm =>
      subst hdx
      exact hinv.perm hperm
  | op rop rr hallowed hexec hperm =>
      have hstep : RegistryStep ⟨dx, held⟩ ⟨rop, rr⟩ ⟨dx', rop.held held rr.unit⟩ :=
        ⟨hallowed, hexec, rfl⟩
      exact (hinv.step hstep).1.perm hperm

/-- The references of the others, when one request goes on or leaves. -/
theorem heldBy_erase {service : Service} (h : service ∈ inFlight) :
    (heldBy inFlight).Perm (service.unit :: heldBy (inFlight.erase service)) :=
  (List.perm_cons_erase h).map Service.unit

/-- `UNPROVISION` arrives. -/
theorem spdIoctlUnprovision_registry {guid : Guid} {status : NtStatus} {found : Option Addr}
    {calls : List IoqCall}
    (h : spdIoctlUnprovision dx irp guid = some (dx', status, found, calls)) :
    (dx' = dx ∧ found = none) ∨ RegistryOp.exec dx
    (.unprovision (.guid guid) irp.requestorProcessId) =
      some (dx', ⟨status, -1, found⟩) := by
  unfold spdIoctlUnprovision at h
  split at h
  · cases h
    exact .inl ⟨rfl, rfl⟩
  · rw [RegistryOp.exec, h]
    exact .inr rfl

theorem reference_registry {btl : UInt32} {status : NtStatus} {found : Option Addr}
    (h : (do
      let (dx, storageUnit) ← spdStorageUnitReferenceByBtl dx btl
      match storageUnit with
      | none => some (dx, NtStatus.cancelled, none)
      | some p => some (dx, NtStatus.success, some p)) = some (dx', status, found)) :
    RegistryOp.exec dx (.referenceByBtl btl) = some (dx', ⟨.success, -1, found⟩) := by
  rw [Option.bind_eq_bind, Option.bind_eq_some_iff] at h
  obtain ⟨⟨dx₁, storageUnit⟩, href, hmatch⟩ := h
  rw [RegistryOp.exec, href]
  cases storageUnit <;> cases hmatch <;> rfl

theorem spdIoctlTransactReference_registry {btl : UInt32} {reqValid rspValid : Bool}
    {dataBuffer : Option (List UInt8)} {status : NtStatus} {found : Option Addr}
    (h : spdIoctlTransactReference dx irp btl reqValid rspValid dataBuffer =
      some (dx', status, found)) :
    (dx' = dx ∧ found = none) ∨
      RegistryOp.exec dx (.referenceByBtl btl) = some (dx', ⟨.success, -1, found⟩) := by
  unfold spdIoctlTransactReference at h
  split at h
  · cases h
    exact .inl ⟨rfl, rfl⟩
  · split at h
    · cases h
      exact .inl ⟨rfl, rfl⟩
    · exact .inr (reference_registry h)

theorem spdIoctlSetTransactProcessIdReference_registry {btl : UInt32} {status : NtStatus}
    {found : Option Addr}
    (h : spdIoctlSetTransactProcessIdReference dx irp btl = some (dx', status, found)) :
    (dx' = dx ∧ found = none) ∨
      RegistryOp.exec dx (.referenceByBtl btl) = some (dx', ⟨.success, -1, found⟩) := by
  unfold spdIoctlSetTransactProcessIdReference at h
  split at h
  · cases h
    exact .inl ⟨rfl, rfl⟩
  · exact .inr (reference_registry h)

theorem spdIoctlProvision_registry {params : StorageUnitParams} {status : NtStatus} {btl : UInt32}
    (h : spdIoctlProvision dx irp params unitMem ioqMem = some (dx', status, btl)) :
    (dx' = dx ∧ status = .invalidParameter) ∨
      RegistryOp.exec dx (.provision params irp.requestorProcessId unitMem ioqMem) =
        some (dx', ⟨status, btl, none⟩) := by
  unfold spdIoctlProvision at h
  split at h
  · cases h
    exact .inl ⟨rfl, rfl⟩
  · split at h
    · cases h
      exact .inl ⟨rfl, rfl⟩
    · rw [RegistryOp.exec, h]
      exact .inr rfl

theorem arriveExec_registry (hfresh : ∀ p, unitMem = some p → p ≠ 0 ∧ dx.pool p = none)
    (hlt : inFlight.length + 2 < 2 ^ 32)
    (hexec : arriveExec dx irp unitMem ioqMem = some (dx', r)) :
    RegistryEffect dx (heldBy inFlight) dx' (heldBy (r.service.toList ++ inFlight)) := by
  have hlen : (heldBy inFlight).length + 2 < 2 ^ 32 := by rwa [heldBy, List.length_map]
  unfold arriveExec at hexec
  split at hexec
  · next params _ =>
      rw [Option.map_eq_some_iff] at hexec
      obtain ⟨⟨dx₁, status, btl⟩, h, hr⟩ := hexec
      cases hr
      obtain ⟨rfl, -⟩ | h := spdIoctlProvision_registry h
      · exact .none rfl (List.Perm.refl _)
      · exact .op (.provision params irp.requestorProcessId unitMem ioqMem) _ hfresh h
          (List.Perm.refl _)
  · next guid _ =>
      rw [Option.map_eq_some_iff] at hexec
      obtain ⟨⟨dx₁, status, found, calls⟩, h, hr⟩ := hexec
      cases hr
      obtain ⟨rfl, rfl⟩ | h := spdIoctlUnprovision_registry h
      · exact .none rfl (List.Perm.refl _)
      · refine .op (.unprovision (.guid guid) irp.requestorProcessId) _ trivial h ?_
        cases found <;> exact List.Perm.refl _
  · next btl _ _ _ _ _ =>
      rw [Option.map_eq_some_iff] at hexec
      obtain ⟨⟨dx₁, status, found⟩, h, hr⟩ := hexec
      cases hr
      obtain ⟨rfl, rfl⟩ | h := spdIoctlTransactReference_registry h
      · exact .none rfl (List.Perm.refl _)
      · refine .op (.referenceByBtl btl) _ hlen h ?_
        cases found <;> exact List.Perm.refl _
  · next btl _ _ =>
      rw [Option.map_eq_some_iff] at hexec
      obtain ⟨⟨dx₁, status, found⟩, h, hr⟩ := hexec
      cases hr
      obtain ⟨rfl, rfl⟩ | h := spdIoctlSetTransactProcessIdReference_registry h
      · exact .none rfl (List.Perm.refl _)
      · refine .op (.referenceByBtl btl) _ hlen h ?_
        cases found <;> exact List.Perm.refl _
  · cases hexec
  · cases hexec
    exact .none rfl (List.Perm.refl _)
  · cases hexec
    exact .none rfl (List.Perm.refl _)

theorem resumeExec_registry (hheld : p ∈ held) (hexec : resumeExec dx irp p = some (dx', r)) :
    RegistryEffect dx held dx' held ∧ r.service.map Service.unit = some p := by
  unfold resumeExec at hexec
  split at hexec
  · rw [Option.map_eq_some_iff] at hexec
    obtain ⟨status, -, hr⟩ := hexec
    cases hr
    exact ⟨.none rfl (List.Perm.refl _), rfl⟩
  · next btl processId hrequest =>
      rw [Option.map_eq_some_iff] at hexec
      obtain ⟨dx₁, h, hr⟩ := hexec
      cases hr
      refine ⟨.op (.setTransactProcessId p processId) ⟨.success, -1, none⟩ hheld ?_
        (List.Perm.refl _), rfl⟩
      rw [RegistryOp.exec, h]
      rfl
  · cases hexec

theorem ServiceOp.exec_registry (hallowed : op.Allowed dx inFlight)
    (hexec : op.exec dx = some (dx', r)) :
    RegistryEffect dx (heldBy inFlight) dx' (heldBy (r.service.toList ++ op.others inFlight)) := by
  cases op with
  | arrive irp unitMem ioqMem => exact arriveExec_registry hallowed.1 hallowed.2 hexec
  | resume service =>
      have hheld : service.unit ∈ heldBy inFlight := List.mem_map_of_mem hallowed
      have hexec' : (if service.phase = .referenced then resumeExec dx service.irp service.unit
        else none) = some (dx', r) := hexec
      split at hexec'
      · obtain ⟨heffect, hservice⟩ := resumeExec_registry hheld hexec'
        have hperm : (heldBy (r.service.toList ++ inFlight.erase service)).Perm
            (heldBy inFlight) := by
          cases hr : r.service with
          | none => rw [hr] at hservice; cases hservice
          | some service' =>
              rw [hr, Option.map_some, Option.some.injEq] at hservice
              show (service'.unit :: heldBy (inFlight.erase service)).Perm _
              rw [hservice]
              exact (heldBy_erase hallowed).symm
        cases heffect with
        | none hdx _ => exact .none hdx hperm
        | op rop rr hrop hrexec hrperm => exact .op rop rr hrop hrexec (hperm.trans hrperm)
      · cases hexec'
  | work service ioq =>
      have hheld : service.unit ∈ heldBy inFlight := List.mem_map_of_mem hallowed.1
      simp only [ServiceOp.exec] at hexec
      split at hexec
      · rw [Option.map_eq_some_iff] at hexec
        obtain ⟨object, hobject, hr⟩ := hexec
        cases hr
        refine .op (.work service.unit ioq) ⟨.success, -1, none⟩ ⟨hheld, hallowed.2⟩ ?_
          (heldBy_erase hallowed.1).symm
        rw [RegistryOp.exec, hobject]
        rfl
      · cases hexec
  | leave service =>
      have hheld : service.unit ∈ heldBy inFlight := List.mem_map_of_mem hallowed
      simp only [ServiceOp.exec] at hexec
      split at hexec
      · cases hexec
      · rw [Option.map_eq_some_iff] at hexec
        obtain ⟨⟨dx₁, calls⟩, h, hr⟩ := hexec
        cases hr
        refine .op (.dereference service.unit) ⟨.success, -1, none⟩ hheld ?_ ?_
        · rw [RegistryOp.exec, h]
          rfl
        · have herase := (heldBy_erase hallowed).erase service.unit
          rw [List.erase_cons_head] at herase
          exact herase.symm

variable {s s' : ServiceSys} {ev : ServiceEvent} {ls : List ServiceEvent} {capacity : UInt32}

theorem ServiceStep.inv (h : ServiceStep s ev s') (hinv : RegistryInv s.dx (heldBy s.inFlight)) :
    RegistryInv s'.dx (heldBy s'.inFlight) := by
  rw [h.inFlight]
  exact (ServiceOp.exec_registry h.allowed h.exec).inv hinv

end Winspd.Proofs
