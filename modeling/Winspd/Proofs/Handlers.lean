import Winspd.Proofs.Actions

/-!
# What the handlers do with their references

Every handler starts with an empty account and leaves with one, whichever way
it returns, and on the way it touches only units its account has a pointer to.
One lemma for each function of the driver; a function that calls another uses
the lemma of that one.

The paths that fail are cases of the same lemmas: a handler that finds no unit has
no reference to give back, and one that has found a unit drops its reference on
every path behind that, whatever it returns.
-/

namespace Winspd.Proofs

open Winspd.Lib Winspd.Sys Winspd.Spec
open Winspd.Sys.Handler

variable {α : Type} {s : DriverState} {unit : UnitPtr} {g : UnitRefs} {key : UnitKey}
  {processId : UInt32}

/-- From account `g` the handler makes allowed actions only, and returns with
account `g'`. -/
abbrev Takes (g g' : UnitRefs) (h : Handler α) : Prop := unitRules.Safe (fun _ x => x = g') g h

theorem takes_pure (x : α) : Takes g g (pure x : Handler α) := rfl

theorem one_held : unit ∈ (UnitRefs.one unit).held := List.mem_singleton_self _

theorem one_drop : (UnitRefs.one unit).drop unit = .none := by
  simp [UnitRefs.drop, UnitRefs.one, UnitRefs.none]

theorem takes_action {g' : UnitRefs} {a : UnitAction} {f : a.Answer → Handler α}
    (hmay : g.May a)
    (h : ∀ r, g.Answers a r → Takes (UnitRefs.track a r g) g' (f r)) :
    Takes g g' (action a >>= f) := Rules.Safe.perform_bind hmay h

theorem takes_bind {β : Type} {g₁ g' : UnitRefs} {h : Handler α} {f : α → Handler β}
    (hfirst : Takes g g₁ h) (hrest : ∀ x, Takes g₁ g' (f x)) : Takes g g' (h >>= f) :=
  hfirst.bind fun x g hg => by
    subst hg
    exact hrest x

theorem takes_read {g' : UnitRefs} {f : SpdStorageUnit → Handler α}
    (h : ∀ fields, Takes (.one unit) g' (f fields)) :
    Takes (.one unit) g' (action (.read unit) >>= f) :=
  takes_action ⟨rfl, .inl one_held⟩ fun fields _ => h fields

/-! ## stgunit.c -/

theorem spdStorageUnitDereference_takes (hunit : unit ∈ g.held) (hfound : g.found = none)
    (hdeleting : g.deleting = none) :
    Takes g (g.drop unit) (spdStorageUnitDereference unit) := by
  have hdrop : ({ g.drop unit with deleting := none } : UnitRefs) = g.drop unit := by
    rw [← hdeleting, ← @UnitRefs.drop_deleting g unit]
  refine takes_action ⟨hfound, hunit, hdeleting⟩ fun delete _ => ?_
  cases delete with
  | false => exact hdrop
  | true =>
      -- the last reference is gone
      refine takes_action ⟨UnitRefs.drop_found.trans hfound, .inr rfl⟩ fun _ _ => ?_
      refine takes_action ⟨UnitRefs.drop_found.trans hfound, rfl⟩ fun _ _ => ?_
      exact hdrop

theorem dereference_one_takes : Takes (.one unit) .none (spdStorageUnitDereference unit) := by
  have h := @spdStorageUnitDereference_takes unit (.one unit) one_held rfl rfl
  rwa [one_drop] at h

theorem spdStorageUnitUnprovision_takes :
    Takes .none .none (spdStorageUnitUnprovision key processId) := by
  refine takes_action rfl fun found _ => ?_
  cases found with
  | none => exact takes_pure _
  | some x =>
      obtain ⟨unit, owner⟩ := x
      refine takes_action ⟨owner, rfl, fun h => ?_⟩ fun same hsame => ?_
      · show unit ∈ if processId = owner then [unit] else []
        rw [if_pos h.symm]
        exact List.mem_singleton_self _
      · have howner : same = true ↔ owner = processId := hsame owner rfl
        cases same with
        | false =>
            -- the unit is in its slot still
            have hne : ¬ processId = owner := fun h => by cases howner.mpr h.symm
            show (⟨[], if processId = owner then [unit] else [], none, none⟩ : UnitRefs) = .none
            rw [if_neg hne]
            rfl
        | true =>
            have heq : UnitRefs.track (.ownerIs unit processId) true
                (UnitRefs.track (.unprovision key processId) (some (unit, owner)) .none) =
                ⟨[], [unit], none, none⟩ := by
              show (⟨[], if processId = owner then [unit] else [], none, none⟩ : UnitRefs) = _
              rw [if_pos (howner.mp rfl).symm]
            have hheld : unit ∈ (⟨[], [unit], none, none⟩ : UnitRefs).held :=
              List.mem_singleton_self _
            rw [heq]
            refine takes_action ⟨rfl, .inl hheld⟩ fun _ _ => ?_
            refine takes_action ⟨rfl, hheld⟩ fun _ _ => ?_
            refine takes_bind (spdStorageUnitDereference_takes hheld rfl rfl) fun _ => ?_
            show (UnitRefs.drop ⟨[], [unit], none, none⟩ unit) = .none
            simp [UnitRefs.drop, UnitRefs.none]

theorem spdStorageUnitGlobalSetDevice_takes {deviceObject : Addr} {btl : UInt32} :
    Takes .none .none (spdStorageUnitGlobalSetDevice deviceObject btl) := by
  refine takes_action rfl fun found _ => ?_
  cases found with
  | none => exact takes_pure _
  | some unit =>
      refine takes_action ⟨rfl, one_held⟩ fun _ _ => ?_
      exact takes_bind dereference_one_takes fun _ => takes_pure _

theorem notifyLoop_takes {bitmap : List UInt8} {n i : Nat} {count : UInt32} :
    Takes .none .none (notifyLoop processId bitmap n i count) := by
  induction n generalizing i count with
  | zero => exact takes_pure _
  | succ n ih =>
      unfold notifyLoop
      split
      · split
        · exact takes_bind spdStorageUnitUnprovision_takes fun _ => ih
        · exact ih
      · exact takes_pure _

theorem spdDeviceExtensionNotifyRoutine_takes :
    Takes .none .none (spdDeviceExtensionNotifyRoutine processId) :=
  takes_action rfl fun _ _ => notifyLoop_takes

/-! ## ioctl.c -/

theorem spdIoctlProvision_takes {irp : Irp} {params : StorageUnitParams} {unitMem : Option Addr}
    {ioqMem : Option SpdIoq} :
    Takes .none .none (spdIoctlProvision irp params unitMem ioqMem) := by
  unfold Handler.spdIoctlProvision
  split
  · exact takes_pure _
  · split
    · exact takes_pure _
    · exact takes_action rfl fun _ _ => takes_pure _

theorem spdIoctlUnprovision_takes {irp : Irp} {guid : Guid} :
    Takes .none .none (spdIoctlUnprovision irp guid) := by
  unfold Handler.spdIoctlUnprovision
  split
  · exact takes_pure _
  · exact spdStorageUnitUnprovision_takes

theorem spdIoctlGetList_takes {irp : Irp} : Takes .none .none (Handler.spdIoctlGetList irp) := by
  unfold Handler.spdIoctlGetList
  split
  · exact takes_pure _
  · refine takes_action rfl fun r _ => ?_
    obtain ⟨bitmap, count⟩ := r
    show Takes _ _ (if count * 4 > irp.outputBufferLength then _ else _)
    split <;> exact takes_pure _

theorem mapDataBuffer_takes {map : Option MapOutcome} :
    Takes (.one unit) (.one unit) (mapDataBuffer unit map) := by
  cases map with
  | none => exact takes_pure _
  | some outcome =>
      cases outcome with
      | probeRaised => exact takes_read fun _ => takes_pure _
      | noMdl | lockRaised | noAddress | mapped =>
          exact takes_read fun _ => takes_read fun _ => takes_pure _

theorem waitForSrb_takes {waits : List (Option NtStatus)} :
    Takes (.one unit) (.one unit) (waitForSrb unit waits) := by
  induction waits with
  | nil => exact takes_read fun _ => takes_action rfl fun _ _ => takes_pure _
  | cons w waits ih =>
      cases w with
      | some status => exact takes_read fun _ => takes_pure _
      | none =>
          refine takes_read fun _ => takes_action ⟨rfl, one_held⟩ fun r _ => ?_
          obtain ⟨calls, status⟩ := r
          show Takes _ _ (if status = .unsuccessful then _ else _)
          split
          · refine takes_read fun _ => takes_action ⟨rfl, one_held⟩ fun stopped _ => ?_
            cases stopped with
            | true => exact takes_pure _
            | false => exact ih
          · exact takes_pure _

theorem transactUnit_takes {env : ServiceEnv} {irp : Irp} {reqValid rspValid : Bool}
    {rsp : TransactRsp} :
    Takes (.one unit) (.one unit) (transactUnit env irp reqValid rspValid rsp unit) := by
  have hrequest : Takes (.one unit) (.one unit)
      (if reqValid = true then waitForSrb unit env.waits else pure .success) := by
    split
    · exact waitForSrb_takes
    · exact takes_pure _
  refine takes_read fun fields => ?_
  split
  · exact takes_pure _
  · refine takes_bind mapDataBuffer_takes fun r => ?_
    obtain ⟨status, ok⟩ := r
    cases ok with
    | false => exact takes_pure _
    | true =>
        cases rspValid with
        | false => exact hrequest
        | true => exact takes_read fun _ => takes_action ⟨rfl, one_held⟩ fun _ _ => hrequest

theorem spdIoctlTransact_takes {env : ServiceEnv} {irp : Irp} {btl : UInt32}
    {reqValid rspValid : Bool} {dataBuffer : Option (List UInt8)} {rsp : TransactRsp} :
    Takes .none .none (spdIoctlTransact env irp btl reqValid rspValid dataBuffer rsp) := by
  unfold spdIoctlTransact
  split
  · exact takes_pure _
  · split
    · exact takes_pure _
    · refine takes_action rfl fun found _ => ?_
      cases found with
      | none => exact takes_pure _
      | some unit =>
          refine takes_bind transactUnit_takes fun _ => ?_
          exact takes_bind dereference_one_takes fun _ => takes_pure _

theorem spdIoctlSetTransactProcessId_takes {irp : Irp} {btl : UInt32} :
    Takes .none .none (spdIoctlSetTransactProcessId irp btl processId) := by
  unfold spdIoctlSetTransactProcessId
  split
  · exact takes_pure _
  · refine takes_action rfl fun found _ => ?_
    cases found with
    | none => exact takes_pure _
    | some unit =>
        refine takes_action ⟨rfl, one_held⟩ fun _ _ => ?_
        exact takes_bind dereference_one_takes fun _ => takes_pure _

theorem spdHwProcessServiceRequest_takes {env : ServiceEnv} {irp : Irp} :
    Takes .none .none (spdHwProcessServiceRequest env irp) := by
  unfold spdHwProcessServiceRequest
  split
  · exact takes_pure _
  · exact spdIoctlProvision_takes
  · exact spdIoctlUnprovision_takes
  · exact spdIoctlGetList_takes
  · exact spdIoctlTransact_takes
  · exact spdIoctlSetTransactProcessId_takes
  · exact takes_pure _

theorem resetUnit_takes {stop : Bool} {btl : UInt32} :
    Takes .none .none (resetUnit stop btl) := by
  refine takes_action rfl fun found _ => ?_
  cases found with
  | none => exact takes_pure _
  | some unit =>
      refine takes_read fun _ => takes_action ⟨rfl, one_held⟩ fun _ _ => ?_
      exact takes_bind dereference_one_takes fun _ => takes_pure _

theorem resetUnits_takes {stop : Bool} {n i : Nat} : Takes .none .none (resetUnits stop n i) := by
  induction n generalizing i with
  | zero => exact takes_pure _
  | succ n ih => exact takes_bind resetUnit_takes fun _ => ih

/-! ## io.c, adapter.c -/

theorem spdHwResetBus_takes {capacity pathId : UInt32} :
    Takes .none .none (spdHwResetBus capacity pathId) := by
  unfold spdHwResetBus
  split
  · exact takes_bind resetUnits_takes fun _ => takes_pure _
  · exact takes_pure _

theorem readFields_takes {n : Nat} : Takes (.one unit) (.one unit) (readFields unit n) := by
  induction n with
  | zero => exact takes_pure _
  | succ n ih => exact takes_read fun _ => ih

theorem spdSrbExecuteScsi_takes {env : ScsiEnv} {a : Addr} :
    Takes .none .none (spdSrbExecuteScsi env a) := by
  refine takes_action rfl fun found _ => ?_
  cases found with
  | none => exact takes_pure _
  | some unit =>
      refine takes_bind readFields_takes fun _ => takes_read fun fields => ?_
      split
      · exact takes_action ⟨rfl, one_held⟩ fun _ _ => dereference_one_takes
      · exact dereference_one_takes

theorem spdSrbAbortCommand_takes {env : ScsiEnv} {a : Addr} :
    Takes .none .none (spdSrbAbortCommand env a) := by
  refine takes_action rfl fun found _ => ?_
  cases found with
  | none => exact takes_pure _
  | some unit =>
      refine takes_read fun _ => takes_action ⟨rfl, one_held⟩ fun _ _ => ?_
      exact takes_bind dereference_one_takes fun _ => takes_pure _

theorem spdSrbResetBus_takes {env : ScsiEnv} {a : Addr} :
    Takes .none .none (spdSrbResetBus env a) := by
  unfold Handler.spdSrbResetBus
  split
  · exact takes_pure _
  · exact takes_bind spdHwResetBus_takes fun _ => takes_pure _

theorem resetStatus_takes {btl : UInt32} : Takes .none .none (resetStatus btl) :=
  takes_bind resetUnit_takes fun _ => takes_pure _

theorem spdHwStartIo_takes {env : ScsiEnv} {a : Addr} :
    Takes .none .none (spdHwStartIo env a) := by
  unfold Handler.spdHwStartIo
  split
  · exact spdSrbExecuteScsi_takes
  · split
    · exact takes_bind spdSrbAbortCommand_takes fun _ => takes_pure _
    · split
      · exact takes_bind spdSrbResetBus_takes fun _ => takes_pure _
      · split
        · exact takes_bind resetStatus_takes fun _ => takes_pure _
        · split
          · exact takes_bind resetStatus_takes fun _ => takes_pure _
          · exact takes_pure _

/-! ## dispatch.c -/

theorem spdDispatchPnpRemove_takes {deviceObject : Addr} :
    Takes .none .none (spdDispatchPnpRemove deviceObject) := by
  refine takes_action rfl fun found _ => ?_
  cases found with
  | none => exact takes_pure _
  | some unit =>
      refine takes_read fun provisionGuid => takes_read fun provisionPid => ?_
      refine takes_bind dereference_one_takes fun _ => ?_
      split
      · exact takes_pure _
      · exact takes_bind spdStorageUnitUnprovision_takes fun _ => takes_pure _

theorem entry_takes {h : Handler Unit} (hentry : Entry h) : Takes .none .none h := by
  cases hentry with
  | serviceRequest => exact takes_bind spdHwProcessServiceRequest_takes fun _ => takes_pure _
  | completeServiceIrp => exact resetUnits_takes
  | startIo => exact spdHwStartIo_takes
  | resetBus => exact takes_bind spdHwResetBus_takes fun _ => takes_pure _
  | setDevice => exact takes_bind spdStorageUnitGlobalSetDevice_takes fun _ => takes_pure _
  | removeDevice => exact spdDispatchPnpRemove_takes
  | processExit => exact spdDeviceExtensionNotifyRoutine_takes

end Winspd.Proofs
