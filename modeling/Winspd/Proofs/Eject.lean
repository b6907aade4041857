import Winspd.Proofs.NameList
import Winspd.Proofs.Numbers
import Winspd.Proofs.Pages
import Winspd.Shellex.Eject

/-!
# The process that is ejected

A process id that is printed in decimal does not begin with a zero unless it is
zero. So the launcher reads it in the base it was printed in
(`wcstoint_ulongChars`), finds the instance of that process, and stops no other.
The id that `Eject` prints is the one the driver has put in its page 83h.
-/

namespace Winspd.Proofs

open Winspd.Lib Winspd.Shared Winspd.Launcher Winspd.Shellex

/-! ## A process id -/

theorem toNat_ulongChars (x : UInt32) :
    (ulongChars x).map UInt16.toNat = (Nat.toDigits 10 x.toNat).map Char.toNat := by
  rw [ulongChars, List.map_map]
  refine List.map_congr_left fun d hd => ?_
  have hdigit := isDigit_of_mem_toDigits (n := x.toNat) (List.mem_map_of_mem hd)
  have hhi := hdigit.2
  show (UInt16.ofNat d.toNat).toNat = d.toNat
  rw [UInt16.toNat_ofNat', Nat.mod_eq_of_lt (by omega)]

/-- A number that is not zero is not taken for an octal one. -/
theorem headChar_ulongChars {x : UInt32} (hx : x.toNat ≠ 0) :
    headChar (ulongChars x) ≠ 0x30 := by
  intro hzero
  have hhead : (ulongChars x).head? = some 0x30 := by
    cases hs : ulongChars x with
    | nil =>
        rw [hs] at hzero
        exact absurd hzero (by decide)
    | cons c s =>
        rw [hs] at hzero
        exact congrArg some hzero
  have hcode := congrArg List.head? (toNat_ulongChars x)
  rw [List.head?_map, List.head?_map, hhead] at hcode
  obtain ⟨d, hd, hd0⟩ := Option.map_eq_some_iff.mp hcode.symm
  have hdigit : d = '0' := Char.ext (UInt32.toNat_inj.mp hd0)
  exact head_toDigits_ne_zero hx (hdigit ▸ hd)

/-- It is read in the base it is printed in, all of it. -/
theorem wcstoint_ulongChars (x : UInt32) :
    wcstoint (ulongChars x) 0 false = (Int64.ofNat x.toNat, []) := by
  by_cases hx : x.toNat = 0
  · rw [UInt32.toNat_inj.mp (hx.trans UInt32.toNat_zero.symm)]
    rfl
  · obtain ⟨cs, rest, n, hs, hdigits, hstop, hread⟩ :=
      intDigits_reads (show Radix 10 from ⟨by decide, by decide⟩) (ulongChars x)
        (show headChar [] = 0 from rfl) 0
    rw [show (10 : UInt32).toNat = 10 from rfl] at hdigits hstop
    have hrest : rest = [] := by
      cases rest with
      | nil => rfl
      | cons c rest =>
          have hc := ulongChars_digit (x := x) (c := c) (by simp [hs])
          have hdigit : digitsFrom 10 0 [c.toNat] = some _ :=
            digitsFrom_decimal (v := 0) (by simpa [IsDigit] using hc)
          rw [digitsFrom_cons, hstop _ rfl] at hdigit
          cases hdigit
    subst hrest
    rw [List.append_nil] at hs hread
    have hvalue := digitsFrom_toDigits (n := x.toNat)
    rw [← toNat_ulongChars, hs] at hvalue
    obtain rfl : n = x.toNat := Option.some_inj.mp (hdigits.symm.trans hvalue)
    have hbase : intBase 0 (ulongChars x) = (10, ulongChars x) :=
      intBase_decimal (headChar_ulongChars hx)
    have hsign : intSign false (ulongChars x) = (1, ulongChars x) :=
      intSign_none fun h => (by cases h)
    have hdecimal : intDigits (intBase 0 (ulongChars x)).1 0 (intBase 0 (ulongChars x)).2 =
        (Int64.ofNat x.toNat, []) := by
      rw [hbase]
      exact hread
    rw [wcstoint_sign hsign hdecimal, Int64.one_mul]

theorem svcInstanceLookup_pid {listed : List (Nat × SvcInstance)} {className : WString}
    (hclass : className.Same pidClass) (processId : UInt32) :
    svcInstanceLookup listed className (processIdStr processId) true =
      svcInstanceLookupByPid listed processId := by
  have hread : wcstoint (processIdStr processId).chars 0 false =
      (Int64.ofNat processId.toNat, []) := wcstoint_ulongChars processId
  unfold svcInstanceLookup
  rw [if_pos ⟨rfl, hclass⟩, hread]
  dsimp only
  rw [Int64.toInt32_ofNat', Int32.toUInt32_ofNat', UInt32.ofNat_toNat]

theorem svcInstanceLookupByPid_mem {listed : List (Nat × SvcInstance)} {processId : UInt32}
    {id : Nat} (h : svcInstanceLookupByPid listed processId = some id) :
    ∃ x, (id, x) ∈ listed ∧ x.processId = processId := by
  obtain ⟨⟨id', x⟩, hfind, rfl⟩ := Option.map_eq_some_iff.mp h
  refine ⟨x, List.mem_of_find?_eq_some hfind, ?_⟩
  have hpid := List.find?_some hfind
  exact (of_decide_eq_true hpid).symm

/-! ## The process that is stopped -/

/-- An action that stops a process stops one with that id, where the launcher
looks instances up in a list. -/
def stopRules (processId : UInt32) :
    Rules InstanceAction InstanceAction.Answer (List (Nat × SvcInstance)) where
  start := []
  track _ _ listed := listed
  May listed a := ∀ id forced, a = .kill id forced →
    ∃ x, (id, x) ∈ listed ∧ x.processId = processId
  Answers listed
    | .lookup className instanceName allowPidLookup, r =>
        r = svcInstanceLookup listed className instanceName allowPidLookup
    | _, _ => True
  Settled _ := True

theorem stopRules_may {processId : UInt32} {listed : List (Nat × SvcInstance)}
    {a : InstanceAction} (hne : ∀ id forced, a ≠ .kill id forced) :
    (stopRules processId).May listed a := fun id forced h => absurd h (hne id forced)

theorem svcInstanceStopFound_pid {processId : UInt32} {forced : Bool}
    {listed : List (Nat × SvcInstance)} {id : Nat}
    (hid : ∃ x, (id, x) ∈ listed ∧ x.processId = processId) :
    (stopRules processId).Safe (fun _ _ => True) listed (svcInstanceStopFound forced id) := by
  refine .perform_bind (stopRules_may (by simp)) fun error _ => ?_
  split
  · trivial
  · have hkill : (stopRules processId).May listed (.kill id forced) := by
      intro id' forced' h
      cases h
      exact hid
    refine .perform_bind hkill fun error _ => ?_
    split
    · trivial
    · exact .perform_bind (stopRules_may (by simp)) fun _ _ => trivial

theorem svcInstanceStop_pid (processId : UInt32) (forced : Bool)
    (listed : List (Nat × SvcInstance)) :
    (stopRules processId).Safe (fun _ _ => True) listed
      (svcInstanceStop pidClass (processIdStr processId) forced) := by
  refine .perform_bind (stopRules_may (by simp)) fun _ _ =>
    .perform_bind (stopRules_may (by simp)) fun r hr => ?_
  have hr' : r = svcInstanceLookupByPid listed processId :=
    (hr : r = svcInstanceLookup _ _ _ _).trans (svcInstanceLookup_pid (by decide) processId)
  cases r with
  | none => exact .perform_bind (stopRules_may (by simp)) fun _ _ => trivial
  | some id =>
      have hfound : (stopRules processId).Safe (fun _ _ => True) listed
          (svcInstanceStopFound forced id) :=
        svcInstanceStopFound_pid (svcInstanceLookupByPid_mem hr'.symm)
      exact hfound.bind fun _ _ _ => .perform_bind (stopRules_may (by simp)) fun _ _ => trivial

theorem listed_memory {s : LauncherState} {listed : List (Nat × SvcInstance)}
    (h : s.listed = some listed) {id : Nat} {x : SvcInstance} (hx : (id, x) ∈ listed) :
    s.memory id = some x := by
  replace h := mapM_forall₂ h
  generalize s.list = list at h
  induction h with
  | nil => cases hx
  | cons hy _ ih =>
      rcases List.mem_cons.mp hx with rfl | hx
      · obtain ⟨y, hmem, heq⟩ := Option.map_eq_some_iff.mp hy
        cases heq
        exact hmem
      · exact ih hx

theorem access_kept {α : Type} {s : LauncherState} {id : Nat} {x : SvcInstance} {r : α}
    (h : s.memory id = some x) : s.access id (fun x => (x, r)) = some (s, r) := by
  rw [LauncherState.access, h, Option.map_some, Function.update_eq_self_iff.mpr h.symm]

/-- What a stop comes to when nothing fails and no other thread is there. -/
theorem svcInstanceStop_alone {s : LauncherState} {listed : List (Nat × SvcInstance)}
    (hlocked : s.locked = false) (hlisted : s.listed = some listed) (processId : UInt32)
    (forced : Bool) :
    (svcInstanceStop pidClass (processIdStr processId) forced).alone quietly s =
      some (s, if (svcInstanceLookupByPid listed processId).isSome then Launcher.errorSuccess
        else Launcher.errorFileNotFound) := by
  have henter : quietly s .enterLock = some ({ s with locked := true }, ()) := by
    simp [quietly, InstanceAction.exec, hlocked]
  have hlookup : quietly { s with locked := true }
      (.lookup pidClass (processIdStr processId) true) =
        some ({ s with locked := true }, svcInstanceLookupByPid listed processId) := by
    show (LauncherState.listed _).map _ = _
    rw [show LauncherState.listed { s with locked := true } = some listed from hlisted,
      Option.map_some, svcInstanceLookup_pid (by decide)]
  have hleave : quietly { s with locked := true } .leaveLock = some (s, ()) := by
    show some ({ s with locked := false }, ()) = _
    rw [← hlocked]
  rw [svcInstanceStop, withInstance, Prog.alone_bind, Prog.alone_perform, henter]
  dsimp only [Option.bind_some]
  rw [Prog.alone_bind, Prog.alone_perform, hlookup]
  dsimp only [Option.bind_some]
  cases hfound : svcInstanceLookupByPid listed processId with
  | none =>
      dsimp only
      rw [Prog.alone_bind, Prog.alone_perform, hleave]
      rfl
  | some id =>
      dsimp only
      obtain ⟨x, hx, -⟩ := svcInstanceLookupByPid_mem hfound
      have hmem : s.memory id = some x := listed_memory hlisted hx
      have hfound : (svcInstanceStopFound forced id).alone quietly { s with locked := true } =
          some ({ s with locked := true }, Launcher.errorSuccess) := by
        have haccess : quietly { s with locked := true } (.accessCheck id) =
            some ({ s with locked := true }, Launcher.errorSuccess) := access_kept hmem
        have hkill : quietly { s with locked := true } (.kill id forced) =
            some ({ s with locked := true }, Launcher.errorSuccess) := access_kept hmem
        have hdelete : quietly { s with locked := true } (.deletePersistent id) =
            some ({ s with locked := true }, ()) := access_kept hmem
        rw [svcInstanceStopFound, Prog.alone_bind, Prog.alone_perform, haccess]
        dsimp only [Option.bind_some]
        rw [if_neg (not_not_intro rfl), Prog.alone_bind, Prog.alone_perform, hkill]
        dsimp only [Option.bind_some]
        rw [if_neg (not_not_intro rfl), Prog.alone_bind, Prog.alone_perform, hdelete]
        rfl
      rw [Prog.alone_bind, hfound]
      dsimp only [Option.bind_some]
      rw [Prog.alone_bind, Prog.alone_perform, hleave]
      rfl

/-! ## Ejecting -/

variable {unit : Sys.SpdStorageUnit}

/-- The process that the driver reports is the one that is ejected, but for units
that cannot be. -/
theorem ejectableOwner_driver (heject : unit.storageUnitParams.ejectDisabled = false) :
    ejectableOwner (.identifiers
      [⟨0x02, 0x01, 0x00, vendorIdentifier unit⟩,
        ⟨0x01, 0x00, 0x00, ownerIdentifier unit⟩]) =
        .ok unit.ownerProcessId := by
  have hvendor : ejectableProcessId ⟨0x02, 0x01, 0x00, vendorIdentifier unit⟩ = none := by
    unfold ejectableProcessId
    split
    · exact if_neg fun h => absurd (show (1 : UInt8) = 2 from h.1) (by decide)
    · rfl
  have howner : ejectableProcessId ⟨0x01, 0x00, 0x00, ownerIdentifier unit⟩ =
      some unit.ownerProcessId := by
    have hchar : 0x20 = (ownerIdentifier unit).getD 3 0 := by
      simp [ownerIdentifier, heject]
    rw [ejectableProcessId, if_pos hchar]
    exact ownerIdentifier_processId
  simp only [ejectableOwner, List.findSome?_cons, hvendor, howner]

theorem length_processIdStr (processId : UInt32) : (processIdStr processId).length ≤ 10 := by
  have hlt := processId.toNat_lt
  show (ulongChars processId).length ≤ 10
  rw [ulongChars, List.length_map, Nat.length_toDigits_le_iff (by decide) (by decide)]
  omega

/-- What `Eject` writes to the pipe, the launcher reads as a stop of the process,
and what it replies is what `Eject` comes to. -/
theorem eject_message {query : VolumeQuery} {processId : UInt32}
    (howner : ejectableOwner query = .ok processId) (debug : Bool) (mem : Nat → UInt8) :
    ∃ message mem' size,
      (∀ transact received, transact message = .ok received →
        eject Launcher.errorSuccess query true transact =
          (spdLaunchReceive received [] none).map ejectError) ∧
      svcPipeRead message mem = some (mem', size) ∧ 2 ≤ size ∧
      (svcPipeTransactRequest debug (wchars mem') (size / 2)).2 =
        .stop pidClass (processIdStr processId) false := by
  have hpassed : List.Forall₂ LaunchArg.Passes
      (launchArgs [some pidClass.terminated, some (processIdStr processId).terminated])
      [pidClass, processIdStr processId] := by
    have hterminated : ∀ s : WString, LaunchArg.Passes ⟨some s.terminated, -1⟩ s :=
      fun s => ⟨_, rfl, .inl ⟨rfl, List.prefix_refl _⟩⟩
    exact .cons (hterminated _) (.cons (hterminated _) .nil)
  have hfit :
      (launchChars LaunchCommand.stop.char [pidClass, processIdStr processId]).length * 2 ≤
      spdLaunchPipeBufferSize := by
    have hlen := length_processIdStr processId
    have hclass : pidClass.length = 5 := rfl
    have hsize : spdLaunchPipeBufferSize = 4096 := rfl
    simp only [launchChars, List.flatMap_cons, List.flatMap_nil, List.length_cons,
      List.length_append, List.length_nil, length_terminated]
    omega
  have hmessage := spdLaunchCallLauncherPipe_passes hpassed hfit
  have hargs : [pidClass, processIdStr processId].length ≤ 2 + 9 := Nat.le_add_right 2 9
  obtain ⟨mem', size, hread, hsize, hrequest⟩ :=
    @svcPipeRead_request debug .stop _ mem hargs hfit
  refine ⟨_, mem', size, fun transact received htransact => ?_, hread, hsize, hrequest⟩
  have hcall : spdLaunchCall true transact LaunchCommand.stop.char
      (launchArgs [some pidClass.terminated, some (processIdStr processId).terminated]) [] none =
        spdLaunchReceive received [] none := by
    rw [spdLaunchCall, if_pos rfl, hmessage]
    dsimp only [Option.bind_eq_bind, Option.bind_some]
    rw [htransact]
  rw [eject, if_neg (not_not_intro rfl), howner]
  dsimp only
  rw [hcall]

/-- Both functions read the longest numeral there is, up to the NUL. So the
launcher looks a printed process id up as what it was, and stops no other process
than the one with that id, which is the one the driver reported to `Eject`. -/
theorem parsing_ejects :
    ParsesLongest (fun c => (charWide c).toNat) strtoint ∧ ParsesLongest UInt16.toNat wcstoint ∧
    ∀ processId : UInt32,
      (∀ listed className, className.Same pidClass →
        svcInstanceLookup listed className (processIdStr processId) true =
          svcInstanceLookupByPid listed processId) ∧
      (∀ listed id, svcInstanceLookupByPid listed processId = some id →
        ∃ x, (id, x) ∈ listed ∧ x.processId = processId) ∧
      (∀ listed forced, (stopRules processId).Safe (fun _ _ => True) listed
        (svcInstanceStop pidClass (processIdStr processId) forced)) ∧
      (∀ s listed forced, s.locked = false → s.listed = some listed →
        (svcInstanceStop pidClass (processIdStr processId) forced).alone quietly s =
          some (s, if (svcInstanceLookupByPid listed processId).isSome then Launcher.errorSuccess
            else Launcher.errorFileNotFound)) ∧
      (∀ query debug mem, ejectableOwner query = .ok processId →
        ∃ message mem' size,
          (∀ transact received, transact message = .ok received →
            eject Launcher.errorSuccess query true transact =
              (spdLaunchReceive received [] none).map ejectError) ∧
          svcPipeRead message mem = some (mem', size) ∧ 2 ≤ size ∧
          (svcPipeTransactRequest debug (wchars mem') (size / 2)).2 =
            .stop pidClass (processIdStr processId) false) ∧
      ∀ unit : Sys.SpdStorageUnit, unit.storageUnitParams.ejectDisabled = false →
        unit.ownerProcessId = processId →
        ejectableOwner (.identifiers
          [⟨0x02, 0x01, 0x00, vendorIdentifier unit⟩,
            ⟨0x01, 0x00, 0x00, ownerIdentifier unit⟩]) = .ok processId := by
  refine ⟨strtoint_parses, wcstoint_parses, fun processId => ⟨?_, ?_, ?_, ?_, ?_, ?_⟩⟩
  · exact fun listed className hclass => svcInstanceLookup_pid hclass processId
  · exact fun listed id hid => svcInstanceLookupByPid_mem hid
  · exact fun listed forced => svcInstanceStop_pid processId forced listed
  · exact fun s listed forced hlocked hlisted =>
      svcInstanceStop_alone hlocked hlisted processId forced
  · exact fun query debug mem howner => eject_message howner debug mem
  · rintro unit heject rfl
    exact ejectableOwner_driver heject

def servingInstance : SvcInstance := ⟨1, .empty, .empty, .empty, 7⟩

def servingState : LauncherState :=
  { LauncherState.init with
    list := [3], memory := fun id => if id = 3 then some servingInstance else none }

theorem parsing_ejects_seven :
    (∃ cs rest v, [0x2d, 0x30, 0x78, 0x31, 0x67] = cs ++ rest ∧
      LongestNumeral true 0 ([0x2d, 0x30, 0x78, 0x31, 0x67].map UInt16.toNat)
        (cs.map UInt16.toNat) (rest.map UInt16.toNat) v ∧
      wcstoint ([0x2d, 0x30, 0x78, 0x31, 0x67] ++ 0 :: []) 0 true =
        (Int64.ofInt v, rest ++ 0 :: [])) ∧
    svcInstanceLookup [(3, servingInstance)] pidClass (processIdStr 7) true = some 3 ∧
    (∃ x, (3, x) ∈ [(3, servingInstance)] ∧ x.processId = 7) ∧
    (svcInstanceStop pidClass (processIdStr 7) false).alone quietly servingState =
      some (servingState, Launcher.errorSuccess) ∧
    ejectableOwner (.identifiers
      [⟨0x02, 0x01, 0x00, vendorIdentifier (Sys.newStorageUnit sampleUnit 7)⟩,
        ⟨0x01, 0x00, 0x00, ownerIdentifier (Sys.newStorageUnit sampleUnit 7)⟩]) = .ok 7 ∧
    ∃ message mem' size,
      (∀ transact received, transact message = .ok received →
        eject Launcher.errorSuccess
            (.identifiers [⟨0x01, 0x00, 0x00, [0x50, 0x49, 0x44, 0x20, 0, 0, 0, 7]⟩]) true
            transact = (spdLaunchReceive received [] none).map ejectError) ∧
      svcPipeRead message (fun _ => 0xff) = some (mem', size) ∧ 2 ≤ size ∧
      (svcPipeTransactRequest false (wchars mem') (size / 2)).2 =
        .stop pidClass (processIdStr 7) false := by
  obtain ⟨hlookup, hfound, -, halone, hmessage, hdriver⟩ := parsing_ejects.2.2 7
  exact ⟨parsing_ejects.2.1 0 true _ _ (.inl rfl), hlookup _ _ (by decide), hfound _ _ rfl,
    halone servingState [(3, servingInstance)] false rfl rfl, hdriver _ (by decide) rfl,
      hmessage _ _ _ rfl⟩

end Winspd.Proofs
