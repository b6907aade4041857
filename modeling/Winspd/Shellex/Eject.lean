import Winspd.Launcher.Kill
import Winspd.Launcher.Pipe
import Winspd.Shared.Regutil

/-!
# shellex/ejectmnu.hpp: ejecting a volume

`Eject` asks the volume for the process that serves it, and the launcher to stop
that process. How the calls of the system end is given: an error of `GetVolume`,
the answers of the volume, and what comes back from the pipe of the launcher.
-/

namespace Winspd.Shellex

open Winspd.Shared Winspd.Launcher

/-- `%lu`. -/
def ulongChars (x : UInt32) : List UInt16 :=
  (Nat.toDigits 10 x.toNat).map fun c => UInt16.ofNat c.toNat

theorem ulongChars_digit {x : UInt32} {c : UInt16} (h : c ∈ ulongChars x) :
    0x30 ≤ c.toNat ∧ c.toNat ≤ 0x39 := by
  rw [ulongChars, List.mem_map] at h
  obtain ⟨d, hd, rfl⟩ := h
  have hdigit := Nat.isDigit_of_mem_toDigits (by decide) (by decide) hd
  simp only [Char.isDigit, Bool.and_eq_true, decide_eq_true_eq, ge_iff_le] at hdigit
  have hlo : 0x30 ≤ d.toNat := UInt32.le_iff_toNat_le.mp hdigit.1
  have hhi : d.toNat ≤ 0x39 := UInt32.le_iff_toNat_le.mp hdigit.2
  rw [UInt16.toNat_ofNat', Nat.mod_eq_of_lt (by omega)]
  exact ⟨hlo, hhi⟩

theorem zero_not_mem_ulongChars (x : UInt32) : 0 ∉ ulongChars x := by
  intro h
  exact absurd (ulongChars_digit h).1 (by decide)

/-- `ProcessIdStr`. -/
def processIdStr (processId : UInt32) : WString :=
  ⟨ulongChars processId, zero_not_mem_ulongChars processId⟩

/-- The test in the loop. Here a volume that has `EjectDisabled` is not allowed. -/
def ejectableProcessId (id : StorageIdentifier) : Option UInt32 :=
  if 0x20 = id.identifier.getD 3 0 then id.processId else none

/-- `GetVolumeOwnerProcessId`, by how its calls end. -/
def ejectableOwner : VolumeQuery → Except UInt32 UInt32
  | .openFails error | .deviceFails error | .deviceIdFails error => .error error
  | .otherVendor => .error errorNoAssociation
  | .identifiers ids =>
      match ids.findSome? ejectableProcessId with
      | some processId => .ok processId
      | none => .error errorNoAssociation

/-- What the error of `SpdLaunchStop` and that of the launcher come to. -/
def ejectError (call : LaunchCall) : UInt32 :=
  if call.error ≠ Launcher.errorSuccess ∨ Launcher.errorFileNotFound = call.launcherError then
    errorNoAssociation
  else call.launcherError

/-- `Eject`. `volume` is the error of `GetVolume`. `none` when the launcher's
library reads or writes where it must not. -/
def eject (volume : UInt32) (query : VolumeQuery) (allocated : Bool)
    (transact : List UInt8 → Except UInt32 (List UInt8)) : Option UInt32 :=
  if volume ≠ Launcher.errorSuccess then some volume
  else
    match ejectableOwner query with
    | .error error => some error
    | .ok processId =>
        let args := [some pidClass.terminated, some (processIdStr processId).terminated]
        (spdLaunchCall allocated transact LaunchCommand.stop.char (launchArgs args) [] none).map
          ejectError

/-! ## Registration -/

/-- `REG_SZ`. -/
def regSz : UInt32 := 1

/-- The bytes of a string and its NUL. -/
def szBytes (s : List UInt16) : List UInt8 := wcharBytes (s ++ [0])

/-- The entries of `EjectContextMenu::Register`. -/
def ejectEntries (guidStr : List UInt16) : List RegEntry :=
  [⟨some (wide "SOFTWARE\\Classes"), 0, none⟩,
    ⟨some (wide "Drive"), 0, none⟩,
    ⟨some (wide "shellex\\ContextMenuHandlers"), 0, none⟩,
    ⟨some (wide "WinSpd.Eject"), 1, none⟩,
    ⟨none, regSz, some (szBytes guidStr)⟩]

end Winspd.Shellex
