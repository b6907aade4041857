import Winspd.Shellex.Eject

/-!
# shellex/mountcmd.hpp: mounting a file

`Mount` has a storage unit started for a file, by the class that its extension
names and with its final path name. That name cannot be had from a file that
somebody has opened for himself alone, and is then made from the final path name
of the directory.

The names are the lists of their characters without the NUL. How the calls of the
system end is given, for every call of `GetFinalPathName` that is made inside
another one.
-/

namespace Winspd.Shellex

open Winspd.Shared Winspd.Launcher

def errorSharingViolation : UInt32 := 32

/-- `FILE_ATTRIBUTE_REPARSE_POINT`. -/
def fileAttributeReparsePoint : UInt32 := 0x400

/-- `sizeof DirName`, and `sizeof FinalPathName`. -/
def sizeofPathName : Nat := (4 + 260) * 2

/-! ## The system -/

/-- How `CreateFileW` ends. Of a handle, what `GetFinalPathNameByHandle` finds,
and what `GetLastError` says if it fails. -/
inductive FileOpened
  | fails (error : UInt32)
  | handle (final : Option (List UInt16)) (lastError : UInt32)
  deriving DecidableEq, Repr

/-- How the calls end that one call of `GetFinalPathName` makes. Of a file,
`FindFirstFileW` finds the attributes. -/
structure PathCalls where
  create : FileOpened
  find : Option UInt32
  deriving DecidableEq, Repr

/-- `GetFinalPathNameByHandle`: what it returns, and what the buffer has then. -/
def getFinalPathNameByHandle (final : Option (List UInt16)) (size : Nat) (buf : List UInt16) :
    Nat × List UInt16 :=
  match final with
  | none => (0, buf)
  | some path => if path.length + 1 ≤ size then (path.length, path) else (path.length + 1, buf)

/-! ## `GetFinalPathName` -/

/-- The loops that look for the last `c`: how far it is to what is behind it. -/
def behindLast (c : UInt16) : Nat → Option Nat → List UInt16 → Option Nat
  | _, last, [] => last
  | n, last, x :: p => behindLast c (n + 1) (if c = x then some (n + 1) else last) p

/-- `DirName` and `BaseName`. -/
def dirBaseName (name : List UInt16) : Option (List UInt16 × List UInt16) :=
  match behindLast 0x5c 0 none name with
  | none => none
  | some n => if sizeofPathName < n * 2 + 2 then none else some (name.take n, name.drop n)

/-- From the final path of the parent directory on. -/
def addBaseName (find : Option UInt32) (baseName : List UInt16) (size : UInt32)
    (parent : UInt32 × List UInt16) : UInt32 × List UInt16 :=
  if parent.1 ≠ Launcher.errorSuccess then (errorSharingViolation, parent.2)
  else
    match find with
    | none => (errorSharingViolation, parent.2)
    | some attributes =>
        if attributes &&& fileAttributeReparsePoint ≠ 0 then (errorSharingViolation, parent.2)
        else
          let path := if parent.2.getLast? = some 0x5c then parent.2.dropLast else parent.2
          if size.toNat < (path.length + 1 + baseName.length + 1) * 2 then
            (Launcher.errorInsufficientBuffer, parent.2)
          else (Launcher.errorSuccess, path ++ 0x5c :: baseName)

/-- The final path of a handle. -/
def finalPathOfHandle (final : Option (List UInt16)) (lastError : UInt32) (size : UInt32)
    (buf : List UInt16) : UInt32 × List UInt16 :=
  let size := if 2 ≤ size.toNat then (size.toNat - 2) / 2 else 0
  let r := getFinalPathNameByHandle final size buf
  if r.1 = 0 ∨ size < r.1 then (lastError, r.2) else (Launcher.errorSuccess, r.2)

/-- `GetFinalPathName`: its error, and what the buffer has then. This is the call
inside `depth` others, and there is stack for so many more. `none` when it does
not suffice. -/
def getFinalPathName (calls : Nat → PathCalls) (size : UInt32) :
    Nat → Nat → List UInt16 → List UInt16 → Option (UInt32 × List UInt16)
  | 0, _, _, _ => none
  | stack + 1, depth, name, buf =>
      match (calls depth).create with
      | .handle final lastError => some (finalPathOfHandle final lastError size buf)
      | .fails error =>
          if errorSharingViolation = error then
            match dirBaseName name with
            | none => some (errorSharingViolation, buf)
            | some (dirName, baseName) => do
                let parent ← getFinalPathName calls size stack (depth + 1) dirName buf
                some (addBaseName (calls depth).find baseName size parent)
          else some (error, buf)

/-! ## `Mount` -/

/-- What the error of `SpdLaunchStart` and that of the launcher come to. -/
def mountError (call : LaunchCall) : UInt32 :=
  if call.error ≠ Launcher.errorSuccess ∨ Launcher.errorFileNotFound = call.launcherError then
    errorNoAssociation
  else if Launcher.errorAlreadyExists = call.launcherError then Launcher.errorSuccess
  else call.launcherError

/-- `Mount`. `none` when the stack does not suffice, or the launcher's library
reads or writes where it must not. -/
def mount (calls : Nat → PathCalls) (stack : Nat) (buf : List UInt16) (allocated : Bool)
    (transact : List UInt8 → Except UInt32 (List UInt8)) (name : List UInt16) : Option UInt32 :=
  match behindLast 0x2e 0 none name with
  | none => some errorNoAssociation
  -- the test for an empty `ClassName` is one of the pointer
  | some n => do
      let final ← getFinalPathName calls (UInt32.ofNat sizeofPathName) stack 0 name buf
      if final.1 ≠ Launcher.errorSuccess then some final.1
      else do
        let args := [some (name.drop n ++ [0]), some (final.2 ++ [0]), some (final.2 ++ [0])]
        let call ← spdLaunchCall allocated transact LaunchCommand.start.char (launchArgs args) []
          none
        some (mountError call)

/-! ## Registration -/

/-- The entries of `MountCommand::Register`. -/
def mountEntries (defaultIcon guidStr : List UInt16) : List RegEntry :=
  [⟨some (wide "SOFTWARE\\Classes"), 0, none⟩,
    ⟨some (wide "WinSpd.DiskFile"), 1, none⟩,
    ⟨none, regSz, some (szBytes (wide "WinSpd Disk File"))⟩,
    ⟨some (wide "shell"), 1, none⟩,
    ⟨some (wide "open"), 1, none⟩,
    ⟨none, regSz, some (szBytes (wide "Mount"))⟩,
    ⟨some (wide "MultiSelectModel"), regSz, some (szBytes (wide "Document"))⟩,
    ⟨some (wide "command"), 1, none⟩,
    ⟨some (wide "DelegateExecute"), regSz, some (szBytes guidStr)⟩,
    ⟨none, 0, none⟩,
    ⟨some (wide "SOFTWARE\\Classes"), 0, none⟩,
    ⟨some (wide "WinSpd.DiskFile"), 1, none⟩,
    ⟨some (wide "DefaultIcon"), 1, none⟩,
    ⟨none, regSz, some (szBytes defaultIcon)⟩]

end Winspd.Shellex
