import Winspd.Launcher.Instance
import Winspd.Shared.Memalign

/-!
# The command line of a service: `launcher.c`

`SvcInstanceCreate` makes the command line from a string of the registry, in
which `%` and a digit stand for an argument. `SvcInstanceReplaceArguments` goes
over the string twice, first to find out how much memory the command line needs
and then to write it there.

A string is given by what may be read from its pointer on: its characters and
its NUL. A function is `none` when it reads on behind that, or writes behind the
memory that it has allocated.
-/

namespace Winspd.Launcher

open Winspd.Shared

def percent : UInt16 := 0x25
def doubleQuote : UInt16 := 0x22

/-- The digits, from `L'0'` on. -/
def digitZero : UInt16 := 0x30
def digitNine : UInt16 := 0x39

def wideSpace : UInt16 := 0x20

/-! ## One argument -/

/-- The loop of `SvcInstanceArgumentLength`. -/
def argumentLengthLoop (length : UInt32) : List UInt16 → Option UInt32
  | [] => none
  | c :: rest =>
      if c = 0 then some length
      else argumentLengthLoop (if doubleQuote ≠ c then length + 1 else length) rest

/-- `SvcInstanceArgumentLength`. -/
def svcInstanceArgumentLength (arg : List UInt16) : Option UInt32 :=
  -- for beginning and ending quotes
  argumentLengthLoop 2 arg

/-- `*Dest++ = C`. `dest` is what was written, to a memory for `room` characters. -/
def putChar (room : Nat) (dest : List UInt16) (c : UInt16) : Option (List UInt16) :=
  if dest.length < room then some (dest ++ [c]) else none

/-- The loop of `SvcInstanceArgumentCopy`. -/
def argumentCopyLoop (room : Nat) (dest : List UInt16) : List UInt16 → Option (List UInt16)
  | [] => none
  | c :: rest =>
      if c = 0 then some dest
      else if doubleQuote ≠ c then do
        let dest ← putChar room dest c
        argumentCopyLoop room dest rest
      else argumentCopyLoop room dest rest

/-- `SvcInstanceArgumentCopy`. -/
def svcInstanceArgumentCopy (room : Nat) (dest arg : List UInt16) : Option (List UInt16) := do
  let dest ← putChar room dest doubleQuote
  let dest ← argumentCopyLoop room dest arg
  putChar room dest doubleQuote

/-! ## The string -/

/-- `Argv[*P - L'0']`, or `EmptyArg`. -/
def replacedArgument (argc : UInt32) (argv : List (List UInt16)) (d : UInt16) :
    Option (List UInt16) :=
  if argc > (d - digitZero).toUInt32 then argv[(d - digitZero).toNat]? else some [0]

/-- The first loop of `SvcInstanceReplaceArguments`. -/
def replacedLength (argc : UInt32) (argv : List (List UInt16)) (length : UInt32) :
    List UInt16 → Option UInt32
  | [] => none
  | c :: rest =>
      if c = 0 then some length
      else if c = percent then
        match rest with
        | [] => none
        | d :: rest =>
            if digitZero ≤ d ∧ d ≤ digitNine then do
              let arg ← replacedArgument argc argv d
              let argLength ← svcInstanceArgumentLength arg
              replacedLength argc argv (length + argLength) rest
            else replacedLength argc argv (length + 1) rest
      else replacedLength argc argv (length + 1) rest

def replacedCopy (argc : UInt32) (argv : List (List UInt16)) (room : Nat) (dest : List UInt16) :
    List UInt16 → Option (List UInt16)
  | [] => none
  | c :: rest =>
      if c = 0 then some dest
      else if c = percent then
        match rest with
        | [] => none
        | d :: rest =>
            if digitZero ≤ d ∧ d ≤ digitNine then do
              let arg ← replacedArgument argc argv d
              let dest ← svcInstanceArgumentCopy room dest arg
              replacedCopy argc argv room dest rest
            else do
              let dest ← putChar room dest d
              replacedCopy argc argv room dest rest
      else do
        let dest ← putChar room dest c
        replacedCopy argc argv room dest rest

/-- `(Length + 1) * sizeof(WCHAR)`. The sum is a 32-bit one, and the product has
the size of a pointer. -/
def allocatedSize (platform : Platform) (length : UInt32) : Nat :=
  (length + 1).toNat * 2 % 2 ^ (8 * platform.sizeofPvoid)

/-- `SvcInstanceReplaceArguments`: the error, or `*PNewString`. `allocated` says
whether `MemAlloc` has the memory. -/
def svcInstanceReplaceArguments (platform : Platform) (allocated : Bool) (string : List UInt16)
    (argc : UInt32) (argv : List (List UInt16)) : Option (Except UInt32 (List UInt16)) := do
  let length ← replacedLength argc argv 0 string
  if allocated = false then some (.error errorNoSystemResources)
  else do
    let room := allocatedSize platform length / 2
    let newString ← replacedCopy argc argv room [] string
    let newString ← putChar room newString 0
    some (.ok newString)

/-! ## The instance -/

/-- A service in the registry: `Executable` and `CommandLine`. -/
structure ServiceClass where
  executable : WString
  /-- `ERROR_FILE_NOT_FOUND` when there is none. -/
  commandLine : Option WString
  /-- Each fits in its buffer, with its NUL. -/
  executable_fits : executable.length < 260
  commandLine_fits : ∀ s, commandLine = some s → s.length + 3 < 512

/-- `CommandLineBuf`, up to its NUL. -/
def ServiceClass.commandLineBuf (x : ServiceClass) : List UInt16 :=
  match x.commandLine with
  | some s => [percent, digitZero, wideSpace] ++ s.chars
  | none => [percent, digitZero]

/-- `Argv` in `SvcInstanceCreate`: the executable, and nine arguments at most. -/
def createArgv (x : ServiceClass) (argv0 : List WString) : List WString :=
  x.executable :: argv0.take 9

/-- What `SvcInstanceCreate` starts the process with. -/
def svcInstanceCommandLine (platform : Platform) (allocated : Bool) (x : ServiceClass)
    (argv0 : List WString) : Option (Except UInt32 (List UInt16)) :=
  svcInstanceReplaceArguments platform allocated (x.commandLineBuf ++ [0])
    (UInt32.ofNat (createArgv x argv0).length) ((createArgv x argv0).map WString.terminated)

end Winspd.Launcher
