import Mathlib.Data.Nat.Digits.Defs
import Winspd.Launcher.Instance
import Winspd.Lib.Bytes
import Winspd.Lib.Terminated

/-!
# The pipe of the launcher: `launch.c` and `launcher.c`

A client of the launcher writes a command and strings to its pipe, each string
with its NUL (`SpdLaunchCallLauncherPipe`). The launcher reads them from its
buffer again (`SvcPipeTransact`), does what they say, and puts its reply in the
same buffer.

The buffer of the launcher is memory that goes on behind the message: what
earlier messages and replies have left is there, and then what is not the
buffer's. A `PipeScan` keeps which characters the launcher has read, and which
parts it has found where. No function of the source reads it.

On the client's side a string is what can be read from its pointer on, and of
the buffer it gets the reply in, what the reply has been written to.
-/

namespace Winspd.Launcher

open Winspd.Lib Winspd.Shared

def spdLaunchPipeBufferSize : Nat := 4096

/-- The bytes of wide characters. -/
def wcharBytes (chars : List UInt16) : List UInt8 := chars.flatMap fun c => toLe 2 c.toNat

/-- The wide characters in a memory, from its start on. -/
def wchars (mem : Nat → UInt8) (i : Nat) : UInt16 :=
  UInt16.ofNat (ofLe [mem (2 * i), mem (2 * i + 1)])

/-- `SpdLaunchCmdStart` and so on. -/
inductive LaunchCommand
  | start
  | stop
  | stopForced
  | getInfo
  | getNameList
  /-- In the debug version only. -/
  | quit
  deriving DecidableEq, Repr

namespace LaunchCommand

def char : LaunchCommand → UInt16
  | .start => 0x53
  | .stop => 0x54
  | .stopForced => 0x46
  | .getInfo => 0x49
  | .getNameList => 0x4c
  | .quit => 0x51

/-- The cases of the `switch`. -/
def all : List LaunchCommand := [.start, .stopForced, .stop, .getInfo, .getNameList, .quit]

def ofChar (c : UInt16) : Option LaunchCommand := all.find? fun command => command.char = c

end LaunchCommand

def spdLaunchCmdSuccess : UInt16 := 0x24
def spdLaunchCmdFailure : UInt16 := 0x21

/-! ## The client -/

/-- `lstrlenW`, of what can be read. -/
def lstrlenW (memory : List UInt16) : Option UInt32 :=
  (memory.findIdx? fun c => c = 0).map UInt32.ofNat

/-- An entry of `Argv`, and that of `Argl`: -1 where there is no `Argl`. -/
structure LaunchArg where
  memory : Option (List UInt16)
  length : UInt32

/-- `Length`. -/
def LaunchArg.copied (arg : LaunchArg) (memory : List UInt16) : Option UInt32 :=
  if arg.length = -1 then lstrlenW memory else some arg.length

/-- The loop of `SpdLaunchCallLauncherPipe`, with what is in front of `P`.
`none` when it reads or writes where it must not. -/
def spdLaunchPut : List UInt16 → List LaunchArg → Option (Except UInt32 (List UInt16))
  | pipeBuf, [] => some (.ok pipeBuf)
  | pipeBuf, arg :: args =>
      match arg.memory with
      | none => spdLaunchPut pipeBuf args
      | some memory => do
          let length ← arg.copied memory
          if spdLaunchPipeBufferSize < (UInt32.ofNat pipeBuf.length + length + 1).toNat * 2 then
            some (.error errorInvalidParameter)
          else do
            let chars ← readAt memory 0 length.toNat
            if spdLaunchPipeBufferSize < (pipeBuf.length + chars.length + 1) * 2 then none
            else spdLaunchPut (pipeBuf ++ chars ++ [0]) args

/-- `SpdLaunchCallLauncherPipe`: the error, or the bytes it writes. -/
def spdLaunchCallLauncherPipe (command : UInt16) (args : List LaunchArg) :
    Option (Except UInt32 (List UInt8)) :=
  (spdLaunchPut [command] args).map fun r => r.map wcharBytes

/-- `Argv`, and no `Argl`. -/
def launchArgs (argv : List (Option (List UInt16))) : List LaunchArg :=
  argv.map fun x => ⟨x, -1⟩

def spdLaunchStart (className instanceName : Option (List UInt16))
    (argv0 : List (Option (List UInt16))) : Option (Except UInt32 (List UInt8)) :=
  if 9 < argv0.length then some (.error errorInvalidParameter)
  else
    spdLaunchCallLauncherPipe LaunchCommand.start.char
      (launchArgs (className :: instanceName :: argv0))

def spdLaunchStop (className instanceName : Option (List UInt16)) :
    Option (Except UInt32 (List UInt8)) :=
  spdLaunchCallLauncherPipe LaunchCommand.stop.char (launchArgs [className, instanceName])

def spdLaunchGetInfo (className instanceName : Option (List UInt16)) :
    Option (Except UInt32 (List UInt8)) :=
  spdLaunchCallLauncherPipe LaunchCommand.getInfo.char (launchArgs [className, instanceName])

def spdLaunchGetNameList : Option (Except UInt32 (List UInt8)) :=
  spdLaunchCallLauncherPipe LaunchCommand.getNameList.char []

/-! ## The parts of a message -/

/-- `ReadFile` in `SvcPipeServer`: a message that is longer than the buffer is
an error. -/
def svcPipeRead (message : List UInt8) (mem : Nat → UInt8) : Option ((Nat → UInt8) × Nat) :=
  if message.length ≤ spdLaunchPipeBufferSize then some (store mem 0 message, message.length)
  else none

/-- Where `P` is, the characters that were read, and the parts that were
returned, with their addresses. -/
structure PipeScan where
  p : Nat
  reads : List Nat
  parts : List (Nat × WString)

def svcPipeTransactGetPart (pipeBuf : Nat → UInt16) (pipeBufEnd : Nat) (s : PipeScan) :
    PipeScan × Option WString :=
  let r := scanTo 0 pipeBuf (pipeBufEnd - s.p) s.p
  let part : WString := ⟨r.1, sep_not_mem_scanTo⟩
  let p := s.p + part.length
  if p < pipeBufEnd then (⟨p + 1, s.reads ++ r.2, s.parts ++ [(s.p, part)]⟩, some part)
  else (⟨p, s.reads ++ r.2, s.parts⟩, none)

/-- The loop that fills `Argv`, of at most so many. -/
def svcPipeTransactGetArgs (pipeBuf : Nat → UInt16) (pipeBufEnd : Nat) :
    Nat → PipeScan → PipeScan × List WString
  | 0, s => (s, [])
  | n + 1, s =>
      match svcPipeTransactGetPart pipeBuf pipeBufEnd s with
      | (s, none) => (s, [])
      | (s, some arg) =>
          let rest := svcPipeTransactGetArgs pipeBuf pipeBufEnd n s
          (rest.1, arg :: rest.2)

/-- What a message asks for. -/
inductive LaunchRequest
  | start (className instanceName : WString) (args : List WString)
  | stop (className instanceName : WString) (forced : Bool)
  | getInfo (className instanceName : WString)
  | getNameList
  | quit
  /-- `ERROR_INVALID_PARAMETER`. -/
  | invalid
  deriving DecidableEq, Repr

/-- `0 != ClassName && 0 != InstanceName`. -/
def LaunchRequest.named (className instanceName : Option WString)
    (request : WString → WString → LaunchRequest) : LaunchRequest :=
  match className, instanceName with
  | some className, some instanceName => request className instanceName
  | _, _ => .invalid

/-- What `SvcPipeTransact` takes from its buffer. -/
def svcPipeTransactRequest (debug : Bool) (pipeBuf : Nat → UInt16) (pipeBufEnd : Nat) :
    PipeScan × LaunchRequest :=
  let s : PipeScan := ⟨1, [0], []⟩
  match LaunchCommand.ofChar (pipeBuf 0) with
  | some .start =>
      let className := svcPipeTransactGetPart pipeBuf pipeBufEnd s
      let instanceName := svcPipeTransactGetPart pipeBuf pipeBufEnd className.1
      let argv := svcPipeTransactGetArgs pipeBuf pipeBufEnd 9 instanceName.1
      (argv.1, .named className.2 instanceName.2 fun x y => .start x y argv.2)
  | some .stopForced =>
      let className := svcPipeTransactGetPart pipeBuf pipeBufEnd s
      let instanceName := svcPipeTransactGetPart pipeBuf pipeBufEnd className.1
      (instanceName.1, .named className.2 instanceName.2 fun x y => .stop x y true)
  | some .stop =>
      let className := svcPipeTransactGetPart pipeBuf pipeBufEnd s
      let instanceName := svcPipeTransactGetPart pipeBuf pipeBufEnd className.1
      (instanceName.1, .named className.2 instanceName.2 fun x y => .stop x y false)
  | some .getInfo =>
      let className := svcPipeTransactGetPart pipeBuf pipeBufEnd s
      let instanceName := svcPipeTransactGetPart pipeBuf pipeBufEnd className.1
      (instanceName.1, .named className.2 instanceName.2 .getInfo)
  | some .getNameList => (s, .getNameList)
  | some .quit => (s, if debug then .quit else .invalid)
  | none => (s, .invalid)

/-! ## The reply -/

/-- `%ld`. -/
def decimalChars (x : Int32) : List UInt16 :=
  let digits := (Nat.toDigits 10 x.toInt.natAbs).map fun c => UInt16.ofNat c.toNat
  if x < 0 then 0x2d :: digits else digits

/-- `SvcPipeTransactResult`: the buffer, and `*PSize`. -/
def svcPipeTransactResult (error : UInt32) (mem : Nat → UInt8) (size : Nat) :
    (Nat → UInt8) × Nat :=
  if error = errorSuccess then (store mem 0 (wcharBytes [spdLaunchCmdSuccess]), size + 2)
  else
    let text := spdLaunchCmdFailure :: decimalChars error.toInt32
    (store mem 0 (wcharBytes (text ++ [0])), (text.length + 1) * 2)

/-- What `SvcPipeTransact` does when it knows what is asked. `Buffer` is
`PipeBuf + 1`. -/
def svcPipeTransactAnswer (mem : Nat → UInt8) :
    LaunchRequest → LauncherProg ((Nat → UInt8) × Nat)
  | .start className instanceName _ => do
      let error ← svcInstanceStart className instanceName
      pure (svcPipeTransactResult error mem 0)
  | .stop className instanceName forced => do
      let error ← svcInstanceStop className instanceName forced
      pure (svcPipeTransactResult error mem 0)
  | .getInfo className instanceName => do
      let r ← svcInstanceGetInfo className instanceName (spdLaunchPipeBufferSize - 1)
      match r with
      | .error error => pure (svcPipeTransactResult error mem (spdLaunchPipeBufferSize - 1))
      | .ok info =>
          pure (svcPipeTransactResult errorSuccess (store mem 2 (wcharBytes info))
            (info.length * 2))
  | .getNameList => do
      let names ← svcInstanceGetNameList (spdLaunchPipeBufferSize - 1)
      pure (svcPipeTransactResult errorSuccess (store mem 2 (wcharBytes names))
        (names.length * 2))
  -- and `SvcEvent` is set
  | .quit => pure (svcPipeTransactResult errorSuccess mem 0)
  | .invalid => pure (svcPipeTransactResult errorInvalidParameter mem 0)

structure PipeReply where
  memory : Nat → UInt8
  size : Nat
  scan : PipeScan

/-- `SvcPipeTransact`, with the buffer and `*PSize`. -/
def svcPipeTransact (debug : Bool) (mem : Nat → UInt8) (size : Nat) : LauncherProg PipeReply :=
  if size < 2 then pure ⟨mem, size, ⟨0, [], []⟩⟩
  else do
    let r := svcPipeTransactRequest debug (wchars mem) (size / 2)
    let reply ← svcPipeTransactAnswer mem r.2
    pure ⟨reply.1, reply.2, r.1⟩

/-- What `SvcPipeServer` writes to the pipe, of the buffer and `*PSize`. -/
def replyBytes (reply : (Nat → UInt8) × Nat) : List UInt8 := (List.range reply.2).map reply.1

/-! ## The client, with the reply -/

def errorBrokenPipe : UInt32 := 109

/-- A wide character of a buffer, where it has one. -/
def wcharAt (bytes : List UInt8) (i : Nat) : Option UInt16 :=
  (readAt bytes (2 * i) 2).map fun b => UInt16.ofNat (ofLe b)

/-- The loop that reads the error of a failure, with so many characters in front
of `EndP`. -/
def spdLaunchDigits (pipeBuf : List UInt8) : Nat → Nat → UInt32 → Option UInt32
  | 0, _, launcherError => some launcherError
  | n + 1, p, launcherError => do
      let c ← wcharAt pipeBuf p
      if 0x30 > c ∨ c > 0x39 then some launcherError
      else spdLaunchDigits pipeBuf n (p + 1) (10 * launcherError + (c.toUInt32 - 0x30))

/-- What the caller of `SpdLaunchCallLauncherPipe` has afterwards: what was
returned, `*PLauncherError`, and its `Buffer` and `*PSize`. -/
structure LaunchCall where
  error : UInt32
  launcherError : UInt32
  buffer : List UInt8
  size : Option UInt32
  deriving DecidableEq

/-- `SpdLaunchCallLauncherPipe`, from a reply on. `received` is what of `PipeBuf`
the reply has been written to. `none` when it reads or writes where it must
not. -/
def spdLaunchReceive (received buffer : List UInt8) (size : Option UInt32) : Option LaunchCall :=
  if 2 ≤ received.length then do
    let c ← wcharAt received 0
    if spdLaunchCmdSuccess = c then
      match size with
      | none => some ⟨errorSuccess, 0, buffer, none⟩
      | some size => do
          let bytesTransferred := UInt32.ofNat received.length - 2
          let payload ← readAt received 2
            (if size < bytesTransferred then size else bytesTransferred).toNat
          let buffer ← writeAt buffer 0 payload
          some ⟨errorSuccess, 0, buffer, some bytesTransferred⟩
    else if spdLaunchCmdFailure = c then do
      let launcherError ← spdLaunchDigits received (received.length / 2 - 1) 1 0
      some
        ⟨errorSuccess, if 0 = launcherError then errorBrokenPipe else launcherError,
          buffer, size⟩
    else some ⟨errorSuccess, errorBrokenPipe, buffer, size⟩
  else some ⟨errorSuccess, errorBrokenPipe, buffer, size⟩

/-- `SpdLaunchCallLauncherPipe`: `allocated` says whether there was memory for
`PipeBuf`, and `transact` is `SpdCallNamedPipeSecurely`. -/
def spdLaunchCall (allocated : Bool) (transact : List UInt8 → Except UInt32 (List UInt8))
    (command : UInt16) (args : List LaunchArg) (buffer : List UInt8) (size : Option UInt32) :
    Option LaunchCall :=
  let failed (error : UInt32) : LaunchCall := ⟨error, 0, buffer, size.map fun _ => 0⟩
  if allocated then do
    let message ← spdLaunchCallLauncherPipe command args
    match message with
    | .error error => some (failed error)
    | .ok message =>
        match transact message with
        | .error error => some (failed error)
        | .ok received => spdLaunchReceive received buffer size
  else some (failed errorNoSystemResources)

end Winspd.Launcher
