import Winspd.Launcher.Pipe
import Winspd.Lib.Lifetimes
import Winspd.Shared.Stghandle

/-!
# launcher.c: the thread that serves the pipe

`SvcPipeServer` as a program, and the machine its actions run on: the pipe, which
has one instance and one client at a time, the thread's own handles, and whom the
thread impersonates. A client can write, or close its end, between any two actions.

`ImpersonateNamedPipeClient` is for the client whose message was read last, and the
token of the thread is that client's then. A message and a token come with the
number of the client, which no function of the source looks at.

What is not shared with other threads is not an action: the buffer, and what is
logged. `SvcPipeTransact` is one action. Its reply can be any.
-/

namespace Winspd.Launcher

open Winspd.Lib Winspd.Shared

/-- A message, and the client at the other end. -/
structure LaunchMessage where
  client : Nat
  bytes : List UInt8
  deriving DecidableEq, Repr

/-- `ClientToken`, and whose token it is. -/
structure ClientToken where
  handle : Nat
  client : Nat
  deriving DecidableEq, Repr

structure LaunchPipe where
  pipe : PipeState
  /-- The number of the last client that opened the pipe. -/
  client : Nat
  /-- What it has written and the server has not read. -/
  inbox : List LaunchMessage
  delivered : List LaunchMessage
  /-- The client whose message was read last. -/
  reader : Option Nat
  /-- The client that the thread impersonates. -/
  impersonated : Option Nat
  /-- `PipeBuf`, and the tokens that are open. -/
  handles : ResourceLog
  /-- Is `SvcEvent` set? -/
  svcEvent : Bool

def LaunchPipe.init : LaunchPipe where
  pipe := .listening
  client := 0
  inbox := []
  delivered := []
  reader := none
  impersonated := none
  handles := .empty
  svcEvent := false

/-! ## Actions -/

/-- What `SvcOverlapped` is used for. -/
inductive PipeIo
  | connect
  | read
  | write (bytes : List UInt8)

abbrev PipeIo.Result : PipeIo → Type
  | .read => LaunchMessage
  | _ => Unit

/-- What `WaitForMultipleObjects` says. -/
inductive WaitResult
  | stopEvent
  | ioEvent
  | failed (error : UInt32)

inductive LaunchPipeAction
  | memAlloc
  | memFree (pipeBuf : Nat)
  /-- `ConnectNamedPipe`, `ReadFile` or `WriteFile`, and `GetLastError`. -/
  | start (io : PipeIo)
  | waitForMultipleObjects
  | cancelIoEx
  | getOverlappedResult (io : PipeIo)
  | disconnectNamedPipe
  | impersonateNamedPipeClient
  | openThreadToken
  | revertToSelf
  | closeHandle (token : Option ClientToken)
  | svcPipeTransact (token : ClientToken) (mem : Nat → UInt8) (size : Nat)
  | svcInstanceStopAndWaitAll
  | setServiceStatus (exitCode : UInt32)
  | clientOpen
  | clientSend (bytes : List UInt8)
  | clientClose
  /-- `SetEvent(SvcEvent)`. -/
  | setSvcEvent
  /-- A call that does not end. -/
  | wait

namespace LaunchPipeAction

abbrev Answer : LaunchPipeAction → Type
  | .memAlloc => Option Nat
  | .start _ => UInt32
  | .waitForMultipleObjects => WaitResult
  | .getOverlappedResult io => Except UInt32 io.Result
  | .impersonateNamedPipeClient => Bool
  | .openThreadToken => Option ClientToken
  | .revertToSelf => Bool
  | .svcPipeTransact .. => (Nat → UInt8) × Nat
  -- the client that has sent it
  | .clientSend _ => Nat
  | _ => Unit

end LaunchPipeAction

/-- What the environment decides about an action. -/
inductive LaunchChoice
  /-- A system call ends with an error, or with zero. -/
  | ends (error : UInt32)
  /-- `SvcEvent` ends a wait. -/
  | stops
  /-- `SvcPipeTransact` has put this in the buffer. -/
  | replies (mem : Nat → UInt8) (size : Nat)

/-- `DisconnectNamedPipe`. It fails on an instance that listens. -/
def LaunchPipe.disconnectPipe (s : LaunchPipe) : LaunchPipe :=
  if s.pipe = .listening then s else { s with pipe := .disconnected, inbox := [] }

namespace LaunchPipeAction

/-- How an operation on the pipe begins. -/
def startIo (s : LaunchPipe) (error : UInt32) : PipeIo → Option (LaunchPipe × UInt32)
  | .connect =>
      if error = 0 then some ({ s with pipe := s.pipe.connect }, s.pipe.connectError)
      else if error = errorIoPending ∨ error = errorPipeConnected then none
      else some (s, error)
  | .read => some (s, error)
  | .write bytes =>
      if error = errorSuccess ∨ error = errorIoPending then
        if s.pipe = .connected then
          some ({ s with delivered := s.delivered ++ [⟨s.client, bytes⟩] }, error)
        else none
      else some (s, error)

/-- How it ends, if it has not failed. -/
def finishIo (s : LaunchPipe) : (io : PipeIo) → Option (LaunchPipe × io.Result)
  | .connect => if s.pipe = .connected ∨ s.pipe = .closed then some (s, ()) else none
  | .read =>
      match s.inbox with
      | [] => none
      | message :: inbox =>
          if message.bytes.length ≤ spdLaunchPipeBufferSize then
            some ({ s with inbox := inbox, reader := some message.client }, message)
          else none
  | .write _ => some (s, ())

/-- `none` when the action cannot be executed, or cannot end so. -/
def exec (s : LaunchPipe) :
    (a : LaunchPipeAction) → LaunchChoice → Option (LaunchPipe × a.Answer)
  | .memAlloc, .ends error =>
      if error = 0 then some ({ s with handles := s.handles.acquire.1 }, some s.handles.acquire.2)
      else some (s, none)
  | .memFree pipeBuf, _ => some ({ s with handles := s.handles.release pipeBuf }, ())
  | .start io, .ends error => startIo s error io
  | .waitForMultipleObjects, .stops => if s.svcEvent then some (s, .stopEvent) else none
  | .waitForMultipleObjects, .ends error =>
      some (s, if error = 0 then .ioEvent else .failed error)
  | .cancelIoEx, _ => some (s, ())
  | .getOverlappedResult io, .ends error =>
      if error = 0 then (finishIo s io).map fun x => (x.1, .ok x.2) else some (s, .error error)
  | .disconnectNamedPipe, _ => some (s.disconnectPipe, ())
  | .impersonateNamedPipeClient, .ends error =>
      if error = 0 then
        s.reader.map fun client => ({ s with impersonated := some client }, true)
      else some (s, false)
  | .openThreadToken, .ends error =>
      if error = 0 then
        s.impersonated.map fun client =>
          ({ s with handles := s.handles.acquire.1 }, some ⟨s.handles.acquire.2, client⟩)
      else some (s, none)
  | .revertToSelf, .ends error =>
      if error = 0 then some ({ s with impersonated := none }, true) else some (s, false)
  | .closeHandle none, _ => some (s, ())
  | .closeHandle (some token), _ =>
      some ({ s with handles := s.handles.release token.handle }, ())
  | .svcPipeTransact .., .replies mem size => some (s, (mem, size))
  | .svcInstanceStopAndWaitAll, _ => some (s, ())
  | .setServiceStatus _, _ => some (s, ())
  | .clientOpen, _ =>
      if s.pipe = .listening then
        some ({ s with pipe := .connected, client := s.client + 1, inbox := [] }, ())
      else none
  | .clientSend bytes, _ =>
      if s.pipe = .connected then
        some ({ s with inbox := s.inbox ++ [⟨s.client, bytes⟩] }, s.client)
      else none
  | .clientClose, _ =>
      if s.pipe = .connected then some ({ s with pipe := .closed }, ()) else none
  | .setSvcEvent, _ => some ({ s with svcEvent := true }, ())
  | _, _ => none

/-- What the action can do. -/
def Exec (s : LaunchPipe) (a : LaunchPipeAction) (r : a.Answer) (s' : LaunchPipe) : Prop :=
  ∃ c, a.exec s c = some (s', r)

end LaunchPipeAction

/-! ## SvcPipeServer -/

abbrev LaunchPipeProg := Prog LaunchPipeAction LaunchPipeAction.Answer

abbrev launchAction (a : LaunchPipeAction) : LaunchPipeProg a.Answer := Prog.perform a

/-- `-1`: stop the thread. -/
def svcStopThread : UInt32 := -1

def svcPipeWaitResult (io : PipeIo) : LaunchPipeProg (Except UInt32 io.Result) := do
  let started ← launchAction (.start io)
  if started ≠ errorSuccess ∧ started ≠ errorIoPending then pure (.error started)
  else do
    let waited ← launchAction .waitForMultipleObjects
    match waited with
    | .stopEvent => do
        launchAction .cancelIoEx
        let _ ← launchAction (.getOverlappedResult io)
        pure (.error svcStopThread)
    | .ioEvent => launchAction (.getOverlappedResult io)
    | .failed error => pure (.error error)

/-- The three calls that get the token of the client: whether they have succeeded, and
`ClientToken`. -/
def svcClientToken : LaunchPipeProg (Bool × Option ClientToken) := do
  let impersonates ← launchAction .impersonateNamedPipeClient
  if impersonates then do
    let token ← launchAction .openThreadToken
    match token with
    | none => pure (false, none)
    | some token => do
        let reverted ← launchAction .revertToSelf
        pure (reverted, some token)
  else pure (false, none)

/-- From `WriteFile` on. `none` leaves the loop, and so below. -/
def svcPipeReply (mem : Nat → UInt8) (size : Nat) : LaunchPipeProg (Option (Nat → UInt8)) := do
  let r ← svcPipeWaitResult (.write (replyBytes (mem, size)))
  if r = .error svcStopThread then pure none
  else do
    launchAction .disconnectNamedPipe
    pure (some mem)

/-- From `ClientToken = 0` on, with a message. -/
def svcPipeAnswer (mem : Nat → UInt8) (size : Nat) : LaunchPipeProg (Option (Nat → UInt8)) := do
  let (succeeded, clientToken) ← svcClientToken
  match succeeded, clientToken with
  | true, some token => do
      let (mem, size) ← launchAction (.svcPipeTransact token mem size)
      launchAction (.closeHandle (some token))
      svcPipeReply mem size
  | _, none => do
      launchAction (.closeHandle none)
      launchAction .disconnectNamedPipe
      pure (some mem)
  | false, some token => do
      launchAction (.closeHandle (some token))
      launchAction .disconnectNamedPipe
      pure none

/-- From `ReadFile` on. -/
def svcPipeRequest (mem : Nat → UInt8) : LaunchPipeProg (Option (Nat → UInt8)) := do
  let r ← svcPipeWaitResult .read
  match r with
  | .error error =>
      if error = svcStopThread then pure none
      else do
        launchAction .disconnectNamedPipe
        pure (some mem)
  | .ok message =>
      let mem := store mem 0 message.bytes
      if 2 > message.bytes.length then do
        launchAction .disconnectNamedPipe
        pure (some mem)
      else svcPipeAnswer mem message.bytes.length

/-- One round of the loop. -/
def svcPipeRound (mem : Nat → UInt8) : LaunchPipeProg (Option (Nat → UInt8)) := do
  let r ← svcPipeWaitResult .connect
  match r with
  | .error error =>
      if error = svcStopThread then pure none
      else if error ≠ 0 ∧ error ≠ errorPipeConnected ∧ error ≠ errorNoData then
        pure (some mem)
      else svcPipeRequest mem
  | .ok () => svcPipeRequest mem

/-- The loop, for so many rounds. -/
def svcPipeLoop : Nat → (Nat → UInt8) → LaunchPipeProg Unit
  | 0, _ => launchAction .wait
  | fuel + 1, mem => do
      let r ← svcPipeRound mem
      match r with
      | none => pure ()
      | some mem => svcPipeLoop fuel mem

/-- From `SvcInstanceStopAndWaitAll` on. -/
def svcPipeExit (exitCode : UInt32) : LaunchPipeProg Unit := do
  launchAction .svcInstanceStopAndWaitAll
  launchAction (.setServiceStatus exitCode)

/-- The start function of the thread. `mem` is what is in the memory of the buffer. -/
def svcPipeServer (fuel : Nat) (mem : Nat → UInt8) : LaunchPipeProg Unit := do
  let pipeBuf ← launchAction .memAlloc
  match pipeBuf with
  | none => svcPipeExit errorNoSystemResources
  | some pipeBuf => do
      svcPipeLoop fuel mem
      launchAction (.memFree pipeBuf)
      svcPipeExit 0

end Winspd.Launcher
