import Winspd.Lib.Lifetimes
import Winspd.Lib.Threads
import Winspd.Shared.Stghandle

/-!
# shared/secpipe.c

`SpdCallNamedPipeSecurelyEx` as a program, and the system calls it makes. Any process
can make an instance of a pipe, and the caller finds out who owns the one it has opened
before it writes to it.

A SID is the list of its bytes, and `Sid` is an `INT_PTR`. Handles, security
descriptors and memory are numbered. What the environment decides is a
`PipeCallChoice`: who owns the instance that is opened, and how a system call ends. One
that fails has an error.
-/

namespace Winspd.Shared

open Winspd.Lib

abbrev SidBytes := List UInt8

/-- A message that a server has got. -/
structure PipeMessage where
  ownerSid : SidBytes
  /-- Can the server impersonate who has written it? -/
  impersonation : Bool
  bytes : List UInt8

structure SecpipeState where
  resources : ResourceLog
  /-- Who owns the instance that a handle is for, and `SECURITY_IMPERSONATION`. -/
  pipes : Nat → SidBytes × Bool
  messages : List PipeMessage

/-! ## Actions -/

inductive PipeCallAction
  | createFile (allowImpersonation : Bool)
  | waitNamedPipe (timeout : UInt32)
  | createWellKnownSid (sid : Int64)
  | getSecurityInfo (pipe : Nat)
  | localFree (securityDescriptor : Option Nat)
  | setNamedPipeHandleState (pipe : Nat)
  | transactNamedPipe (pipe : Nat) (inBuffer : List UInt8) (outBufferSize : UInt32)
  | closeHandle (pipe : Nat)
  | memAlloc
  | memFree (memory : Option Nat)

inductive PipeCallChoice
  | succeeds
  | fails (error : UInt32)
  | opens (ownerSid : SidBytes)
  | replies (bytes : List UInt8)
  /-- The message has been written, and then there is an error. -/
  | breaks (error : UInt32)

namespace SecpipeState

def acquire (s : SecpipeState) : SecpipeState × Nat :=
  ({ s with resources := s.resources.acquire.1 }, s.resources.acquire.2)

def release (s : SecpipeState) (r : Nat) : SecpipeState :=
  { s with resources := s.resources.release r }

def write (s : SecpipeState) (pipe : Nat) (bytes : List UInt8) : SecpipeState :=
  { s with messages := s.messages ++ [⟨(s.pipes pipe).1, (s.pipes pipe).2, bytes⟩] }

end SecpipeState

namespace PipeCallAction

abbrev Answer : PipeCallAction → Type
  | .createFile _ => Except UInt32 Nat
  | .createWellKnownSid _ => Except UInt32 SidBytes
  | .getSecurityInfo _ => Except UInt32 (SidBytes × Nat)
  | .setNamedPipeHandleState _ => UInt32
  | .transactNamedPipe .. => Except UInt32 (List UInt8)
  | .memAlloc => Option Nat
  | _ => Unit

/-- `none` when the action cannot end so. -/
def exec (wellKnownSid : Int64 → SidBytes) (s : SecpipeState) :
    (a : PipeCallAction) → PipeCallChoice → Option (SecpipeState × a.Answer)
  | .createFile allowImpersonation, .opens ownerSid =>
      let pipes := Function.update s.pipes s.acquire.2 (ownerSid, allowImpersonation)
      some ({ s.acquire.1 with pipes := pipes }, .ok s.acquire.2)
  | .createFile _, .fails error => if error ≠ 0 then some (s, .error error) else none
  | .waitNamedPipe _, _ => some (s, ())
  | .createWellKnownSid sid, .succeeds => some (s, .ok (wellKnownSid sid))
  | .createWellKnownSid _, .fails error => if error ≠ 0 then some (s, .error error) else none
  | .getSecurityInfo pipe, .succeeds => some (s.acquire.1, .ok ((s.pipes pipe).1, s.acquire.2))
  | .getSecurityInfo _, .fails error => if error ≠ 0 then some (s, .error error) else none
  | .localFree none, _ => some (s, ())
  | .localFree (some securityDescriptor), _ => some (s.release securityDescriptor, ())
  | .setNamedPipeHandleState _, .succeeds => some (s, 0)
  | .setNamedPipeHandleState _, .fails error => if error ≠ 0 then some (s, error) else none
  -- a longer reply is an error
  | .transactNamedPipe pipe inBuffer outBufferSize, .replies bytes =>
      if bytes.length ≤ outBufferSize.toNat then some (s.write pipe inBuffer, .ok bytes) else none
  | .transactNamedPipe pipe inBuffer _, .breaks error =>
      if error ≠ 0 then some (s.write pipe inBuffer, .error error) else none
  | .transactNamedPipe .., .fails error => if error ≠ 0 then some (s, .error error) else none
  | .closeHandle pipe, _ => some (s.release pipe, ())
  | .memAlloc, .succeeds => some (s.acquire.1, some s.acquire.2)
  | .memAlloc, .fails _ => some (s, none)
  | .memFree none, _ => some (s, ())
  | .memFree (some memory), _ => some (s.release memory, ())
  | _, _ => none

/-- What the action can do. -/
def Exec (wellKnownSid : Int64 → SidBytes) (s : SecpipeState) (a : PipeCallAction) (r : a.Answer)
    (s' : SecpipeState) : Prop := ∃ c, a.exec wellKnownSid s c = some (s', r)

end PipeCallAction

/-! ## The call -/

abbrev PipeCallProg := Prog PipeCallAction PipeCallAction.Answer

abbrev pipeCall (a : PipeCallAction) : PipeCallProg a.Answer := Prog.perform a

def errorPipeBusy : UInt32 := 231
def errorPipeAccessDenied : UInt32 := 5

/-- `CreateFileW`, and once more after a wait. -/
def openPipe (timeout : UInt32) (allowImpersonation : Bool) : PipeCallProg (Except UInt32 Nat) := do
  let pipe ← pipeCall (.createFile allowImpersonation)
  match pipe with
  | .ok pipe => pure (.ok pipe)
  | .error error =>
      if errorPipeBusy ≠ error then pure (.error error)
      else do
        pipeCall (.waitNamedPipe timeout)
        pipeCall (.createFile allowImpersonation)

/-- `Sid`, when it is not null: a small number is treated like a well known SID, and
`memory` is what is at an address. -/
def sidOf (memory : Int64 → SidBytes) (sid : Int64) : PipeCallProg (Except UInt32 SidBytes) :=
  if 1024 > sid then pipeCall (.createWellKnownSid sid) else pure (.ok (memory sid))

/-- Whether `sid` owns the pipe. -/
def checkOwner (memory : Int64 → SidBytes) (sid : Int64) (pipe : Nat) : PipeCallProg UInt32 := do
  let r ← sidOf memory sid
  match r with
  | .error error => do
      pipeCall (.localFree none)
      pure error
  | .ok sid => do
      let r ← pipeCall (.getSecurityInfo pipe)
      match r with
      | .error error => do
          pipeCall (.localFree none)
          pure error
      | .ok (ownerSid, securityDescriptor) => do
          pipeCall (.localFree (some securityDescriptor))
          pure (if ownerSid = sid then errorSuccess else errorPipeAccessDenied)

/-- `if (0 != Sid)`. -/
def checkSid (memory : Int64 → SidBytes) (sid : Int64) (pipe : Nat) : PipeCallProg UInt32 :=
  if sid ≠ 0 then checkOwner memory sid pipe else pure errorSuccess

/-- What is done with the pipe, up to `exit`. -/
def transactSecurely (inBuffer : List UInt8) (outBufferSize : UInt32) (memory : Int64 → SidBytes)
    (sid : Int64) (pipe : Nat) : PipeCallProg (Except UInt32 (List UInt8)) := do
  let error ← checkSid memory sid pipe
  if error ≠ errorSuccess then pure (.error error)
  else do
    let error ← pipeCall (.setNamedPipeHandleState pipe)
    if error ≠ errorSuccess then pure (.error error)
    else pipeCall (.transactNamedPipe pipe inBuffer outBufferSize)

/-- The error, or what was written to `OutBuffer`. -/
def spdCallNamedPipeSecurelyEx (inBuffer : List UInt8) (outBufferSize timeout : UInt32)
    (allowImpersonation : Bool) (memory : Int64 → SidBytes) (sid : Int64) :
    PipeCallProg (Except UInt32 (List UInt8)) := do
  let pipe ← openPipe timeout allowImpersonation
  match pipe with
  | .error error => pure (.error error)
  | .ok pipe => do
      let r ← transactSecurely inBuffer outBufferSize memory sid pipe
      pipeCall (.closeHandle pipe)
      pure r

def spdCallNamedPipeSecurely (inBuffer : List UInt8) (outBufferSize timeout : UInt32)
    (memory : Int64 → SidBytes) (sid : Int64) : PipeCallProg (Except UInt32 (List UInt8)) :=
  spdCallNamedPipeSecurelyEx inBuffer outBufferSize timeout false memory sid

end Winspd.Shared
