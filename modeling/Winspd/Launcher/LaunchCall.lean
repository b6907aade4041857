import Winspd.Launcher.Pipe
import Winspd.Shared.Secpipe

/-!
# The call of the launcher: `launch.c`

`SpdLaunchCallLauncherPipe` with the system calls it makes. `spdLaunchCall` is what it
computes of the outcome of `SpdCallNamedPipeSecurely`.
-/

namespace Winspd.Launcher

open Winspd.Lib Winspd.Shared

/-- `SPD_LAUNCH_PIPE_OWNER`. -/
def winLocalSystemSid : Int64 := 22

def nmpwaitUseDefaultWait : UInt32 := 0

/-- The error, and no reply. -/
def launchFailed (error : UInt32) (buffer : List UInt8) (size : Option UInt32) : LaunchCall :=
  ⟨error, 0, buffer, size.map fun _ => 0⟩

/-- `SpdLaunchCallLauncherPipe`. `none` when it reads or writes where it must not. -/
def spdLaunchCallPipe (memory : Int64 → SidBytes) (command : UInt16) (args : List LaunchArg)
    (buffer : List UInt8) (size : Option UInt32) : PipeCallProg (Option LaunchCall) := do
  let pipeBuf ← pipeCall .memAlloc
  match pipeBuf with
  | none => do
      pipeCall (.memFree none)
      pure (some (launchFailed errorNoSystemResources buffer size))
  | some pipeBuf =>
      match spdLaunchCallLauncherPipe command args with
      | none => pure none
      | some (.error error) => do
          pipeCall (.memFree (some pipeBuf))
          pure (some (launchFailed error buffer size))
      | some (.ok message) => do
          let r ← spdCallNamedPipeSecurely message (UInt32.ofNat spdLaunchPipeBufferSize)
            nmpwaitUseDefaultWait memory winLocalSystemSid
          pipeCall (.memFree (some pipeBuf))
          match r with
          | .error error => pure (some (launchFailed error buffer size))
          | .ok received => pure (spdLaunchReceive received buffer size)

end Winspd.Launcher
