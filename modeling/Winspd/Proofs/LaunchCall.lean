import Winspd.Launcher.LaunchCall
import Winspd.Proofs.Secpipe

/-!
# Who gets a command

A command for the launcher is written at most once, and to a pipe of the local system:
another process that has made an instance of the pipe gets nothing, and the launcher
cannot act as the client. What the client has afterwards is what `spdLaunchCall` makes of
the outcome.
-/

namespace Winspd.Proofs

open Winspd.Lib Winspd.Shared Winspd.Launcher

variable {wellKnownSid memory : Int64 → SidBytes} {command : UInt16} {args : List LaunchArg}
  {buffer message : List UInt8} {size : Option UInt32} {s s' : SecpipeState} {rs : List Nat}

/-- What is said of the end, with this message. -/
def LaunchEnds (command : UInt16) (args : List LaunchArg) (buffer : List UInt8)
    (size : Option UInt32) (x : Option LaunchCall) (g : CallAccount) : Prop :=
  (spdLaunchCallLauncherPipe command args ≠ none → g.held = []) ∧
    (∃ allocated r, x = spdLaunchCall allocated (fun _ => r) command args buffer size) ∧
    ∀ c, x = some c → c.error = 0 → ∃ bytes, g.stage = .replied bytes

theorem launchEnds_failed {g : CallAccount} {error : UInt32} (herror : error ≠ 0)
    (hheld : g.held = [])
    (hcall : ∃ allocated r, some (launchFailed error buffer size) =
      spdLaunchCall allocated (fun _ => r) command args buffer size) :
    LaunchEnds command args buffer size (some (launchFailed error buffer size)) g := by
  refine ⟨fun _ => hheld, hcall, ?_⟩
  rintro _ ⟨⟩ hzero
  exact absurd hzero herror

theorem requiredSid_launch :
    requiredSid wellKnownSid memory winLocalSystemSid = some (wellKnownSid winLocalSystemSid) := by
  have hne : winLocalSystemSid ≠ 0 := by decide
  have hsmall : 1024 > winLocalSystemSid := by decide
  rw [requiredSid, if_neg hne, if_pos hsmall]

theorem spdLaunchCall_error {error : UInt32}
    (hmessage : spdLaunchCallLauncherPipe command args = some (.ok message)) :
    spdLaunchCall true (fun _ => .error error) command args buffer size =
      some (launchFailed error buffer size) := by
  unfold spdLaunchCall
  rw [if_pos rfl, hmessage]
  rfl

theorem spdLaunchCall_ok {received : List UInt8}
    (hmessage : spdLaunchCallLauncherPipe command args = some (.ok message)) :
    spdLaunchCall true (fun _ => .ok received) command args buffer size =
      spdLaunchReceive received buffer size := by
  unfold spdLaunchCall
  rw [if_pos rfl, hmessage]
  rfl

theorem spdLaunchCallPipe_safe
    (hmessage : spdLaunchCallLauncherPipe command args = some (.ok message)) :
    (callRules wellKnownSid (some (wellKnownSid winLocalSystemSid)) false message).Safe
      (LaunchEnds command args buffer size) ⟨[], none, none, .unwritten⟩
      (spdLaunchCallPipe memory command args buffer size) := by
  unfold spdLaunchCallPipe
  rw [hmessage]
  refine call_bind trivial fun pipeBuf _ => ?_
  cases pipeBuf with
  | none =>
      refine call_bind trivial fun _ _ => ?_
      exact launchEnds_failed (by decide) rfl ⟨false, .ok [], rfl⟩
  | some pipeBuf =>
      refine (spdCallNamedPipeSecurelyEx_safe requiredSid_launch).bind fun r g hg => ?_
      obtain ⟨hheld, herror, hok⟩ := hg
      have hhead : g.held.head? = some pipeBuf := by
        rw [hheld]
        rfl
      have htail : g.held.tail = [] := by
        rw [hheld]
        rfl
      refine call_bind hhead fun _ _ => ?_
      cases r with
      | error error =>
          exact launchEnds_failed (herror error rfl) htail
            ⟨true, .error error, (spdLaunchCall_error hmessage).symm⟩
      | ok received =>
          refine ⟨fun _ => htail, ⟨true, .ok received, (spdLaunchCall_ok hmessage).symm⟩,
            fun c _ _ => ?_⟩
          exact ⟨received, (hok received rfl).1⟩

theorem spdLaunchPut_error {pipeBuf : List UInt16} {error : UInt32}
    (h : spdLaunchPut pipeBuf args = some (.error error)) : error ≠ 0 := by
  induction args generalizing pipeBuf with
  | nil => cases h
  | cons arg args ih =>
      unfold spdLaunchPut at h
      split at h
      · exact ih h
      · obtain ⟨length, -, h⟩ := Option.bind_eq_some_iff.mp h
        split at h
        · cases h
          decide
        · obtain ⟨chars, -, h⟩ := Option.bind_eq_some_iff.mp h
          split at h
          · cases h
          · exact ih h

theorem spdLaunchCallLauncherPipe_error {error : UInt32}
    (h : spdLaunchCallLauncherPipe command args = some (.error error)) : error ≠ 0 := by
  obtain ⟨r, hput, hr⟩ := Option.map_eq_some_iff.mp h
  cases r with
  | error e =>
      cases hr
      exact spdLaunchPut_error hput
  | ok chars => cases hr

theorem spdLaunchCallPipe_refused {required : Option SidBytes}
    (hmessage : ∀ message, spdLaunchCallLauncherPipe command args ≠ some (.ok message)) :
    (callRules wellKnownSid required false message).Safe
      (fun x g => g.stage = .unwritten ∧ LaunchEnds command args buffer size x g)
      ⟨[], none, none, .unwritten⟩ (spdLaunchCallPipe memory command args buffer size) := by
  unfold spdLaunchCallPipe
  refine call_bind trivial fun pipeBuf _ => ?_
  cases pipeBuf with
  | none =>
      refine call_bind trivial fun _ _ => ⟨rfl, ?_⟩
      exact launchEnds_failed (by decide) rfl ⟨false, .ok [], rfl⟩
  | some pipeBuf =>
      cases houtcome : spdLaunchCallLauncherPipe command args with
      | none =>
          refine ⟨rfl, fun hne => absurd houtcome hne, ⟨true, .ok [], ?_⟩,
            fun c hc => by cases hc⟩
          unfold spdLaunchCall
          rw [if_pos rfl, houtcome]
          rfl
      | some outcome =>
          cases outcome with
          | error error =>
              have herror := spdLaunchCallLauncherPipe_error houtcome
              refine call_bind rfl fun _ _ => ?_
              refine ⟨rfl, launchEnds_failed herror rfl ⟨true, .ok [], ?_⟩⟩
              unfold spdLaunchCall
              rw [if_pos rfl, houtcome]
              rfl
          | ok message => exact absurd houtcome (hmessage message)

/-! ## Every outcome -/

/-- What a call of the launcher leaves. -/
structure LaunchCalled (wellKnownSid : Int64 → SidBytes) (command : UInt16)
    (args : List LaunchArg)
    (buffer : List UInt8) (size : Option UInt32) (rs : List Nat) (s s' : SecpipeState)
    (x : Option LaunchCall) : Prop where
  holds : spdLaunchCallLauncherPipe command args ≠ none → s'.resources.Holds rs
  result : ∃ allocated r, x = spdLaunchCall allocated (fun _ => r) command args buffer size
  written : s'.messages = s.messages ∨ ∃ message,
    spdLaunchCallLauncherPipe command args = some (.ok message) ∧
      s'.messages = s.messages ++ [⟨wellKnownSid winLocalSystemSid, false, message⟩]
  /-- A client that has no error has been heard. -/
  heard : ∀ c, x = some c → c.error = 0 → s'.messages ≠ s.messages

/-- Whatever the calls of the system return, a launcher command writes its message once or
not at all, and releases everything that it has acquired. -/
theorem launch_call {x : Option LaunchCall}
    (hrun : (spdLaunchCallPipe memory command args buffer size).Runs
      (PipeCallAction.Exec wellKnownSid) s x s') (hholds : s.resources.Holds rs) :
    LaunchCalled wellKnownSid command args buffer size rs s s' x := by
  have hstart : ∀ required message, SecureInv required false message rs s.messages s
      ⟨[], none, none, .unwritten⟩ := fun required message =>
    ⟨hholds, fun pipe hpipe => absurd hpipe.symm (Option.some_ne_none pipe), rfl⟩
  by_cases hmessage : ∃ message, spdLaunchCallLauncherPipe command args = some (.ok message)
  · obtain ⟨message, hmessage⟩ := hmessage
    obtain ⟨g, hinv, hheld, hresult, hreplied⟩ := (spdLaunchCallPipe_safe hmessage).runs
      (fun hI hmay hexec => hI.step hmay hexec) hrun (hstart _ message)
    have hstage := hinv.stage
    have hwritten : WrittenOnce (some (wellKnownSid winLocalSystemSid)) false message s.messages
        s'.messages → s'.messages =
          s.messages ++ [⟨wellKnownSid winLocalSystemSid, false, message⟩] := by
      rintro ⟨ownerSid, hmessages, howner⟩
      rw [hmessages, howner _ rfl]
    refine ⟨fun hne => ?_, hresult, ?_, fun c hc hzero => ?_⟩
    · have hholds' := hinv.holds
      rwa [hheld hne] at hholds'
    · rcases hstage.weaken with hsame | honce
      · exact .inl hsame
      · exact .inr ⟨message, hmessage, hwritten honce⟩
    · obtain ⟨bytes, hbytes⟩ := hreplied c hc hzero
      rw [hbytes] at hstage
      rw [hwritten hstage]
      simp
  · obtain ⟨g, hinv, hunwritten, hheld, hresult, hreplied⟩ :=
      (spdLaunchCallPipe_refused (not_exists.mp hmessage)).runs
        (fun hI hmay hexec => hI.step hmay hexec) hrun (hstart none [])
    have hstage := hinv.stage
    rw [hunwritten] at hstage
    refine ⟨fun hne => ?_, hresult, .inl hstage, fun c hc hzero => ?_⟩
    · have hholds' := hinv.holds
      rwa [hheld hne] at hholds'
    · obtain ⟨bytes, hbytes⟩ := hreplied c hc hzero
      cases hunwritten.symm.trans hbytes

/-- The launcher is there, and answers with `SpdLaunchCmdSuccess`. -/
def launcherAnswers : PipeCallAction → PipeCallChoice
  | .createFile _ => .opens [18]
  | .transactNamedPipe .. => .replies [0x24, 0]
  | _ => .succeeds

theorem launch_call_answered : ∃ x s',
    (spdLaunchCallPipe (fun _ => []) LaunchCommand.getNameList.char [] [] none).Runs
      (PipeCallAction.Exec fun _ => [18]) ⟨.empty, fun _ => ([], false), []⟩ x s' ∧
      s'.messages.length = 1 ∧
      LaunchCalled (fun _ => [18]) LaunchCommand.getNameList.char [] [] none []
        ⟨.empty, fun _ => ([], false), []⟩ s' x := by
  have hfinal : ((spdLaunchCallPipe (fun _ => []) LaunchCommand.getNameList.char [] [] none).alone
      (fun s a => a.exec (fun _ => [18]) s (launcherAnswers a))
      ⟨.empty, fun _ => ([], false), []⟩).map (fun x => x.1.messages.length) = some 1 := by
    decide +kernel
  obtain ⟨⟨s', x⟩, halone, hlength⟩ := Option.map_eq_some_iff.mp hfinal
  have hrun : (spdLaunchCallPipe (fun _ => []) LaunchCommand.getNameList.char [] [] none).Runs
      (PipeCallAction.Exec fun _ => [18]) ⟨.empty, fun _ => ([], false), []⟩ x s' :=
    Prog.runs_of_alone (fun {_ a _ _} h => ⟨launcherAnswers a, h⟩) halone
  exact ⟨x, s', hrun, hlength, launch_call hrun .empty⟩

end Winspd.Proofs
