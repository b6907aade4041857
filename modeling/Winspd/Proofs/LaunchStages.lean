import Winspd.Launcher.PipeServer
import Winspd.Lib.Threads
import Winspd.Proofs.LaunchReply

/-!
# The stages of a request to the launcher

The account of the thread that serves the pipe is how far it has come with the message
of a client. It says what the thread may do next: whom it answers, with which token,
and that the token and the buffer are released. `svcPipeServer_safe` is about the whole
thread.
-/

namespace Winspd.Proofs

open Winspd.Lib Winspd.Shared Winspd.Launcher

/-! ## Accounts -/

/-- What the thread does with the message of a client. -/
inductive ServiceStage
  | idle
  | received (message : LaunchMessage)
  | impersonating (message : LaunchMessage)
  | opened (message : LaunchMessage) (token : ClientToken)
  /-- `RevertToSelf` has failed. -/
  | notReverted (message : LaunchMessage) (token : ClientToken)
  | ready (message : LaunchMessage) (token : ClientToken)
  | answered (message : LaunchMessage) (token : ClientToken) (reply : List UInt8)
  | replying (message : LaunchMessage) (reply : List UInt8)
  /-- Until the pipe is disconnected. -/
  | served (message : LaunchMessage)

namespace ServiceStage

def token : ServiceStage → Option ClientToken
  | opened _ token | notReverted _ token | ready _ token | answered _ token _ => some token
  | _ => none

def message : ServiceStage → Option LaunchMessage
  | idle => none
  | received message | impersonating message | opened message _ | notReverted message _
  | ready message _ | answered message _ _ | replying message _ | served message => some message

/-- Between `ImpersonateNamedPipeClient` and `RevertToSelf`. -/
def asClient : ServiceStage → Bool
  | impersonating _ | opened .. => true
  | _ => false

/-- `SvcPipeTransact` was not called for it. -/
def unanswered : ServiceStage → Option LaunchMessage
  | received message | impersonating message | opened message _ | ready message _ => some message
  | _ => none

/-- There is no token, and the thread is not the client. -/
def Over (stage : ServiceStage) : Prop := stage.token = none ∧ stage.asClient = false

def unwritten : ServiceStage → Option LaunchMessage
  | answered message _ reply | replying message reply => some ⟨message.client, reply⟩
  | _ => none

end ServiceStage

structure ServiceAccount where
  stage : ServiceStage
  pipeBuf : Option Nat
  /-- The thread impersonates nobody. -/
  own : Bool

namespace ServiceAccount

def holds (g : ServiceAccount) : List Nat :=
  (g.stage.token.map ClientToken.handle).toList ++ g.pipeBuf.toList

def next (g : ServiceAccount) : (a : LaunchPipeAction) → a.Answer → ServiceAccount
  | .memAlloc, pipeBuf => { g with pipeBuf := pipeBuf }
  | .memFree _, _ => { g with pipeBuf := none }
  | .start (.write _), _ =>
      match g.stage with
      | .replying message _ => { g with stage := .served message }
      | _ => g
  | .getOverlappedResult .read, .ok message => { g with stage := .received message }
  | .disconnectNamedPipe, _ => { g with stage := .idle }
  | .impersonateNamedPipeClient, true =>
      match g.stage with
      | .received message => { g with stage := .impersonating message, own := false }
      | _ => g
  | .openThreadToken, token =>
      match g.stage, token with
      | .impersonating message, some token => { g with stage := .opened message token }
      | .impersonating message, none => { g with stage := .served message }
      | _, _ => g
  | .revertToSelf, reverted =>
      match g.stage, reverted with
      | .opened message token, true => { g with stage := .ready message token, own := true }
      | .opened message token, false => { g with stage := .notReverted message token }
      | _, _ => g
  | .svcPipeTransact .., reply =>
      match g.stage with
      | .ready message token => { g with stage := .answered message token (replyBytes reply) }
      | _ => g
  | .closeHandle (some _), _ =>
      match g.stage with
      | .notReverted message _ => { g with stage := .served message }
      | .answered message _ reply => { g with stage := .replying message reply }
      | _ => g
  | _, _ => g

def May (g : ServiceAccount) : LaunchPipeAction → Prop
  | .memAlloc => g.stage.Over ∧ g.pipeBuf = none
  | .memFree pipeBuf => g.stage.Over ∧ g.pipeBuf = some pipeBuf
  | .start .connect | .start .read => g.stage = .idle
  | .start (.write bytes) => ∃ message, g.stage = .replying message bytes
  | .getOverlappedResult .read => g.stage = .idle
  | .disconnectNamedPipe => g.stage.Over
  | .impersonateNamedPipeClient => ∃ message, g.stage = .received message
  | .openThreadToken => ∃ message, g.stage = .impersonating message
  | .revertToSelf => ∃ message token, g.stage = .opened message token
  | .svcPipeTransact token mem size => ∃ message, g.stage = .ready message token ∧
      g.own = true ∧
      token.client = message.client ∧ replyBytes (mem, size) = message.bytes
  | .closeHandle (some token) => (∃ message, g.stage = .notReverted message token) ∨
      ∃ message reply, g.stage = .answered message token reply
  | .svcInstanceStopAndWaitAll => g.stage.Over ∧ g.pipeBuf = none
  | .clientOpen | .clientSend _ | .clientClose | .setSvcEvent => False
  | _ => g.stage.asClient = false

def Told (g : ServiceAccount) : (a : LaunchPipeAction) → a.Answer → Prop
  | .openThreadToken, some token => ∀ message, g.stage = .impersonating message →
      token.client = message.client
  | _, _ => True

end ServiceAccount

def ClientAction : LaunchPipeAction → Prop
  | .clientOpen | .clientSend _ | .clientClose | .setSvcEvent => True
  | _ => False

/-- The thread that serves the pipe has an account, and no other. -/
def serviceRules : Rules LaunchPipeAction LaunchPipeAction.Answer (Option ServiceAccount) where
  start := none
  track a r g := g.map fun g => g.next a r
  May g a := match g with
    | none => ClientAction a
    | some g => g.May a
  Answers g a r := ∀ x, g = some x → x.Told a r
  Settled g := ∀ x, g = some x → x.holds = []

/-! ## The program -/

variable {g : ServiceAccount} {io : PipeIo} {mem : Nat → UInt8} {size fuel : Nat}
  {m : LaunchMessage} {token : ClientToken} {b : Option Nat} {own : Bool}

theorem service_bind {α : Type} {Q : α → Option ServiceAccount → Prop} {a : LaunchPipeAction}
    {f : a.Answer → LaunchPipeProg α} (hmay : g.May a)
    (h : ∀ r, g.Told a r → serviceRules.Safe Q (some (g.next a r)) (f r)) :
    serviceRules.Safe Q (some g) (launchAction a >>= f) :=
  .perform_bind hmay fun r hr => h r (hr g rfl)

theorem asClient_of_result (h : g.May (.getOverlappedResult io)) : g.stage.asClient = false := by
  cases io with
  | read =>
      rw [show g.stage = .idle from h]
      rfl
  | connect | write _ => exact h

theorem svcPipeWaitResult_safe {g₁ : ServiceAccount} (hstart : g.May (.start io))
    (hnext : ∀ r, g.next (.start io) r = g₁) (hresult : g₁.May (.getOverlappedResult io)) :
    serviceRules.Safe
      (fun r g' => (∃ r', (r = r' ∨ r = .error svcStopThread) ∧
          g' = some (g₁.next (.getOverlappedResult io) r')) ∨
        ∃ error, r = .error error ∧ g' = some g₁)
      (some g) (svcPipeWaitResult io) := by
  refine service_bind hstart fun started _ => ?_
  rw [hnext]
  split
  · exact .inr ⟨started, rfl, rfl⟩
  · have hclient := asClient_of_result hresult
    refine service_bind hclient fun waited _ => ?_
    cases waited with
    | stopEvent =>
        refine service_bind hclient fun _ _ => service_bind hresult fun r' _ => ?_
        exact .inl ⟨r', .inr rfl, rfl⟩
    | ioEvent => exact ⟨hresult, fun r _ => .inl ⟨r, .inl rfl, rfl⟩⟩
    | failed error => exact .inr ⟨error, rfl, rfl⟩

/-- A round leaves the loop without a token, or goes on to the next. -/
def RoundEnds (b : Option Nat) (r : Option (Nat → UInt8)) (g : Option ServiceAccount) : Prop :=
  ∃ x, g = some x ∧ x.pipeBuf = b ∧ x.stage.Over ∧ (r ≠ none → x.stage = .idle)

theorem disconnect_ends (hb : g.pipeBuf = b) (hover : g.stage.Over) :
    serviceRules.Safe (RoundEnds b) (some g)
      (launchAction .disconnectNamedPipe >>= fun _ => pure (some mem)) :=
  service_bind hover fun _ _ => ⟨_, rfl, hb, ⟨rfl, rfl⟩, fun _ => rfl⟩

theorem svcPipeReply_safe :
    serviceRules.Safe (RoundEnds b) (some ⟨.replying m (replyBytes (mem, size)), b, own⟩)
      (svcPipeReply mem size) := by
  have hstart : ServiceAccount.May ⟨.replying m (replyBytes (mem, size)), b, own⟩
      (.start (.write (replyBytes (mem, size)))) := ⟨m, rfl⟩
  refine (svcPipeWaitResult_safe hstart (fun _ => rfl) rfl).bind fun r g' hg' => ?_
  obtain rfl : g' = some ⟨.served m, b, own⟩ := by
    rcases hg' with ⟨r', -, rfl⟩ | ⟨error, -, rfl⟩ <;> rfl
  split
  · exact ⟨_, rfl, rfl, ⟨rfl, rfl⟩, fun h => absurd rfl h⟩
  · exact disconnect_ends rfl ⟨rfl, rfl⟩

theorem svcClientToken_safe :
    serviceRules.Safe
      (fun r g' => match r with
        | (true, some token) => token.client = m.client ∧ g' = some ⟨.ready m token, b, true⟩
        | (true, none) => False
        | (false, some token) => ∃ own, g' = some ⟨.notReverted m token, b, own⟩
        | (false, none) => ∃ x, g' = some x ∧ x.pipeBuf = b ∧ x.stage.Over)
      (some ⟨.received m, b, own⟩) svcClientToken := by
  refine service_bind ⟨m, rfl⟩ fun impersonates _ => ?_
  cases impersonates with
  | false => exact ⟨_, rfl, rfl, rfl, rfl⟩
  | true =>
      refine service_bind ⟨m, rfl⟩ fun token htoken => ?_
      cases token with
      | none => exact ⟨_, rfl, rfl, rfl, rfl⟩
      | some token =>
          refine service_bind ⟨m, token, rfl⟩ fun reverted _ => ?_
          cases reverted with
          | false => exact ⟨_, rfl⟩
          | true => exact ⟨htoken m rfl, rfl⟩

theorem svcPipeAnswer_safe (hbytes : replyBytes (mem, size) = m.bytes) :
    serviceRules.Safe (RoundEnds b) (some ⟨.received m, b, own⟩) (svcPipeAnswer mem size) := by
  refine svcClientToken_safe.bind fun r g' hg' => ?_
  obtain ⟨succeeded, clientToken⟩ := r
  cases succeeded with
  | false =>
      cases clientToken with
      | none =>
          obtain ⟨x, rfl, hb, hover⟩ := hg'
          exact service_bind hover.2 fun _ _ => disconnect_ends hb hover
      | some token =>
          obtain ⟨own, rfl⟩ := hg'
          refine service_bind (.inl ⟨m, rfl⟩) fun _ _ =>
            service_bind ⟨rfl, rfl⟩ fun _ _ => ?_
          exact ⟨_, rfl, rfl, ⟨rfl, rfl⟩, fun h => absurd rfl h⟩
  | true =>
      cases clientToken with
      | none => exact hg'.elim
      | some token =>
          obtain ⟨hclient, rfl⟩ := hg'
          refine service_bind ⟨m, rfl, rfl, hclient, hbytes⟩ fun reply _ => ?_
          obtain ⟨mem', size'⟩ := reply
          exact service_bind (.inr ⟨m, replyBytes (mem', size'), rfl⟩) fun _ _ =>
            svcPipeReply_safe

theorem svcPipeRequest_safe :
    serviceRules.Safe (RoundEnds b) (some ⟨.idle, b, own⟩) (svcPipeRequest mem) := by
  have hstart : ServiceAccount.May ⟨.idle, b, own⟩ (.start .read) := rfl
  have hresult : ServiceAccount.May ⟨.idle, b, own⟩ (.getOverlappedResult .read) := rfl
  refine (svcPipeWaitResult_safe hstart (fun _ => rfl) hresult).bind fun r g' hg' => ?_
  cases r with
  | error error =>
      obtain ⟨x, rfl, hb, hover⟩ : ∃ x, g' = some x ∧ x.pipeBuf = b ∧ x.stage.Over := by
        rcases hg' with ⟨r', -, rfl⟩ | ⟨error, -, rfl⟩
        · cases r' with
          | error _ | ok _ => exact ⟨_, rfl, rfl, rfl, rfl⟩
        · exact ⟨_, rfl, rfl, rfl, rfl⟩
      dsimp only
      split
      · exact ⟨_, rfl, hb, hover, fun h => absurd rfl h⟩
      · exact disconnect_ends hb hover
  | ok m =>
      obtain rfl : g' = some ⟨.received m, b, own⟩ := by
        rcases hg' with ⟨r', hr' | hr', rfl⟩ | ⟨error, hr', -⟩
        · subst hr'
          rfl
        · cases hr'
        · cases hr'
      dsimp only
      split
      · exact disconnect_ends rfl ⟨rfl, rfl⟩
      · exact svcPipeAnswer_safe (replyBytes_of_holdsAt holdsAt_store)

theorem svcPipeRound_safe :
    serviceRules.Safe (RoundEnds b) (some ⟨.idle, b, own⟩) (svcPipeRound mem) := by
  have hstart : ServiceAccount.May ⟨.idle, b, own⟩ (.start .connect) := rfl
  refine (svcPipeWaitResult_safe hstart (fun _ => rfl) rfl).bind fun r g' hg' => ?_
  obtain rfl : g' = some ⟨.idle, b, own⟩ := by
    rcases hg' with ⟨r', -, rfl⟩ | ⟨error, -, rfl⟩ <;> rfl
  cases r with
  | error error =>
      dsimp only
      split
      · exact ⟨_, rfl, rfl, ⟨rfl, rfl⟩, fun h => absurd rfl h⟩
      · split
        · exact ⟨_, rfl, rfl, ⟨rfl, rfl⟩, fun _ => rfl⟩
        · exact svcPipeRequest_safe
  | ok _ => exact svcPipeRequest_safe

theorem svcPipeLoop_safe :
    serviceRules.Safe (fun _ g => ∃ x, g = some x ∧ x.pipeBuf = b ∧ x.stage.Over)
      (some ⟨.idle, b, own⟩) (svcPipeLoop fuel mem) := by
  induction fuel generalizing own mem with
  | zero => exact ⟨rfl, fun _ _ => ⟨_, rfl, rfl, rfl, rfl⟩⟩
  | succ fuel ih =>
      refine svcPipeRound_safe.bind fun r g' hg' => ?_
      obtain ⟨⟨stage, b, own⟩, rfl, rfl, hover, hnext⟩ := hg'
      cases r with
      | none => exact ⟨_, rfl, rfl, hover⟩
      | some mem =>
          obtain rfl : stage = .idle := hnext (Option.some_ne_none _)
          exact ih

theorem holds_eq_nil (hover : g.stage.Over) (hb : g.pipeBuf = none) : g.holds = [] := by
  unfold ServiceAccount.holds
  rw [hover.1, hb]
  rfl

theorem svcPipeExit_safe {exitCode : UInt32} (hover : g.stage.Over) (hb : g.pipeBuf = none) :
    serviceRules.Safe (fun _ => serviceRules.Settled) (some g) (svcPipeExit exitCode) :=
  service_bind ⟨hover, hb⟩ fun _ _ =>
    ⟨hover.2, fun _ _ x hx => by cases hx; exact holds_eq_nil hover hb⟩

def ServiceAccount.start : ServiceAccount := ⟨.idle, none, true⟩

theorem svcPipeServer_safe :
    serviceRules.Safe (fun _ => serviceRules.Settled) (some .start) (svcPipeServer fuel mem) := by
  refine service_bind ⟨⟨rfl, rfl⟩, rfl⟩ fun pipeBuf _ => ?_
  cases pipeBuf with
  | none => exact svcPipeExit_safe ⟨rfl, rfl⟩ rfl
  | some pipeBuf =>
      refine svcPipeLoop_safe.bind fun _ g' hg' => ?_
      obtain ⟨x, rfl, hb, hover⟩ := hg'
      exact service_bind ⟨hover, hb⟩ fun _ _ => svcPipeExit_safe hover rfl

end Winspd.Proofs
