import Winspd.Shared.Secpipe

/-!
# Who gets a message

`SpdCallNamedPipeSecurelyEx` writes its message at most once, and with a `Sid` only to
an instance of the pipe that this `Sid` owns, whoever else has made instances. The handle
and the security descriptor are released on every path.

An account has what the caller holds, the last acquired first, and who owns the
pipe, once this has been asked. What may be done next depends on it: a message is
written only with the right owner, or where no owner is required. The program is
safe for these rules on every path (`spdCallNamedPipeSecurelyEx_safe`), and what the
system does keeps the account true (`SecureInv.step`). A call is both together.
-/

namespace Winspd.Proofs

open Winspd.Lib Winspd.Shared

/-- What `Sid` stands for. -/
def requiredSid (wellKnownSid memory : Int64 → SidBytes) (sid : Int64) : Option SidBytes :=
  if sid = 0 then none else some (if 1024 > sid then wellKnownSid sid else memory sid)

/-! ## The account -/

inductive MessageStage
  | unwritten
  /-- It can have been written. -/
  | tried
  | replied (bytes : List UInt8)

structure CallAccount where
  /-- What the caller has acquired last is in front. -/
  held : List Nat
  pipe : Option Nat
  /-- Who owns the pipe. -/
  ownerSid : Option SidBytes
  stage : MessageStage

namespace CallAccount

def next (g : CallAccount) : (a : PipeCallAction) → a.Answer → CallAccount
  | .createFile _, .ok pipe =>
      { g with held := pipe :: g.held, pipe := some pipe, ownerSid := none }
  | .getSecurityInfo _, .ok x => { g with held := x.2 :: g.held, ownerSid := some x.1 }
  | .localFree (some _), _ | .closeHandle _, _ | .memFree (some _), _ =>
      { g with held := g.held.tail }
  | .transactNamedPipe .., .ok bytes => { g with stage := .replied bytes }
  | .transactNamedPipe .., .error _ => { g with stage := .tried }
  | .memAlloc, some memory => { g with held := memory :: g.held }
  | _, _ => g

def May (required : Option SidBytes) (allowImpersonation : Bool) (inBuffer : List UInt8)
    (g : CallAccount) : PipeCallAction → Prop
  | .createFile allow => allow = allowImpersonation
  | .getSecurityInfo pipe => g.pipe = some pipe
  | .localFree (some r) | .closeHandle r | .memFree (some r) => g.held.head? = some r
  | .transactNamedPipe pipe bytes _ => bytes = inBuffer ∧ g.pipe = some pipe ∧
      g.stage = .unwritten ∧
      ∀ x, required = some x → g.ownerSid = some x
  | _ => True

def Told (wellKnownSid : Int64 → SidBytes) : (a : PipeCallAction) → a.Answer → Prop
  | .createFile _, .error error => error ≠ 0
  | .createWellKnownSid sid, .ok x => x = wellKnownSid sid
  | .createWellKnownSid _, .error error => error ≠ 0
  | .getSecurityInfo _, .error error => error ≠ 0
  | .transactNamedPipe _ _ outBufferSize, .ok bytes => bytes.length ≤ outBufferSize.toNat
  | .transactNamedPipe .., .error error => error ≠ 0
  | _, _ => True

end CallAccount

section

variable {wellKnownSid memory : Int64 → SidBytes} {sid : Int64} {required : Option SidBytes}
  {allowImpersonation : Bool} {inBuffer : List UInt8} {s s' : SecpipeState} {g : CallAccount}
  {rs held : List Nat} {messages : List PipeMessage} {timeout outBufferSize : UInt32} {pipe : Nat}

def callRules (wellKnownSid : Int64 → SidBytes) (required : Option SidBytes)
    (allowImpersonation : Bool) (inBuffer : List UInt8) :
    Rules PipeCallAction PipeCallAction.Answer CallAccount where
  start := ⟨[], none, none, .unwritten⟩
  track a r g := g.next a r
  May g a := g.May required allowImpersonation inBuffer a
  Answers _ a r := CallAccount.Told wellKnownSid a r
  Settled _ := True

theorem call_bind {α : Type} {Q : α → CallAccount → Prop} {a : PipeCallAction}
    {f : a.Answer → PipeCallProg α} (hmay : g.May required allowImpersonation inBuffer a)
    (h : ∀ r, CallAccount.Told wellKnownSid a r →
      (callRules wellKnownSid required allowImpersonation inBuffer).Safe Q (g.next a r) (f r)) :
    (callRules wellKnownSid required allowImpersonation inBuffer).Safe Q g (pipeCall a >>= f) :=
  .perform_bind hmay h

/-! ## The program -/

theorem sidOf_safe (hsid : sid ≠ 0) :
    (callRules wellKnownSid required allowImpersonation inBuffer).Safe
      (fun r g' => g' = g ∧ (∀ error, r = .error error → error ≠ 0) ∧
        ∀ x, r = .ok x → requiredSid wellKnownSid memory sid = some x)
      g (sidOf memory sid) := by
  unfold sidOf requiredSid
  rw [if_neg hsid]
  by_cases hsmall : 1024 > sid
  · rw [if_pos hsmall, if_pos hsmall]
    refine ⟨trivial, fun r htold => ?_⟩
    cases r with
    | error error =>
        refine ⟨rfl, ?_, ?_⟩
        · rintro _ ⟨⟩
          exact htold
        · rintro _ ⟨⟩
    | ok x =>
        refine ⟨rfl, ?_, ?_⟩
        · rintro _ ⟨⟩
        · rintro _ ⟨⟩
          exact congrArg some (Eq.symm htold)
  · rw [if_neg hsmall, if_neg hsmall]
    refine ⟨rfl, ?_, ?_⟩
    · rintro _ ⟨⟩
    · rintro _ ⟨⟩
      rfl

theorem checkOwner_safe (hsid : sid ≠ 0)
    (hrequired : requiredSid wellKnownSid memory sid = required) :
    (callRules wellKnownSid required allowImpersonation inBuffer).Safe
      (fun error g => ∃ ownerSid, g = ⟨held, some pipe, ownerSid, .unwritten⟩ ∧
        (error = errorSuccess → ∀ x, required = some x → ownerSid = some x))
      ⟨held, some pipe, none, .unwritten⟩ (checkOwner memory sid pipe) := by
  refine (sidOf_safe hsid).bind fun r g hr => ?_
  obtain ⟨rfl, herror, hok⟩ := hr
  cases r with
  | error error =>
      refine call_bind trivial fun _ _ => ?_
      exact ⟨none, rfl, fun hzero => absurd hzero (herror error rfl)⟩
  | ok x =>
      refine call_bind rfl fun r htold => ?_
      cases r with
      | error error =>
          refine call_bind trivial fun _ _ => ?_
          exact ⟨none, rfl, fun hzero => absurd hzero htold⟩
      | ok y =>
          obtain ⟨ownerSid, securityDescriptor⟩ := y
          refine call_bind rfl fun _ _ => ?_
          refine ⟨some ownerSid, rfl, fun hzero y hy => ?_⟩
          by_cases heq : ownerSid = x
          · rw [heq, ← hok x rfl, hrequired]
            exact hy
          · rw [if_neg heq] at hzero
            exact absurd hzero (by decide)

def SecureEnds (held : List Nat) (outBufferSize : UInt32) (r : Except UInt32 (List UInt8))
    (g : CallAccount) : Prop :=
  g.held = held ∧ (∀ error, r = .error error → error ≠ 0) ∧
    ∀ bytes, r = .ok bytes → g.stage = .replied bytes ∧ bytes.length ≤ outBufferSize.toNat

theorem secureEnds_error {error : UInt32} (herror : error ≠ 0) (hheld : g.held = held) :
    SecureEnds held outBufferSize (.error error) g := by
  refine ⟨hheld, ?_, fun bytes hbytes => by cases hbytes⟩
  rintro _ ⟨⟩
  exact herror

theorem checkSid_safe (hrequired : requiredSid wellKnownSid memory sid = required) :
    (callRules wellKnownSid required allowImpersonation inBuffer).Safe
      (fun error g => ∃ ownerSid, g = ⟨held, some pipe, ownerSid, .unwritten⟩ ∧
        (error = errorSuccess → ∀ x, required = some x → ownerSid = some x))
      ⟨held, some pipe, none, .unwritten⟩ (checkSid memory sid pipe) := by
  unfold checkSid
  by_cases hsid : sid = 0
  · rw [if_neg (not_not.mpr hsid)]
    refine ⟨none, rfl, fun _ x hx => ?_⟩
    rw [requiredSid, if_pos hsid] at hrequired
    exact hrequired.trans hx
  · rw [if_pos hsid]
    exact checkOwner_safe hsid hrequired

theorem transactSecurely_safe (hrequired : requiredSid wellKnownSid memory sid = required) :
    (callRules wellKnownSid required allowImpersonation inBuffer).Safe
    (SecureEnds held outBufferSize)
      ⟨held, some pipe, none, .unwritten⟩
      (transactSecurely inBuffer outBufferSize memory sid pipe) := by
  refine (checkSid_safe hrequired).bind fun error g hg => ?_
  obtain ⟨ownerSid, rfl, hverified⟩ := hg
  by_cases herror : error = errorSuccess
  · rw [if_neg (not_not.mpr herror)]
    refine call_bind trivial fun error _ => ?_
    by_cases hstate : error = errorSuccess
    · rw [if_neg (not_not.mpr hstate)]
      refine ⟨⟨rfl, rfl, rfl, hverified herror⟩, fun r htold => ?_⟩
      cases r with
      | error error => exact secureEnds_error htold rfl
      | ok bytes =>
          refine ⟨rfl, ?_, ?_⟩
          · rintro _ ⟨⟩
          · rintro _ ⟨⟩
            exact ⟨rfl, htold⟩
    · rw [if_pos hstate]
      exact secureEnds_error hstate rfl
  · rw [if_pos herror]
    exact secureEnds_error herror rfl

def OpenEnds (held : List Nat) (r : Except UInt32 Nat) (g : CallAccount) : Prop :=
  match r with
  | .error error => error ≠ 0 ∧ g.held = held
  | .ok pipe => g = ⟨pipe :: held, some pipe, none, .unwritten⟩

theorem openPipe_safe {handle : Option Nat} {ownerSid : Option SidBytes} :
    (callRules wellKnownSid required allowImpersonation inBuffer).Safe (OpenEnds held)
      ⟨held, handle, ownerSid, .unwritten⟩ (openPipe timeout allowImpersonation) := by
  refine call_bind rfl fun r htold => ?_
  cases r with
  | ok pipe => exact rfl
  | error error =>
      dsimp only
      split
      · exact ⟨htold, rfl⟩
      · refine call_bind trivial fun _ _ => ⟨rfl, fun r htold => ?_⟩
        cases r with
        | ok pipe => exact rfl
        | error error => exact ⟨htold, rfl⟩

theorem spdCallNamedPipeSecurelyEx_safe {handle : Option Nat} {ownerSid : Option SidBytes}
    (hrequired : requiredSid wellKnownSid memory sid = required) :
    (callRules wellKnownSid required allowImpersonation inBuffer).Safe
    (SecureEnds held outBufferSize)
      ⟨held, handle, ownerSid, .unwritten⟩
      (spdCallNamedPipeSecurelyEx inBuffer outBufferSize timeout allowImpersonation memory
        sid) := by
  refine openPipe_safe.bind fun r g hg => ?_
  cases r with
  | error error => exact secureEnds_error hg.1 hg.2
  | ok pipe =>
      obtain rfl : g = ⟨pipe :: held, some pipe, none, .unwritten⟩ := hg
      refine (transactSecurely_safe hrequired).bind fun r g hg => ?_
      obtain ⟨hheld, hends⟩ := hg
      have hhead : g.held.head? = some pipe := by
        rw [hheld]
        rfl
      refine call_bind hhead fun _ _ => ⟨?_, hends⟩
      show g.held.tail = held
      rw [hheld]
      rfl

/-! ## The invariant -/

/-- The message was written once, to who may get it. -/
def WrittenOnce (required : Option SidBytes) (allowImpersonation : Bool) (inBuffer : List UInt8)
    (messages messages' : List PipeMessage) : Prop :=
  ∃ ownerSid, messages' = messages ++ [⟨ownerSid, allowImpersonation, inBuffer⟩] ∧
    ∀ x, required = some x → ownerSid = x

/-- What has been written, from `messages` on. -/
def MessageWritten (required : Option SidBytes) (allowImpersonation : Bool) (inBuffer : List UInt8)
    (messages messages' : List PipeMessage) : MessageStage → Prop
  | .unwritten => messages' = messages
  | .tried => messages' = messages ∨
      WrittenOnce required allowImpersonation inBuffer messages messages'
  | .replied _ => WrittenOnce required allowImpersonation inBuffer messages messages'

theorem MessageWritten.weaken {messages' : List PipeMessage} {stage : MessageStage}
    (h : MessageWritten required allowImpersonation inBuffer messages messages' stage) :
    messages' = messages ∨ WrittenOnce required allowImpersonation inBuffer messages
      messages' := by
  cases stage with
  | unwritten => exact .inl h
  | tried => exact h
  | replied bytes => exact .inr h

structure SecureInv (required : Option SidBytes) (allowImpersonation : Bool) (inBuffer : List UInt8)
    (rs : List Nat) (messages : List PipeMessage) (s : SecpipeState) (g : CallAccount) : Prop where
  holds : s.resources.Holds (g.held ++ rs)
  pipe : ∀ pipe, g.pipe = some pipe → (s.pipes pipe).2 = allowImpersonation ∧
    ∀ x, g.ownerSid = some x → (s.pipes pipe).1 = x
  stage : MessageWritten required allowImpersonation inBuffer messages s.messages g.stage

namespace SecureInv

variable (h : SecureInv required allowImpersonation inBuffer rs messages s g)
include h

theorem releases {r : Nat} (hhead : g.held.head? = some r) :
    SecureInv required allowImpersonation inBuffer rs messages (s.release r)
      { g with held := g.held.tail } := by
  have hholds := h.holds
  rw [List.eq_cons_of_mem_head? hhead] at hholds
  exact ⟨hholds.release, h.pipe, h.stage⟩

theorem writes (hpipe : g.pipe = some pipe) (hstage : g.stage = .unwritten)
    (hverified : ∀ x, required = some x → g.ownerSid = some x) :
    WrittenOnce required allowImpersonation inBuffer messages (s.write pipe inBuffer).messages := by
  obtain ⟨himpersonation, howner⟩ := h.pipe pipe hpipe
  have hmessages := h.stage
  rw [hstage] at hmessages
  refine ⟨(s.pipes pipe).1, ?_, fun x hx => howner x (hverified x hx)⟩
  have hmessages : s.messages = messages := hmessages
  rw [← himpersonation, ← hmessages]
  rfl

theorem step {a : PipeCallAction} {r : a.Answer}
    (hmay : g.May required allowImpersonation inBuffer a)
    (hexec : a.Exec wellKnownSid s r s') :
    CallAccount.Told wellKnownSid a r ∧
      SecureInv required allowImpersonation inBuffer rs messages s' (g.next a r) := by
  obtain ⟨c, hexec⟩ := hexec
  cases a with
  | createFile allow =>
      cases c with
      | opens ownerSid =>
          obtain rfl : allow = allowImpersonation := hmay
          cases hexec
          refine ⟨trivial, h.holds.acquire, ?_, h.stage⟩
          rintro pipe ⟨⟩
          refine ⟨?_, fun x hx => by cases hx⟩
          show (Function.update s.pipes s.acquire.2 (ownerSid, allow) s.acquire.2).2 = allow
          rw [Function.update_self]
      | fails error =>
          obtain ⟨hne, heq⟩ := Option.ite_none_right_eq_some.mp hexec
          cases heq
          exact ⟨hne, h⟩
      | _ => cases hexec
  | waitNamedPipe timeout =>
      cases hexec
      exact ⟨trivial, h⟩
  | createWellKnownSid sid =>
      cases c with
      | succeeds =>
          cases hexec
          exact ⟨rfl, h⟩
      | fails error =>
          obtain ⟨hne, heq⟩ := Option.ite_none_right_eq_some.mp hexec
          cases heq
          exact ⟨hne, h⟩
      | _ => cases hexec
  | getSecurityInfo handle =>
      cases c with
      | succeeds =>
          cases hexec
          refine ⟨trivial, h.holds.acquire, fun pipe hpipe => ?_, h.stage⟩
          obtain rfl : handle = pipe := Option.some.inj (Eq.trans (Eq.symm hmay) hpipe)
          exact ⟨(h.pipe handle hpipe).1, fun x hx => Option.some.inj hx⟩
      | fails error =>
          obtain ⟨hne, heq⟩ := Option.ite_none_right_eq_some.mp hexec
          cases heq
          exact ⟨hne, h⟩
      | _ => cases hexec
  | localFree securityDescriptor =>
      cases securityDescriptor with
      | none =>
          cases hexec
          exact ⟨trivial, h⟩
      | some securityDescriptor =>
          cases hexec
          exact ⟨trivial, h.releases hmay⟩
  | setNamedPipeHandleState handle =>
      cases c with
      | succeeds =>
          cases hexec
          exact ⟨trivial, h⟩
      | fails error =>
          obtain ⟨-, heq⟩ := Option.ite_none_right_eq_some.mp hexec
          cases heq
          exact ⟨trivial, h⟩
      | _ => cases hexec
  | transactNamedPipe handle bytes size =>
      obtain ⟨rfl, hpipe, hstage, hverified⟩ := hmay
      have hwritten := h.writes hpipe hstage hverified
      cases c with
      | replies reply =>
          obtain ⟨hfits, heq⟩ := Option.ite_none_right_eq_some.mp hexec
          cases heq
          exact ⟨hfits, h.holds, h.pipe, hwritten⟩
      | breaks error =>
          obtain ⟨hne, heq⟩ := Option.ite_none_right_eq_some.mp hexec
          cases heq
          exact ⟨hne, h.holds, h.pipe, .inr hwritten⟩
      | fails error =>
          obtain ⟨hne, heq⟩ := Option.ite_none_right_eq_some.mp hexec
          cases heq
          have hmessages := h.stage
          rw [hstage] at hmessages
          exact ⟨hne, h.holds, h.pipe, .inl hmessages⟩
      | _ => cases hexec
  | closeHandle handle =>
      cases hexec
      exact ⟨trivial, h.releases hmay⟩
  | memAlloc =>
      cases c with
      | succeeds =>
          cases hexec
          exact ⟨trivial, h.holds.acquire, h.pipe, h.stage⟩
      | fails error =>
          cases hexec
          exact ⟨trivial, h⟩
      | _ => cases hexec
  | memFree memory =>
      cases memory with
      | none =>
          cases hexec
          exact ⟨trivial, h⟩
      | some memory =>
          cases hexec
          exact ⟨trivial, h.releases hmay⟩

end SecureInv

/-! ## A call -/

structure SecurelyCalled (required : Option SidBytes) (allowImpersonation : Bool)
    (inBuffer : List UInt8) (outBufferSize : UInt32) (rs : List Nat) (s s' : SecpipeState)
    (r : Except UInt32 (List UInt8)) : Prop where
  holds : s'.resources.Holds rs
  written : s'.messages = s.messages ∨
    WrittenOnce required allowImpersonation inBuffer s.messages s'.messages
  replied : ∀ bytes, r = .ok bytes → bytes.length ≤ outBufferSize.toNat ∧
    WrittenOnce required allowImpersonation inBuffer s.messages s'.messages
  failed : ∀ error, r = .error error → error ≠ 0

/-- A message is written at most once, and only to a pipe whose owner is the required one.
Whatever was acquired is released. -/
theorem secure_call {r : Except UInt32 (List UInt8)}
    (hrun : (spdCallNamedPipeSecurelyEx inBuffer outBufferSize timeout allowImpersonation memory
      sid).Runs (PipeCallAction.Exec wellKnownSid) s r s') (hholds : s.resources.Holds rs) :
    SecurelyCalled (requiredSid wellKnownSid memory sid) allowImpersonation inBuffer
      outBufferSize rs
      s s' r := by
  have hstart : SecureInv (requiredSid wellKnownSid memory sid) allowImpersonation inBuffer rs
      s.messages s ⟨[], none, none, .unwritten⟩ :=
    ⟨hholds, fun pipe hpipe => absurd hpipe.symm (Option.some_ne_none pipe), rfl⟩
  obtain ⟨g, hinv, hheld, hfailed, hreplied⟩ := (spdCallNamedPipeSecurelyEx_safe rfl).runs
    (fun hI hmay hexec => hI.step hmay hexec) hrun hstart
  have hholds' := hinv.holds
  rw [hheld] at hholds'
  have hstage := hinv.stage
  refine ⟨hholds', hstage.weaken, fun bytes hbytes => ?_, hfailed⟩
  obtain ⟨hg, hlength⟩ := hreplied bytes hbytes
  rw [hg] at hstage
  exact ⟨hlength, hstage⟩

end

/-- Another process has made the instance that is opened. -/
def squatted : PipeCallAction → PipeCallChoice
  | .createFile _ => .opens [9]
  | _ => .succeeds

theorem secure_call_squatted : ∃ r s',
    (spdCallNamedPipeSecurelyEx [1] 16 0 false (fun _ => []) 22).Runs
      (PipeCallAction.Exec fun _ => [18]) ⟨.empty, fun _ => ([], false), []⟩ r s' ∧
      s'.messages.length = 0 ∧
      SecurelyCalled (requiredSid (fun _ => [18]) (fun _ => []) 22) false [1] 16 []
        ⟨.empty, fun _ => ([], false), []⟩ s' r := by
  have hfinal : ((spdCallNamedPipeSecurelyEx [1] 16 0 false (fun _ => []) 22).alone
      (fun s a => a.exec (fun _ => [18]) s (squatted a)) ⟨.empty, fun _ => ([], false), []⟩).map
      (fun x => x.1.messages.length) = some 0 := by decide +kernel
  obtain ⟨⟨s', r⟩, halone, hlength⟩ := Option.map_eq_some_iff.mp hfinal
  have hrun : (spdCallNamedPipeSecurelyEx [1] 16 0 false (fun _ => []) 22).Runs
      (PipeCallAction.Exec fun _ => [18]) ⟨.empty, fun _ => ([], false), []⟩ r s' :=
    Prog.runs_of_alone (fun {_ a _ _} h => ⟨squatted a, h⟩) halone
  exact ⟨r, s', hrun, hlength, secure_call hrun .empty⟩

end Winspd.Proofs
