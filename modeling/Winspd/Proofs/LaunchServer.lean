import Winspd.Proofs.LaunchStages

/-!
# Requests to the launcher

What the thread of the pipe does for one client it does not do for another. It reads
one message of a client at most, lets `SvcPipeTransact` answer it with the client's
own token, and the reply goes to this client or to nobody (`launch_served`).

`SvcPipeTransact` is called as the service, not as the client. In other places the
thread can still be the client: when `OpenThreadToken` fails, the loop goes on without
`RevertToSelf` (`launch_impersonates`).

`ServedBy` is the invariant. Each list of the history is part of the one in front of
it, together with what the thread has in hand: what was read and the message in the
pipe are of what was sent, what was asked and the message without an answer are of
what was read, and what was delivered and the answer that is not written yet are of
what was answered. So a step hands one thing on, from one list to the next, and
clients who come and go at any time can only take something away.
-/

namespace Winspd.Proofs

open Winspd.Lib Winspd.Shared Winspd.Launcher

variable {g : ServiceAccount} {io : PipeIo} {mem : Nat → UInt8} {fuel : Nat}
  {m : LaunchMessage} {token : ClientToken} {b : Option Nat} {own : Bool}

/-! ## Who is served -/

/-- A call of `SvcPipeTransact`, with the token and the message, and its reply. -/
structure LaunchAsked where
  client : Nat
  asked : List UInt8
  reply : List UInt8

namespace LaunchAsked

def request (x : LaunchAsked) : LaunchMessage := ⟨x.client, x.asked⟩

def answer (x : LaunchAsked) : LaunchMessage := ⟨x.client, x.reply⟩

end LaunchAsked

/-- What the history says: what clients have sent, what of it was read, and how it was
answered. -/
structure LaunchLog where
  sent : List LaunchMessage
  read : List LaunchMessage
  asked : List LaunchAsked

abbrev LaunchPipeEvent := ThreadEvent LaunchPipeAction LaunchPipeAction.Answer

def logStep (v : LaunchLog) : LaunchPipeEvent → LaunchLog
  | .act (.clientSend bytes) client => { v with sent := v.sent ++ [⟨client, bytes⟩] }
  | .act (.getOverlappedResult .read) (.ok message) => { v with read := v.read ++ [message] }
  | .act (.svcPipeTransact token mem size) reply =>
      { v with asked := v.asked ++ [⟨token.client, replyBytes (mem, size), replyBytes reply⟩] }
  | _ => v

def launchLog (ls : List LaunchPipeEvent) : LaunchLog := ls.foldl logStep ⟨[], [], []⟩

abbrev LaunchPipeThreads :=
  Threads LaunchPipeAction LaunchPipeAction.Answer LaunchPipe (Option ServiceAccount)

inductive ClientEntry : LaunchPipeProg Unit → Prop
  | clientOpen : ClientEntry (launchAction .clientOpen)
  | clientSend (bytes : List UInt8) :
      ClientEntry (launchAction (.clientSend bytes) >>= fun _ => pure ())
  | clientClose : ClientEntry (launchAction .clientClose)
  | setSvcEvent : ClientEntry (launchAction .setSvcEvent)

abbrev LaunchPipeStep : LaunchPipeThreads → LaunchPipeEvent → LaunchPipeThreads → Prop :=
  Threads.Step serviceRules LaunchPipeAction.Exec ClientEntry

def launchPipeInit (fuel : Nat) (mem : Nat → UInt8) : LaunchPipeThreads :=
  ⟨.init, [⟨svcPipeServer fuel mem, some .start⟩]⟩

theorem clientEntry_safe {p : LaunchPipeProg Unit} (h : ClientEntry p) :
    serviceRules.Safe (fun _ => serviceRules.Settled) serviceRules.start p := by
  cases h <;> exact ⟨trivial, fun _ _ _ hx => by cases hx⟩

/-! ## The invariant -/

/-- A client has opened the pipe, and it was not disconnected. -/
def InUse (pipe : PipeState) : Prop := pipe = .connected ∨ pipe = .closed

def ServiceStage.Knows (v : LaunchLog) (s : LaunchPipe) : ServiceStage → Prop
  -- nothing was read of the client at the other end
  | idle => InUse s.pipe → ∀ m ∈ v.read, m.client < s.client
  | received m => s.reader = some m.client
  | impersonating m => s.impersonated = some m.client
  | _ => True

theorem ServiceStage.Knows.keep {v v' : LaunchLog} {s s' : LaunchPipe} {stage : ServiceStage}
    (h : stage.Knows v s) (hread : v'.read = v.read) (hclient : s'.client = s.client)
    (hopen : InUse s'.pipe → InUse s.pipe) (hreader : s'.reader = s.reader)
    (himpersonated : s'.impersonated = s.impersonated) : stage.Knows v' s' := by
  cases stage with
  | idle =>
      intro hin m hm
      rw [hclient]
      exact h (hopen hin) m (hread ▸ hm)
  | received m => exact hreader.trans h
  | impersonating m => exact himpersonated.trans h
  | opened _ _ | notReverted _ _ | ready _ _ | answered _ _ _ | replying _ _ | served _ => exact h

/-- What the thread knows about its pipe, when the history says `v`. -/
structure ServedBy (v : LaunchLog) (s : LaunchPipe) (g : ServiceAccount) : Prop where
  holds : s.handles.Holds g.holds
  sent : (v.read ++ s.inbox).Sublist v.sent
  asked : (v.asked.map LaunchAsked.request ++ g.stage.unanswered.toList).Sublist v.read
  answered : (s.delivered ++ g.stage.unwritten.toList).Sublist (v.asked.map LaunchAsked.answer)
  ordered : (v.read.map LaunchMessage.client).Pairwise (· < ·)
  known : ∀ m ∈ v.read, m.client ≤ s.client
  inbox : ∀ m ∈ s.inbox, m.client = s.client ∧ InUse s.pipe
  message : ∀ m, g.stage.message = some m → m.client = s.client ∧ InUse s.pipe
  stage : g.stage.Knows v s
  own : s.impersonated.isNone = g.own

theorem ServiceStage.eq_idle {stage : ServiceStage} (h : stage.message = none) :
    stage = .idle := by
  cases stage with
  | idle => rfl
  | _ => cases h

variable {v : LaunchLog} {s s' : LaunchPipe} {stage : ServiceStage} {bytes : List UInt8} {c : Nat}

namespace ServedBy

theorem clientOpen (h : ServedBy v s g) (hpipe : s.pipe = .listening) :
    ServedBy v { s with pipe := .connected, client := s.client + 1, inbox := [] } g := by
  have hlistens : ¬InUse s.pipe := by simp [InUse, hpipe]
  have hidle : g.stage = .idle := by
    cases hm : g.stage.message with
    | none => exact ServiceStage.eq_idle hm
    | some m => exact absurd (h.message m hm).2 hlistens
  refine { h with sent := ?_, known := ?_, inbox := ?_, message := ?_, stage := ?_ }
  · rw [List.append_nil]
    exact (List.sublist_append_left _ _).trans h.sent
  · intro m hm
    exact (h.known m hm).trans (Nat.le_succ _)
  · intro m hm
    cases hm
  · intro m hm
    rw [hidle] at hm
    cases hm
  · rw [hidle]
    intro _ m hm
    exact Nat.lt_succ_of_le (h.known m hm)

theorem clientSend (h : ServedBy v s g) (hpipe : s.pipe = .connected) :
    ServedBy { v with sent := v.sent ++ [⟨s.client, bytes⟩] }
      { s with inbox := s.inbox ++ [⟨s.client, bytes⟩] } g := by
  refine { h with sent := ?_, inbox := ?_, stage := h.stage.keep rfl rfl id rfl rfl }
  · show (v.read ++ (s.inbox ++ [LaunchMessage.mk s.client bytes])).Sublist
      (v.sent ++ [LaunchMessage.mk s.client bytes])
    rw [← List.append_assoc]
    exact h.sent.append (List.Sublist.refl _)
  · intro m hm
    rcases List.mem_append.mp hm with hm | hm
    · exact h.inbox m hm
    · rw [List.mem_singleton.mp hm]
      exact ⟨rfl, .inl hpipe⟩

theorem clientClose (h : ServedBy v s g) (hpipe : s.pipe = .connected) :
    ServedBy v { s with pipe := .closed } g := by
  exact { h with
    inbox := fun m hm => ⟨(h.inbox m hm).1, .inr rfl⟩
    message := fun m hm => ⟨(h.message m hm).1, .inr rfl⟩
    stage := h.stage.keep rfl rfl (fun _ => .inl hpipe) rfl rfl }

theorem client (h : ServedBy v s g) {a : LaunchPipeAction} {r : a.Answer} (ha : ClientAction a)
    (hexec : a.Exec s r s') : ServedBy (logStep v (.act a r)) s' g := by
  obtain ⟨choice, hexec⟩ := hexec
  cases a with
  | clientOpen =>
      obtain ⟨hpipe, heq⟩ := Option.ite_none_right_eq_some.mp hexec
      cases heq
      exact h.clientOpen hpipe
  | clientSend bytes =>
      obtain ⟨hpipe, heq⟩ := Option.ite_none_right_eq_some.mp hexec
      cases heq
      exact h.clientSend hpipe
  | clientClose =>
      obtain ⟨hpipe, heq⟩ := Option.ite_none_right_eq_some.mp hexec
      cases heq
      exact h.clientClose hpipe
  | setSvcEvent =>
      cases hexec
      exact { h with stage := h.stage.keep rfl rfl id rfl rfl }
  | _ => cases ha

theorem alloc (h : ServedBy v s ⟨stage, none, own⟩) :
    ServedBy v { s with handles := s.handles.acquire.1 }
      ⟨stage, some s.handles.acquire.2, own⟩ := by
  refine { h with holds := ?_ }
  refine h.holds.acquire.perm ?_
  show (s.handles.acquire.2 :: ((stage.token.map ClientToken.handle).toList ++ [])).Perm
    ((stage.token.map ClientToken.handle).toList ++ [s.handles.acquire.2])
  rw [List.append_nil]
  exact (List.perm_append_singleton _ _).symm

theorem free (h : ServedBy v s ⟨stage, some c, own⟩) :
    ServedBy v { s with handles := s.handles.release c } ⟨stage, none, own⟩ := by
  refine { h with holds := ?_ }
  have hperm : ((stage.token.map ClientToken.handle).toList ++ [c]).Perm
      (c :: ((stage.token.map ClientToken.handle).toList ++ [])) := by
    rw [List.append_nil]
    exact List.perm_append_singleton _ _
  exact (h.holds.perm hperm).release

theorem connect (h : ServedBy v s ⟨.idle, b, own⟩) :
    ServedBy v { s with pipe := s.pipe.connect } ⟨.idle, b, own⟩ := by
  have hsame : InUse s.pipe → s.pipe.connect = s.pipe := by
    rintro (hpipe | hpipe) <;> rw [hpipe] <;> rfl
  have hopens : InUse s.pipe.connect → InUse s.pipe := by
    cases hpipe : s.pipe with
    | disconnected => rintro (h | h) <;> cases h
    | _ => exact id
  refine { h with
    inbox := ?_, message := ?_, stage := h.stage.keep rfl rfl hopens rfl rfl }
  · intro m hm
    obtain ⟨hclient, hopen⟩ := h.inbox m hm
    exact ⟨hclient, (hsame hopen).symm ▸ hopen⟩
  · intro m hm
    cases hm

theorem read {inbox : List LaunchMessage} (h : ServedBy v s ⟨.idle, b, own⟩)
    (hinbox : s.inbox = m :: inbox) :
    ServedBy { v with read := v.read ++ [m] } { s with inbox := inbox, reader := some m.client }
      ⟨.received m, b, own⟩ := by
  obtain ⟨hclient, hopen⟩ := h.inbox m (by rw [hinbox]; exact List.mem_cons_self)
  have hfresh := h.stage hopen
  refine { h with
    sent := ?_, asked := ?_, ordered := ?_, known := ?_, inbox := ?_, message := ?_, stage := rfl }
  · show (v.read ++ [m] ++ inbox).Sublist v.sent
    rw [List.append_assoc, List.singleton_append, ← hinbox]
    exact h.sent
  · have hasked : (v.asked.map LaunchAsked.request ++ []).Sublist v.read := h.asked
    rw [List.append_nil] at hasked
    exact hasked.append (List.Sublist.refl _)
  · rw [List.map_append, List.pairwise_append]
    refine ⟨h.ordered, List.pairwise_singleton _ _, ?_⟩
    intro c hc c' hc'
    obtain ⟨x, hx, rfl⟩ := List.mem_map.mp hc
    rw [List.mem_singleton.mp hc', hclient]
    exact hfresh x hx
  · intro x hx
    rcases List.mem_append.mp hx with hx | hx
    · exact h.known x hx
    · rw [List.mem_singleton.mp hx]
      exact hclient.le
  · intro x hx
    exact h.inbox x (by rw [hinbox]; exact List.mem_cons_of_mem m hx)
  · intro x hx
    cases hx
    exact ⟨hclient, hopen⟩

theorem impersonate (h : ServedBy v s ⟨.received m, b, own⟩) (hreader : s.reader = some c) :
    ServedBy v { s with impersonated := some c } ⟨.impersonating m, b, false⟩ := by
  obtain rfl : c = m.client := Option.some.inj (hreader.symm.trans h.stage)
  exact { h with
    stage := rfl
    own := rfl }

theorem openToken (h : ServedBy v s ⟨.impersonating m, b, own⟩) :
    ServedBy v { s with handles := s.handles.acquire.1 }
      ⟨.opened m ⟨s.handles.acquire.2, c⟩, b, own⟩ :=
  { h with
    holds := h.holds.acquire
    stage := trivial }

theorem giveUp (h : ServedBy v s ⟨.impersonating m, b, own⟩) :
    ServedBy v s ⟨.served m, b, own⟩ :=
  { h with
    asked := ((List.Sublist.refl _).append (List.nil_sublist _)).trans h.asked
    stage := trivial }

theorem revert (h : ServedBy v s ⟨.opened m token, b, own⟩) :
    ServedBy v { s with impersonated := none } ⟨.ready m token, b, true⟩ :=
  { h with
    stage := trivial
    own := rfl }

theorem notRevert (h : ServedBy v s ⟨.opened m token, b, own⟩) :
    ServedBy v s ⟨.notReverted m token, b, own⟩ :=
  { h with
    asked := ((List.Sublist.refl _).append (List.nil_sublist _)).trans h.asked
    stage := trivial }

theorem closeNotReverted (h : ServedBy v s ⟨.notReverted m token, b, own⟩) :
    ServedBy v { s with handles := s.handles.release token.handle } ⟨.served m, b, own⟩ :=
  { h with holds := h.holds.release, stage := trivial }

theorem transact (h : ServedBy v s ⟨.ready m token, b, own⟩)
    (hclient : token.client = m.client) :
    ServedBy { v with asked := v.asked ++ [⟨token.client, m.bytes, bytes⟩] } s
      ⟨.answered m token bytes, b, own⟩ := by
  refine { h with asked := ?_, answered := ?_, stage := trivial }
  · rw [List.map_append, hclient]
    show (v.asked.map LaunchAsked.request ++ [m] ++ []).Sublist v.read
    rw [List.append_nil]
    exact h.asked
  · have hanswered : (s.delivered ++ []).Sublist (v.asked.map LaunchAsked.answer) := h.answered
    rw [List.append_nil] at hanswered
    rw [List.map_append, hclient]
    exact hanswered.append (List.Sublist.refl _)

theorem closeAnswered (h : ServedBy v s ⟨.answered m token bytes, b, own⟩) :
    ServedBy v { s with handles := s.handles.release token.handle }
      ⟨.replying m bytes, b, own⟩ :=
  { h with
    holds := h.holds.release
    stage := trivial }

/-- `WriteFile` has failed. -/
theorem notWritten (h : ServedBy v s ⟨.replying m bytes, b, own⟩) :
    ServedBy v s ⟨.served m, b, own⟩ :=
  { h with
    answered := ((List.Sublist.refl _).append (List.nil_sublist _)).trans h.answered
    stage := trivial }

theorem write (h : ServedBy v s ⟨.replying m bytes, b, own⟩) :
    ServedBy v { s with delivered := s.delivered ++ [⟨s.client, bytes⟩] }
      ⟨.served m, b, own⟩ := by
  refine { h with answered := ?_, stage := trivial }
  · show (s.delivered ++ [LaunchMessage.mk s.client bytes] ++ []).Sublist _
    rw [List.append_nil, ← (h.message m rfl).1]
    exact h.answered

theorem disconnect (h : ServedBy v s ⟨stage, b, own⟩) (hover : stage.Over) :
    ServedBy v s.disconnectPipe ⟨.idle, b, own⟩ := by
  obtain ⟨htoken, hclient⟩ := hover
  have hholds : s.handles.Holds (ServiceAccount.holds ⟨.idle, b, own⟩) := by
    have hstage := h.holds
    unfold ServiceAccount.holds at hstage
    rw [htoken] at hstage
    exact hstage
  have hasked : (v.asked.map LaunchAsked.request ++ []).Sublist v.read :=
    ((List.Sublist.refl _).append (List.nil_sublist _)).trans h.asked
  have hanswered : (s.delivered ++ []).Sublist (v.asked.map LaunchAsked.answer) :=
    ((List.Sublist.refl _).append (List.nil_sublist _)).trans h.answered
  have hmessage : ∀ m, ServiceStage.message .idle = some m → m.client = s.client ∧
      InUse s.pipe :=
    fun m hm => by cases hm
  unfold LaunchPipe.disconnectPipe
  split
  · next hpipe =>
      have hlistens : ¬InUse s.pipe := by simp [InUse, hpipe]
      exact { h with
        holds := hholds
        asked := hasked
        answered := hanswered
        message := hmessage
        stage := fun hopen => absurd hopen hlistens }
  · have hclosed : ¬InUse .disconnected := by simp [InUse]
    refine { h with
      holds := hholds, sent := ?_, asked := hasked, answered := hanswered, inbox :=
        ?_, message := ?_
      stage := fun hopen => absurd hopen hclosed }
    · rw [List.append_nil]
      exact (List.sublist_append_left _ _).trans h.sent
    · intro m hm
      cases hm
    · intro m hm
      cases hm

theorem startIo {error r : UInt32} (h : ServedBy v s g) (hmay : g.May (.start io))
    (hexec : LaunchPipeAction.startIo s error io = some (s', r)) :
    ServedBy v s' (g.next (.start io) r) := by
  obtain ⟨stage, b, own⟩ := g
  cases io with
  | connect =>
      cases (show stage = .idle from hmay)
      simp only [LaunchPipeAction.startIo] at hexec
      split at hexec
      · cases hexec
        exact h.connect
      · split at hexec
        · cases hexec
        · cases hexec
          exact h
  | read =>
      cases hexec
      exact h
  | write bytes =>
      obtain ⟨m, hstage⟩ := hmay
      cases (show stage = .replying m bytes from hstage)
      simp only [LaunchPipeAction.startIo] at hexec
      split at hexec
      · obtain ⟨-, heq⟩ := Option.ite_none_right_eq_some.mp hexec
        cases heq
        exact h.write
      · cases hexec
        exact h.notWritten

theorem finishIo {r : io.Result} (h : ServedBy v s g) (hmay : g.May (.getOverlappedResult io))
    (hexec : LaunchPipeAction.finishIo s io = some (s', r)) :
    ServedBy (logStep v (.act (.getOverlappedResult io) (.ok r))) s'
      (g.next (.getOverlappedResult io) (.ok r)) := by
  obtain ⟨stage, b, own⟩ := g
  cases io with
  | connect =>
      obtain ⟨-, heq⟩ := Option.ite_none_right_eq_some.mp hexec
      cases heq
      exact h
  | read =>
      cases (show stage = .idle from hmay)
      simp only [LaunchPipeAction.finishIo] at hexec
      split at hexec
      · cases hexec
      · next m inbox hinbox =>
          obtain ⟨-, heq⟩ := Option.ite_none_right_eq_some.mp hexec
          cases heq
          exact h.read hinbox
  | write bytes =>
      cases hexec
      exact h

theorem act (h : ServedBy v s g) {a : LaunchPipeAction} {r : a.Answer} (hmay : g.May a)
    (hexec : a.Exec s r s') : ServedBy (logStep v (.act a r)) s' (g.next a r) ∧ g.Told a r := by
  obtain ⟨choice, hexec⟩ := hexec
  obtain ⟨stage, b, own⟩ := g
  cases a with
  | memAlloc =>
      cases (show b = none from hmay.2)
      cases choice with
      | ends error =>
          simp only [LaunchPipeAction.exec] at hexec
          split at hexec
          · cases hexec
            exact ⟨h.alloc, trivial⟩
          · cases hexec
            exact ⟨h, trivial⟩
      | _ => cases hexec
  | memFree c =>
      cases (show b = some c from hmay.2)
      cases hexec
      exact ⟨h.free, trivial⟩
  | start io =>
      cases choice with
      | ends error => exact ⟨h.startIo hmay hexec, trivial⟩
      | _ => cases hexec
  | getOverlappedResult io =>
      cases choice with
      | ends error =>
          simp only [LaunchPipeAction.exec] at hexec
          split at hexec
          · obtain ⟨⟨s₁, r⟩, hfinish, heq⟩ := Option.map_eq_some_iff.mp hexec
            cases heq
            exact ⟨h.finishIo hmay hfinish, trivial⟩
          · cases hexec
            cases io with
            | connect | read | write _ => exact ⟨h, trivial⟩
      | _ => cases hexec
  | disconnectNamedPipe =>
      cases hexec
      exact ⟨h.disconnect hmay, trivial⟩
  | impersonateNamedPipeClient =>
      obtain ⟨m, hstage⟩ := hmay
      cases (show stage = .received m from hstage)
      cases choice with
      | ends error =>
          simp only [LaunchPipeAction.exec] at hexec
          split at hexec
          · obtain ⟨c, hreader, heq⟩ := Option.map_eq_some_iff.mp hexec
            cases heq
            exact ⟨h.impersonate hreader, trivial⟩
          · cases hexec
            exact ⟨h, trivial⟩
      | _ => cases hexec
  | openThreadToken =>
      obtain ⟨m, hstage⟩ := hmay
      cases (show stage = .impersonating m from hstage)
      cases choice with
      | ends error =>
          simp only [LaunchPipeAction.exec] at hexec
          split at hexec
          · obtain ⟨c, himpersonated, heq⟩ := Option.map_eq_some_iff.mp hexec
            cases heq
            refine ⟨h.openToken, ?_⟩
            intro m' hm'
            cases hm'
            exact Option.some.inj (himpersonated.symm.trans h.stage)
          · cases hexec
            exact ⟨h.giveUp, trivial⟩
      | _ => cases hexec
  | revertToSelf =>
      obtain ⟨m, token, hstage⟩ := hmay
      cases (show stage = .opened m token from hstage)
      cases choice with
      | ends error =>
          simp only [LaunchPipeAction.exec] at hexec
          split at hexec
          · cases hexec
            exact ⟨h.revert, trivial⟩
          · cases hexec
            exact ⟨h.notRevert, trivial⟩
      | _ => cases hexec
  | closeHandle token =>
      cases token with
      | none =>
          cases hexec
          exact ⟨h, trivial⟩
      | some token =>
          cases hexec
          rcases hmay with ⟨m, hstage⟩ | ⟨m, reply, hstage⟩
          · cases (show stage = .notReverted m token from hstage)
            exact ⟨h.closeNotReverted, trivial⟩
          · cases (show stage = .answered m token reply from hstage)
            exact ⟨h.closeAnswered, trivial⟩
  | svcPipeTransact token mem size =>
      obtain ⟨m, hstage, -, hclient, hbytes⟩ := hmay
      cases (show stage = .ready m token from hstage)
      cases choice with
      | replies mem' size' =>
          cases hexec
          let reply := replyBytes (mem', size')
          have hasked :
              ServedBy { v with asked := v.asked ++ [⟨token.client, m.bytes, reply⟩] } s
              ⟨.answered m token reply, b, own⟩ := h.transact hclient
          rw [← hbytes] at hasked
          exact ⟨hasked, trivial⟩
      | _ => cases hexec
  | waitForMultipleObjects =>
      cases choice with
      | ends error =>
          cases hexec
          exact ⟨h, trivial⟩
      | stops =>
          obtain ⟨-, heq⟩ := Option.ite_none_right_eq_some.mp hexec
          cases heq
          exact ⟨h, trivial⟩
      | replies _ _ => cases hexec
  | cancelIoEx | svcInstanceStopAndWaitAll | setServiceStatus _ =>
      cases hexec
      exact ⟨h, trivial⟩
  | clientOpen | clientSend _ | clientClose | setSvcEvent => cases hmay
  | wait => cases hexec

end ServedBy

/-- What a call says that is made as the client, or ends it. -/
def tokenCall : LaunchPipeEvent → Option Bool
  | .act .openThreadToken token => some token.isSome
  | .act .revertToSelf reverted => some reverted
  | _ => none

/-- Where the thread is a client: between two calls, or since one of them has failed. -/
def ServiceAccount.Turns (g : ServiceAccount) (ls : List LaunchPipeEvent) : Prop :=
  g.own = false ↔ g.stage.asClient = true ∨ LastIs tokenCall ls false

variable {ls : List LaunchPipeEvent} {w w' : LaunchPipeThreads} {ev : LaunchPipeEvent}
  {gs gs' : List (Option ServiceAccount)}

theorem ServiceAccount.Turns.keep (h : g.Turns ls) (hev : tokenCall ev = none) :
    g.Turns (ls ++ [ev]) := h.trans (or_congr_right (lastIs_snoc_none hev).symm)

theorem ServiceAccount.Turns.act (h : g.Turns ls) {a : LaunchPipeAction} {r : a.Answer}
    (hmay : g.May a) : (g.next a r).Turns (ls ++ [.act a r]) := by
  obtain ⟨stage, b, own⟩ := g
  cases a with
  | openThreadToken =>
      obtain ⟨m, hstage⟩ := hmay
      cases (show stage = .impersonating m from hstage)
      obtain rfl : own = false := h.mpr (.inl rfl)
      cases r with
      | none => exact iff_of_true rfl (.inr (LastIs.last (P := tokenCall) rfl))
      | some token => exact iff_of_true rfl (.inl rfl)
  | revertToSelf =>
      obtain ⟨m, token, hstage⟩ := hmay
      cases (show stage = .opened m token from hstage)
      obtain rfl : own = false := h.mpr (.inl rfl)
      cases r with
      | false => exact iff_of_true rfl (.inr (LastIs.last (P := tokenCall) rfl))
      | true =>
          refine iff_of_false Bool.noConfusion ?_
          rintro (hclient | hlast)
          · cases hclient
          · cases (lastIs_snoc_some (P := tokenCall) rfl).mp hlast
  | impersonateNamedPipeClient =>
      obtain ⟨m, hstage⟩ := hmay
      cases (show stage = .received m from hstage)
      cases r with
      | false => exact h.keep rfl
      | true => exact iff_of_true rfl (.inl rfl)
  | start io =>
      cases io with
      | write bytes =>
          obtain ⟨m, hstage⟩ := hmay
          cases (show stage = .replying m bytes from hstage)
          exact h.keep rfl
      | connect | read => exact h.keep rfl
  | getOverlappedResult io =>
      cases io with
      | read =>
          cases (show stage = .idle from hmay)
          cases r with
          | ok _ | error _ => exact h.keep rfl
      | connect | write _ => exact h.keep rfl
  | disconnectNamedPipe =>
      have hover : stage.asClient = false := hmay.2
      refine (h.keep rfl).trans (or_congr_left ?_)
      show stage.asClient = true ↔ ServiceStage.asClient .idle = true
      rw [hover]
      rfl
  | closeHandle token =>
      cases token with
      | none => exact h.keep rfl
      | some token =>
          rcases hmay with ⟨m, hstage⟩ | ⟨m, reply, hstage⟩
          · cases (show stage = .notReverted m token from hstage)
            exact h.keep rfl
          · cases (show stage = .answered m token reply from hstage)
            exact h.keep rfl
  | svcPipeTransact token mem size =>
      obtain ⟨m, hstage, -⟩ := hmay
      cases (show stage = .ready m token from hstage)
      exact h.keep rfl
  | memAlloc | memFree _ | waitForMultipleObjects | cancelIoEx | svcInstanceStopAndWaitAll
  | setServiceStatus _ | clientOpen | clientSend _ | clientClose | setSvcEvent | wait =>
      exact h.keep rfl

/-- The invariant. The thread can have left, with an account that is settled. -/
def LaunchServeInv (ls : List LaunchPipeEvent) (s : LaunchPipe)
    (gs : List (Option ServiceAccount)) :
    Prop :=
  ∃ g, ServedBy (launchLog ls) s g ∧ g.Turns ls ∧
    (gs.filterMap id = [g] ∨ gs.filterMap id = [] ∧ g.holds = [])

theorem launchLog_snoc : launchLog (ls ++ [ev]) = logStep (launchLog ls) ev := by
  rw [launchLog, List.foldl_append]
  rfl

namespace LaunchServeInv

theorem perm (hperm : gs.Perm gs') (h : LaunchServeInv ls s gs) : LaunchServeInv ls s gs' := by
  obtain ⟨g, hserved, hturns, hone⟩ := h
  have hfilter := hperm.filterMap id
  refine ⟨g, hserved, hturns, ?_⟩
  rcases hone with hone | ⟨hnone, hsettled⟩
  · rw [hone] at hfilter
    exact .inl (List.singleton_perm.mp hfilter).symm
  · rw [hnone] at hfilter
    exact .inr ⟨List.nil_perm.mp hfilter, hsettled⟩

theorem keep (h : LaunchServeInv ls s gs) (hlog : logStep (launchLog ls) ev = launchLog ls)
    (hturn : tokenCall ev = none) (hgs : gs'.filterMap id = gs.filterMap id) :
    LaunchServeInv (ls ++ [ev]) s gs' := by
  obtain ⟨g, hserved, hturns, hone⟩ := h
  refine ⟨g, ?_, hturns.keep hturn, ?_⟩
  · rw [launchLog_snoc, hlog]
    exact hserved
  · rw [hgs]
    exact hone

theorem leave {g : Option ServiceAccount} (h : LaunchServeInv ls s (g :: gs))
    (hsettled : serviceRules.Settled g) : LaunchServeInv (ls ++ [.leave]) s gs := by
  cases g with
  | none => exact h.keep rfl rfl rfl
  | some x =>
      obtain ⟨g, hserved, hturns, hone | ⟨hnone, -⟩⟩ := h
      · obtain ⟨rfl, hnil⟩ := List.cons.inj hone
        refine ⟨x, ?_, hturns.keep rfl, .inr ⟨hnil, hsettled x rfl⟩⟩
        rw [launchLog_snoc]
        exact hserved
      · cases hnone

theorem act {g : Option ServiceAccount} {a : LaunchPipeAction} {r : a.Answer}
    (h : LaunchServeInv ls s (g :: gs)) (hmay : serviceRules.May g a) (hexec : a.Exec s r s') :
    LaunchServeInv (ls ++ [.act a r]) s' (serviceRules.track a r g :: gs) ∧
      serviceRules.Answers g a r := by
  obtain ⟨x, hserved, hturns, hone⟩ := h
  unfold LaunchServeInv
  rw [launchLog_snoc]
  cases g with
  | none =>
      have hquiet : tokenCall (.act a r) = none := by
        cases a with
        | clientOpen | clientSend _ | clientClose | setSvcEvent => rfl
        | _ => cases hmay
      exact ⟨⟨x, hserved.client hmay hexec, hturns.keep hquiet, hone⟩,
        fun y hy => by cases hy⟩
  | some y =>
      rcases hone with hone | ⟨hnone, -⟩
      · obtain ⟨rfl, hnil⟩ := List.cons.inj hone
        obtain ⟨hserved', htold⟩ := hserved.act hmay hexec
        refine ⟨⟨_, hserved', hturns.act hmay, .inl ?_⟩, ?_⟩
        · exact congrArg (List.cons _) hnil
        · intro z hz
          cases hz
          exact htold
      · cases hnone

end LaunchServeInv

theorem servedBy_start : ServedBy (launchLog []) .init .start where
  holds := .empty
  sent := List.nil_sublist _
  asked := List.nil_sublist _
  answered := List.nil_sublist _
  ordered := .nil
  known _ hm := absurd hm List.not_mem_nil
  inbox _ hm := absurd hm List.not_mem_nil
  message _ hm := by cases hm
  stage _ _ hm := absurd hm List.not_mem_nil
  own := rfl

theorem launchServe_start : LaunchServeInv [] .init [some .start] := by
  refine ⟨.start, servedBy_start, iff_of_false Bool.noConfusion ?_, .inl rfl⟩
  rintro (hclient | hlast)
  · cases hclient
  · cases lastIs_iff.mp hlast

theorem launchServe_verified (hrun : Run LaunchPipeStep (launchPipeInit fuel mem) ls w) :
    Threads.Verified serviceRules (LaunchServeInv ls) w := by
  refine hrun.history (I := fun ls w => Threads.Verified serviceRules (LaunchServeInv ls) w)
    ⟨launchServe_start, ?_⟩ fun _ hw hstep => ?_
  · intro t ht
    obtain rfl := List.mem_singleton.mp ht
    exact svcPipeServer_safe
  · exact Threads.Verified.step_to (C := fun _ _ => True) (fun hp h => h.perm hp)
      (fun hp h => h.perm hp) (fun hev h => by subst hev; exact h.keep rfl rfl rfl)
      (fun hev hs h => by subst hev; exact h.leave hs) clientEntry_safe
      (fun hev _ _ hmay h hexec => by subst hev; exact h.act hmay hexec) hw trivial hstep

/-! ## Every run -/

/-- What the history says, and what was written to the clients. -/
structure LaunchServed (ls : List LaunchPipeEvent) (w : LaunchPipeThreads) : Prop where
  read : (launchLog ls).read.Sublist (launchLog ls).sent
  asked : ((launchLog ls).asked.map LaunchAsked.request).Sublist (launchLog ls).read
  answered : w.shared.delivered.Sublist ((launchLog ls).asked.map LaunchAsked.answer)
  readOnce : ((launchLog ls).read.map LaunchMessage.client).Pairwise (· < ·)
  repliedOnce : (w.shared.delivered.map LaunchMessage.client).Pairwise (· < ·)
  /-- The buffer and the tokens, when the thread has left. -/
  released : (∀ t ∈ w.threads, t.account = none) → AllFreed w.shared.handles.events

theorem clients_sublist {read delivered : List LaunchMessage} {asked : List LaunchAsked}
    (hasked : (asked.map LaunchAsked.request).Sublist read)
    (hanswered : delivered.Sublist (asked.map LaunchAsked.answer)) :
    (delivered.map LaunchMessage.client).Sublist (read.map LaunchMessage.client) := by
  have hreplied := hanswered.map LaunchMessage.client
  have hrequested := hasked.map LaunchMessage.client
  rw [List.map_map] at hreplied hrequested
  exact hreplied.trans hrequested

/-- In every run of the launcher's pipe what is read was sent, what is asked was read and
what is delivered is the answer to what was asked, each in its order and once for each
client. -/
theorem launch_served (hrun : Run LaunchPipeStep (launchPipeInit fuel mem) ls w) :
    LaunchServed ls w := by
  obtain ⟨g, h, -, hone⟩ := (launchServe_verified hrun).inv
  have hasked := (List.sublist_append_left _ _).trans h.asked
  have hanswered := (List.sublist_append_left _ _).trans h.answered
  refine ⟨?_, hasked, hanswered, h.ordered, ?_, fun hleft => ?_⟩
  · exact (List.sublist_append_left _ _).trans h.sent
  · exact h.ordered.sublist (clients_sublist hasked hanswered)
  · have hnone : w.accounts.filterMap id = [] := by
      rw [List.filterMap_eq_nil_iff]
      intro x hx
      obtain ⟨t, ht, rfl⟩ := List.mem_map.mp hx
      exact hleft t ht
    rw [hnone] at hone
    rcases hone with hone | ⟨-, hsettled⟩
    · cases hone
    · have hheld := h.holds.owns
      rwa [hsettled, owns_nil_iff] at hheld

/-! ## A client -/

abbrev LaunchMoves := List (LaunchChoice × Threads.Move ClientEntry)

/-- The server takes so many steps, when it is the only thread. -/
def serverTurns (k : Nat) : LaunchMoves := List.replicate k (.ends 0, .turn 0)

/-- A client's program, from its beginning to its end. -/
def clientTurns {p : LaunchPipeProg Unit} (h : ClientEntry p) : LaunchMoves :=
  [(.ends 0, .enter p h), (.ends 0, .turn 0), (.ends 0, .turn 0)]

theorem launchPlays_run {ms : LaunchMoves}
    (h : Threads.plays serviceRules (fun c s a => a.exec s c) (fun _ _ _ => true) []
      (launchPipeInit fuel mem) ms = some (ls, w)) :
    Run LaunchPipeStep (launchPipeInit fuel mem) ls w :=
  RunWhen.run (C := fun _ _ _ => True)
    (Threads.plays_run (fun c _ _ _ _ h => ⟨c, h⟩) (fun _ _ _ _ => trivial) .nil h)

/-- A client opens the pipe and writes a message, and the thread has read it. -/
def asks (bytes : List UInt8) : LaunchMoves :=
  serverTurns 2 ++ clientTurns .clientOpen ++ serverTurns 2 ++ clientTurns (.clientSend bytes) ++
    serverTurns 3

/-- It is answered, and then the thread is stopped. -/
def asksAndStops : LaunchMoves :=
  asks [0x4c, 0] ++ serverTurns 3 ++ [(.replies (fun _ => 0x24) 2, .turn 0)] ++ serverTurns 6 ++
    clientTurns .setSvcEvent ++ [(.stops, .turn 0), (.ends 0, .turn 0), (.ends 1, .turn 0)] ++
    serverTurns 4

theorem launch_served_stops : ∃ ls w, Run LaunchPipeStep (launchPipeInit 2 fun _ => 0) ls w ∧
    w.shared.delivered = [⟨1, [0x24, 0x24]⟩] ∧ w.threads.length = 0 ∧
    LaunchServed ls w := by
  have hfinal : (Threads.plays serviceRules (fun c s a => a.exec s c) (fun _ _ _ => true) []
      (launchPipeInit 2 fun _ => 0) asksAndStops).map
      (fun x => (x.2.shared.delivered, x.2.threads.length)) =
      some ([⟨1, [0x24, 0x24]⟩], 0) := by rfl
  obtain ⟨⟨ls, w⟩, hplays, hfinal⟩ := Option.map_eq_some_iff.mp hfinal
  rw [Prod.mk.injEq] at hfinal
  have hrun := launchPlays_run hplays
  exact ⟨ls, w, hrun, hfinal.1, hfinal.2, launch_served hrun⟩

theorem asClient_of_may {a : LaunchPipeAction} (hmay : g.May a) (hopen : a ≠ .openThreadToken)
    (hrevert : a ≠ .revertToSelf) : g.stage.asClient = false := by
  cases a with
  | memAlloc | memFree _ | svcInstanceStopAndWaitAll => exact hmay.1.2
  | start io =>
      cases io with
      | connect | read =>
          rw [show g.stage = .idle from hmay]
          rfl
      | write bytes =>
          obtain ⟨m, hstage⟩ := hmay
          rw [hstage]
          rfl
  | getOverlappedResult io => exact asClient_of_result hmay
  | disconnectNamedPipe => exact hmay.2
  | impersonateNamedPipeClient =>
      obtain ⟨m, hstage⟩ := hmay
      rw [hstage]
      rfl
  | svcPipeTransact token mem size =>
      obtain ⟨m, hstage, -⟩ := hmay
      rw [hstage]
      rfl
  | closeHandle token =>
      cases token with
      | none => exact hmay
      | some token =>
          rcases hmay with ⟨m, hstage⟩ | ⟨m, reply, hstage⟩
          · rw [hstage]
            rfl
          · rw [hstage]
            rfl
  | openThreadToken => exact absurd rfl hopen
  | revertToSelf => exact absurd rfl hrevert
  | clientOpen | clientSend _ | clientClose | setSvcEvent => cases hmay
  | waitForMultipleObjects | cancelIoEx | setServiceStatus _ | wait => exact hmay

/-- Does the thread make the action as a client? It does if the last call has failed that
is made as one, or ends it. -/
theorem launch_impersonates {a : LaunchPipeAction} {r : a.Answer}
    (hrun : Run LaunchPipeStep (launchPipeInit fuel mem) ls w)
    (hstep : LaunchPipeStep w (.act a r) w') (hserver : ¬ClientAction a)
    (hopen : a ≠ .openThreadToken) (hrevert : a ≠ .revertToSelf) :
    (w.shared.impersonated ≠ none ↔ LastIs tokenCall ls false) ∧
      ∀ token mem size, a = .svcPipeTransact token mem size → w.shared.impersonated = none := by
  obtain ⟨g, gs, ⟨x, hserved, hturns, hone⟩, hmay, -, -⟩ :=
    (launchServe_verified hrun).acting (fun hp h => h.perm hp) hstep
  cases g with
  | none => exact absurd hmay hserver
  | some y =>
      rcases hone with hone | ⟨hnone, -⟩
      · obtain ⟨rfl, -⟩ := List.cons.inj hone
        have hself := asClient_of_may hmay hopen hrevert
        have hown := hserved.own
        constructor
        · rw [ServiceAccount.Turns, hself, ← hown] at hturns
          rw [← Option.isSome_iff_ne_none]
          simpa using hturns
        · rintro token mem size rfl
          obtain ⟨m, -, hy, -⟩ := hmay
          rw [show y.own = true from hy] at hown
          exact Option.isNone_iff_eq_none.mp hown
      · cases hnone

/-- `OpenThreadToken` fails. -/
def asksInVain : LaunchMoves :=
  asks [0x4c, 0] ++ serverTurns 1 ++ [(.ends 1, .turn 0)] ++ serverTurns 2

/-- In the next round the thread still is the client. -/
theorem launch_impersonates_inVain :
    ∃ ls w w' r, Run LaunchPipeStep (launchPipeInit 2 fun _ => 0) ls w ∧
      LaunchPipeStep w (.act (.start .connect) r) w' ∧ w.shared.impersonated ≠ none := by
  have hfinal : (Threads.plays serviceRules (fun c s a => a.exec s c) (fun _ _ _ => true) []
      (launchPipeInit 2 fun _ => 0) asksInVain).map
      (fun x => ((x.1.filterMap tokenCall).getLast?, x.2.threads.map fun t => t.prog.next)) =
      some (some false, [some (.start .connect)]) := by rfl
  obtain ⟨⟨ls, w⟩, hplays, hfinal⟩ := Option.map_eq_some_iff.mp hfinal
  obtain ⟨hlast, hnext⟩ := Prod.mk.inj hfinal
  obtain ⟨t, hthreads, hnext⟩ := List.map_eq_singleton_iff.mp hnext
  have hmem : t ∈ w.threads := by
    rw [show w.threads = [t] from hthreads]
    exact List.mem_singleton_self t
  have hexec : (LaunchPipeAction.start .connect).Exec w.shared w.shared.pipe.connectError
      { w.shared with pipe := w.shared.pipe.connect } := ⟨.ends 0, rfl⟩
  have hrun := launchPlays_run hplays
  obtain ⟨w', hstep, -⟩ := Threads.step_of_mem (L := serviceRules) hmem hnext hexec
  refine ⟨ls, w, w', _, hrun, hstep, ?_⟩
  exact (launch_impersonates hrun hstep id LaunchPipeAction.noConfusion
    LaunchPipeAction.noConfusion).1.mpr (lastIs_iff.mpr hlast)

end Winspd.Proofs
