import Winspd.Proofs.Dispatcher
import Winspd.Shared.Dispatcher

/-!
# What dispatcher threads do

What matters of a thread here is its number and how far it has come in
`SpdStorageUnitDispatcherThread`, and of the thread that starts the dispatcher
whether it has stored the count. `chainRules` allows at every point what is
done there and nothing else. All functions are safe.

A stage is a place in the function, with what the thread has found out on the way
there, such as the child it has created. Actions that have nothing to do with the
chain leave the stage as it is, so that the loop over requests is one stage.
-/

namespace Winspd.Proofs

open Winspd.Lib Winspd.Sys Winspd.Shared

/-! ## Actions -/

def DispatcherEffect (s s' : DispatcherUnit) : (a : DispatcherAction) → a.Answer → Prop
  | .storeThread thread, _ => s' = { s with thread := thread }
  | .readThreadCount, count => s' = s ∧ count = s.threadCount
  | .storeThreadCount count, _ => s' = { s with threadCount := count }
  | .createFirstThread, .ok thread => thread = s.next ∧
      s' = { s.newThread .suspended with thread := some s.next, threadId := some s.next }
  | .createFirstThread, .error _ => s' = { s with thread := none }
  | .resumeThread thread, _ =>
      s' = s ∨ s.status thread = .suspended ∧ s' = s.setStatus thread .ready
  | .waitThread thread, _ => s' = s ∧ ∀ t ∈ thread, s.status t = .ended
  | .begin, self => s.status self = .ready ∧ s' = s.setStatus self .running
  | .bufferAlloc _, some dataBuffer => dataBuffer ∉ s.buffers ∧
      s' = { s with buffers := dataBuffer :: s.buffers }
  | .bufferAlloc _, none => s' = s
  | .createThread _, .ok thread => thread = s.next ∧ s' = s.newThread .ready
  | .createThread _, .error _ => s' = s
  | .transact .., (error, req) =>
      (∃ q, error = 0 ∧ req = some ⟨q, ⟨0, s.nextRequest⟩⟩ ∧
        s' = { s with nextRequest := s.nextRequest + 1 }) ∨ req = none ∧ s' = s
  | .operation _ _ request _ _, (complete, _) =>
      s' = { s with pending := if complete then s.pending else request :: s.pending }
  | .exchangeError error, _ => s' = { s with error := if s.error = 0 then error else s.error }
  | .readThreadId _, threadId => s' = s ∧ threadId = s.threadId
  | .bufferFree dataBuffer, _ =>
      s' = { s with buffers := s.buffers.filter fun b => some b ≠ dataBuffer }
  | .endThread self, _ => s' = s.setStatus self .ended
  | .takePending, x =>
      ∃ index, s.pending[index]? = some x.1 ∧
        s' = { s with pending := s.pending.eraseIdx index }
  | .wait, _ => False
  | .readThread, _ | .processAffinityMask, _ | .closeHandle _, _ | .getLastError, _
  | .shutdown _, _ | .finalFlush _, _ | .sendResponse .., _ => s' = s

theorem exec_dispatcherEffect {s s' : DispatcherUnit} {a : DispatcherAction} {r : a.Answer}
    (h : a.Exec s r s') : DispatcherEffect s s' a r := by
  obtain ⟨c, h⟩ := h
  cases a with
  | storeThread | storeThreadCount | exchangeError | bufferFree | endThread | closeHandle
  | shutdown | finalFlush | readThread =>
      cases h
      rfl
  | readThreadCount | readThreadId =>
      cases h
      exact ⟨rfl, rfl⟩
  | processAffinityMask | getLastError | sendResponse =>
      cases c <;> cases h <;> rfl
  | createFirstThread | createThread =>
      cases c with
      | ends error =>
          simp only [DispatcherAction.exec] at h
          split at h <;> cases h
          · exact ⟨rfl, rfl⟩
          · rfl
      | _ => cases h
  | resumeThread thread =>
      cases c with
      | ends error =>
          simp only [DispatcherAction.exec] at h
          split at h
          · cases h
            exact .inl rfl
          · split at h <;> cases h
            · next hsuspended => exact .inr ⟨hsuspended, rfl⟩
            · exact .inl rfl
      | _ => cases h
  | waitThread thread =>
      simp only [DispatcherAction.exec] at h
      split at h
      · next hended =>
          cases h
          refine ⟨rfl, fun t ht => ?_⟩
          rw [Option.mem_def] at ht
          subst ht
          simpa using hended
      · cases h
  | begin =>
      cases c with
      | starts self =>
          simp only [DispatcherAction.exec] at h
          split at h
          · next hready =>
              cases h
              exact ⟨hready, rfl⟩
          · cases h
      | _ => cases h
  | bufferAlloc self =>
      cases c with
      | allocates dataBuffer =>
          simp only [DispatcherAction.exec] at h
          split at h
          · cases h
          · next hfresh =>
              cases h
              exact ⟨hfresh, rfl⟩
      | ends =>
          cases h
          rfl
      | _ => cases h
  | transact =>
      cases c with
      | requests req =>
          cases h
          exact .inl ⟨req, rfl, rfl, rfl⟩
      | ends =>
          cases h
          exact .inr ⟨rfl, rfl⟩
      | _ => cases h
  | operation =>
      cases c with
      | returns =>
          cases h
          rfl
      | _ => cases h
  | takePending =>
      cases c with
      | takes index status dataBuffer =>
          obtain ⟨request, hrequest, heq⟩ := Option.map_eq_some_iff.mp h
          cases heq
          exact ⟨index, hrequest, rfl⟩
      | _ => cases h
  | wait => cases h

/-! ## Accounts -/

/-- How far a dispatcher thread has come. -/
inductive ChainStage
  | begun
  /-- It has a data buffer. -/
  | counting
  /-- It has read a count above one. -/
  | taking
  | storing (count : UInt32)
  | creating
  /-- It is in its loop, and has created this thread. -/
  | running (child : Option Nat)
  /-- It has left the loop, or has not reached it. -/
  | leaving (child : Option Nat)
  /-- It has shut the unit down, and has to wait for this thread. -/
  | shut (child : Nat)
  | waited
  /-- It has found that it is the first thread. -/
  | first
  | flushed
  deriving DecidableEq, Repr

inductive ChainAccount
  | user
  /-- In `SpdStorageUnitStartDispatcher`. -/
  | starting
  /-- There, once the count is stored. -/
  | counted
  | thread (self : Nat) (stage : ChainStage)
  deriving DecidableEq, Repr

namespace ChainAccount

def Outside : ChainAccount → Prop
  | .thread .. => False
  | _ => True

/-- The unit is shut down, and the thread has created this one. -/
def closed (self : Nat) : Option Nat → ChainAccount
  | none => .thread self .waited
  | some child => .thread self (.shut child)

def track : (a : DispatcherAction) → a.Answer → ChainAccount → ChainAccount
  | .storeThreadCount _, _, .starting => .counted
  | .createFirstThread, _, _ => .user
  | .begin, self, _ => .thread self .begun
  | .bufferAlloc _, dataBuffer, .thread self _ =>
      .thread self (if dataBuffer.isSome then .counting else .leaving none)
  | .readThreadCount, count, .thread self .counting =>
      .thread self (if 1 < count then .taking else .running none)
  | .readThreadCount, count, .thread self .taking => .thread self (.storing count)
  | .storeThreadCount _, _, .thread self (.storing _) => .thread self .creating
  | .createThread _, .ok child, .thread self _ => .thread self (.running (some child))
  | .createThread _, .error _, .thread self _ => .thread self (.leaving none)
  | .transact .., r, .thread self (.running child) =>
      .thread self (if r.1 = 0 then .running child else .leaving child)
  | .shutdown _, _, .thread self (.leaving child) => closed self child
  | .waitThread _, _, .thread self (.shut _) => .thread self .waited
  | .readThreadId _, threadId, .thread self _ =>
      .thread self (if threadId = some self then .first else .waited)
  | .finalFlush _, _, .thread self _ => .thread self .flushed
  | .endThread _, _, _ => .user
  | _, _, g => g

def Over (g : ChainAccount) (self : Nat) : Prop :=
  g = .thread self .waited ∨ g = .thread self .first ∨ g = .thread self .flushed

def May (cacheSupported : Bool) (interface : Interface) (threadCount : UInt32)
    (g : ChainAccount) : DispatcherAction → Prop
  | .readThread | .storeThread _ | .processAffinityMask | .resumeThread _ | .getLastError
  | .takePending | .sendResponse .. | .shutdown none => g.Outside
  | .readThreadCount => ∃ self, g = .thread self .counting ∨ g = .thread self .taking
  | .storeThreadCount count => g = .starting ∧ count = threadCount ∨
      ∃ self c, g = .thread self (.storing c) ∧ count = c - 1
  | .createFirstThread => g = .counted
  | .closeHandle _ => g.Outside ∨ ∃ self, g = .thread self .waited
  | .waitThread handle => g.Outside ∨ ∃ self child, g = .thread self (.shut child) ∧
      handle = some child
  | .begin => g = .user
  | .bufferAlloc self => g = .thread self .begun
  | .createThread self => g = .thread self .creating
  | .transact self .. | .operation self .. => ∃ child, g = .thread self (.running child)
  | .exchangeError error => error ≠ 0 ∧
      (g.Outside ∨ ∃ self child, g = .thread self (.leaving child))
  | .shutdown (some self) => ∃ child, g = .thread self (.leaving child)
  | .readThreadId self => g = .thread self .waited
  | .finalFlush self => g = .thread self .first ∧ cacheSupported = true ∧ interface.flush = true
  | .bufferFree _ => ∃ self, g.Over self
  | .endThread self => g.Over self
  | .wait => ∃ self child, g = .thread self (.running child)

/-- A call that does not end answers nothing. -/
def Answers : (a : DispatcherAction) → a.Answer → Prop
  | .wait, _ => False
  | _, _ => True

end ChainAccount

/-- The rules when the dispatcher is started with so many threads. -/
def chainRules (cacheSupported : Bool) (interface : Interface) (threadCount : UInt32) :
    Rules DispatcherAction DispatcherAction.Answer ChainAccount where
  start := .user
  track := ChainAccount.track
  May := ChainAccount.May cacheSupported interface threadCount
  Answers _ := ChainAccount.Answers
  Settled := ChainAccount.Outside

/-! ## The functions -/

variable {α : Type} {cacheSupported : Bool} {interface : Interface} {threadCount : UInt32}
  {fuel self : Nat} {child dataBuffer : Option Nat} {error : UInt32} {g : ChainAccount}

theorem dispatcherLoop_running {response : Option Response} {dataBuffer : Nat} :
    (chainRules cacheSupported interface threadCount).Safe
      (fun _ g => g = .thread self (.leaving child)) (.thread self (.running child))
      (dispatcherLoop (dispatcherCalls self) interface fuel response dataBuffer) := by
  refine dispatcherLoop_safe (J := fun _ g => g = ChainAccount.thread self (.running child))
    (H := fun _ g => g = .thread self (.running child)) (fun {_ g} dataBuffer hg => ?_)
    (fun {request g} dataBuffer hg => ?_) (fun {_ g} hg => ?_) rfl
  · subst hg
    refine .perform_bind ⟨child, rfl⟩ fun r _ => ?_
    obtain ⟨error, req⟩ := r
    show (error ≠ 0 → ChainAccount.thread self _ = _) ∧ (error = 0 → _) ∧
        (error = 0 → _)
    refine ⟨fun he => ?_, fun he _ => ?_, fun he _ => ?_⟩
    · rw [if_neg he]
    · exact congrArg _ (if_pos he)
    · exact congrArg _ (if_pos he)
  · subst hg
    refine dispatch_safe (J := fun _ g => g = ChainAccount.thread self (.running child))
      (fun call _ => ?_)
      fun _ => rfl
    exact .perform_bind ⟨child, rfl⟩ fun _ _ => rfl
  · subst hg
    exact .perform_bind ⟨self, child, rfl⟩ fun _ h => absurd h id

theorem createNextThread_safe :
    (chainRules cacheSupported interface threadCount).Safe
      (fun r g => g = .thread self (match r with
        | .ok child => .running child
        | .error _ => .leaving none))
      (.thread self .counting) (createNextThread self) := by
  refine .perform_bind ⟨self, .inl rfl⟩ fun count _ => ?_
  show (chainRules cacheSupported interface threadCount).Safe _
    (.thread self (if 1 < count then .taking else .running none)) _
  by_cases hcount : 1 < count
  · rw [if_pos hcount, if_pos hcount]
    refine .perform_bind ⟨self, .inr rfl⟩ fun count _ => ?_
    refine .perform_bind (.inr ⟨self, count, rfl, rfl⟩) fun _ _ => ?_
    refine .perform_bind rfl fun r _ => ?_
    cases r <;> rfl
  · rw [if_neg hcount, if_neg hcount]
    rfl

theorem dispatcherBody_safe :
    (chainRules cacheSupported interface threadCount).Safe
      (fun r g => g = .thread self (.leaving r.2.1)) (.thread self .begun)
      (dispatcherBody interface fuel self) := by
  refine .perform_bind rfl fun dataBuffer _ => ?_
  cases dataBuffer with
  | none => rfl
  | some dataBuffer =>
      refine createNextThread_safe.bind fun created g hg => ?_
      subst hg
      cases created with
      | error error => rfl
      | ok child => exact dispatcherLoop_running.bind fun _ g hg => hg

theorem spdStorageUnitSetDispatcherError_safe
    (hg : g.Outside ∨ ∃ self child, g = .thread self (.leaving child)) :
    (chainRules cacheSupported interface threadCount).Safe (fun _ g' => g' = g) g
      (spdStorageUnitSetDispatcherError error) := by
  unfold spdStorageUnitSetDispatcherError
  split
  · rfl
  · next he => exact ⟨⟨he, hg⟩, fun _ _ => rfl⟩

theorem waitNextThread_safe :
    (chainRules cacheSupported interface threadCount).Safe
      (fun _ g => g = .thread self .waited) (.closed self child) (waitNextThread child) := by
  cases child with
  | none => rfl
  | some child =>
      refine .perform_bind (.inr ⟨self, child, rfl, rfl⟩) fun _ _ => ?_
      exact ⟨.inr ⟨self, rfl⟩, fun _ _ => rfl⟩

theorem flushIfFirst_safe :
    (chainRules cacheSupported interface threadCount).Safe (fun _ g => g.Over self)
      (.thread self .waited) (flushIfFirst cacheSupported interface self) := by
  refine .perform_bind rfl fun threadId _ => ?_
  show (chainRules cacheSupported interface threadCount).Safe _
    (.thread self (if threadId = some self then .first else .waited)) _
  by_cases hfirst : threadId = some self
  · rw [if_pos hfirst]
    split
    · next h => exact ⟨⟨rfl, h.2⟩, fun _ _ => .inr (.inr rfl)⟩
    · exact .inr (.inl rfl)
  · rw [if_neg hfirst, if_neg fun h => hfirst h.1]
    exact .inl rfl

theorem dispatcherExit_safe :
    (chainRules cacheSupported interface threadCount).Safe (fun _ g => g.Over self)
      (.thread self (.leaving child))
      (dispatcherExit cacheSupported interface self error child dataBuffer) := by
  refine (spdStorageUnitSetDispatcherError_safe (.inr ⟨self, child, rfl⟩)).bind fun _ g hg => ?_
  subst hg
  refine .perform_bind ⟨child, rfl⟩ fun _ _ => ?_
  refine waitNextThread_safe.bind fun _ g hg => ?_
  subst hg
  refine flushIfFirst_safe.bind fun _ g hg => ?_
  refine ⟨⟨self, hg⟩, fun _ _ => ?_⟩
  rcases hg with rfl | rfl | rfl
  · exact .inl rfl
  · exact .inr (.inl rfl)
  · exact .inr (.inr rfl)

theorem spdStorageUnitDispatcherThread_safe :
    (chainRules cacheSupported interface threadCount).Safe (fun _ g => g = .user) .user
      (spdStorageUnitDispatcherThread cacheSupported interface fuel) := by
  refine .perform_bind rfl fun self _ => ?_
  refine dispatcherBody_safe.bind fun r g hg => ?_
  subst hg
  refine dispatcherExit_safe.bind fun _ g hg => ?_
  exact ⟨hg, fun _ _ => rfl⟩

theorem startDispatcherThread_safe :
    (chainRules cacheSupported interface threadCount).Safe (fun _ => ChainAccount.Outside) .starting
      (startDispatcherThread threadCount) := by
  refine .perform_bind (.inl ⟨rfl, rfl⟩) fun _ _ => ?_
  refine .perform_bind rfl fun created _ => ?_
  cases created with
  | error error => trivial
  | ok thread =>
      refine .perform_bind trivial fun count _ => ?_
      split
      · refine .perform_bind (.inl trivial) fun _ _ => ?_
        exact ⟨trivial, fun _ _ => trivial⟩
      · trivial

theorem spdStorageUnitStartDispatcher_safe (hcount : threadCount ≠ 0) :
    (chainRules cacheSupported interface threadCount).Safe (fun _ => ChainAccount.Outside) .starting
      (spdStorageUnitStartDispatcher threadCount) := by
  refine .perform_bind trivial fun thread _ => ?_
  split
  · trivial
  · exact startDispatcherThread_safe

theorem spdStorageUnitWaitDispatcher_safe :
    (chainRules cacheSupported interface threadCount).Safe (fun _ => ChainAccount.Outside) .user
      spdStorageUnitWaitDispatcher := by
  refine .perform_bind trivial fun thread _ => ?_
  split
  · trivial
  · refine .perform_bind trivial fun thread _ => ?_
    refine .perform_bind (.inl trivial) fun _ _ => ?_
    refine .perform_bind trivial fun thread _ => ?_
    refine .perform_bind (.inl trivial) fun _ _ => ?_
    exact ⟨trivial, fun _ _ => trivial⟩

theorem sendPendingResponse_safe :
    (chainRules cacheSupported interface threadCount).Safe (fun _ => ChainAccount.Outside) .user
      sendPendingResponse := by
  refine .perform_bind trivial fun x _ => ?_
  obtain ⟨request, status, dataBuffer⟩ := x
  refine .perform_bind trivial fun error _ => ?_
  split
  · refine (spdStorageUnitSetDispatcherError_safe (g := .user) (.inl trivial)).bind
      fun _ g hg => ?_
    subst hg
    exact ⟨trivial, fun _ _ => trivial⟩
  · trivial

theorem dispatcherEntry_safe {p : DispatcherProg Unit}
    (h : DispatcherEntry cacheSupported interface p) :
    (chainRules cacheSupported interface threadCount).Safe (fun _ => ChainAccount.Outside) .user
      p := by
  cases h with
  | dispatcher =>
      exact spdStorageUnitDispatcherThread_safe.mono fun _ g hg => by
        subst hg
        trivial
  | sendResponse => exact sendPendingResponse_safe
  | setDispatcherError =>
      exact (spdStorageUnitSetDispatcherError_safe (g := .user) (.inl trivial)).mono
        fun _ g hg => by
        subst hg
        trivial
  | shutdown => exact ⟨trivial, fun _ _ => trivial⟩
  | waitDispatcher => exact spdStorageUnitWaitDispatcher_safe

end Winspd.Proofs
