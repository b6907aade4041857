import Winspd.Proofs.DispatcherThreads

/-!
# Turns of a dispatcher thread

What a thread has to hand over at its next transact call is a matter of its own
history: `loopTurn` reads it off the events of the thread and looks at no others.
`answerRules` allows a thread to hand over just that, and to call an operation
only for the request it was given last. All functions are safe by these rules,
too.
-/

namespace Winspd.Proofs

open Winspd.Lib Winspd.Sys Winspd.Shared

/-! ## Turns -/

/-- Between two transact calls of a thread. -/
inductive LoopTurn
  | empty
  /-- It has to call the operation for this request. -/
  | got (request : Request)
  /-- It has to hand this over. -/
  | owes (response : Response)
  deriving DecidableEq, Repr

namespace LoopTurn

def due : LoopTurn → Option Response
  | .owes response => some response
  | _ => none

def afterTransact (interface : Interface) (error : UInt32) (req : Option Request) : LoopTurn :=
  let request := req.getD .zero
  if error ≠ 0 ∨ request.req.hint = 0 then .empty
  else if interface.call request.req = none then
    .owes (responseTo request (spdStorageUnitStatusSetIllegal zeroStatus))
  else .got request

def afterOperation (request : Request) (complete : Bool) (status : StorageUnitStatus) : LoopTurn :=
  if complete then .owes (responseTo request status) else .empty

def next (interface : Interface) (self : Nat) (turn : LoopTurn) : DispatcherEvent → LoopTurn
  | .act (.transact t _ _) (error, req) =>
      if t = self then afterTransact interface error req else turn
  | .act (.operation t _ request _ _) (complete, status) =>
      if t = self then afterOperation request complete status else turn
  | _ => turn

end LoopTurn

def loopTurn (interface : Interface) (self : Nat) (ls : List DispatcherEvent) : LoopTurn :=
  ls.foldl (LoopTurn.next interface self) .empty

theorem loopTurn_snoc {interface : Interface} {self : Nat} {ls : List DispatcherEvent}
    {ev : DispatcherEvent} :
    loopTurn interface self (ls ++ [ev]) = (loopTurn interface self ls).next interface self ev := by
  unfold loopTurn
  rw [List.foldl_append]
  rfl

/-! ## Accounts -/

inductive AnswerAccount
  | user
  /-- User code that answers a request. -/
  | answering (request : Request) (status : StorageUnitStatus)
  | thread (self : Nat) (dataBuffer : Option Nat) (turn : LoopTurn)
  deriving DecidableEq, Repr

namespace AnswerAccount

def track (interface : Interface) : (a : DispatcherAction) → a.Answer → AnswerAccount →
    AnswerAccount
  | .begin, self, _ => .thread self none .empty
  | .bufferAlloc _, dataBuffer, .thread self _ turn => .thread self dataBuffer turn
  | .transact .., r, .thread self dataBuffer _ =>
      .thread self dataBuffer (.afterTransact interface r.1 r.2)
  | .operation _ _ request _ _, r, .thread self dataBuffer _ =>
      .thread self dataBuffer (.afterOperation request r.1 r.2)
  | .bufferFree _, _, .thread self _ turn => .thread self none turn
  | .endThread _, _, _ => .user
  | .takePending, x, _ => .answering x.1 x.2.1
  | .sendResponse .., _, _ => .user
  | _, _, g => g

/-- It is a dispatcher thread that has nothing to hand over. -/
def Idle (g : AnswerAccount) (self : Nat) : Prop :=
  ∃ dataBuffer, g = .thread self dataBuffer .empty

def May (interface : Interface) (g : AnswerAccount) : DispatcherAction → Prop
  | .begin | .takePending => g = .user
  | .bufferAlloc self => g = .thread self none .empty
  | .transact self response dataBuffer => ∃ turn, g = .thread self (some dataBuffer) turn ∧
      response = turn.due ∧ ∀ request, turn ≠ .got request
  | .operation self call request status dataBuffer =>
      g = .thread self (some dataBuffer) (.got request) ∧
        interface.call request.req = some call ∧ status = zeroStatus
  | .bufferFree dataBuffer => ∃ self, g = .thread self dataBuffer .empty
  | .createThread self | .readThreadId self | .finalFlush self | .endThread self => g.Idle self
  | .sendResponse response _ =>
      ∃ request status, g = .answering request status ∧ response = responseTo request status
  | _ => True

end AnswerAccount

def answerRules (interface : Interface) :
    Rules DispatcherAction DispatcherAction.Answer AnswerAccount where
  start := .user
  track := AnswerAccount.track interface
  May := AnswerAccount.May interface
  -- a call that does not end answers nothing
  Answers _ := ChainAccount.Answers
  Settled g := g = .user

/-! ## The functions -/

variable {cacheSupported : Bool} {interface : Interface} {fuel self dataBuffer : Nat}
  {error : UInt32} {g : AnswerAccount}

def Neutral : DispatcherAction → Prop
  | .readThread | .storeThread _ | .processAffinityMask | .storeThreadCount _ | .createFirstThread
  | .resumeThread _ | .getLastError | .closeHandle _ | .waitThread _ | .exchangeError _
  | .shutdown _ => True
  | _ => False

theorem Neutral.safe {α : Type} {p : DispatcherProg α} (h : p.Only Neutral) :
    (answerRules interface).Safe (fun _ g => g = .user) .user p := by
  refine Rules.Safe.of_only (I := fun g => g = AnswerAccount.user) h (fun a g ha hg => ?_) rfl
  subst hg
  cases a <;> first | exact ⟨trivial, fun _ _ => rfl⟩ | exact absurd ha id

end Winspd.Proofs
