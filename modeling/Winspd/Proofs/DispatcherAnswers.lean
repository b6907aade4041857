import Winspd.Proofs.DispatcherRequests
import Winspd.Proofs.DispatcherShutdown

/-!
# Answers of the dispatcher

Runs from a call of `SpdStorageUnitStartDispatcher` on, with any number of
threads of user code. `DispatchAnswers` is what follows from the invariants:
what a thread gets at one transact call is answered at its next one, or by user
code, and only once.

A thread answers at its next transact call what it got at its last one, so the
history of its calls is a sequence of turns (`LoopTurn`). The three invariants of
`Proofs.DispatcherRequests` hold in every run, and everything here is read off them.
-/

namespace Winspd.Proofs

open Winspd.Lib Winspd.Sys Winspd.Shared

variable {cacheSupported : Bool} {interface : Interface} {n : UInt32}
  {ls pre post : List DispatcherEvent} {ev : DispatcherEvent} {s s' : DispatcherUnit}
  {g : AnswerAccount} {gs gs' : List AnswerAccount} {w w' : AnswerWorld} {t : Nat}

/-! ## Runs -/

structure AnswerInv (interface : Interface) (ls : List DispatcherEvent) (s : DispatcherUnit)
    (gs : List AnswerAccount) : Prop where
  turns : TurnInv interface ls s gs
  buffers : BufferInv ls s (gs.filterMap AnswerAccount.owns)
  counts : CountInv ls s gs

namespace AnswerInv

theorem init : AnswerInv interface [] .init [.user] where
  turns := {
    unborn := fun _ _ => rfl
    numbers := .nil
    running := by
      intro g hg t ht
      rw [List.mem_singleton.mp hg] at ht
      cases ht
    turns := by
      intro g hg t b turn heq
      rw [List.mem_singleton.mp hg] at heq
      cases heq
    fresh := fun _ _ _ => rfl }
  buffers := {
    differ := .nil
    owned := fun _ hx => absurd hx List.not_mem_nil }
  counts := {
    counts := fun _ => rfl
    once := fun _ => Nat.zero_le 1
    fresh := fun _ _ => rfl
    pending := fun _ => rfl
    answering := by
      intro q status hmem
      cases List.mem_singleton.mp hmem }

theorem perm (hperm : gs.Perm gs') (h : AnswerInv interface ls s gs) :
    AnswerInv interface ls s gs' where
  turns := h.turns.perm hperm
  buffers := h.buffers.perm (hperm.filterMap _)
  counts := h.counts.perm hperm

theorem quiet (hturn : ∀ t turn, LoopTurn.next interface t turn ev = turn)
    (hbuffer : ∀ b, bufferMark b ev = none) (hreceive : receiveMark ev = none)
    (hanswer : answerMark ev = none) (hfalse : falseMark ev = none) (htaken : takenMark ev = none)
    (h : AnswerInv interface ls s (.user :: gs)) :
    AnswerInv interface (ls ++ [ev]) s (.user :: gs) where
  turns := h.turns.quiet hturn (fun _ _ => rfl) h.turns.unborn
  buffers := h.buffers.quiet hbuffer rfl
  counts := h.counts.quiet rfl nofun hreceive hanswer hfalse htaken rfl rfl

theorem cons_user : AnswerInv interface ls s (.user :: gs) ↔ AnswerInv interface ls s gs := by
  constructor
  · intro h
    exact ⟨(TurnInv.cons_user rfl).mp h.turns, h.buffers, CountInv.cons_user.mp h.counts⟩
  · intro h
    exact ⟨(TurnInv.cons_user rfl).mpr h.turns, h.buffers, CountInv.cons_user.mpr h.counts⟩

end AnswerInv

/-- What the threads keep to, by the history before the event. -/
def DispatchKept (interface : Interface) (pre : List DispatcherEvent) : DispatcherEvent → Prop
  | .act (.transact t response b) _ =>
      response = (loopTurn interface t pre).due ∧ (∀ q, loopTurn interface t pre ≠ .got q) ∧
        LastIs (bufferMark b) pre (some t)
  | .act (.operation t call q status b) _ =>
      loopTurn interface t pre = .got q ∧ interface.call q.req = some call ∧
      status = zeroStatus ∧
        LastIs (bufferMark b) pre (some t)
  | .act (.sendResponse response _) _ =>
      ∃ q status, response = responseTo q status ∧ 0 < tally falseMark pre q
  | _ => True

def transactsOf (t : Nat) : DispatcherEvent → Bool
  | .act (.transact self _ _) _ => self = t
  | _ => false

/-- A call of an operation, and what it returned. -/
structure OperationReturn where
  call : OperationCall
  request : Request
  /-- `Status` before the call. -/
  status : StorageUnitStatus
  complete : Bool
  /-- And after. -/
  status' : StorageUnitStatus
  deriving DecidableEq, Repr

def operationMark (t : Nat) : DispatcherEvent → Option OperationReturn
  | .act (.operation self call request status _) (complete, status') =>
      if self = t then some ⟨call, request, status, complete, status'⟩ else none
  | _ => none

/-- What a transact call answers, the operations that are called until the next
one, and what is handed over there. -/
inductive RequestAnswered (interface : Interface) :
    UInt32 → Option Request → List OperationReturn → Option Response → Prop
  | empty {error : UInt32} {req : Option Request} :
      error ≠ 0 ∨ (req.getD .zero).req.hint = 0 → RequestAnswered interface error req [] none
  | invalid {q : Request} :
      q.req.hint ≠ 0 → interface.call q.req = none →
      RequestAnswered interface 0 (some q) []
        (some (responseTo q (spdStorageUnitStatusSetIllegal zeroStatus)))
  | complete {q : Request} {call : OperationCall} {status : StorageUnitStatus} :
      q.req.hint ≠ 0 → interface.call q.req = some call →
      RequestAnswered interface 0 (some q) [⟨call, q, zeroStatus, true, status⟩]
        (some (responseTo q status))
  | later {q : Request} {call : OperationCall} {status : StorageUnitStatus} :
      q.req.hint ≠ 0 → interface.call q.req = some call →
      RequestAnswered interface 0 (some q) [⟨call, q, zeroStatus, false, status⟩] none

/-- The operations a thread calls from a turn on. -/
def OperationsServed (interface : Interface) (turn : LoopTurn) (ops : List OperationReturn)
    (turn' : LoopTurn) : Prop :=
  (ops = [] ∧ turn' = turn) ∨
    ∃ q call complete status, turn = .got q ∧ interface.call q.req = some call ∧
      ops = [⟨call, q, zeroStatus, complete, status⟩] ∧
      turn' = .afterOperation q complete status

theorem LoopTurn.afterOperation_ne_got {request q : Request} {complete : Bool}
    {status : StorageUnitStatus} : afterOperation request complete status ≠ .got q := by
  cases complete with
  | true => nofun
  | false => nofun

theorem OperationsServed.snoc {turn : LoopTurn} {mid : List DispatcherEvent}
    (h : OperationsServed interface turn (mid.filterMap (operationMark t))
      (loopTurn interface t (pre ++ mid)))
    (hev : transactsOf t ev = false) (hkept : DispatchKept interface (pre ++ mid) ev) :
    OperationsServed interface turn ((mid ++ [ev]).filterMap (operationMark t))
      (loopTurn interface t (pre ++ (mid ++ [ev]))) := by
  rw [List.filterMap_append, ← List.append_assoc, loopTurn_snoc]
  have hquiet : operationMark t ev = none →
      (loopTurn interface t (pre ++ mid)).next interface t ev = loopTurn interface t
      (pre ++ mid) →
      OperationsServed interface turn
        (mid.filterMap (operationMark t) ++ [ev].filterMap (operationMark t))
        ((loopTurn interface t (pre ++ mid)).next interface t ev) := fun hmark hnext => by
    rw [hnext, List.filterMap_cons_none hmark, List.filterMap_nil, List.append_nil]
    exact h
  cases ev with
  | enter | leave => exact hquiet rfl rfl
  | act a r =>
      cases a with
      | transact self response b =>
          have hne : ¬ self = t := of_decide_eq_false hev
          exact hquiet rfl (if_neg hne)
      | operation self call q status b =>
          by_cases hself : self = t
          · subst hself
            obtain ⟨hgot, hcall, rfl, -⟩ := hkept
            rcases h with ⟨hops, hturn⟩ | ⟨q', call', complete, status', -, -, -, hturn⟩
            · have hmark : operationMark self (.act (.operation self call q zeroStatus b) r) =
                  some ⟨call, q, zeroStatus, r.1, r.2⟩ := if_pos rfl
              refine .inr ⟨q, call, r.1, r.2, hturn.symm.trans hgot, hcall, ?_, if_pos rfl⟩
              rw [hops, List.nil_append, List.filterMap_cons_some hmark, List.filterMap_nil]
            · exact absurd (hturn.symm.trans hgot) LoopTurn.afterOperation_ne_got
          · exact hquiet (if_neg hself) (if_neg hself)
      | _ => exact hquiet rfl rfl

theorem OperationsServed.answered {error : UInt32} {req : Option Request}
    {ops : List OperationReturn}
    {turn : LoopTurn}
    (h : OperationsServed interface (.afterTransact interface error req) ops turn) :
    (∀ q, turn ≠ .got q) → RequestAnswered interface error req ops turn.due := by
  intro hgot
  by_cases hnone : error ≠ 0 ∨ (req.getD .zero).req.hint = 0
  · have hturn : LoopTurn.afterTransact interface error req = .empty := if_pos hnone
    rw [hturn] at h
    rcases h with ⟨rfl, rfl⟩ | ⟨q, -, -, -, heq, -⟩
    · exact .empty hnone
    · cases heq
  · have hturn : LoopTurn.afterTransact interface error req = _ := if_neg hnone
    rw [not_or, not_not] at hnone
    obtain ⟨rfl, hhint⟩ := hnone
    cases req with
    | none => exact absurd rfl hhint
    | some q =>
        rw [hturn] at h
        dsimp only [Option.getD_some] at h hhint
        cases hcall : interface.call q.req with
        | none =>
            rw [if_pos hcall] at h
            rcases h with ⟨rfl, rfl⟩ | ⟨q, -, -, -, heq, -⟩
            · exact .invalid hhint hcall
            · cases heq
        | some call =>
            rw [if_neg (by rw [hcall]; nofun)] at h
            rcases h with ⟨rfl, rfl⟩ | ⟨q', call', complete, status, heq, hcall', rfl, rfl⟩
            · exact absurd rfl (hgot q)
            · cases heq
              cases complete with
              | true => exact .complete hhint hcall'
              | false => exact .later hhint hcall'

/-! ## What follows -/

def readRequest (hint : UInt64) : SpdIoctlTransactReq :=
  { SpdIoctlTransactReq.zero with hint, kind := transactReadKind }

end Winspd.Proofs
