import Winspd.Proofs.Dispatcher
import Winspd.Shared.Stghandle

/-!
# Requests in the hands of threads

What matters here of a thread is the request it will respond to. It has one
from the message it read it from until it has written the response, and in
between an operation may leave it to user code. Wherever a call fails before
that, the request is dropped. `requestRules` allows a response only to who has
the request, and it is the response to that request.

A Read goes through the table of hints. It is put there before it is handed
out, and taken out before a response that comes with a data buffer.
-/

namespace Winspd.Proofs

open Winspd.Lib Winspd.Sys Winspd.Shared

/-! ## Accounts -/

inductive RequestStage
  /-- It is not in the table of hints yet. -/
  | received
  /-- Its response will come with a data buffer, or without. -/
  | handed (buffer : Bool)
  /-- It has been taken out of the table. -/
  | taken
  deriving DecidableEq, Repr

abbrev RequestAccount := Option (Request × RequestStage)

namespace RequestAccount

/-- A request that is handed out. A zero hint says that there is none. -/
def hand (request : Request) : RequestAccount :=
  if request.req.hint = 0 then none else some (request, .handed true)

def onMessage (params : StorageUnitParams) : Message → Origin → RequestAccount
  | .short _, _ => none
  | .whole req _, origin =>
      if req.kind = transactReadKind then
        if dataLength params req > params.maxTransferLength then none
        else some (⟨req, origin⟩, .received)
      else if req.kind = transactWriteKind ∨ req.kind = transactUnmapKind then
        if dataLength params req > params.maxTransferLength then none else hand ⟨req, origin⟩
      else hand ⟨req, origin⟩

def track (params : StorageUnitParams) :
    (a : PipeAction) → a.Answer → RequestAccount → RequestAccount
  | .overlappedInit, error, g => if error = errorSuccess then g else none
  | .unitIsListed, listed, g => if listed = true then g else none
  | .memAlloc, msg, g => if msg = true then g else none
  | .connectNamedPipe, error, g =>
      if error = errorSuccess ∨ error = errorIoPending ∨ error = errorPipeConnected then
        g
      else none
  | .waitConnect, error, g =>
      if error = errorSuccess ∨ error = errorPipeConnected then g else none
  | .writeParams, error, g => if error = errorSuccess then g else none
  | .takeHintValue _, _, g => g.map fun x => (x.1, .taken)
  | .writeFile .., _, _ => none
  | .readFile _, .ok (message, origin), _ => onMessage params message origin
  | .readFile _, .error _, _ => none
  | .putHintValue request _, put, _ => if put = true then hand request else none
  | .operation .., (complete, _), g => if complete = true then g else none
  | .takePending, (request, _, dataBuffer), _ => some (request, .handed dataBuffer.isSome)
  | _, _, g => g

def CanWrite (g : RequestAccount) (request : Request) : Prop :=
  g = some (request, .taken) ∧ request.req.kind = transactReadKind ∨
    ∃ buffer, g = some (request, .handed buffer) ∧
      (request.req.kind = transactReadKind → buffer = false)

def May (params : StorageUnitParams) (g : RequestAccount) : PipeAction → Prop
  | .takeHintValue response =>
      ∃ request status, g = some (request, .handed true) ∧
        response = responseTo request status ∧ request.req.kind = transactReadKind
  | .writeFile response _ =>
      ∃ request status, g.CanWrite request ∧ response = responseTo request status
  | .readFile _ => g = none
  | .putHintValue request value =>
      g = some (request, .received) ∧ request.req.kind = transactReadKind ∧
        value = dataLength params request.req ∧ value ≤ params.maxTransferLength
  | .operation _ request _ _ => g = some (request, .handed true)
  | .takePending => g = none
  | _ => True

end RequestAccount

def requestRules (params : StorageUnitParams) :
    Rules PipeAction PipeAction.Answer RequestAccount where
  start := none
  track := RequestAccount.track params
  May := RequestAccount.May params
  Answers _ _ _ := True
  Settled _ := True

/-! ## The programs -/

variable {α β : Type} {params : StorageUnitParams} {interface : Interface} {g : RequestAccount}

/-- Without an error the request is still there, and with one it is dropped. -/
abbrev Keeps (g : RequestAccount) (error : UInt32) (g' : RequestAccount) : Prop :=
  (error = errorSuccess → g' = g) ∧ (error ≠ errorSuccess → g' = none)

theorem keeps_success : Keeps g errorSuccess g := ⟨fun _ => rfl, fun h => absurd rfl h⟩

theorem keeps_error {error : UInt32} (h : error ≠ errorSuccess) : Keeps g error none :=
  ⟨fun he => absurd he h, fun _ => rfl⟩

theorem prepare_keeps : (requestRules params).Safe (Keeps g) g prepare := by
  refine .perform_bind trivial fun error _ => ?_
  by_cases he : error = errorSuccess
  · rw [show (requestRules params).track .overlappedInit error g = g from if_pos he,
      if_neg (not_not.mpr he)]
    refine .perform_bind trivial fun listed _ => ?_
    cases (show Bool from listed) with
    | false => exact keeps_error (by decide)
    | true =>
        refine .perform_bind trivial fun msg _ => ?_
        cases (show Bool from msg) with
        | false => exact keeps_error (by decide)
        | true => exact keeps_success
  · rw [show (requestRules params).track .overlappedInit error g = none from if_neg he, if_pos he]
    exact keeps_error he

/-- What `connectPipe` knows after `ConnectNamedPipe`. -/
theorem waitConnectNamedPipe_keeps :
    (requestRules params).Safe (fun error g' =>
        g' = if error = errorSuccess ∨ error = errorPipeConnected then g else none)
      g waitConnectNamedPipe := by
  refine .perform_bind trivial fun error _ => ?_
  by_cases hwait : error = errorSuccess ∨ error = errorIoPending
  · have htrack : (requestRules params).track .connectNamedPipe error g = g :=
      if_pos (hwait.imp_right .inl)
    have hnot : ¬ (error ≠ errorSuccess ∧ error ≠ errorIoPending) := fun h => by
      rcases hwait with he | he
      · exact h.1 he
      · exact h.2 he
    rw [htrack, if_neg hnot]
    exact ⟨trivial, fun _ _ => rfl⟩
  · have hne := not_or.mp hwait
    rw [if_pos hne]
    show RequestAccount.track params .connectNamedPipe error g = _
    simp only [RequestAccount.track, hne.1, hne.2, false_or]

theorem connectPipe_keeps : (requestRules params).Safe (Keeps g) g connectPipe := by
  refine waitConnectNamedPipe_keeps.bind fun error g' hg => ?_
  subst hg
  by_cases hc : error = errorSuccess ∨ error = errorPipeConnected
  · rw [if_pos hc, if_pos hc]
    refine .perform_bind trivial fun error _ => ?_
    by_cases he : error = errorSuccess
    · rw [show (requestRules params).track .writeParams error g = g from if_pos he, if_pos he]
      exact keeps_success
    · rw [show (requestRules params).track .writeParams error g = none from if_neg he, if_neg he]
      exact .perform_bind trivial fun _ _ => keeps_error (by decide)
  · rw [if_neg hc, if_neg hc]
    exact keeps_error (not_or.mp hc).1

theorem connectSection_keeps :
    (requestRules params).Safe (fun r => Keeps g r.1) g connectSection := by
  refine .perform_bind trivial fun connected _ => ?_
  have hconnect : (requestRules params).Safe (Keeps g) g (connectUnlessConnected connected) := by
    unfold connectUnlessConnected
    split
    · exact connectPipe_keeps
    · exact keeps_success
  refine hconnect.bind fun error g' hg => ?_
  exact .perform_bind trivial fun _ _ => hg

/-- The response a call is given is that to the request of the thread. -/
def Carries (g : RequestAccount) (buffer : Bool) : Option Response → Prop
  | none => g = none
  | some response => ∃ request status, g = some (request, .handed buffer) ∧
      response = responseTo request status

theorem writeResponse_drops {response : Option Response} {dataBuffer : Option (List UInt8)}
    (hg : Carries g dataBuffer.isSome response) :
    (requestRules params).Safe (fun _ g' => g' = none) g (writeResponse response dataBuffer) := by
  cases response with
  | none => cases dataBuffer <;> exact hg
  | some response =>
      obtain ⟨request, status, rfl, rfl⟩ := hg
      cases dataBuffer with
      | none =>
          exact ⟨⟨request, status, .inr ⟨false, rfl, fun _ => rfl⟩, rfl⟩,
            fun _ _ => rfl⟩
      | some dataBuffer =>
          unfold writeResponse
          dsimp only
          by_cases hread : (responseTo request status).rsp.kind = transactReadKind
          · rw [if_pos hread]
            refine .perform_bind ⟨request, status, rfl, rfl, hread⟩ fun length _ => ?_
            exact ⟨⟨request, status, .inl ⟨rfl, hread⟩, rfl⟩, fun _ _ => rfl⟩
          · rw [if_neg hread]
            exact ⟨⟨request, status, .inr ⟨true, rfl, fun h => absurd h hread⟩, rfl⟩,
              fun _ _ => rfl⟩

theorem disconnect_none {connected : Int32} {req : Bool} {dataBuffer : β} :
    (requestRules params).Safe (fun r g' => r.error = errorSuccess ∧
        r.req = (if req then some .zero else none) ∧ g' = none) none
      (disconnect connected req dataBuffer) :=
  .perform_bind trivial fun _ _ => ⟨rfl, rfl, rfl⟩

/-- The request a call has got is that of the thread then. -/
def Got (r : Transacted α) (g : RequestAccount) : Prop :=
  g = RequestAccount.hand (r.req.getD .zero)

theorem got_zeroout {req : Bool} {r : Transacted α}
    (h : r.req = if req then some .zero else none) :
    Got r none := by
  unfold Got
  rw [h]
  cases req <;> rfl

theorem acceptMessage_got {dataBuffer : List UInt8} {message : Message} {origin : Origin} :
    (requestRules params).Safe (fun r g' => r.error = errorSuccess ∧ Got r g')
      (RequestAccount.onMessage params message origin)
      (acceptMessage params dataBuffer message origin) := by
  cases message with
  | short _ => exact ⟨rfl, rfl⟩
  | whole req payload =>
      unfold acceptMessage RequestAccount.onMessage
      dsimp only
      split
      · next hread =>
          split
          · exact ⟨rfl, rfl⟩
          · next hlength =>
              refine .perform_bind ⟨rfl, hread, rfl, UInt32.not_lt.mp hlength⟩ fun put _ => ?_
              cases (show Bool from put) with
              | false => exact ⟨rfl, rfl⟩
              | true => exact ⟨rfl, rfl⟩
      · split
        · split
          · exact ⟨rfl, rfl⟩
          · exact ⟨rfl, rfl⟩
        · exact ⟨rfl, rfl⟩

theorem readRequest_got {connected : Int32} {dataBuffer : List UInt8} :
    (requestRules params).Safe (fun r g' => r.error = errorSuccess ∧ Got r g') none
      (readRequest params connected dataBuffer) := by
  refine .perform_bind rfl fun read _ => ?_
  match read with
  | .error _ =>
      exact disconnect_none.mono fun r g hr => ⟨hr.1, by rw [hr.2.2]; exact got_zeroout hr.2.1⟩
  | .ok (message, origin) => exact acceptMessage_got

theorem transactConnected_got {connected : Int32} {response : Option Response} {req : Bool}
    {dataBuffer : Option (List UInt8)} (hg : Carries g dataBuffer.isSome response) :
    (requestRules params).Safe (fun r g' => r.error = errorSuccess ∧ Got r g') g
      (transactConnected params connected response req dataBuffer) := by
  refine (writeResponse_drops hg).bind fun error g' hg' => ?_
  subst hg'
  split
  · exact disconnect_none.mono fun r g hr => ⟨hr.1, by rw [hr.2.2]; exact got_zeroout hr.2.1⟩
  · split
    · exact readRequest_got.bind fun r g hr => hr
    · exact ⟨rfl, rfl⟩

/-- A call takes over the request of its response, and returns with the request
it has got. -/
theorem spdStorageUnitHandleTransactPipe_got {response : Option Response} {req : Bool}
    {dataBuffer : Option (List UInt8)} (hg : Carries g dataBuffer.isSome response) :
    (requestRules params).Safe (fun r g' => r.error = errorSuccess → Got r g') g
      (spdStorageUnitHandleTransactPipe params response req dataBuffer) := by
  unfold spdStorageUnitHandleTransactPipe
  split
  · show errorInvalidParameter = errorSuccess → _
    exact fun h => absurd h (by decide)
  · refine prepare_keeps.bind fun error g₁ hg₁ => ?_
    split
    · next he => exact fun h => absurd h he
    · next he =>
        rw [hg₁.1 (not_not.mp he)]
        refine connectSection_keeps.bind fun r g₂ hg₂ => ?_
        obtain ⟨error, connected⟩ := r
        dsimp only at hg₂ ⊢
        split
        · next hno =>
            rw [hg₂.2 (by rw [hno]; decide)]
            exact fun _ => got_zeroout rfl
        · split
          · next he => exact fun h => absurd h he
          · next he =>
              rw [hg₂.1 (not_not.mp he)]
              exact (transactConnected_got hg).mono fun r g hr _ => hr.2

theorem pipeDispatcher_requests {fuel : Nat} {dataBuffer : List UInt8} :
    (requestRules params).Safe (fun _ _ => True) none
      (pipeDispatcher params interface fuel dataBuffer) := by
  have hloop : (requestRules params).Safe (fun _ _ => True) none
      (dispatcherLoop (pipeCalls params) interface fuel none dataBuffer) := by
    refine dispatcherLoop_safe (J := fun response g => Carries g true response)
      (H := fun request g => g = some (request, .handed true))
      (fun {_ g} dataBuffer hg => ?_) (fun {request g} dataBuffer hg => ?_)
      (fun {_ g} hg => ?_) rfl
    · refine (spdStorageUnitHandleTransactPipe_got hg).bind fun r g hr => ?_
      refine ⟨fun _ => trivial, fun he hhint => ?_, fun he hhint => ?_⟩
      · have hgot := hr he
        unfold Got RequestAccount.hand at hgot
        rwa [if_pos hhint] at hgot
      · have hgot := hr he
        unfold Got RequestAccount.hand at hgot
        rwa [if_neg hhint] at hgot
    · subst hg
      refine dispatch_safe (L := requestRules params)
        (J := fun response g => Carries g true response)
        (fun call _ => ?_) fun _ => ⟨request, _, rfl, rfl⟩
      refine ⟨rfl, fun r _ => ?_⟩
      obtain ⟨complete, status, dataBuffer⟩ := r
      cases complete with
      | false => rfl
      | true => exact ⟨request, status, rfl, rfl⟩
    · exact .perform_bind trivial fun _ _ => trivial
  exact hloop.bind fun _ g _ => ⟨trivial, fun _ _ => trivial⟩

theorem spdStorageUnitSendResponse_requests :
    (requestRules params).Safe (fun _ _ => True) none (spdStorageUnitSendResponse params) := by
  refine .perform_bind rfl fun x _ => ?_
  obtain ⟨request, status, dataBuffer⟩ := x
  have hcarries : Carries (some (request, .handed dataBuffer.isSome)) dataBuffer.isSome
      (some (responseTo request status)) := ⟨request, status, rfl, rfl⟩
  refine (spdStorageUnitHandleTransactPipe_got hcarries).bind fun r g _ => ?_
  split
  · exact ⟨trivial, fun _ _ => trivial⟩
  · trivial

theorem pipeEntry_requests {p : PipeProg Unit} (h : PipeEntry params interface p) :
    (requestRules params).Safe (fun _ => (requestRules params).Settled)
      (requestRules params).start p := by
  cases h with
  | dispatcher => exact pipeDispatcher_requests
  | sendResponse => exact spdStorageUnitSendResponse_requests
  | shutdown | clientOpen | clientClose | clientSend => exact ⟨trivial, fun _ _ => trivial⟩

end Winspd.Proofs
