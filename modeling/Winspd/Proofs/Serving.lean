import Winspd.Proofs.Bounds
import Winspd.Proofs.Dispatcher
import Winspd.Stgtest.Transact

/-!
# Requests that are served

The account of a thread says which request it is at, what is at the front of
its data buffer for the operation, and what the operation has answered. Here
nothing goes wrong between the server and the system: calls succeed, there is
memory, and what is read is the message of a well-formed request
(`Serves`). So no thread ever drops a request. What it hands to an operation
and what it writes as a response is what its account says.
-/

namespace Winspd.Proofs

open Winspd.Lib Winspd.Sys Winspd.Shared Winspd.Stgtest

/-- A request the unit can do: it has a hint and an operation, what it transfers
fits a transfer, and the client's data buffer has what is transferred, when
there is one. -/
structure WellFormed (params : StorageUnitParams) (interface : Interface) (call : StgCall) :
    Prop where
  hint : call.req.hint ≠ 0
  operation : interface.call call.req ≠ none
  length : Transfers call.req →
    operationLength params call.req ≤ params.maxTransferLength.toNat
  buffer : Transfers call.req → call.req.kind = transactReadKind ∨ call.dataBuffer ≠ none →
    operationLength params call.req ≤ (call.dataBuffer.getD []).length

/-- What an operation finds at the front of its data buffer, for a message with
this payload. -/
def givenData (params : StorageUnitParams) (req : SpdIoctlTransactReq) (payload : List UInt8) :
    List UInt8 :=
  if req.kind = transactWriteKind ∨ req.kind = transactUnmapKind then
    payload.take (dataLength params req).toNat ++
      List.replicate ((dataLength params req).toNat - payload.length) 0
  else []

/-! ## Accounts -/

inductive ServeStage
  /-- A Read that is not in the table of hints yet. -/
  | received
  | handed (data : List UInt8)
  | answered (status : StorageUnitStatus) (dataBuffer : Option (List UInt8))
  /-- A Read whose length has been taken out of the table. -/
  | taken (status : StorageUnitStatus) (dataBuffer : List UInt8) (length : UInt32)

abbrev ServeAccount := Option (Request × ServeStage)

namespace ServeAccount

def track (params : StorageUnitParams) :
    (a : PipeAction) → a.Answer → ServeAccount → ServeAccount
  | .readFile _, .ok (.whole req payload, origin), _ =>
      some (⟨req, origin⟩,
        if req.kind = transactReadKind then .received else .handed (givenData params req payload))
  | .readFile _, _, _ => none
  | .putHintValue request _, _, _ => some (request, .handed [])
  | .operation _ request _ _, (complete, status, dataBuffer), _ =>
      if complete = true then some (request, .answered status (some dataBuffer)) else none
  | .takePending, (request, status, dataBuffer), _ =>
      some (request, .answered status dataBuffer)
  | .takeHintValue _, length, some (request, .answered status (some dataBuffer)) =>
      some (request, .taken status dataBuffer length)
  | .writeFile .., _, _ => none
  | _, _, g => g

/-- It can write this response with these bytes. -/
def CanWrite (g : ServeAccount) (response : Response) (data : List UInt8) : Prop :=
  ∃ request status, response = responseTo request status ∧
    ((∃ dataBuffer length, g = some (request, .taken status dataBuffer length) ∧
        request.req.kind = transactReadKind ∧ data = dataBuffer.take length.toNat) ∨
      ∃ dataBuffer, g = some (request, .answered status dataBuffer) ∧
        (request.req.kind = transactReadKind → dataBuffer = none) ∧ data = [])

def May (params : StorageUnitParams) (interface : Interface) (g : ServeAccount) :
    PipeAction → Prop
  | .disconnectNamedPipe | .disconnect _ => False
  | .takeHintValue response =>
      ∃ request status dataBuffer, g = some (request, .answered status (some dataBuffer)) ∧
        response = responseTo request status ∧ request.req.kind = transactReadKind
  | .writeFile response data => g.CanWrite response data
  | .readFile size => g = none ∧ size = sizeofTransactMsg + params.maxTransferLength
  | .putHintValue request value =>
      g = some (request, .received) ∧ value = dataLength params request.req
  | .operation call request status dataBuffer =>
      interface.call request.req = some call ∧ status = zeroStatus ∧
        ∃ data, g = some (request, .handed data) ∧ data <+: dataBuffer
  | .takePending => g = none
  | _ => True

end ServeAccount

/-- How an action ends when nothing goes wrong, and these are the calls of the
client. -/
def Serves (params : StorageUnitParams) (interface : Interface) (calls : List StgCall) :
    (a : PipeAction) → a.Answer → Prop
  | .overlappedInit, error => error = errorSuccess
  | .unitIsListed, listed => listed = true
  | .memAlloc, msg => msg = true
  | .connectNamedPipe, error => error = errorIoPending ∨ error = errorPipeConnected
  | .waitConnect, error => error = errorSuccess
  | .writeParams, error => error = errorSuccess
  | .writeFile .., error => error = errorSuccess
  | .readFile _, r =>
      ∃ call ∈ calls, WellFormed params interface call ∧
        ∃ payload origin, r = .ok (.whole call.req payload, origin)
  | .putHintValue .., put => put = true
  | .wait, _ => False
  | _, _ => True

def serveRules (params : StorageUnitParams) (interface : Interface) (calls : List StgCall) :
    Rules PipeAction PipeAction.Answer ServeAccount where
  start := none
  track := ServeAccount.track params
  May := ServeAccount.May params interface
  Answers _ := Serves params interface calls
  Settled g := g = none

/-! ## The programs -/

variable {params : StorageUnitParams} {interface : Interface} {calls : List StgCall}
  {g : ServeAccount}

theorem prepare_serves :
    (serveRules params interface calls).Safe (fun error g' => error = errorSuccess ∧ g' = g) g
      prepare := by
  refine .perform_bind trivial fun error herror => ?_
  obtain rfl : error = errorSuccess := herror
  rw [if_neg (by decide)]
  refine .perform_bind trivial fun listed hlisted => ?_
  obtain rfl : listed = true := hlisted
  rw [if_neg (by decide)]
  refine .perform_bind trivial fun msg hmsg => ?_
  obtain rfl : msg = true := hmsg
  exact ⟨rfl, rfl⟩

theorem waitConnectNamedPipe_serves :
    (serveRules params interface calls).Safe
      (fun error g' => (error = errorSuccess ∨ error = errorPipeConnected) ∧ g' = g) g
      waitConnectNamedPipe := by
  refine .perform_bind trivial fun error herror => ?_
  rcases (show error = errorIoPending ∨ error = errorPipeConnected from herror) with rfl | rfl
  · rw [if_neg (by decide)]
    exact ⟨trivial, fun error herror => ⟨.inl herror, rfl⟩⟩
  · rw [if_pos (by decide)]
    exact ⟨.inr rfl, rfl⟩

theorem connectPipe_serves :
    (serveRules params interface calls).Safe (fun error g' => error = errorSuccess ∧ g' = g) g
      connectPipe := by
  refine waitConnectNamedPipe_serves.bind fun error g' hg => ?_
  obtain ⟨herror, rfl⟩ := hg
  rw [if_pos herror]
  refine .perform_bind trivial fun error herror => ?_
  obtain rfl : error = errorSuccess := herror
  exact ⟨rfl, rfl⟩

theorem connectSection_serves :
    (serveRules params interface calls).Safe (fun r g' => r.1 = errorSuccess ∧ g' = g) g
      connectSection := by
  refine .perform_bind trivial fun connected _ => ?_
  have hconnect : (serveRules params interface calls).Safe
      (fun error g' => error = errorSuccess ∧ g' = g) g (connectUnlessConnected connected) := by
    unfold connectUnlessConnected
    split
    · exact connectPipe_serves
    · exact ⟨rfl, rfl⟩
  exact hconnect.bind fun error g' hg => .perform_bind trivial fun _ _ => hg

/-- A thread has the answer to a request, and this is the response it writes. -/
def HasAnswer (response : Option Response) (dataBuffer : Option (List UInt8)) (g : ServeAccount) :
    Prop :=
  match response with
  | none => g = none
  | some response => ∃ request status, response = responseTo request status ∧
      g = some (request, .answered status dataBuffer)

theorem writeResponse_serves {response : Option Response} {dataBuffer : Option (List UInt8)}
    (h : HasAnswer response dataBuffer g) :
    (serveRules params interface calls).Safe (fun error g' => error = errorSuccess ∧ g' = none) g
      (writeResponse response dataBuffer) := by
  cases response with
  | none => cases dataBuffer <;> exact ⟨rfl, h⟩
  | some response =>
      obtain ⟨request, status, rfl, rfl⟩ := h
      cases dataBuffer with
      | none =>
          exact ⟨⟨request, status, rfl, .inr ⟨none, rfl, fun _ => rfl, rfl⟩⟩,
            fun error herror => ⟨herror, rfl⟩⟩
      | some dataBuffer =>
          unfold writeResponse
          dsimp only
          by_cases hread : (responseTo request status).rsp.kind = transactReadKind
          · rw [if_pos hread]
            refine .perform_bind ⟨request, status, dataBuffer, rfl, rfl, hread⟩
              fun length _ => ?_
            exact ⟨⟨request, status, rfl, .inl ⟨dataBuffer, length, rfl, hread, rfl⟩⟩,
              fun error herror => ⟨herror, rfl⟩⟩
          · rw [if_neg hread]
            exact ⟨⟨request, status, rfl,
              .inr ⟨some dataBuffer, rfl, fun h => absurd h hread, rfl⟩⟩,
              fun error herror => ⟨herror, rfl⟩⟩

/-- A thread has this request for an operation. -/
def HasRequest (interface : Interface) (request : Request) (dataBuffer : List UInt8)
    (g : ServeAccount) : Prop :=
  interface.call request.req ≠ none ∧ request.req.hint ≠ 0 ∧
    ∃ data, g = some (request, .handed data) ∧ data <+: dataBuffer

def Received (interface : Interface) (r : Transacted (List UInt8)) (g : ServeAccount) : Prop :=
  ∃ request, r.error = errorSuccess ∧ r.req = some request ∧
    HasRequest interface request r.dataBuffer g

theorem acceptMessage_serves {call : StgCall} {payload dataBuffer : List UInt8} {origin : Origin}
    (h : WellFormed params interface call) :
    (serveRules params interface calls).Safe (Received interface)
      (some (⟨call.req, origin⟩,
        if call.req.kind = transactReadKind then .received
        else .handed (givenData params call.req payload)))
      (acceptMessage params dataBuffer (.whole call.req payload) origin) := by
  have hlength :
      Transfers call.req → ¬dataLength params call.req > params.maxTransferLength := by
    intro htransfers
    rw [gt_iff_lt, UInt32.not_lt, UInt32.le_iff_toNat_le, dataLength_toNat]
    exact Nat.le_trans (Nat.mod_le _ _) (h.length htransfers)
  unfold acceptMessage
  dsimp only
  by_cases hread : call.req.kind = transactReadKind
  · rw [if_pos hread, if_pos hread, if_neg (hlength (.inl hread))]
    refine .perform_bind ⟨rfl, rfl⟩ fun put hput => ?_
    obtain rfl : put = true := hput
    exact ⟨_, rfl, rfl, h.operation, h.hint, [], rfl, List.nil_prefix⟩
  · rw [if_neg hread, if_neg hread]
    by_cases hwrite : call.req.kind = transactWriteKind ∨ call.req.kind = transactUnmapKind
    · rw [if_pos hwrite, if_neg (hlength (.inr hwrite))]
      refine ⟨_, rfl, rfl, h.operation, h.hint, _, rfl, ?_⟩
      rw [givenData, if_pos hwrite]
      exact List.prefix_append _ _
    · rw [if_neg hwrite]
      refine ⟨_, rfl, rfl, h.operation, h.hint, _, rfl, ?_⟩
      rw [givenData, if_neg hwrite]
      exact List.nil_prefix

theorem readRequest_serves {connected : Int32} {dataBuffer : List UInt8} :
    (serveRules params interface calls).Safe (Received interface) none
      (Shared.readRequest params connected dataBuffer) := by
  refine .perform_bind ⟨rfl, rfl⟩ fun read hread => ?_
  obtain ⟨call, -, hcall, payload, origin, rfl⟩ := hread
  exact acceptMessage_serves hcall

theorem spdStorageUnitHandleTransactPipe_connected {response : Option Response} {req : Bool}
    {dataBuffer : Option (List UInt8)}
    {Q : Transacted (Option (List UInt8)) → ServeAccount → Prop}
    (hargs : ¬((!req ∧ response = none) ∨ (req ∧ dataBuffer = none)))
    (hrest : ∀ connected, (serveRules params interface calls).Safe Q g
      (transactConnected params connected response req dataBuffer)) :
    (serveRules params interface calls).Safe Q g
      (spdStorageUnitHandleTransactPipe params response req dataBuffer) := by
  unfold spdStorageUnitHandleTransactPipe
  rw [if_neg hargs]
  refine prepare_serves.bind fun error g₁ hg₁ => ?_
  obtain ⟨rfl, rfl⟩ := hg₁
  rw [if_neg (by decide)]
  refine connectSection_serves.bind fun x g₂ hg₂ => ?_
  obtain ⟨error, connected⟩ := x
  obtain ⟨herror, rfl⟩ := hg₂
  obtain rfl : error = errorSuccess := herror
  dsimp only
  rw [if_neg (by decide), if_neg (by decide)]
  exact hrest connected

/-- A dispatcher thread's call writes the response it is given, and returns a
request. -/
theorem spdStorageUnitHandleTransactPipe_receives {response : Option Response}
    {dataBuffer : List UInt8} (h : HasAnswer response (some dataBuffer) g) :
    (serveRules params interface calls).Safe
      (fun r g' => ∃ dataBuffer', r.dataBuffer = some dataBuffer' ∧
        Received interface ⟨r.error, r.req, dataBuffer'⟩ g') g
      (spdStorageUnitHandleTransactPipe params response true (some dataBuffer)) := by
  refine spdStorageUnitHandleTransactPipe_connected (by simp) fun connected => ?_
  refine (writeResponse_serves h).bind fun error g₁ hg₁ => ?_
  obtain ⟨rfl, rfl⟩ := hg₁
  rw [if_neg (by decide)]
  exact readRequest_serves.bind fun r g hr => ⟨_, rfl, hr⟩

theorem spdStorageUnitHandleTransactPipe_sends {response : Response}
    {dataBuffer : Option (List UInt8)} (h : HasAnswer (some response) dataBuffer g) :
    (serveRules params interface calls).Safe (fun r g' => r.error = errorSuccess ∧ g' = none) g
      (spdStorageUnitHandleTransactPipe params (some response) false dataBuffer) := by
  refine spdStorageUnitHandleTransactPipe_connected (by simp) fun connected => ?_
  refine (writeResponse_serves h).bind fun error g₁ hg₁ => ?_
  obtain ⟨rfl, rfl⟩ := hg₁
  rw [if_neg (by decide)]
  exact ⟨rfl, rfl⟩

theorem dispatch_serves {request : Request} {dataBuffer : List UInt8}
    (h : HasRequest interface request dataBuffer g) :
    (serveRules params interface calls).Safe
      (fun x g' => HasAnswer (if x.1 then some x.2.1 else none) (some x.2.2) g') g
      (dispatch (pipeCalls params) interface request dataBuffer) := by
  obtain ⟨hoperation, -, data, rfl, hprefix⟩ := h
  obtain ⟨call, hcall⟩ := Option.ne_none_iff_exists'.mp hoperation
  unfold dispatch
  rw [hcall]
  refine .perform_bind ⟨hcall, rfl, data, rfl, hprefix⟩ fun x _ => ?_
  obtain ⟨complete, status, dataBuffer'⟩ := x
  cases complete with
  | false => rfl
  | true => exact ⟨request, status, rfl, rfl⟩

theorem pipeDispatcher_serves {fuel : Nat} {dataBuffer : List UInt8} :
    (serveRules params interface calls).Safe (fun _ g => g = none) none
      (pipeDispatcher params interface fuel dataBuffer) := by
  -- the loop does not end
  have hloop : (serveRules params interface calls).Safe (fun _ _ => False) none
      (dispatcherLoop (pipeCalls params) interface fuel none dataBuffer) := by
    refine dispatcherLoop_buffer
      (J := fun response dataBuffer g => HasAnswer response (some dataBuffer) g)
      (H := HasRequest interface) (fun {response dataBuffer g} hg => ?_) dispatch_serves
      (fun _ => .perform_bind trivial fun _ h => h.elim) rfl
    refine (spdStorageUnitHandleTransactPipe_receives hg).bind fun r g hr => ?_
    obtain ⟨dataBuffer', hbuffer, request, herror, hreq, hrequest⟩ := hr
    have hreq : r.req = some request := hreq
    refine ⟨fun hne => hne herror, fun _ hhint => ?_, fun _ _ => ?_⟩
    · rw [hreq] at hhint
      exact absurd hhint hrequest.2.1
    · rw [hreq, hbuffer]
      exact hrequest
  exact hloop.bind fun _ g h => h.elim

theorem spdStorageUnitSendResponse_serves :
    (serveRules params interface calls).Safe (fun _ g => g = none) none
      (spdStorageUnitSendResponse params) := by
  refine .perform_bind rfl fun x _ => ?_
  obtain ⟨request, status, dataBuffer⟩ := x
  have hanswer : HasAnswer (some (responseTo request status)) dataBuffer
      (some (request, .answered status dataBuffer)) := ⟨request, status, rfl, rfl⟩
  refine (spdStorageUnitHandleTransactPipe_sends hanswer).bind fun r g hr => ?_
  rw [if_neg (not_not.mpr hr.1)]
  exact hr.2

theorem pipeEntry_serves {p : PipeProg Unit} (h : PipeEntry params interface p) :
    (serveRules params interface calls).Safe (fun _ => (serveRules params interface calls).Settled)
      (serveRules params interface calls).start p := by
  cases h with
  | dispatcher => exact pipeDispatcher_serves
  | sendResponse => exact spdStorageUnitSendResponse_serves
  | shutdown | clientOpen | clientClose | clientSend => exact ⟨trivial, fun _ _ => rfl⟩

end Winspd.Proofs
