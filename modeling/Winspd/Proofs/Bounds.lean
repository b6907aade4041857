import Winspd.Proofs.PipeClients
import Winspd.Proofs.PipeParts

/-!
# What a request from the pipe makes an operation transfer

The server checks the length of a request against the data buffer before it
hands the request out. It computes the length modulo `2 ^ 32`: as a product of
two `UINT32`, and for an unmap as a `size_t` that is stored in an `ULONG`. The
operation is told the count, and computes the length itself.

A call is looked at alone here, with every answer that its actions can give in
some state. Its account is the log of what happened (`logRules`).
-/

namespace Winspd.Proofs

open Winspd.Lib Winspd.Sys Winspd.Shared

/-- A call may do anything, and is told what can happen. Its account is the log
of it. -/
def logRules : Rules PipeAction PipeAction.Answer (List PipeEvent) where
  start := []
  track a r ls := ls ++ [.act a r]
  May _ _ := True
  Answers _ a r := ∃ s s', a.Exec s r s'
  Settled _ := True

/-- The bytes the operation for a request will transfer. -/
def operationLength (params : StorageUnitParams) (req : SpdIoctlTransactReq) : Nat :=
  if req.kind = transactUnmapKind then req.count.toNat * 16
  else req.blockCount.toNat * params.blockLength.toNat

/-- The operation for it has a data buffer. -/
def Transfers (req : SpdIoctlTransactReq) : Prop :=
  req.kind = transactReadKind ∨ req.kind = transactWriteKind ∨ req.kind = transactUnmapKind

/-- A response to a request is written with all its bytes, when this is taken
from the table of hints for it. -/
def ResponseCarries (params : StorageUnitParams) (request : Request) (value : UInt32) : Prop :=
  ∀ status req dataBuffer, dataBuffer.length = params.maxTransferLength.toNat →
    logRules.Safe (fun _ ls => .act (.takeHintValue (responseTo request status)) value ∈ ls →
        ∀ data error, .act (.writeFile (responseTo request status) data) error ∈ ls →
          data.length = operationLength params request.req)
      [] (spdStorageUnitHandleTransactPipe params (some (responseTo request status)) req
        (some dataBuffer))

/-- A call that reads this message and returns a request does not overrun the
data buffer with it. -/
def RequestBounded (params : StorageUnitParams) (message : Message) : Prop :=
  ∀ response dataBuffer,
    logRules.Safe (fun r ls => ∀ request size, r.error = errorSuccess → r.req = some request →
        .act (.readFile size) (.ok (message, request.origin)) ∈ ls →
        request.req.hint ≠ 0 → Transfers request.req →
          operationLength params request.req ≤ params.maxTransferLength.toNat ∧
            ∀ value, .act (.putHintValue request value) true ∈ ls →
              ResponseCarries params request value)
      [] (spdStorageUnitHandleTransactPipe params response true (some dataBuffer))

/-- The length is a 32-bit number, or does not look as if it fits the data
buffer, or the message does not fit the message buffer. -/
def LengthFits (params : StorageUnitParams) : Message → Prop
  | .short _ => True
  | .whole req payload =>
      req.hint ≠ 0 → Transfers req →
        operationLength params req < 2 ^ 32 ∨
          params.maxTransferLength.toNat < operationLength params req % 2 ^ 32 ∨
          (48 + params.maxTransferLength.toNat) % 2 ^ 32 < 48 + payload.length

variable {params : StorageUnitParams} {request : Request} {message : Message} {ls : List PipeEvent}

theorem dataLength_toNat (req : SpdIoctlTransactReq) :
    (dataLength params req).toNat = operationLength params req % 2 ^ 32 := by
  unfold dataLength operationLength
  split
  · have hlt := req.count.toNat_lt
    have hprod : (req.count.toUInt64 * sizeofUnmapDescriptor).toNat = req.count.toNat * 16 := by
      rw [UInt64.toNat_mul, UInt32.toNat_toUInt64, show sizeofUnmapDescriptor.toNat = 16 from rfl]
      exact Nat.mod_eq_of_lt (by omega)
    rw [UInt64.toNat_toUInt32, hprod]
  · exact UInt32.toNat_mul _ _

/-! ## What a call accepts -/

def Without (K : PipeAction → Prop) (ls : List PipeEvent) : Prop :=
  ∀ a r, .act a r ∈ ls → ¬ K a

theorem without_nil {K : PipeAction → Prop} : Without K [] := fun _ _ h =>
    absurd h List.not_mem_nil

theorem without_snoc {K : PipeAction → Prop} {a : PipeAction} {r : a.Answer} (h : Without K ls)
    (ha : ¬ K a) : Without K (ls ++ [.act a r]) := by
  intro a' r' hmem
  rcases List.mem_append.mp hmem with hmem | hmem
  · exact h a' r' hmem
  · cases List.mem_singleton.mp hmem
    exact ha

theorem stays_without {α : Type} {K X : PipeAction → Prop} {p : PipeProg α} (hp : p.Only X)
    (hX : ∀ a, X a → ¬ K a) (h : Without K ls) : logRules.Safe (fun _ => Without K) ls p :=
  .of_only hp (fun a _ ha h => ⟨trivial, fun _ _ => without_snoc h (hX a ha)⟩) h

theorem connects_not_requests (a : PipeAction) (h : Connects a) : ¬ Requests a := by
  cases a <;> first | exact h.elim | exact not_false

theorem responds_not_requests (a : PipeAction) (h : Responds a) : ¬ Requests a := by
  cases a <;> first | exact h.elim | exact not_false

theorem connects_not_responds (a : PipeAction) (h : Connects a) : ¬ Responds a := by
  cases a <;> first | exact h.elim | exact not_false

/-- This is the only message that has been read, and it fit the buffer. -/
def ReadOnly (params : StorageUnitParams) (x : Message × Origin) (ls : List PipeEvent) : Prop :=
  ∀ size y, .act (.readFile size) (.ok y) ∈ ls →
    y = x ∧ y.1.length ≤ (sizeofTransactMsg + params.maxTransferLength).toNat

/-- Only the length of this request has been put in the table. -/
def PutOnly (params : StorageUnitParams) (request : Request) (ls : List PipeEvent) : Prop :=
  ∀ request' value put, .act (.putHintValue request' value) put ∈ ls →
    value = dataLength params request.req

structure Accepted (params : StorageUnitParams) (request : Request)
    (ls : List PipeEvent) : Prop where
  message : ∃ payload, ReadOnly params (.whole request.req payload, request.origin) ls
  checked : Transfers request.req → dataLength params request.req ≤ params.maxTransferLength
  put : PutOnly params request ls

/-- A call returns no request, or one without a hint, or accepts one. -/
def Accepts {β : Type} (params : StorageUnitParams) (r : Transacted β)
    (ls : List PipeEvent) : Prop :=
  ∀ request, r.req = some request → request.req.hint ≠ 0 → Accepted params request ls

theorem accepts_zero {β : Type} {error : UInt32} {dataBuffer : β} (req : Bool) :
    Accepts params ⟨error, if req then some .zero else none, dataBuffer⟩ ls := by
  intro request heq hne
  cases req
  · cases heq
  · cases heq
    exact absurd rfl hne

theorem acceptMessage_accepts {dataBuffer : List UInt8} {origin : Origin}
    (hread : ReadOnly params (message, origin) ls)
    (hput : ∀ request value put, .act (.putHintValue request value) put ∉ ls) :
    logRules.Safe (Accepts params) ls (acceptMessage params dataBuffer message origin) := by
  cases message with
  | short _ => exact accepts_zero true
  | whole req payload =>
      have haccepted : ∀ {ls}, ReadOnly params (.whole req payload, origin) ls →
          PutOnly params ⟨req, origin⟩ ls →
          (Transfers req → dataLength params req ≤ params.maxTransferLength) →
          ∀ {dataBuffer : List UInt8}, Accepts params
            ⟨errorSuccess, some ⟨req, origin⟩, dataBuffer⟩ ls := by
        intro ls hread hput hchecked dataBuffer request heq _
        cases heq
        exact ⟨⟨payload, hread⟩, hchecked, hput⟩
      have hnone : PutOnly params ⟨req, origin⟩ ls := fun request value put hmem =>
        absurd hmem (hput request value put)
      unfold acceptMessage
      dsimp only
      split
      · split
        · exact accepts_zero true
        · next hle =>
            refine .perform_bind trivial fun put _ => ?_
            split
            · refine haccepted (fun size y hmem => ?_) (fun request value put' hmem => ?_)
                (fun _ => UInt32.not_lt.mp hle)
              · rcases List.mem_append.mp hmem with hmem | hmem
                · exact hread size y hmem
                · cases List.mem_singleton.mp hmem
              · rcases List.mem_append.mp hmem with hmem | hmem
                · exact hnone request value put' hmem
                · cases List.mem_singleton.mp hmem
                  rfl
            · exact accepts_zero true
      · split
        · split
          · exact accepts_zero true
          · next hle => exact haccepted hread hnone fun _ => UInt32.not_lt.mp hle
        · next hread' hwrite =>
            refine haccepted hread hnone fun htransfers => ?_
            rcases htransfers with h | h | h
            · exact absurd h hread'
            · exact absurd (.inl h) hwrite
            · exact absurd (.inr h) hwrite

theorem exec_readFile {s s' : PipeServer} {size : UInt32} {x : Message × Origin}
    (h : PipeAction.Exec s (.readFile size) (.ok x) s') : x.1.length ≤ size.toNat := by
  obtain ⟨c, h⟩ := h
  cases c with
  | ends error =>
      simp only [PipeAction.exec] at h
      split at h
      · split at h
        · cases h
        · split at h
          · next hle =>
              cases h
              exact hle
          · cases h
      · cases h
  | splits rest =>
      simp only [PipeAction.exec] at h
      split at h
      · cases h
      · split at h <;> cases h
  | _ => cases h

theorem readRequest_accepts {connected : Int32} {dataBuffer : List UInt8}
    (h : Without Requests ls) :
    logRules.Safe (Accepts params) ls (readRequest params connected dataBuffer) := by
  refine .perform_bind trivial fun read hexec => ?_
  cases read with
  | error error =>
      refine .perform_bind trivial fun _ _ => ?_
      exact accepts_zero true
  | ok x =>
      obtain ⟨message, origin⟩ := x
      refine acceptMessage_accepts (fun size y hmem => ?_) fun request value put hmem => ?_
      · rcases List.mem_append.mp hmem with hmem | hmem
        · exact absurd trivial (h _ _ hmem)
        · cases List.mem_singleton.mp hmem
          obtain ⟨s, s', hexec⟩ := hexec
          exact ⟨rfl, exec_readFile hexec⟩
      · rcases List.mem_append.mp hmem with hmem | hmem
        · exact h _ _ hmem trivial
        · cases List.mem_singleton.mp hmem

theorem spdStorageUnitHandleTransactPipe_accepts {response : Option Response}
    {dataBuffer : List UInt8} :
    logRules.Safe (Accepts params) []
      (spdStorageUnitHandleTransactPipe params response true (some dataBuffer)) := by
  have hnone :
      ∀ {error ls}, Accepts params (⟨error, none, some dataBuffer⟩ : Transacted _) ls :=
    accepts_zero false
  unfold spdStorageUnitHandleTransactPipe
  split
  · exact hnone
  · refine (stays_without prepare_connects connects_not_requests without_nil).bind
      fun error ls h => ?_
    split
    · exact hnone
    · refine (stays_without connectSection_connects connects_not_requests h).bind fun x ls h => ?_
      obtain ⟨error, connected⟩ := x
      dsimp only
      split
      · exact accepts_zero true
      · split
        · exact hnone
        · refine (stays_without writeResponse_responds responds_not_requests h).bind
            fun error ls h => ?_
          split
          · refine .perform_bind trivial fun _ _ => ?_
            exact accepts_zero true
          · exact (readRequest_accepts h).bind fun r ls hr => hr

/-! ## What a response carries -/

/-- Once this value has been taken, everything written has this length. -/
def Carried (response : Response) (value : UInt32) (length : Nat) (ls : List PipeEvent) : Prop :=
  .act (.takeHintValue response) value ∈ ls →
    ∀ data error, .act (.writeFile response data) error ∈ ls → data.length = length

variable {response : Response} {value : UInt32} {length : Nat}

theorem Carried.of_without (h : Without Responds ls) : Carried response value length ls :=
  fun hmem => absurd trivial (h _ _ hmem)

theorem Carried.snoc {a : PipeAction} {r : a.Answer} (h : Carried response value length ls)
    (ha : ¬ Responds a) : Carried response value length (ls ++ [.act a r]) := by
  intro htake data error hwrite
  refine h ?_ data error ?_
  · refine (List.mem_append.mp htake).resolve_right fun heq => ?_
    cases List.mem_singleton.mp heq
    exact ha trivial
  · refine (List.mem_append.mp hwrite).resolve_right fun heq => ?_
    cases List.mem_singleton.mp heq
    exact ha trivial

theorem stays_carried {α : Type} {p : PipeProg α} (hp : p.Only Requests)
    (h : Carried response value length ls) :
    logRules.Safe (fun _ => Carried response value length) ls p := by
  refine .of_only hp (fun a _ ha h => ⟨trivial, fun _ _ => h.snoc ?_⟩) h
  cases a <;> first | exact ha.elim | exact not_false

theorem writeResponse_carries {dataBuffer : List UInt8} (h : Without Responds ls)
    (hlength : (dataBuffer.take value.toNat).length = length) :
    logRules.Safe (fun _ => Carried response value length) ls
      (writeResponse (some response) (some dataBuffer)) := by
  unfold writeResponse
  dsimp only
  split
  · refine .perform_bind trivial fun taken _ => ⟨trivial, fun error _ => ?_⟩
    intro htake data error' hwrite
    have htaken : value = taken := by
      rcases List.mem_append.mp htake with htake | htake
      · rcases List.mem_append.mp htake with htake | htake
        · exact absurd trivial (h _ _ htake)
        · cases List.mem_singleton.mp htake
          rfl
      · cases List.mem_singleton.mp htake
    rcases List.mem_append.mp hwrite with hwrite | hwrite
    · rcases List.mem_append.mp hwrite with hwrite | hwrite
      · exact absurd trivial (h _ _ hwrite)
      · cases List.mem_singleton.mp hwrite
    · cases List.mem_singleton.mp hwrite
      rw [← htaken]
      exact hlength
  · refine ⟨trivial, fun error _ => fun htake => ?_⟩
    rcases List.mem_append.mp htake with htake | htake
    · exact absurd trivial (h _ _ htake)
    · cases List.mem_singleton.mp htake

/-- A response has all its bytes, when the value is the length and the buffer
has it. -/
theorem response_carries (hvalue : value.toNat = operationLength params request.req)
    (hle : operationLength params request.req ≤ params.maxTransferLength.toNat) :
    ResponseCarries params request value := by
  intro status req dataBuffer hbuffer
  have hlength : (dataBuffer.take value.toNat).length = operationLength params request.req := by
    rw [List.length_take, hvalue, hbuffer]
    omega
  unfold spdStorageUnitHandleTransactPipe
  split
  · exact Carried.of_without without_nil
  · refine (stays_without prepare_connects connects_not_responds without_nil).bind fun _ ls h => ?_
    split
    · exact Carried.of_without h
    · refine (stays_without connectSection_connects connects_not_responds h).bind fun x ls h => ?_
      obtain ⟨error, connected⟩ := x
      dsimp only
      split
      · exact Carried.of_without h
      · split
        · exact Carried.of_without h
        · refine (writeResponse_carries h hlength).bind fun error ls h => ?_
          split
          · exact stays_carried disconnect_requests h
          · split
            · exact (stays_carried readRequest_requests h).bind fun r ls h => h
            · exact h

/-! ## A length that wraps around -/

/-- A request that transfers data is returned, when its message has been read
and what the server computes fits. -/
theorem acceptMessage_returns {Q : Transacted (List UInt8) → List PipeEvent → Prop}
    {dataBuffer payload : List UInt8} {req : SpdIoctlTransactReq} {origin : Origin}
    (h : logRules.Safe Q ls (acceptMessage params dataBuffer (.whole req payload) origin))
    (htransfers : Transfers req) (hle : dataLength params req ≤ params.maxTransferLength) :
    ∃ dataBuffer ls', Q ⟨errorSuccess, some ⟨req, origin⟩, dataBuffer⟩ (ls ++ ls') := by
  have hnot : ¬ dataLength params req > params.maxTransferLength := UInt32.not_lt.mpr hle
  unfold acceptMessage at h
  dsimp only at h
  by_cases hread : req.kind = transactReadKind
  · rw [if_pos hread, if_neg hnot] at h
    have hput :
        ∃ s s', PipeAction.Exec s
          (.putHintValue ⟨req, origin⟩ (dataLength params req)) true s' :=
      ⟨.init, _, .ends errorSuccess, rfl⟩
    exact ⟨_, _, h.2 true hput⟩
  · have hother := htransfers.resolve_left hread
    rw [if_neg hread, if_pos hother, if_neg hnot] at h
    exact ⟨_, [], by rwa [List.append_nil]⟩

/-- With a client and without an error, a call reads the message. -/
theorem call_reads {Q : Transacted (Option (List UInt8)) → List PipeEvent → Prop}
    (origin : Origin)
    (hfits : message.length ≤ (sizeofTransactMsg + params.maxTransferLength).toNat)
    (h : logRules.Safe Q [] (spdStorageUnitHandleTransactPipe params none true (some []))) :
    ∃ ls size, .act (.readFile size) (.ok (message, origin)) ∈ ls ∧
      logRules.Safe (fun r => Q ⟨r.error, r.req, some r.dataBuffer⟩) ls
        (acceptMessage params [] message origin) := by
  have h₁ := h.2 errorSuccess ⟨.init, _, .ends errorSuccess, rfl⟩
  have h₂ := h₁.2 true ⟨.init, _, .ends errorSuccess, rfl⟩
  have h₃ := h₂.2 true ⟨.init, _, .ends errorSuccess, rfl⟩
  have h₄ := h₃.2 1 ⟨{ PipeServer.init with connected := 1 }, _, .ends errorSuccess, rfl⟩
  have h₅ := h₄.2 1 ⟨{ PipeServer.init with connected := 1 }, _, .ends errorSuccess, rfl⟩
  have hread :
      ∃ s s', PipeAction.Exec s (.readFile (sizeofTransactMsg + params.maxTransferLength))
      (.ok (message, origin)) s' :=
    ⟨{ PipeServer.init with inbox := [(message, origin)] }, _, .ends errorSuccess, if_pos hfits⟩
  obtain ⟨ls, h₆⟩ : ∃ ls, logRules.Safe Q
      (ls ++ [.act (.readFile (sizeofTransactMsg + params.maxTransferLength))
        (.ok (message, origin))])
      (acceptMessage params [] message origin >>= fun r =>
        pure ⟨r.error, r.req, some r.dataBuffer⟩) :=
          ⟨_, h₅.2 (.ok (message, origin)) hread⟩
  exact ⟨_, _, List.mem_append_right _ (List.mem_singleton_self _), h₆.of_bind⟩

theorem buffer_toNat : (sizeofTransactMsg + params.maxTransferLength).toNat =
    (48 + params.maxTransferLength.toNat) % 2 ^ 32 := UInt32.toNat_add _ _

theorem lengthFits_of_bounded (h : RequestBounded params message) : LengthFits params message := by
  cases message with
  | short length => trivial
  | whole req payload =>
      intro hhint htransfers
      by_contra hnot
      rw [not_or, not_or, Nat.not_lt, Nat.not_lt, Nat.not_lt] at hnot
      obtain ⟨hwraps, hle, hfits⟩ := hnot
      have hle' : dataLength params req ≤ params.maxTransferLength := by
        rw [UInt32.le_iff_toNat_le, dataLength_toNat]
        exact hle
      have hfits' : (Message.whole req payload).length ≤
          (sizeofTransactMsg + params.maxTransferLength).toNat := by rwa [buffer_toNat]
      obtain ⟨ls, size, hread, haccept⟩ := call_reads ⟨0, 0⟩ hfits' (h none [])
      obtain ⟨dataBuffer, ls', hbounded⟩ := acceptMessage_returns haccept htransfers hle'
      have hmax := params.maxTransferLength.toNat_lt
      have hover : operationLength params req ≤ params.maxTransferLength.toNat :=
        (hbounded _ size rfl rfl (List.mem_append_left _ hread) hhint htransfers).1
      omega

theorem bounded_of_lengthFits (h : LengthFits params message) : RequestBounded params message := by
  intro response dataBuffer
  refine spdStorageUnitHandleTransactPipe_accepts.mono fun r ls hr request size _ hreq hread hhint
    htransfers => ?_
  obtain ⟨⟨payload, honly⟩, hchecked, hput⟩ := hr request hreq hhint
  obtain ⟨heq, hfits⟩ := honly size _ hread
  obtain rfl := (Prod.mk.inj heq).1
  have hle := UInt32.le_iff_toNat_le.mp (hchecked htransfers)
  rw [dataLength_toNat] at hle
  have hsmall : operationLength params request.req < 2 ^ 32 := by
    rcases h hhint htransfers with hsmall | hbig | hlong
    · exact hsmall
    · omega
    · have hlength : 48 + payload.length ≤ (48 + params.maxTransferLength.toNat) % 2 ^ 32 := by
        rw [← buffer_toNat]
        exact hfits
      omega
  rw [Nat.mod_eq_of_lt hsmall] at hle
  refine ⟨hle, fun value hmem => response_carries ?_ hle⟩
  rw [hput _ _ _ hmem, dataLength_toNat, Nat.mod_eq_of_lt hsmall]

/-- A call does not overrun the data buffer if and only if the length fits. -/
theorem requests_bounded : RequestBounded params message ↔ LengthFits params message :=
  ⟨lengthFits_of_bounded, bounded_of_lengthFits⟩

def hugeRead : SpdIoctlTransactReq := ⟨7, transactReadKind, 0, 0x800000, false⟩

/-- A client sends it, and the operation is called. -/
def readHuge : Schedule :=
  firstRequest hugeRead ++ turns 0 2 ++ [(.returns true none [], .turn 0)]

/-- The operation is told to read 4 GB. -/
theorem requests_bounded_wraps :
    ¬ RequestBounded sampleParams (.whole hugeRead []) ∧
      operationLength sampleParams hugeRead = 2 ^ 32 ∧
      ∃ ls w, Run (RequestStep sampleParams allOperations) requestInit ls w ∧
        .act (.operation (.read 0 0x800000 false) ⟨hugeRead, ⟨1, 0⟩⟩ zeroStatus [])
          (true, zeroStatus, []) ∈ ls := by
  refine ⟨fun h => ?_, by decide, ?_⟩
  · have hcases := lengthFits_of_bounded h (by decide) (.inl rfl)
    revert hcases
    decide
  · have hfinal : (Threads.plays (requestRules sampleParams) (fun c s a => a.exec s c)
        (fun _ _ _ => true) [] requestInit readHuge).map (fun x => x.1.getLast?) =
        some (some
          (.act (.operation (.read 0 0x800000 false) ⟨hugeRead, ⟨1, 0⟩⟩ zeroStatus [])
          (true, zeroStatus, []))) := by rfl
    obtain ⟨⟨ls, w⟩, hplays, hlast⟩ := Option.map_eq_some_iff.mp hfinal
    have hrun : RunWhen _ (fun _ _ _ => True) _ ls w :=
      requestPlays_run (fun _ _ _ _ => trivial) hplays
    exact ⟨ls, w, hrun.run, List.mem_of_getLast? hlast⟩

end Winspd.Proofs
