import Winspd.Proofs.Serving

/-!
# The pipe is transparent

One client, which makes its calls one after the other, and a unit whose threads
serve it. Each call of the client is one call of an operation, with what the
client has passed, and it returns what was answered. The client could have
called the operation itself.

At any time one request is under way at most, and it is in one place: in the
pipe, with one thread, or with user code (`CallPhase`). `ServedCalls` is what the
history says was called and answered.

The two ends compute the size of a message buffer as a 32-bit number. From
`MaxTransferLength + 48 = 2 ^ 32` on it is smaller than the smallest message, and
no request is read at all.
-/

namespace Winspd.Proofs

open Winspd.Lib Winspd.Sys Winspd.Shared Winspd.Stgtest

variable {params : StorageUnitParams} {interface : Interface} {calls : List StgCall}
  {call : StgCall}

/-! ## The two ends of a call -/

/-- What the operation would find at the front of its data buffer. -/
def directData (params : StorageUnitParams) (call : StgCall) : List UInt8 :=
  if call.req.kind = transactWriteKind ∨ call.req.kind = transactUnmapKind then
    match call.dataBuffer with
    | none => List.replicate (operationLength params call.req) 0
    | some dataBuffer => dataBuffer.take (operationLength params call.req)
  else []

/-- What the client would get from an operation that answers with this status,
and has left this in its data buffer. -/
def directResult (params : StorageUnitParams) (call : StgCall)
    (answer : StorageUnitStatus × Option (List UInt8)) : TransactRsp × Option (List UInt8) :=
  (⟨call.req.hint, call.req.kind, answer.1⟩,
    if call.req.kind = transactReadKind ∧ answer.1.scsiStatus = scsistatGood then
      call.dataBuffer.map fun dataBuffer =>
        (answer.2.getD []).take (operationLength params call.req) ++
          dataBuffer.drop (operationLength params call.req)
    else call.dataBuffer)

/-- What goes over the pipe after `Rsp`. -/
def responseData (params : StorageUnitParams) (call : StgCall)
    (dataBuffer : Option (List UInt8)) : List UInt8 :=
  if call.req.kind = transactReadKind then
    (dataBuffer.getD []).take (operationLength params call.req)
  else []

theorem WellFormed.dataLength (h : WellFormed params interface call)
    (htransfers : Transfers call.req) :
    (Shared.dataLength params call.req).toNat = operationLength params call.req := by
  have hle := h.length htransfers
  have hlt := params.maxTransferLength.toNat_lt
  rw [dataLength_toNat]
  exact Nat.mod_eq_of_lt (by omega)

theorem stgMessage_payload {payload : List UInt8} (hpayload : stgPayload params call = some payload)
    (hlt : 48 + payload.length < 2 ^ 32) :
    stgMessage params call = some (.whole call.req payload) := by
  have hlen : (UInt32.ofNat payload.length).toNat = payload.length :=
    UInt32.toNat_ofNat_of_lt (by rw [UInt32.size]; omega)
  have hsize : (sizeofTransactMsg + UInt32.ofNat payload.length).toNat = 48 + payload.length := by
    rw [UInt32.toNat_add, hlen]
    exact Nat.mod_eq_of_lt hlt
  have hnot : ¬sizeofTransactMsg + UInt32.ofNat payload.length < sizeofTransactMsg := by
    rw [UInt32.lt_iff_toNat_lt, hsize]
    exact Nat.not_lt.mpr (Nat.le_add_right 48 _)
  have hrest : (sizeofTransactMsg + UInt32.ofNat payload.length - sizeofTransactMsg).toNat =
      payload.length := by
    rw [UInt32.add_comm, UInt32.add_sub_cancel, hlen]
  rw [stgMessage, hpayload, Option.map_some]
  dsimp only
  rw [dif_neg hnot, hrest, List.take_length]

theorem stgPayload_wellFormed (h : WellFormed params interface call) :
    ∃ payload, stgPayload params call = some payload ∧
      payload.length ≤ params.maxTransferLength.toNat ∧
      givenData params call.req payload = directData params call := by
  unfold stgPayload givenData directData
  by_cases hwrite : call.req.kind = transactWriteKind ∨ call.req.kind = transactUnmapKind
  · have htransfers : Transfers call.req := .inr hwrite
    have hlength := h.dataLength htransfers
    have hwritten : stgWriteLength params call.req = Shared.dataLength params call.req := by
      unfold stgWriteLength Shared.dataLength
      rcases hwrite with hk | hk <;> rw [hk] <;> rfl
    rw [if_pos hwrite, hlength]
    cases hbuffer : call.dataBuffer with
    | none =>
        refine ⟨[], rfl, Nat.zero_le _, ?_⟩
        rw [if_pos hwrite, List.take_nil, List.nil_append]
        rfl
    | some dataBuffer =>
        have hle := h.length htransfers
        have hhas := h.buffer htransfers (.inr (by rw [hbuffer]; exact Option.some_ne_none _))
        rw [hbuffer, Option.getD_some] at hhas
        have hfits : ¬stgWriteLength params call.req > params.maxTransferLength := by
          rw [hwritten, gt_iff_lt, UInt32.not_lt, UInt32.le_iff_toNat_le, hlength]
          exact hle
        refine ⟨dataBuffer.take (operationLength params call.req), ?_, ?_, ?_⟩
        · dsimp only
          rw [if_neg hfits, hwritten, hlength, readAt_eq_some, List.drop_zero]
          exact ⟨by omega, rfl⟩
        · rw [List.length_take]
          omega
        · rw [if_pos hwrite, List.take_take, Nat.min_self, List.length_take, Nat.min_eq_left hhas,
            Nat.sub_self, List.replicate_zero, List.append_nil]
  · have hzero : stgWriteLength params call.req = 0 := by
      unfold stgWriteLength
      rw [if_neg (fun hk => hwrite (.inl hk)), if_neg (fun hk => hwrite (.inr hk))]
    refine ⟨[], ?_, Nat.zero_le _, by rw [if_neg hwrite, if_neg hwrite]⟩
    cases call.dataBuffer with
    | none => rfl
    | some dataBuffer =>
        dsimp only
        rw [hzero, if_neg (UInt32.not_lt.mpr (UInt32.zero_le))]
        exact readAt_eq_some.mpr ⟨Nat.zero_le _, rfl⟩

theorem stgMessage_wellFormed (hM : params.maxTransferLength.toNat + 48 < 2 ^ 32)
    (h : WellFormed params interface call) :
    ∃ payload, stgMessage params call = some (.whole call.req payload) ∧
      payload.length ≤ params.maxTransferLength.toNat ∧
      givenData params call.req payload = directData params call := by
  obtain ⟨payload, hpayload, hle, hgiven⟩ := stgPayload_wellFormed h
  exact ⟨payload, stgMessage_payload hpayload (by omega), hle, hgiven⟩

/-- The client makes of the response what it would have got itself. -/
theorem stgResponse_wellFormed (hM : params.maxTransferLength.toNat + 48 < 2 ^ 32)
    (h : WellFormed params interface call) {status : StorageUnitStatus}
    {dataBuffer : Option (List UInt8)}
    (hbuffer : call.req.kind = transactReadKind →
      operationLength params call.req ≤ (dataBuffer.getD []).length) :
    stgResponse params call ⟨call.req.hint, call.req.kind, status⟩
        (responseData params call dataBuffer) =
      some (.ok (directResult params call (status, dataBuffer))) := by
  have hsize : (sizeofTransactMsg + params.maxTransferLength).toNat =
      48 + params.maxTransferLength.toNat := by
    rw [buffer_toNat]
    exact Nat.mod_eq_of_lt (by omega)
  have hdata : ¬(sizeofTransactMsg + params.maxTransferLength).toNat <
      sizeofTransactMsg.toNat + (responseData params call dataBuffer).length := by
    have h48 : sizeofTransactMsg.toNat = 48 := rfl
    rw [hsize, h48, responseData]
    split
    · next hread =>
        have hle := h.length (.inl hread)
        rw [List.length_take]
        omega
    · rw [List.length_nil]
      omega
  rw [stgResponse, if_neg hdata, directResult]
  dsimp only
  rw [if_neg (not_not.mpr rfl)]
  by_cases hgood : call.req.kind = transactReadKind ∧ status.scsiStatus = scsistatGood
  · have htransfers : Transfers call.req := .inl hgood.1
    have hlength := h.dataLength htransfers
    have hproduct : call.req.blockCount * params.blockLength =
        Shared.dataLength params call.req := by
      rw [Shared.dataLength, hgood.1]
      rfl
    have hfits : ¬Shared.dataLength params call.req > params.maxTransferLength := by
      rw [gt_iff_lt, UInt32.not_lt, UInt32.le_iff_toNat_le, hlength]
      exact h.length htransfers
    have hhas := h.buffer htransfers (.inl hgood.1)
    have hanswer := hbuffer hgood.1
    rw [if_pos hgood, if_pos hgood, hproduct, if_neg hfits, hlength, responseData, if_pos hgood.1]
    cases hclient : call.dataBuffer with
    | none =>
        rw [hclient, Option.getD_none, List.length_nil] at hhas
        have hzero : Shared.dataLength params call.req = 0 := by
          rw [← UInt32.toNat_inj, hlength, Nat.le_zero.mp hhas]
          rfl
        dsimp only
        rw [if_pos hzero]
        rfl
    | some buffer =>
        rw [hclient, Option.getD_some] at hhas
        have htake : ((dataBuffer.getD []).take (operationLength params call.req)).length =
            operationLength params call.req := by
          rw [List.length_take]
          omega
        dsimp only
        rw [if_neg (Nat.not_lt.mpr hhas), fillBuffer, htake, Nat.sub_self, List.replicate_zero,
          List.append_nil, List.take_take, Nat.min_self]
        rfl
  · rw [if_neg hgood, if_neg hgood]

/-! ## What the history says -/

/-- The calls of operations with their data buffers, and what was answered. -/
structure ServedCalls where
  called : List (OperationCall × List UInt8)
  answers : List (StorageUnitStatus × Option (List UInt8))

def serveStep (v : ServedCalls) : PipeEvent → ServedCalls
  | .act (.operation call _ _ dataBuffer) (complete, status, dataBuffer') =>
      ⟨v.called ++ [(call, dataBuffer)],
        if complete = true then v.answers ++ [(status, some dataBuffer')] else v.answers⟩
  | .act .takePending (_, status, dataBuffer) =>
      { v with answers := v.answers ++ [(status, dataBuffer)] }
  | _ => v

def servedCalls (ls : List PipeEvent) : ServedCalls := ls.foldl serveStep ⟨[], []⟩

theorem servedCalls_snoc {ls : List PipeEvent} {ev : PipeEvent} :
    servedCalls (ls ++ [ev]) = serveStep (servedCalls ls) ev := by
  rw [servedCalls, List.foldl_append]
  rfl

abbrev ServeThreads := Threads PipeAction PipeAction.Answer PipeServer ServeAccount

abbrev ServeStep (params : StorageUnitParams) (interface : Interface) (calls : List StgCall) :
    ServeThreads → PipeEvent → ServeThreads → Prop :=
  Threads.Step (serveRules params interface calls) PipeAction.Exec (PipeEntry params interface)

def serveInit : ServeThreads := ⟨.init, []⟩

/-- The pipe loses nothing, and there is memory; an operation leaves the data
buffer of its thread as long as it was, and who answers a Read later has a buffer
for it. The client stays, and makes these calls one after the other. -/
def ClientMeets (params : StorageUnitParams) (calls : List StgCall) (s : PipeServer) :
    PipeEvent → Prop
  | .act .overlappedInit error => error = errorSuccess
  | .act .memAlloc msg => msg = true
  | .act .connectNamedPipe error => error = s.pipe.connectError
  | .act .waitConnect error => error = errorSuccess
  | .act .writeParams error => error = errorSuccess
  | .act (.writeFile ..) error => error = errorSuccess
  | .act (.readFile size) (.error _) =>
      ∃ message origin inbox, s.inbox = (message, origin) :: inbox ∧ size.toNat < message.length
  | .act (.putHintValue request _) put =>
      put = false → s.hashBuckets.get hashIndex request.req.hint ≠ none
  | .act (.operation ..) (_, _, dataBuffer) => dataBuffer.length = params.maxTransferLength.toNat
  | .act .takePending (request, _, dataBuffer) =>
      request.req.kind = transactReadKind →
        operationLength params request.req ≤ (dataBuffer.getD []).length ∧ dataBuffer ≠ none
  | .act (.clientSend message) _ =>
      s.nextId = s.delivered.length ∧
        ∃ call, calls[s.nextId]? = some call ∧ stgMessage params call = some message
  | .act .shutdown _ => False
  | .act .clientClose _ => False
  | _ => True

abbrev ClientStep (params : StorageUnitParams) (interface : Interface) (calls : List StgCall)
    (w : ServeThreads) (ev : PipeEvent) (w' : ServeThreads) : Prop :=
  ServeStep params interface calls w ev w' ∧ ClientMeets params calls w.shared ev

/-! ## Where the request is -/

def callsHeld (gs : List ServeAccount) : List (Request × ServeStage) := gs.filterMap id

theorem callsHeld_perm {gs gs' : List ServeAccount} (hperm : gs.Perm gs') :
    (callsHeld gs).Perm (callsHeld gs') := hperm.filterMap _

/-- The table has the request, when it is a Read, and nothing else. -/
def HasHint (params : StorageUnitParams) (call : StgCall) (T : HashBuckets) : Prop :=
  ∀ hint, T.get hashIndex hint =
    if call.req.kind = transactReadKind ∧ hint = call.req.hint then
      some (Shared.dataLength params call.req)
    else none

def NoHint (T : HashBuckets) : Prop := ∀ hint, T.get hashIndex hint = none

def CallAnswered (params : StorageUnitParams) (call : StgCall) (v : ServedCalls) (n : Nat)
    (answer : StorageUnitStatus × Option (List UInt8)) : Prop :=
  v.called.length = n + 1 ∧ v.answers.length = n + 1 ∧ v.answers[n]? = some answer ∧
    (call.req.kind = transactReadKind →
      operationLength params call.req ≤ (answer.2.getD []).length ∧ answer.2 ≠ none)

/-- What holds while a thread has request `n`. -/
def StageOk (params : StorageUnitParams) (call : StgCall) (v : ServedCalls) (n : Nat)
    (T : HashBuckets) : ServeStage → Prop
  | .received =>
      call.req.kind = transactReadKind ∧ v.called.length = n ∧ v.answers.length = n ∧ NoHint T
  | .handed data =>
      data = directData params call ∧ v.called.length = n ∧ v.answers.length = n ∧
        HasHint params call T
  | .answered status dataBuffer =>
      CallAnswered params call v n (status, dataBuffer) ∧ HasHint params call T
  | .taken status dataBuffer length =>
      CallAnswered params call v n (status, some dataBuffer) ∧
        length.toNat = operationLength params call.req ∧ NoHint T

/-- The request that is under way is in one place. -/
inductive CallPhase (params : StorageUnitParams) (calls : List StgCall) (v : ServedCalls)
    (t : Traffic) (T : HashBuckets) (held : List (Request × ServeStage)) : Prop
  | idle (hinbox : t.inbox = []) (hpending : t.pending = []) (hheld : held = [])
      (hsent : t.nextId = t.delivered.length) (hcalled : v.called.length = t.delivered.length)
      (hanswers : v.answers.length = t.delivered.length) (htable : NoHint T)
  | sent {call : StgCall} {message : Message} {origin : Origin}
      (hcall : calls[t.delivered.length]? = some call)
      (hmessage : stgMessage params call = some message) (hinbox : t.inbox = [(message, origin)])
      (hpending : t.pending = []) (hheld : held = []) (hsent : t.nextId = t.delivered.length + 1)
      (hcalled : v.called.length = t.delivered.length)
      (hanswers : v.answers.length = t.delivered.length) (htable : NoHint T)
  | held {call : StgCall} {origin : Origin} {stage : ServeStage}
      (hcall : calls[t.delivered.length]? = some call) (hinbox : t.inbox = [])
      (hpending : t.pending = []) (hheld : held = [(⟨call.req, origin⟩, stage)])
      (hsent : t.nextId = t.delivered.length + 1)
      (hstage : StageOk params call v t.delivered.length T stage)
  | parked {call : StgCall} {origin : Origin} (hcall : calls[t.delivered.length]? = some call)
      (hinbox : t.inbox = []) (hpending : t.pending = [⟨call.req, origin⟩]) (hheld : held = [])
      (hsent : t.nextId = t.delivered.length + 1)
      (hcalled : v.called.length = t.delivered.length + 1)
      (hanswers : v.answers.length = t.delivered.length) (htable : HasHint params call T)

/-- Every operation was called with what the client has passed. -/
def CalledOk (params : StorageUnitParams) (interface : Interface) (calls : List StgCall)
    (v : ServedCalls) : Prop :=
  ∀ (i : Nat) (call : StgCall) (x : OperationCall × List UInt8),
    calls[i]? = some call → v.called[i]? = some x →
    interface.call call.req = some x.1 ∧ directData params call <+: x.2

def ReturnedOk (params : StorageUnitParams) (calls : List StgCall) (v : ServedCalls)
    (delivered : List Delivered) : Prop :=
  ∀ (i : Nat) (call : StgCall) (d : Delivered)
    (answer : StorageUnitStatus × Option (List UInt8)),
    calls[i]? = some call → delivered[i]? = some d → v.answers[i]? = some answer →
    stgResponse params call d.response.rsp d.data =
      some (.ok (directResult params call answer))

structure ServeInv (params : StorageUnitParams) (interface : Interface) (calls : List StgCall)
    (v : ServedCalls) (s : PipeServer) (gs : List ServeAccount) : Prop where
  listed : s.listed = true
  pipe : s.pipe = .listening ∧ s.nextId = 0 ∨ s.pipe = .connected
  ok : s.hashBuckets.Ok hashIndex
  phase : CallPhase params calls v (traffic s) s.hashBuckets (callsHeld gs)
  called : CalledOk params interface calls v
  returned : ReturnedOk params calls v s.delivered

variable {v : ServedCalls} {s s' : PipeServer} {t : Traffic} {T T' : HashBuckets}
  {gs gs' : List ServeAccount} {held held' : List (Request × ServeStage)}
  {x : Request × ServeStage} {ls : List PipeEvent} {w w' : ServeThreads}

theorem getElem?_snoc {α : Type*} {xs : List α} {x y : α} {i : Nat}
    (h : (xs ++ [x])[i]? = some y) : xs[i]? = some y ∨ i = xs.length ∧ y = x := by
  rw [List.getElem?_append] at h
  split at h
  · exact .inl h
  · next hle =>
      obtain ⟨hlt, heq⟩ := List.getElem?_eq_some_iff.mp h
      rw [List.length_singleton] at hlt
      have hzero : i - xs.length = 0 := by omega
      simp only [hzero, List.getElem_cons_zero] at heq
      exact .inr ⟨by omega, heq.symm⟩

theorem CalledOk.snoc {n : Nat} {y : OperationCall × List UInt8}
    {answers : List (StorageUnitStatus × Option (List UInt8))}
    (h : CalledOk params interface calls v) (hn : v.called.length = n)
    (hcall : calls[n]? = some call) (hy : interface.call call.req = some y.1)
    (hstart : directData params call <+: y.2) :
    CalledOk params interface calls ⟨v.called ++ [y], answers⟩ := by
  intro i call' z hi hz
  rcases getElem?_snoc hz with hz | ⟨hlen, rfl⟩
  · exact h i call' z hi hz
  · rw [hlen, hn, hcall] at hi
    cases hi
    exact ⟨hy, hstart⟩

theorem ReturnedOk.answer {delivered : List Delivered} {called : List (OperationCall × List UInt8)}
    {answer : StorageUnitStatus × Option (List UInt8)} (h : ReturnedOk params calls v delivered)
    (hn : v.answers.length = delivered.length) :
    ReturnedOk params calls ⟨called, v.answers ++ [answer]⟩ delivered := by
  intro i call d answer' hi hd hanswer
  rcases getElem?_snoc hanswer with hanswer | ⟨hlen, -⟩
  · exact h i call d answer' hi hd hanswer
  · obtain ⟨hlt, -⟩ := List.getElem?_eq_some_iff.mp hd
    omega

theorem ReturnedOk.snoc {delivered : List Delivered} {d : Delivered}
    {answer : StorageUnitStatus × Option (List UInt8)} (h : ReturnedOk params calls v delivered)
    (hcall : calls[delivered.length]? = some call)
    (hanswer : v.answers[delivered.length]? = some answer)
    (hd : stgResponse params call d.response.rsp d.data =
      some (.ok (directResult params call answer))) :
    ReturnedOk params calls v (delivered ++ [d]) := by
  intro i call' d' answer' hi hd' hanswer'
  rcases getElem?_snoc hd' with hd' | ⟨rfl, rfl⟩
  · exact h i call' d' answer' hi hd' hanswer'
  · rw [hcall] at hi
    rw [hanswer] at hanswer'
    cases hi
    cases hanswer'
    exact hd

/-! ## Steps -/

theorem CallPhase.perm (hperm : held.Perm held') (h : CallPhase params calls v t T held) :
    CallPhase params calls v t T held' := by
  cases h with
  | idle hinbox hpending hheld hsent hcalled hanswers htable =>
      subst hheld
      exact .idle hinbox hpending hperm.nil_eq.symm hsent hcalled hanswers htable
  | sent hcall hmessage hinbox hpending hheld hsent hcalled hanswers htable =>
      subst hheld
      exact .sent hcall hmessage hinbox hpending hperm.nil_eq.symm hsent hcalled hanswers htable
  | held hcall hinbox hpending hheld hsent hstage =>
      subst hheld
      exact .held hcall hinbox hpending (List.singleton_perm.mp hperm).symm hsent hstage
  | parked hcall hinbox hpending hheld hsent hcalled hanswers htable =>
      subst hheld
      exact .parked hcall hinbox hpending hperm.nil_eq.symm hsent hcalled hanswers htable

theorem CallPhase.of_held (h : CallPhase params calls v t T (x :: held)) :
    ∃ call origin stage, calls[t.delivered.length]? = some call ∧ t.inbox = [] ∧
      t.pending = [] ∧
      x = (⟨call.req, origin⟩, stage) ∧ held = [] ∧ t.nextId = t.delivered.length + 1 ∧
      StageOk params call v t.delivered.length T stage := by
  cases h with
  | idle _ _ hheld => cases hheld
  | sent _ _ _ _ hheld => cases hheld
  | parked _ _ _ hheld => cases hheld
  | held hcall hinbox hpending hheld hsent hstage =>
      cases hheld
      exact ⟨_, _, _, hcall, hinbox, hpending, rfl, rfl, hsent, hstage⟩

namespace ServeInv

theorem perm (hperm : gs.Perm gs') (h : ServeInv params interface calls v s gs) :
    ServeInv params interface calls v s gs' :=
  ⟨h.listed, h.pipe, h.ok, h.phase.perm (callsHeld_perm hperm), h.called, h.returned⟩

theorem init : ServeInv params interface calls ⟨[], []⟩ .init [] where
  listed := rfl
  pipe := .inl ⟨rfl, rfl⟩
  ok := Hashed.ok_empty
  phase := .idle rfl rfl rfl rfl rfl rfl fun _ => rfl
  called := fun i _ x _ hx => by cases hx
  returned := fun i _ d _ _ hd => by cases hd

theorem quiet (h : ServeInv params interface calls v s gs) (htraffic : traffic s' = traffic s)
    (htable : s'.hashBuckets = s.hashBuckets) (hlisted : s'.listed = s.listed)
    (hpipe : s'.pipe = s.pipe) : ServeInv params interface calls v s' gs := by
  have hphase := h.phase
  have hid : s'.nextId = s.nextId := congrArg Traffic.nextId htraffic
  have hdelivered : s'.delivered = s.delivered := congrArg Traffic.delivered htraffic
  refine ⟨hlisted.trans h.listed, ?_, htable ▸ h.ok, ?_, h.called, ?_⟩
  · rw [hpipe, hid]
    exact h.pipe
  · rw [htraffic, htable]
    exact hphase
  · rw [hdelivered]
    exact h.returned

/-- The message of the client is read, and it is that of a well-formed call. -/
theorem readFile {size : UInt32} {r : Except UInt32 (Message × Origin)}
    (hM : params.maxTransferLength.toNat + 48 < 2 ^ 32)
    (hcalls : ∀ call ∈ calls, WellFormed params interface call)
    (h : ServeInv params interface calls v s (none :: gs))
    (hsize : size = sizeofTransactMsg + params.maxTransferLength)
    (hexec : PipeAction.Exec s (.readFile size) r s')
    (hC : ClientMeets params calls s (.act (.readFile size) r)) :
    ServeInv params interface calls v s'
        (ServeAccount.track params (.readFile size) r none :: gs) ∧
      Serves params interface calls (.readFile size) r := by
  have htable : s'.hashBuckets = s.hashBuckets := exec_tableEffect hexec
  have hpipe : s'.pipe = s.pipe := exec_pipeEffect hexec
  have hlisted : s'.listed = s.listed := (exec_stopEffect hexec).1
  have htraffic := exec_trafficEffect hexec
  have hbuffer : size.toNat = 48 + params.maxTransferLength.toNat := by
    rw [hsize, buffer_toNat]
    exact Nat.mod_eq_of_lt (by omega)
  -- something is in the pipe, so it is the message of this call
  have hsent : ∀ {message origin inbox}, s.inbox = (message, origin) :: inbox →
      ∃ call payload, calls[s.delivered.length]? = some call ∧ call ∈ calls ∧
        message = .whole call.req payload ∧ payload.length ≤ params.maxTransferLength.toNat ∧
        givenData params call.req payload = directData params call ∧ inbox = [] ∧
        s.pending = [] ∧ callsHeld gs = [] ∧ s.nextId = s.delivered.length + 1 ∧
        v.called.length = s.delivered.length ∧ v.answers.length = s.delivered.length ∧
        NoHint s.hashBuckets := by
    intro message origin inbox hinbox
    cases h.phase with
    | idle hnone => exact absurd (hinbox.symm.trans hnone) (List.cons_ne_nil _ _)
    | held _ hnone => exact absurd (hinbox.symm.trans hnone) (List.cons_ne_nil _ _)
    | parked _ hnone => exact absurd (hinbox.symm.trans hnone) (List.cons_ne_nil _ _)
    | @sent call message' origin' hcall hmessage hone hpending hheld hid hcalled hanswers hnohint =>
        have hmem := List.mem_of_getElem? hcall
        obtain ⟨payload, hwhole, hle, hgiven⟩ := stgMessage_wellFormed hM (hcalls call hmem)
        have heq := hinbox.symm.trans hone
        cases heq
        rw [hmessage] at hwhole
        cases hwhole
        exact ⟨call, payload, hcall, hmem, rfl, hle, hgiven, rfl, hpending, hheld, hid, hcalled,
          hanswers, hnohint⟩
  match r with
  | .error error =>
      obtain ⟨message, origin, inbox, hinbox, hlong⟩ := hC
      obtain ⟨call, payload, -, -, rfl, hle, -⟩ := hsent hinbox
      have hlength : (Message.whole call.req payload).length = 48 + payload.length := rfl
      omega
  | .ok (message, origin) =>
      obtain ⟨inbox, hinbox, htraffic⟩ := htraffic
      obtain ⟨call, payload, hcall, hmem, rfl, -, hgiven, rfl, hpending, hheld, hid, hcalled,
        hanswers, hnohint⟩ := hsent hinbox
      have hdelivered : s'.delivered = s.delivered := congrArg Traffic.delivered htraffic
      have hnext : s'.nextId = s.nextId := congrArg Traffic.nextId htraffic
      refine ⟨⟨hlisted.trans h.listed, ?_, htable ▸ h.ok, ?_, h.called,
        hdelivered ▸ h.returned⟩,
        call, hmem, hcalls call hmem, payload, origin, rfl⟩
      · rw [hpipe, hnext]
        exact h.pipe
      · have hstage : StageOk params call v s.delivered.length s.hashBuckets
            (if call.req.kind = transactReadKind then .received
              else .handed (givenData params call.req payload)) := by
          split
          · next hread => exact ⟨hread, hcalled, hanswers, hnohint⟩
          · next hread =>
              refine ⟨hgiven, hcalled, hanswers, fun hint => ?_⟩
              rw [if_neg (fun hboth => hread hboth.1)]
              exact hnohint hint
        rw [htraffic, htable]
        exact .held hcall rfl hpending (congrArg (List.cons _) hheld) hid hstage

theorem putHintValue {request : Request} {value : UInt32} {put : Bool}
    (h : ServeInv params interface calls v s (some (request, .received) :: gs))
    (hvalue : value = Shared.dataLength params request.req)
    (hexec : PipeAction.Exec s (.putHintValue request value) put s')
    (hC : ClientMeets params calls s (.act (.putHintValue request value) put)) :
    ServeInv params interface calls v s' (some (request, .handed []) :: gs) ∧ put = true := by
  obtain ⟨memory, htable⟩ := exec_tableEffect hexec
  have hpipe : s'.pipe = s.pipe := exec_pipeEffect hexec
  have hlisted : s'.listed = s.listed := (exec_stopEffect hexec).1
  have htraffic : traffic s' = traffic s := exec_trafficEffect hexec
  have hdelivered : s'.delivered = s.delivered := congrArg Traffic.delivered htraffic
  have hnext : s'.nextId = s.nextId := congrArg Traffic.nextId htraffic
  obtain ⟨call, origin, stage, hcall, hinbox, hpending, heq, hheld, hid, hstage⟩ :=
    h.phase.of_held
  cases heq
  obtain ⟨hread, hcalled, hanswers, hnohint⟩ := hstage
  have hput : put = true := by
    cases put with
    | true => rfl
    | false => exact absurd (hnohint call.req.hint) (hC rfl)
  subst hput
  have hfirst : (s.hashBuckets.put hashIndex memory call.req.hint value).1 = true := by
    rw [htable]
  have hsecond : s'.hashBuckets = (s.hashBuckets.put hashIndex memory call.req.hint value).2 := by
    rw [htable]
  have hhint : HasHint params call s'.hashBuckets := by
    intro hint
    rw [hsecond, Hashed.get_put hfirst, hnohint hint]
    by_cases hsame : hint = call.req.hint
    · rw [if_pos hsame, if_pos ⟨hread, hsame⟩, hvalue]
    · rw [if_neg hsame, if_neg fun hboth => hsame hboth.2]
  have hdata : ([] : List UInt8) = directData params call := by
    rw [directData, if_neg]
    rw [hread]
    decide
  refine ⟨⟨hlisted.trans h.listed, by rw [hpipe, hnext]; exact h.pipe, ?_, ?_, h.called,
    hdelivered ▸ h.returned⟩, rfl⟩
  · rw [hsecond]
    exact h.ok.put
  · rw [htraffic]
    exact .held hcall hinbox hpending (congrArg (List.cons _) hheld) hid
      ⟨hdata, hcalled, hanswers, hhint⟩

/-- The length of a Read is taken out of the table again. -/
theorem takeHintValue {request : Request} {status : StorageUnitStatus} {dataBuffer : List UInt8}
    {length : UInt32} (hcalls : ∀ call ∈ calls, WellFormed params interface call)
    (h : ServeInv params interface calls v s
      (some (request, .answered status (some dataBuffer)) :: gs))
    (hread : request.req.kind = transactReadKind)
    (hexec : PipeAction.Exec s (.takeHintValue (responseTo request status)) length s') :
    ServeInv params interface calls v s'
      (some (request, .taken status dataBuffer length) :: gs) := by
  have htable : s'.hashBuckets = (s.hashBuckets.take hashIndex request.req.hint).2 :=
    exec_tableEffect hexec
  have hpipe : s'.pipe = s.pipe := exec_pipeEffect hexec
  have hlisted : s'.listed = s.listed := (exec_stopEffect hexec).1
  have htraffic : traffic s' = traffic s := exec_trafficEffect hexec
  have hdelivered : s'.delivered = s.delivered := congrArg Traffic.delivered htraffic
  have hnext : s'.nextId = s.nextId := congrArg Traffic.nextId htraffic
  have hlength : length = ((s.hashBuckets.get hashIndex request.req.hint).getD 0 : UInt32) := by
    obtain ⟨c, hc⟩ := hexec
    simp only [PipeAction.exec] at hc
    split at hc
    · cases hc
    · cases hc
      exact congrArg (fun value => Option.getD value 0) Hashed.take_fst
  obtain ⟨call, origin, stage, hcall, hinbox, hpending, heq, hheld, hid, hstage⟩ :=
    h.phase.of_held
  cases heq
  obtain ⟨hanswered, hhint⟩ := hstage
  have hget := hhint call.req.hint
  rw [if_pos ⟨hread, rfl⟩] at hget
  have hvalue : length.toNat = operationLength params call.req := by
    rw [hlength, hget, Option.getD_some]
    exact (hcalls call (List.mem_of_getElem? hcall)).dataLength (.inl hread)
  have hnohint : NoHint s'.hashBuckets := by
    intro hint
    rw [htable, h.ok.get_take]
    split
    · rfl
    · next hne => rw [hhint hint, if_neg fun hboth => hne hboth.2]
  refine ⟨hlisted.trans h.listed, by rw [hpipe, hnext]; exact h.pipe, ?_, ?_, h.called,
    hdelivered ▸ h.returned⟩
  · rw [htable]
    exact h.ok.take
  · rw [htraffic]
    exact .held hcall hinbox hpending (congrArg (List.cons _) hheld) hid
      ⟨hanswered, hvalue, hnohint⟩

theorem writeFile {g : ServeAccount} {response : Response} {data : List UInt8} {error : UInt32}
    (hM : params.maxTransferLength.toNat + 48 < 2 ^ 32)
    (hcalls : ∀ call ∈ calls, WellFormed params interface call)
    (h : ServeInv params interface calls v s (g :: gs)) (hwrite : g.CanWrite response data)
    (hexec : PipeAction.Exec s (.writeFile response data) error s')
    (herror : error = errorSuccess) :
    ServeInv params interface calls v s' (none :: gs) := by
  have htable : s'.hashBuckets = s.hashBuckets := exec_tableEffect hexec
  have hpipe : s'.pipe = s.pipe := exec_pipeEffect hexec
  have hlisted : s'.listed = s.listed := (exec_stopEffect hexec).1
  have htraffic : traffic s' =
      { traffic s with delivered := s.delivered ++ [⟨s.client, response, data⟩] } := by
    rcases exec_trafficEffect hexec with ⟨hne, -⟩ | ⟨-, heq⟩
    · exact absurd herror hne
    · exact heq
  have hdelivered : s'.delivered = s.delivered ++ [⟨s.client, response, data⟩] :=
    congrArg Traffic.delivered htraffic
  have hnext : s'.nextId = s.nextId := congrArg Traffic.nextId htraffic
  obtain ⟨request, status, rfl, hcase⟩ := hwrite
  -- either way the request was answered, and the table is empty now
  obtain ⟨dataBuffer, call, origin, hcall, hinbox, hpending, hrequest, hheld, hid, hanswered,
      hdata, hnohint⟩ : ∃ dataBuffer call origin, calls[s.delivered.length]? = some call ∧
        s.inbox = [] ∧ s.pending = [] ∧ request = ⟨call.req, origin⟩ ∧
        callsHeld gs = [] ∧
        s.nextId = s.delivered.length + 1 ∧
        CallAnswered params call v s.delivered.length (status, dataBuffer) ∧
        data = responseData params call dataBuffer ∧ NoHint s.hashBuckets := by
    rcases hcase with ⟨dataBuffer, length, rfl, hread, rfl⟩ | ⟨dataBuffer, rfl, hother, rfl⟩
    · obtain ⟨call, origin, stage, hcall, hinbox, hpending, heq, hheld, hid, hstage⟩ :=
        h.phase.of_held
      cases heq
      obtain ⟨hanswered, hlength, hnohint⟩ := hstage
      refine ⟨some dataBuffer, call, origin, hcall, hinbox, hpending, rfl, hheld, hid, hanswered,
        ?_, hnohint⟩
      rw [responseData, if_pos hread, hlength]
      rfl
    · obtain ⟨call, origin, stage, hcall, hinbox, hpending, heq, hheld, hid, hstage⟩ :=
        h.phase.of_held
      cases heq
      obtain ⟨hanswered, hhint⟩ := hstage
      have hread : ¬call.req.kind = transactReadKind := fun hread =>
        (hanswered.2.2.2 hread).2 (hother hread)
      refine ⟨dataBuffer, call, origin, hcall, hinbox, hpending, rfl, hheld, hid, hanswered,
        ?_, fun hint => ?_⟩
      · rw [responseData, if_neg hread]
      · rw [hhint hint, if_neg fun hboth => hread hboth.1]
  subst hrequest
  subst hdata
  obtain ⟨hcalled, hanswers, hanswer, hlong⟩ := hanswered
  refine ⟨hlisted.trans h.listed, by rw [hpipe, hnext]; exact h.pipe, htable ▸ h.ok,
    ?_, h.called,
    ?_⟩
  · rw [htraffic, htable]
    refine .idle hinbox hpending hheld ?_ ?_ ?_ hnohint
    · rw [List.length_append]
      exact hid
    · rw [List.length_append]
      exact hcalled
    · rw [List.length_append]
      exact hanswers
  · rw [hdelivered]
    exact h.returned.snoc hcall hanswer
      (stgResponse_wellFormed hM (hcalls call (List.mem_of_getElem? hcall)) fun hread =>
        (hlong hread).1)

theorem operation {request : Request} {opCall : OperationCall} {status : StorageUnitStatus}
    {data dataBuffer : List UInt8} {r : Bool × StorageUnitStatus × List UInt8}
    (hcalls : ∀ call ∈ calls, WellFormed params interface call)
    (h : ServeInv params interface calls v s (some (request, .handed data) :: gs))
    (hcall : interface.call request.req = some opCall) (hstart : data <+: dataBuffer)
    (hexec : PipeAction.Exec s (.operation opCall request status dataBuffer) r s')
    (hC : ClientMeets params calls s (.act (.operation opCall request status dataBuffer) r)) :
    ServeInv params interface calls
      (serveStep v (.act (.operation opCall request status dataBuffer) r)) s'
      (ServeAccount.track params (.operation opCall request status dataBuffer) r
        (some (request, .handed data)) :: gs) := by
  have htable : s'.hashBuckets = s.hashBuckets := exec_tableEffect hexec
  have hpipe : s'.pipe = s.pipe := exec_pipeEffect hexec
  have hlisted : s'.listed = s.listed := (exec_stopEffect hexec).1
  have htraffic := exec_trafficEffect hexec
  obtain ⟨complete, status', dataBuffer'⟩ := r
  have htraffic : traffic s' =
    { traffic s with pending := if complete = true then s.pending else request :: s.pending } :=
      htraffic
  have hlength : dataBuffer'.length = params.maxTransferLength.toNat := hC
  have hdelivered : s'.delivered = s.delivered := congrArg Traffic.delivered htraffic
  have hnext : s'.nextId = s.nextId := congrArg Traffic.nextId htraffic
  obtain ⟨call, origin, stage, hget, hinbox, hpending, heq, hheld, hid, hstage⟩ :=
    h.phase.of_held
  cases heq
  obtain ⟨rfl, hcalled, hanswers, hhint⟩ := hstage
  have hpipe' : s'.pipe = .listening ∧ s'.nextId = 0 ∨ s'.pipe = .connected := by
    rw [hpipe, hnext]
    exact h.pipe
  have hsnoc : (v.called ++ [(opCall, dataBuffer)]).length = s.delivered.length + 1 := by
    rw [List.length_append, hcalled]
    rfl
  have hwell := hcalls call (List.mem_of_getElem? hget)
  cases complete with
  | true =>
      refine ⟨hlisted.trans h.listed, hpipe', htable ▸ h.ok, ?_,
        h.called.snoc hcalled hget hcall hstart, hdelivered ▸ h.returned.answer hanswers⟩
      rw [htraffic, htable]
      have hanswered : CallAnswered params call
          (serveStep v (.act (.operation opCall ⟨call.req, origin⟩ status dataBuffer)
            (true, status', dataBuffer'))) s.delivered.length (status', some dataBuffer') := by
        refine ⟨hsnoc, ?_, ?_, fun hread => ⟨?_, Option.some_ne_none _⟩⟩
        · show (v.answers ++ [(status', some dataBuffer')]).length = _
          rw [List.length_append, hanswers]
          rfl
        · show (v.answers ++ [(status', some dataBuffer')])[s.delivered.length]? = _
          have hlen : v.answers.length = s.delivered.length := hanswers
          rw [← hlen, List.getElem?_concat_length]
        · rw [Option.getD_some, hlength]
          exact hwell.length (.inl hread)
      exact .held hget hinbox hpending (congrArg (List.cons _) hheld) hid ⟨hanswered, hhint⟩
  | false =>
      refine ⟨hlisted.trans h.listed, hpipe', htable ▸ h.ok, ?_,
        h.called.snoc hcalled hget hcall hstart, hdelivered ▸ h.returned⟩
      rw [htraffic, htable]
      exact .parked hget hinbox (congrArg (List.cons _) hpending) hheld hid hsnoc hanswers hhint

theorem takePending {r : Request × StorageUnitStatus × Option (List UInt8)}
    (h : ServeInv params interface calls v s (none :: gs))
    (hexec : PipeAction.Exec s .takePending r s')
    (hC : ClientMeets params calls s (.act .takePending r)) :
    ServeInv params interface calls (serveStep v (.act .takePending r)) s'
      (ServeAccount.track params .takePending r none :: gs) := by
  have htable : s'.hashBuckets = s.hashBuckets := exec_tableEffect hexec
  have hpipe : s'.pipe = s.pipe := exec_pipeEffect hexec
  have hlisted : s'.listed = s.listed := (exec_stopEffect hexec).1
  have htraffic := exec_trafficEffect hexec
  obtain ⟨request, status, dataBuffer⟩ := r
  obtain ⟨index, hindex, htraffic⟩ := htraffic
  have hdelivered : s'.delivered = s.delivered := congrArg Traffic.delivered htraffic
  have hnext : s'.nextId = s.nextId := congrArg Traffic.nextId htraffic
  have hempty : ∀ {pending : List Request}, s.pending = pending → pending ≠ [] := by
    intro pending hpending hnil
    rw [hpending, hnil] at hindex
    cases hindex
  cases h.phase with
  | idle _ hpending => exact absurd rfl (hempty hpending)
  | sent _ _ _ hpending => exact absurd rfl (hempty hpending)
  | held _ _ hpending => exact absurd rfl (hempty hpending)
  | @parked call origin hget hinbox hpending hheld hid hcalled hanswers hhint =>
      have hpending : s.pending = [⟨call.req, origin⟩] := hpending
      rw [hpending] at hindex
      obtain ⟨hlt, heq⟩ := List.getElem?_eq_some_iff.mp hindex
      have hzero : index = 0 := Nat.lt_one_iff.mp hlt
      subst hzero
      cases heq
      refine ⟨hlisted.trans h.listed, by rw [hpipe, hnext]; exact h.pipe, htable ▸ h.ok, ?_,
        h.called, hdelivered ▸ h.returned.answer hanswers⟩
      rw [htraffic, htable]
      have hanswered : CallAnswered params call
          (serveStep v (.act .takePending (⟨call.req, origin⟩, status, dataBuffer)))
          s.delivered.length (status, dataBuffer) := by
        refine ⟨hcalled, ?_, ?_, hC⟩
        · show (v.answers ++ [(status, dataBuffer)]).length = _
          rw [List.length_append]
          exact congrArg (· + 1) hanswers
        · show (v.answers ++ [(status, dataBuffer)])[s.delivered.length]? = _
          have hlen : v.answers.length = s.delivered.length := hanswers
          rw [← hlen, List.getElem?_concat_length]
      refine .held hget hinbox ?_ (congrArg (List.cons _) hheld) hid ⟨hanswered, hhint⟩
      show s.pending.eraseIdx 0 = []
      rw [hpending]
      rfl

theorem clientSend {g : ServeAccount} {message : Message} {r : Unit}
    (h : ServeInv params interface calls v s (g :: gs))
    (hexec : PipeAction.Exec s (.clientSend message) r s')
    (hC : ClientMeets params calls s (.act (.clientSend message) r)) :
    ServeInv params interface calls v s' (g :: gs) := by
  have htable : s'.hashBuckets = s.hashBuckets := exec_tableEffect hexec
  have hpipe : s'.pipe = .connected := (exec_pipeEffect hexec).2
  have hlisted : s'.listed = s.listed := (exec_stopEffect hexec).1
  have htraffic : traffic s' =
    { traffic s with
      inbox := s.inbox ++ [(message, ⟨s.client, s.nextId⟩)]
      nextId := s.nextId + 1 } := exec_trafficEffect hexec
  have hdelivered : s'.delivered = s.delivered := congrArg Traffic.delivered htraffic
  obtain ⟨hnone, call, hcall, hmessage⟩ := hC
  refine ⟨hlisted.trans h.listed, .inr hpipe, htable ▸ h.ok, ?_, h.called,
    hdelivered ▸ h.returned⟩
  rw [htraffic, htable]
  have hbusy : ∀ {n : Nat}, s.nextId = s.delivered.length + n → n = 0 := by
    intro n hn
    omega
  cases h.phase with
  | sent _ _ _ _ _ hsent => exact absurd (hbusy hsent) (by decide)
  | held _ _ _ _ hsent => exact absurd (hbusy hsent) (by decide)
  | parked _ _ _ _ hsent => exact absurd (hbusy hsent) (by decide)
  | idle hinbox hpending hheld hsent hcalled hanswers hnohint =>
      have hinbox : s.inbox = [] := hinbox
      rw [hnone] at hcall
      have hone : s.inbox ++ [(message, ⟨s.client, s.nextId⟩)] =
          [(message, ⟨s.client, s.nextId⟩)] := by
        rw [hinbox, List.nil_append]
      exact .sent hcall hmessage hone hpending hheld (congrArg (· + 1) hsent) hcalled hanswers
        hnohint

theorem clientOpen {g : ServeAccount} {r : Unit} (h : ServeInv params interface calls v s (g :: gs))
    (hexec : PipeAction.Exec s .clientOpen r s') :
    ServeInv params interface calls v s' (g :: gs) := by
  have htable : s'.hashBuckets = s.hashBuckets := exec_tableEffect hexec
  obtain ⟨hlistening, hpipe⟩ := exec_pipeEffect hexec
  have hlisted : s'.listed = s.listed := (exec_stopEffect hexec).1
  have htraffic : traffic s' = { traffic s with client := s.client + 1, inbox := [] } :=
    exec_trafficEffect hexec
  have hdelivered : s'.delivered = s.delivered := congrArg Traffic.delivered htraffic
  have hfirst : s.nextId = 0 := by
    rcases h.pipe with ⟨-, hid⟩ | hconnected
    · exact hid
    · rw [hlistening] at hconnected
      cases hconnected
  refine ⟨hlisted.trans h.listed, .inr hpipe, htable ▸ h.ok, ?_, h.called,
    hdelivered ▸ h.returned⟩
  rw [htraffic, htable]
  have hidle : ∀ {n : Nat}, s.nextId = n + 1 → False := by
    intro n hn
    omega
  cases h.phase with
  | sent _ _ _ _ _ hsent => exact (hidle hsent).elim
  | held _ _ _ _ hsent => exact (hidle hsent).elim
  | parked _ _ _ _ hsent => exact (hidle hsent).elim
  | idle hinbox hpending hheld hsent hcalled hanswers hnohint =>
      exact .idle rfl hpending hheld hsent hcalled hanswers hnohint

/-- What the account's thread does next keeps the invariant, and ends well. -/
theorem exec {g : ServeAccount} {a : PipeAction} {r : a.Answer}
    (hM : params.maxTransferLength.toNat + 48 < 2 ^ 32)
    (hcalls : ∀ call ∈ calls, WellFormed params interface call)
    (h : ServeInv params interface calls v s (g :: gs)) (hmay : g.May params interface a)
    (hexec : a.Exec s r s') (hC : ClientMeets params calls s (.act a r)) :
    ServeInv params interface calls (serveStep v (.act a r)) s'
        (ServeAccount.track params a r g :: gs) ∧
      Serves params interface calls a r := by
  have htraffic := exec_trafficEffect hexec
  have htable := exec_tableEffect hexec
  have hpipe := exec_pipeEffect hexec
  have hstop := exec_stopEffect hexec
  cases a with
  | overlappedInit | memAlloc | writeParams | waitConnect =>
      first
        | exact ⟨h.quiet htraffic htable hstop.1 hpipe, hC⟩
        | exact ⟨h.quiet htraffic htable hstop.1 hpipe.1, hC⟩
  | acquireLock | releaseLock => exact ⟨h.quiet htraffic htable hstop.1 hpipe, trivial⟩
  | unitIsListed =>
      obtain ⟨c, hc⟩ := hexec
      cases hc
      exact ⟨h, h.listed⟩
  | connectNamedPipe =>
      obtain rfl : r = s.pipe.connectError := hC
      -- the instance listens, or the client has come already
      have hsame : s.pipe.connect = s.pipe ∧
          (s.pipe.connectError = errorIoPending ∨ s.pipe.connectError = errorPipeConnected) := by
        rcases h.pipe with ⟨hlistening, -⟩ | hconnected
        · rw [hlistening]
          exact ⟨rfl, .inl rfl⟩
        · rw [hconnected]
          exact ⟨rfl, .inr rfl⟩
      have hkeeps : s'.pipe = s.pipe := by
        rcases hpipe with ⟨hconnect, -⟩ | ⟨hkeeps, -⟩
        · exact hconnect.trans hsame.1
        · exact hkeeps
      exact ⟨h.quiet htraffic htable hstop.1 hkeeps, hsame.2⟩
  | disconnectNamedPipe | disconnect => exact hmay.elim
  | takeHintValue response =>
      obtain ⟨request, status, dataBuffer, rfl, rfl, hread⟩ := hmay
      exact ⟨h.takeHintValue hcalls hread hexec, trivial⟩
  | writeFile response data => exact ⟨h.writeFile hM hcalls hmay hexec hC, hC⟩
  | readFile size =>
      obtain ⟨rfl, hsize⟩ := hmay
      obtain ⟨hinv, hserves⟩ := h.readFile hM hcalls hsize hexec hC
      exact ⟨hinv, hserves⟩
  | putHintValue request value =>
      obtain ⟨rfl, hvalue⟩ := hmay
      exact h.putHintValue hvalue hexec hC
  | operation opCall request status dataBuffer =>
      obtain ⟨hcall, -, data, rfl, hstart⟩ := hmay
      exact ⟨h.operation hcalls hcall hstart hexec hC, trivial⟩
  | takePending =>
      obtain rfl : g = none := hmay
      exact ⟨h.takePending hexec hC, trivial⟩
  | shutdown | clientClose => exact (show False from hC).elim
  | clientOpen => exact ⟨h.clientOpen hexec, trivial⟩
  | clientSend message => exact ⟨h.clientSend hexec hC, trivial⟩
  | wait =>
      obtain ⟨c, hc⟩ := hexec
      cases hc

theorem cons_none (h : ServeInv params interface calls v s gs) :
    ServeInv params interface calls v s (none :: gs) :=
  ⟨h.listed, h.pipe, h.ok, h.phase, h.called, h.returned⟩

theorem of_cons_none (h : ServeInv params interface calls v s (none :: gs)) :
    ServeInv params interface calls v s gs :=
  ⟨h.listed, h.pipe, h.ok, h.phase, h.called, h.returned⟩

end ServeInv

/-! ## Runs -/

/-- What holds of a history and the state it leads to. -/
abbrev ServeVerified (params : StorageUnitParams) (interface : Interface) (calls : List StgCall)
    (ls : List PipeEvent) (w : ServeThreads) : Prop :=
  Threads.Verified (serveRules params interface calls)
    (ServeInv params interface calls (servedCalls ls)) w

theorem ServeVerified.step (hM : params.maxTransferLength.toNat + 48 < 2 ^ 32)
    (hcalls : ∀ call ∈ calls, WellFormed params interface call) {ev : PipeEvent}
    (hw : ServeVerified params interface calls ls w)
    (hstep : ClientStep params interface calls w ev w') :
    ServeVerified params interface calls (ls ++ [ev]) w' := by
  refine Threads.Verified.step_to (C := fun w ev => ClientMeets params calls w.shared ev)
    (fun hperm h => h.perm hperm) (fun hperm h => h.perm hperm) ?_ ?_ pipeEntry_serves ?_ hw
    hstep.2 hstep.1
  · rintro s gs rfl h
    rw [servedCalls_snoc]
    exact h.cons_none
  · rintro s g gs rfl hg h
    obtain rfl : g = none := hg
    rw [servedCalls_snoc]
    exact h.of_cons_none
  · rintro s us vs a k g r s' rfl - hC hmay h hexec
    rw [servedCalls_snoc]
    exact h.exec hM hcalls hmay hexec hC

theorem clientRun_inv (hM : params.maxTransferLength.toNat + 48 < 2 ^ 32)
    (hcalls : ∀ call ∈ calls, WellFormed params interface call)
    (hrun : Run (ClientStep params interface calls) serveInit ls w) :
    ServeVerified params interface calls ls w := by
  refine hrun.history (I := ServeVerified params interface calls) ?_ fun _ h hstep =>
    h.step hM hcalls hstep
  exact ⟨ServeInv.init, fun t ht => by cases ht⟩

end Winspd.Proofs
