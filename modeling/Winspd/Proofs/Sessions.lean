import Winspd.Proofs.Transparent

/-!
# Sessions of a client

The other half of transparency: whatever the operations answer, there is a run
in which every call of the client returns. One dispatcher thread is enough, with
a round for each call and one more to write the last response.

`Prog.Leads` finds the run along the program. The server is `Up` between the
actions of the thread, and `Idle` or `Busy` says how far the call has come.
-/

namespace Winspd.Proofs

open Winspd.Lib Winspd.Sys Winspd.Shared Winspd.Stgtest

variable {params : StorageUnitParams} {interface : Interface} {calls : List StgCall}
  {call : StgCall}

/-! ## Executions of one thread -/

/-- The state of the server, and what was called and answered. -/
abbrev Session := PipeServer × ServedCalls

def SessionExec (params : StorageUnitParams) (calls : List StgCall) (x : Session) (a : PipeAction)
    (r : a.Answer) (x' : Session) : Prop :=
  a.Exec x.1 r x'.1 ∧ ClientMeets params calls x.1 (.act a r) ∧ x'.2 = serveStep x.2 (.act a r)

def ClientSends (params : StorageUnitParams) (calls : List StgCall) (x x' : Session) : Prop :=
  ∃ message, PipeAction.Exec x.1 (.clientSend message) () x'.1 ∧
    ClientMeets params calls x.1 (.act (.clientSend message) ()) ∧ x'.2 = x.2

variable {s s' : PipeServer} {v : ServedCalls} {x x' : Session} {n : Nat}
  {F : Session → Prop} {α : Type}

/-- There is an execution of a thread's program that comes to `F`, or returns
with `Q`. -/
abbrev SessionLeads (params : StorageUnitParams) (calls : List StgCall) (F : Session → Prop)
    (Q : α → Session → Prop) (x : Session) (p : PipeProg α) : Prop :=
  p.Leads (SessionExec params calls) (ClientSends params calls) F Q x

theorem ClientSends.run {ts : List (Thread PipeAction PipeAction.Answer ServeAccount)}
    (h : ClientSends params calls x x') :
    ∃ ls, Run (ClientStep params interface calls) ⟨x.1, ts⟩ ls ⟨x'.1, ts⟩ ∧
      ls.foldl serveStep x.2 = x'.2 := by
  obtain ⟨message, hexec, hmeets, hsame⟩ := h
  have henter : ServeStep params interface calls ⟨x.1, ts⟩ .enter
      ⟨x.1, ⟨pipeAction (.clientSend message), none⟩ :: ts⟩ := .enter (.clientSend message)
  have hsend : ServeStep params interface calls
      ⟨x.1, ⟨pipeAction (.clientSend message), none⟩ :: ts⟩ (.act (.clientSend message) ())
      ⟨x'.1, ⟨.ret (), none⟩ :: ts⟩ := Threads.step_head hexec
  have hleave : ServeStep params interface calls ⟨x'.1, [] ++ ⟨.ret (), none⟩ :: ts⟩ .leave
      ⟨x'.1, [] ++ ts⟩ := .leave
  exact ⟨_,
    .cons ⟨henter, trivial⟩ (.cons ⟨hsend, hmeets⟩ (.single ⟨hleave, trivial⟩)),
    hsame.symm⟩

theorem session_run {p : PipeProg Unit}
    (h : SessionLeads params calls F (fun _ _ => False) x p) {g : ServeAccount}
    {ts : List (Thread PipeAction PipeAction.Answer ServeAccount)} :
    ∃ ls w, Run (ClientStep params interface calls) ⟨x.1, ⟨p, g⟩ :: ts⟩ ls w ∧
      F (w.shared, ls.foldl serveStep x.2) := by
  induction h generalizing g with
  | stop hF => exact ⟨[], _, .nil, hF⟩
  | others hsend _ ih =>
      obtain ⟨ls, hrun, hsame⟩ := hsend.run
      obtain ⟨ls', w, hrun', hF⟩ := ih
      refine ⟨ls ++ ls', w, hrun.append hrun', ?_⟩
      rw [List.foldl_append, hsame]
      exact hF
  | ret hQ => exact hQ.elim
  | @act x x' a k r hexec _ ih =>
      obtain ⟨hexec, hmeets, hsame⟩ := hexec
      obtain ⟨ls, w, hrun, hF⟩ := ih
      refine ⟨_, w, .cons ⟨Threads.step_head hexec, hmeets⟩ hrun, ?_⟩
      rw [List.foldl_cons, ← hsame]
      exact hF

/-! ## The state between actions -/

/-- The client is there, and no thread is in the section. -/
structure Up (s : PipeServer) : Prop where
  listed : s.listed = true
  locked : s.locked = false
  connected : s.connected = 0 ∨ s.connected = 1
  pipe : s.pipe = .connected
  inbox : s.inbox = []
  pending : s.pending = []
  ok : s.hashBuckets.Ok hashIndex

/-- `n` calls have returned, and no call is under way. -/
structure Idle (n : Nat) (s : PipeServer) : Prop extends Up s where
  sent : s.nextId = n
  returned : s.delivered.length = n
  table : NoHint s.hashBuckets

/-- `n` calls have returned, and a thread has the request of the next one. -/
structure Busy (params : StorageUnitParams) (call : StgCall) (n : Nat) (s : PipeServer) : Prop
    extends Up s where
  sent : s.nextId = n + 1
  returned : s.delivered.length = n
  table : HasHint params call s.hashBuckets

/-- What a call to the unit starts with: a response, or none the first time. -/
def Holds (params : StorageUnitParams) (calls : List StgCall) (response : Option Response)
    (n : Nat) (s : PipeServer) : Prop :=
  match response with
  | none => Idle n s
  | some response => ∃ call m origin status, n = m + 1 ∧ calls[m]? = some call ∧
      response = responseTo ⟨call.req, origin⟩ status ∧ Busy params call m s

/-! ## One call -/

theorem session_exec {a : PipeAction} {r : a.Answer} (hexec : a.Exec s r s')
    (hmeets : ClientMeets params calls s (.act a r)) :
    SessionExec params calls (s, v) a r (s', serveStep v (.act a r)) := ⟨hexec, hmeets, rfl⟩

theorem prepare_leads {Q : UInt32 → Session → Prop} (h : Up s) (hQ : Q errorSuccess (s, v)) :
    SessionLeads params calls F Q (s, v) prepare := by
  refine .perform_bind (session_exec ⟨.ends 0, rfl⟩ rfl) ?_
  rw [if_neg (by decide)]
  refine .perform_bind (session_exec ⟨.ends 0, rfl⟩ trivial) ?_
  rw [h.listed, if_neg (by decide)]
  refine .perform_bind (session_exec ⟨.ends 0, rfl⟩ rfl) ?_
  exact .ret hQ

/-- Messages and the table stay as they are. -/
def SameMessages (s s' : PipeServer) : Prop :=
  traffic s' = traffic s ∧ s'.hashBuckets = s.hashBuckets

theorem connectPipe_leads {Q : UInt32 → Session → Prop} (hpipe : s.pipe = .connected)
    (hQ : Q errorSuccess ({ s with connected := -s.connected + 1 }, v)) :
    SessionLeads params calls F Q (s, v) connectPipe := by
  have hconnect : PipeAction.Exec s .connectNamedPipe errorPipeConnected s := by
    refine ⟨.ends 0, ?_⟩
    show some ({ s with pipe := s.pipe.connect }, s.pipe.connectError) = _
    rw [hpipe]
    exact congrArg (fun pipe => some ({ s with pipe := pipe }, errorPipeConnected)) hpipe.symm
  have hwrite : PipeAction.Exec s .writeParams 0 { s with connected := -s.connected + 1 } :=
    ⟨.ends 0, if_pos hpipe⟩
  refine .perform_bind (session_exec hconnect (by rw [ClientMeets, hpipe]; rfl)) ?_
  refine .perform_bind (session_exec hwrite rfl) ?_
  exact .ret hQ

theorem connectSection_leads {Q : UInt32 × Int32 → Session → Prop} (h : Up s)
    (hQ : ∀ s' connected, Up s' → SameMessages s s' → Q (errorSuccess, connected) (s', v)) :
    SessionLeads params calls F Q (s, v) connectSection := by
  have hacquire : PipeAction.Exec s .acquireLock s.connected { s with locked := true } :=
    ⟨.ends 0, if_neg (by rw [h.locked]; decide)⟩
  have hconnected : SessionLeads params calls F
      (fun error x => error = errorSuccess ∧ ∃ connected, (connected = 0 ∨ connected = 1) ∧
        x = ({ s with locked := true, connected := connected }, v))
      ({ s with locked := true }, v) (connectUnlessConnected s.connected) := by
    unfold connectUnlessConnected
    rcases h.connected with hdown | hup
    · rw [if_pos (by rw [hdown]; decide)]
      refine connectPipe_leads h.pipe ⟨rfl, 1, .inr rfl, ?_⟩
      dsimp only
      rw [hdown]
      rfl
    · rw [if_neg (by rw [hup]; decide)]
      exact .ret ⟨rfl, s.connected, .inr hup, rfl⟩
  refine .perform_bind (session_exec hacquire trivial) (hconnected.bind fun error x hx => ?_)
  obtain ⟨rfl, connected, hvalue, rfl⟩ := hx
  refine .perform_bind (session_exec ⟨.ends 0, rfl⟩ trivial) (.ret (hQ _ _ ?_ ⟨rfl, rfl⟩))
  exact ⟨h.listed, rfl, hvalue, h.pipe, h.inbox, h.pending, h.ok⟩

theorem writeFile_leads {response : Response} {data : List UInt8} {Q : UInt32 → Session → Prop}
    (hup : Up s) (hsent : s.nextId = n + 1) (hreturned : s.delivered.length = n)
    (hnohint : NoHint s.hashBuckets) (hQ : ∀ s', Idle (n + 1) s' → Q errorSuccess (s', v)) :
    SessionLeads params calls F Q (s, v) (pipeAction (.writeFile response data)) := by
  have hwrite : PipeAction.Exec s (.writeFile response data) 0
      { s with delivered := s.delivered ++ [⟨s.client, response, data⟩] } :=
    ⟨.ends 0, if_pos hup.pipe⟩
  refine .perform (session_exec hwrite rfl) (hQ _ ⟨?_, hsent, ?_, hnohint⟩)
  · exact ⟨hup.listed, hup.locked, hup.connected, hup.pipe, hup.inbox, hup.pending, hup.ok⟩
  · rw [List.length_append, hreturned]
    rfl

theorem writeResponse_leads {response : Option Response} {buffer : List UInt8}
    {Q : UInt32 → Session → Prop} (h : Holds params calls response n s)
    (hQ : ∀ s', Idle n s' → Q errorSuccess (s', v)) :
    SessionLeads params calls F Q (s, v) (writeResponse response (some buffer)) := by
  cases response with
  | none => exact .ret (hQ s h)
  | some response =>
      obtain ⟨call, m, origin, status, rfl, hcall, rfl, hbusy⟩ := h
      unfold writeResponse
      dsimp only
      by_cases hread : (responseTo ⟨call.req, origin⟩ status).rsp.kind = transactReadKind
      · have htake : PipeAction.Exec s (.takeHintValue (responseTo ⟨call.req, origin⟩ status))
            (Shared.takeHintValue s.hashBuckets call.req.hint).1
            { s with hashBuckets := (s.hashBuckets.take hashIndex call.req.hint).2 } :=
          ⟨.ends 0, if_neg (by rw [hbusy.locked]; decide)⟩
        have hup : Up { s with hashBuckets := (s.hashBuckets.take hashIndex call.req.hint).2 } :=
          ⟨hbusy.listed, hbusy.locked, hbusy.connected, hbusy.pipe, hbusy.inbox, hbusy.pending,
            hbusy.ok.take⟩
        rw [if_pos hread]
        refine .perform_bind (session_exec htake trivial)
          (writeFile_leads hup hbusy.sent hbusy.returned (fun hint => ?_) hQ)
        show (s.hashBuckets.take hashIndex call.req.hint).2.get hashIndex hint = none
        rw [hbusy.ok.get_take]
        split
        · rfl
        · next hne => rw [hbusy.table hint, if_neg fun hboth => hne hboth.2]
      · rw [if_neg hread]
        refine writeFile_leads hbusy.toUp hbusy.sent hbusy.returned (fun hint => ?_) hQ
        rw [hbusy.table hint, if_neg fun hboth => hread hboth.1]

theorem acceptMessage_leads {payload buffer : List UInt8} {origin : Origin}
    {Q : Transacted (List UInt8) → Session → Prop} (hwell : WellFormed params interface call)
    (hup : Up s) (hsent : s.nextId = n + 1) (hreturned : s.delivered.length = n)
    (hnohint : NoHint s.hashBuckets)
    (hQ : ∀ s' buffer', Busy params call n s' →
      Q ⟨errorSuccess, some ⟨call.req, origin⟩, buffer'⟩ (s', v)) :
    SessionLeads params calls F Q (s, v)
      (acceptMessage params buffer (.whole call.req payload) origin) := by
  have hfits : Transfers call.req →
      ¬Shared.dataLength params call.req > params.maxTransferLength := by
    intro htransfers
    rw [gt_iff_lt, UInt32.not_lt, UInt32.le_iff_toNat_le, hwell.dataLength htransfers]
    exact hwell.length htransfers
  have hother : ¬call.req.kind = transactReadKind → Busy params call n s := by
    intro hread
    refine ⟨hup, hsent, hreturned, fun hint => ?_⟩
    rw [if_neg (fun hboth => hread hboth.1)]
    exact hnohint hint
  unfold acceptMessage
  dsimp only
  by_cases hread : call.req.kind = transactReadKind
  · -- there is memory for the item, and no other with this hint
    have hput : (s.hashBuckets.put hashIndex true call.req.hint
        (Shared.dataLength params call.req)).1 = true :=
      Hashed.put_fst.mpr ⟨hnohint call.req.hint, rfl⟩
    have hexec : PipeAction.Exec s
        (.putHintValue ⟨call.req, origin⟩ (Shared.dataLength params call.req)) true
        { s with hashBuckets := (s.hashBuckets.put hashIndex true call.req.hint
          (Shared.dataLength params call.req)).2 } := by
      refine ⟨.ends 0, (if_neg (by rw [hup.locked]; decide)).trans ?_⟩
      exact congrArg some (Prod.ext rfl hput)
    rw [if_pos hread, if_neg (hfits (.inl hread))]
    refine .perform_bind (session_exec hexec fun h => by cases h) ?_
    refine .ret
      (hQ _ _ ⟨⟨hup.listed, hup.locked, hup.connected, hup.pipe, hup.inbox, hup.pending,
      hup.ok.put⟩, hsent, hreturned, fun hint => ?_⟩)
    show (s.hashBuckets.put hashIndex true call.req.hint
      (Shared.dataLength params call.req)).2.get hashIndex hint = _
    rw [Hashed.get_put hput, hnohint hint]
    by_cases hsame : hint = call.req.hint
    · rw [if_pos hsame, if_pos ⟨hread, hsame⟩]
    · rw [if_neg hsame, if_neg fun hboth => hsame hboth.2]
  · rw [if_neg hread]
    by_cases hwrite : call.req.kind = transactWriteKind ∨ call.req.kind = transactUnmapKind
    · rw [if_pos hwrite, if_neg (hfits (.inr hwrite))]
      exact .ret (hQ s _ (hother hread))
    · rw [if_neg hwrite]
      exact .ret (hQ s _ (hother hread))

/-- The client makes its next call, and a thread gets the request. -/
theorem readRequest_leads {connected : Int32} {buffer : List UInt8}
    {Q : Transacted (List UInt8) → Session → Prop}
    (hM : params.maxTransferLength.toNat + 48 < 2 ^ 32) (hwell : WellFormed params interface call)
    (hcall : calls[n]? = some call) (h : Idle n s)
    (hQ : ∀ s' origin buffer', Busy params call n s' →
      Q ⟨errorSuccess, some ⟨call.req, origin⟩, buffer'⟩ (s', v)) :
    SessionLeads params calls F Q (s, v) (Shared.readRequest params connected buffer) := by
  obtain ⟨payload, hmessage, hle, -⟩ := stgMessage_wellFormed hM hwell
  have hsize : (sizeofTransactMsg + params.maxTransferLength).toNat =
      48 + params.maxTransferLength.toNat := by
    rw [buffer_toNat]
    exact Nat.mod_eq_of_lt (by omega)
  have hsend : ClientSends params calls (s, v)
      ({ s with
        inbox := s.inbox ++ [(.whole call.req payload, ⟨s.client, s.nextId⟩)]
        nextId := s.nextId + 1 }, v) :=
    ⟨.whole call.req payload, ⟨.ends 0, if_pos h.pipe⟩,
      ⟨h.sent.trans h.returned.symm, call, by rw [h.sent]; exact hcall, hmessage⟩, rfl⟩
  have hread : PipeAction.Exec
      { s with
        inbox := s.inbox ++ [(.whole call.req payload, ⟨s.client, s.nextId⟩)]
        nextId := s.nextId + 1 }
      (.readFile (sizeofTransactMsg + params.maxTransferLength))
      (.ok (.whole call.req payload, ⟨s.client, s.nextId⟩))
      { s with inbox := [], nextId := s.nextId + 1 } := by
    refine ⟨.ends 0, ?_⟩
    have hfits : (Message.whole call.req payload).length ≤
        (sizeofTransactMsg + params.maxTransferLength).toNat := by
      rw [hsize]
      exact Nat.add_le_add_left hle 48
    rw [h.inbox]
    exact if_pos hfits
  refine .others hsend (.perform_bind (session_exec hread trivial) ?_)
  refine acceptMessage_leads hwell ⟨h.listed, h.locked, h.connected, h.pipe, rfl,
    h.pending, h.ok⟩
    (congrArg (· + 1) h.sent) h.returned h.table fun s' buffer' hbusy => hQ s' _ buffer' hbusy

theorem Holds.up {response : Option Response} (h : Holds params calls response n s) : Up s := by
  cases response with
  | none => exact Idle.toUp h
  | some response =>
      obtain ⟨call, m, origin, status, -, -, -, hbusy⟩ := h
      exact hbusy.toUp

theorem Holds.same {response : Option Response} (h : Holds params calls response n s)
    (hup : Up s') (hsame : SameMessages s s') : Holds params calls response n s' := by
  obtain ⟨htraffic, htable⟩ := hsame
  have hnext : s'.nextId = s.nextId := congrArg Traffic.nextId htraffic
  have hdelivered : s'.delivered = s.delivered := congrArg Traffic.delivered htraffic
  cases response with
  | none =>
      have h : Idle n s := h
      exact ⟨hup, hnext.trans h.sent, hdelivered ▸ h.returned, htable ▸ h.table⟩
  | some response =>
      obtain ⟨call, m, origin, status, hn, hcall, hresponse, hbusy⟩ := h
      exact ⟨call, m, origin, status, hn, hcall, hresponse, hup, hnext.trans hbusy.sent,
        hdelivered ▸ hbusy.returned, htable ▸ hbusy.table⟩

/-- A dispatcher thread's call. It waits for a client with no more calls. -/
theorem spdStorageUnitHandleTransactPipe_leads {response : Option Response} {buffer : List UInt8}
    {Q : Transacted (Option (List UInt8)) → Session → Prop}
    (hM : params.maxTransferLength.toNat + 48 < 2 ^ 32)
    (hcalls : ∀ call ∈ calls, WellFormed params interface call)
    (h : Holds params calls response n s)
    (hF : calls[n]? = none → ∀ s', Idle n s' → F (s', v))
    (hQ : ∀ call, calls[n]? = some call → ∀ s' origin buffer', Busy params call n s' →
      Q ⟨errorSuccess, some ⟨call.req, origin⟩, some buffer'⟩ (s', v)) :
    SessionLeads params calls F Q (s, v)
      (spdStorageUnitHandleTransactPipe params response true (some buffer)) := by
  have hsections : ∀ s' connected, Up s' → SameMessages s s' →
      SessionLeads params calls F Q (s', v)
        (transactConnected params connected response true (some buffer)) := by
    intro s' connected hup hsame
    have hwrites : SessionLeads params calls F
        (fun error x => error = errorSuccess ∧ ∃ s', x = (s', v) ∧ Idle n s') (s', v)
        (writeResponse response (some buffer)) :=
      writeResponse_leads (h.same hup hsame) fun s' hidle => ⟨rfl, s', rfl, hidle⟩
    refine hwrites.bind fun error x hx => ?_
    obtain ⟨rfl, s', rfl, hidle⟩ := hx
    rw [if_neg (by decide)]
    cases hcall : calls[n]? with
    | none => exact .stop (hF hcall s' hidle)
    | some call =>
        have hreads : SessionLeads params calls F
            (fun r x => ∃ s' origin buffer', Busy params call n s' ∧ x = (s', v) ∧
              r = ⟨errorSuccess, some ⟨call.req, origin⟩, buffer'⟩) (s', v)
            (Shared.readRequest params connected buffer) :=
          readRequest_leads hM (hcalls call (List.mem_of_getElem? hcall)) hcall hidle
            fun s' origin buffer' hbusy => ⟨s', origin, buffer', hbusy, rfl, rfl⟩
        refine hreads.bind fun r x hx => ?_
        obtain ⟨s', origin, buffer', hbusy, rfl, rfl⟩ := hx
        exact .ret (hQ call hcall s' origin buffer' hbusy)
  unfold spdStorageUnitHandleTransactPipe
  rw [if_neg (by simp)]
  refine (prepare_leads (Q := fun error x => error = errorSuccess ∧ x = (s, v)) h.up
    ⟨rfl, rfl⟩).bind fun error x hx => ?_
  obtain ⟨rfl, rfl⟩ := hx
  rw [if_neg (by decide)]
  refine (connectSection_leads (Q := fun r x => r.1 = errorSuccess ∧
    ∃ s', x = (s', v) ∧ Up s' ∧ SameMessages s s') h.up
    fun s' connected hup hsame => ⟨rfl, s', rfl, hup, hsame⟩).bind fun r x hx => ?_
  obtain ⟨error, connected⟩ := r
  obtain ⟨herror, s', rfl, hup, hsame⟩ := hx
  obtain rfl : error = errorSuccess := herror
  exact hsections s' connected hup hsame

/-! ## All calls -/

/-- What operations answer, with the data buffers they leave. -/
abbrev Answers := List (StorageUnitStatus × List UInt8)

def Answers.sent (answers : Answers) : List (StorageUnitStatus × Option (List UInt8)) :=
  answers.map fun answer => (answer.1, some answer.2)

def SessionDone (calls : List StgCall) (answers : Answers) (x : Session) : Prop :=
  x.1.delivered.length = calls.length ∧ x.2.answers = answers.sent

theorem dispatch_leads {request : Request} {opCall : OperationCall} {buffer : List UInt8}
    {status : StorageUnitStatus} {buffer' : List UInt8}
    {Q : Bool × Response × List UInt8 → Session → Prop}
    (hcall : interface.call request.req = some opCall)
    (hbuffer : buffer'.length = params.maxTransferLength.toNat)
    (hQ : Q (true, responseTo request status, buffer')
      (s, ⟨v.called ++ [(opCall, buffer)], v.answers ++ [(status, some buffer')]⟩)) :
    SessionLeads params calls F Q (s, v)
      (dispatch (pipeCalls params) interface request buffer) := by
  unfold dispatch
  rw [hcall]
  have hexec : PipeAction.Exec s (.operation opCall request zeroStatus buffer)
      (true, status, buffer') s := ⟨.returns true (some status) buffer', rfl⟩
  exact .perform_bind (session_exec hexec hbuffer) (.ret hQ)

/-- With a round for each call, and one more, all calls return. -/
theorem dispatcherLoop_leads {answers : Answers} {response : Option Response}
    {buffer : List UInt8} {fuel : Nat} (hM : params.maxTransferLength.toNat + 48 < 2 ^ 32)
    (hcalls : ∀ call ∈ calls, WellFormed params interface call)
    (hlength : answers.length = calls.length)
    (hbuffers : ∀ answer ∈ answers, answer.2.length = params.maxTransferLength.toNat)
    (hfuel : calls.length < fuel + n) (hn : n ≤ calls.length)
    (h : Holds params calls response n s) (hv : v.answers = Answers.sent (answers.take n)) :
    SessionLeads params calls (SessionDone calls answers) (fun _ _ => False) (s, v)
      (dispatcherLoop (pipeCalls params) interface fuel response buffer) := by
  induction fuel generalizing response buffer n s v with
  | zero => omega
  | succ fuel ih =>
      have htransact : SessionLeads params calls (SessionDone calls answers)
          (fun r x => ∃ call s' origin buffer', calls[n]? = some call ∧
            Busy params call n s' ∧
            x = (s', v) ∧ r = ⟨errorSuccess, some ⟨call.req, origin⟩, buffer'⟩) (s, v)
          ((pipeCalls params).transact response buffer) := by
        have hcall : SessionLeads params calls (SessionDone calls answers)
            (fun r x => ∃ call s' origin buffer', calls[n]? = some call ∧
              Busy params call n s' ∧
              x = (s', v) ∧ r = ⟨errorSuccess, some ⟨call.req, origin⟩, some buffer'⟩)
                (s, v)
            (spdStorageUnitHandleTransactPipe params response true (some buffer)) := by
          refine spdStorageUnitHandleTransactPipe_leads hM hcalls h (fun hnone s' hidle => ?_)
            fun call hcall s' origin buffer' hbusy =>
              ⟨call, s', origin, buffer', hcall, hbusy, rfl, rfl⟩
          have hlast : n = calls.length := Nat.le_antisymm hn (List.getElem?_eq_none_iff.mp hnone)
          refine ⟨hidle.returned.trans hlast, hv.trans ?_⟩
          rw [hlast, ← hlength, List.take_length]
        refine hcall.bind fun r x hx => ?_
        obtain ⟨call, s', origin, buffer', hcall, hbusy, rfl, rfl⟩ := hx
        exact .ret ⟨call, s', origin, buffer', hcall, hbusy, rfl, rfl⟩
      refine htransact.bind fun r x hx => ?_
      obtain ⟨call, s', origin, buffer', hcall, hbusy, rfl, rfl⟩ := hx
      have hwell := hcalls call (List.mem_of_getElem? hcall)
      obtain ⟨hlt, -⟩ := List.getElem?_eq_some_iff.mp hcall
      have hlt' : n < answers.length := hlength.symm ▸ hlt
      obtain ⟨opCall, hop⟩ := Option.ne_none_iff_exists'.mp hwell.operation
      have hdispatch : SessionLeads params calls (SessionDone calls answers)
          (fun r x => r = (true, responseTo ⟨call.req, origin⟩ answers[n].1, answers[n].2) ∧
            x.1 = s' ∧ x.2.answers = v.answers ++ [(answers[n].1, some answers[n].2)]) (s', v)
          (dispatch (pipeCalls params) interface ⟨call.req, origin⟩ buffer') :=
        dispatch_leads hop (hbuffers _ (List.getElem_mem hlt')) ⟨rfl, rfl, rfl⟩
      dsimp only
      rw [if_neg (by rw [errorSuccess]; decide), Option.getD_some, if_neg hwell.hint]
      refine hdispatch.bind fun r x hx => ?_
      obtain ⟨s'', v'⟩ := x
      obtain ⟨rfl, hsame, hv'⟩ := hx
      obtain rfl : s'' = s' := hsame
      have hholds :
          Holds params calls (some (responseTo ⟨call.req, origin⟩ answers[n].1)) (n + 1)
          s'' := ⟨call, n, origin, answers[n].1, rfl, hcall, rfl, hbusy⟩
      refine ih (by omega) hlt hholds ?_
      have hv' : v'.answers = v.answers ++ [(answers[n].1, some answers[n].2)] := hv'
      rw [hv', hv, List.take_add_one, List.getElem?_eq_getElem hlt', Answers.sent, Answers.sent,
        List.map_append]
      rfl

/-! ## The unit and its client -/

/-- What holds of a history and the state it leads to. -/
structure PipeTransparent (params : StorageUnitParams) (interface : Interface)
    (calls : List StgCall) (ls : List PipeEvent) (w : ServeThreads) : Prop where
  /-- The client waits for the response to its last call at most. -/
  sent : w.shared.nextId ≤ w.shared.delivered.length + 1
  /-- A call that has not returned is in one place. -/
  kept : w.shared.delivered.length + w.shared.inbox.length + w.shared.pending.length +
    (callsHeld w.accounts).length = w.shared.nextId
  /-- An operation is called once for each call, and answers before it returns. -/
  once : w.shared.delivered.length ≤ (servedCalls ls).answers.length ∧
    (servedCalls ls).answers.length ≤ (servedCalls ls).called.length ∧
    (servedCalls ls).called.length ≤ w.shared.nextId
  called : CalledOk params interface calls (servedCalls ls)
  returned : ReturnedOk params calls (servedCalls ls) w.shared.delivered

theorem StageOk.lengths {T : HashBuckets} {stage : ServeStage}
    (h : StageOk params call v n T stage) :
    n ≤ v.answers.length ∧ v.answers.length ≤ v.called.length ∧
    v.called.length ≤ n + 1 := by
  have hanswered : ∀ {answer}, CallAnswered params call v n answer →
      n ≤ v.answers.length ∧ v.answers.length ≤ v.called.length ∧
      v.called.length ≤ n + 1 := by
    intro answer hanswered
    obtain ⟨hcalled, hanswers, -⟩ := hanswered
    omega
  have hfirst : v.called.length = n → v.answers.length = n →
      n ≤ v.answers.length ∧ v.answers.length ≤ v.called.length ∧
      v.called.length ≤ n + 1 := by
    omega
  cases stage with
  | received => exact hfirst h.2.1 h.2.2.1
  | handed data => exact hfirst h.2.1 h.2.2.1
  | answered status dataBuffer => exact hanswered h.1
  | taken status dataBuffer length => exact hanswered h.1

theorem CallPhase.counts {t : Traffic} {T : HashBuckets} {held : List (Request × ServeStage)}
    (h : CallPhase params calls v t T held) :
    t.nextId ≤ t.delivered.length + 1 ∧
      t.delivered.length + t.inbox.length + t.pending.length + held.length = t.nextId ∧
      t.delivered.length ≤ v.answers.length ∧ v.answers.length ≤ v.called.length ∧
      v.called.length ≤ t.nextId := by
  cases h with
  | idle hinbox hpending hheld hsent hcalled hanswers =>
      rw [hinbox, hpending, hheld, List.length_nil, List.length_nil, List.length_nil]
      omega
  | sent _ _ hinbox hpending hheld hsent hcalled hanswers =>
      rw [hinbox, hpending, hheld, List.length_singleton, List.length_nil, List.length_nil]
      omega
  | held _ hinbox hpending hheld hsent hstage =>
      have hlengths := hstage.lengths
      rw [hinbox, hpending, hheld, List.length_singleton, List.length_nil, List.length_nil]
      omega
  | parked _ hinbox hpending hheld hsent hcalled hanswers =>
      rw [hinbox, hpending, hheld, List.length_singleton, List.length_nil, List.length_nil]
      omega

theorem ServeInv.transparent {ls : List PipeEvent} {w : ServeThreads}
    (h : ServeInv params interface calls (servedCalls ls) w.shared w.accounts) :
    PipeTransparent params interface calls ls w := by
  obtain ⟨hsent, hkept, honce⟩ := h.phase.counts
  exact ⟨hsent, hkept, honce, h.called, h.returned⟩

theorem clientStarts (params : StorageUnitParams) (interface : Interface) (calls : List StgCall)
    (fuel : Nat) :
    ∃ ls, Run (ClientStep params interface calls) serveInit ls
        ⟨{ PipeServer.init with pipe := .connected, client := 1 },
          [⟨pipeDispatcher params interface fuel [], none⟩]⟩ ∧
            servedCalls ls = ⟨[], []⟩ := by
  have hopen : ServeStep params interface calls serveInit .enter
      ⟨.init, [⟨pipeAction .clientOpen, none⟩]⟩ := .enter .clientOpen
  have hopened : ServeStep params interface calls ⟨.init, [⟨pipeAction .clientOpen, none⟩]⟩
      (.act .clientOpen ())
      ⟨{ PipeServer.init with pipe := .connected, client := 1 }, [⟨.ret (), none⟩]⟩ :=
    Threads.step_head ⟨.ends 0, rfl⟩
  have hleave : ServeStep params interface calls
      ⟨{ PipeServer.init with pipe := .connected, client := 1 }, [] ++ [⟨.ret (), none⟩]⟩
      .leave
      ⟨{ PipeServer.init with pipe := .connected, client := 1 }, [] ++ []⟩ := .leave
  have henter : ServeStep params interface calls
      ⟨{ PipeServer.init with pipe := .connected, client := 1 }, []⟩ .enter
      ⟨{ PipeServer.init with pipe := .connected, client := 1 },
        [⟨pipeDispatcher params interface fuel [], none⟩]⟩ := .enter (.dispatcher fuel [])
  exact ⟨_, .cons ⟨hopen, trivial⟩ (.cons ⟨hopened, trivial⟩ (.cons ⟨hleave, trivial⟩
    (.single ⟨henter, trivial⟩))), rfl⟩

/-- In every run, the client's calls are calls of the operations. Whatever these
answer, there is a run in which all calls return. -/
theorem pipe_transparent (hM : params.maxTransferLength.toNat + 48 < 2 ^ 32)
    (hcalls : ∀ call ∈ calls, WellFormed params interface call) :
    (∀ ls w, Run (ClientStep params interface calls) serveInit ls w →
      PipeTransparent params interface calls ls w) ∧
    ∀ answers : Answers, answers.length = calls.length →
      (∀ answer ∈ answers, answer.2.length = params.maxTransferLength.toNat) →
      ∃ ls w, Run (ClientStep params interface calls) serveInit ls w ∧
        w.shared.delivered.length = calls.length ∧ (servedCalls ls).answers = answers.sent := by
  refine ⟨fun ls w hrun => (clientRun_inv hM hcalls hrun).inv.transparent,
    fun answers hlength hbuffers => ?_⟩
  have hidle : Idle 0 { PipeServer.init with pipe := .connected, client := 1 } :=
    ⟨⟨rfl, rfl, .inl rfl, rfl, rfl, rfl, Hashed.ok_empty⟩, rfl, rfl, fun _ => rfl⟩
  have hloop : SessionLeads params calls (SessionDone calls answers) (fun _ _ => False)
      ({ PipeServer.init with pipe := .connected, client := 1 }, ⟨[], []⟩)
      (dispatcherLoop (pipeCalls params) interface (calls.length + 1) none []) :=
    dispatcherLoop_leads hM hcalls hlength hbuffers (Nat.lt_succ_self _) (Nat.zero_le _) hidle rfl
  have hthread : SessionLeads params calls (SessionDone calls answers) (fun _ _ => False)
      ({ PipeServer.init with pipe := .connected, client := 1 }, ⟨[], []⟩)
      (pipeDispatcher params interface (calls.length + 1) []) :=
    hloop.bind fun _ _ h => h.elim
  obtain ⟨ls, hstart, hserved⟩ := clientStarts params interface calls (calls.length + 1)
  obtain ⟨ls', w, hrun, hdone, hanswers⟩ := session_run hthread
  refine ⟨ls ++ ls', w, hstart.append hrun, hdone, ?_⟩
  have hall : servedCalls (ls ++ ls') = ls'.foldl serveStep ⟨[], []⟩ := by
    rw [← hserved, servedCalls, servedCalls, List.foldl_append]
  rw [hall]
  exact hanswers

def sampleReadCall :
    StgCall := ⟨⟨7, transactReadKind, 3, 2, false⟩, some (List.replicate 1024 0)⟩

theorem pipe_transparent_read :
    ∃ ls w, Run (ClientStep sampleParams allOperations [sampleReadCall]) serveInit ls w ∧
      w.shared.delivered.length = 1 ∧
      PipeTransparent sampleParams allOperations [sampleReadCall] ls w := by
  have hwell : WellFormed sampleParams allOperations sampleReadCall := by
    refine ⟨by decide, by decide, fun _ => by decide, fun _ _ => ?_⟩
    show operationLength sampleParams sampleReadCall.req ≤
        (List.replicate 1024 (0 : UInt8)).length
    rw [List.length_replicate]
    decide
  obtain ⟨hruns, hreturns⟩ := @pipe_transparent sampleParams allOperations [sampleReadCall]
    (by decide) (List.forall_mem_singleton.mpr hwell)
  obtain ⟨ls, w, hrun, hdone, -⟩ := hreturns [(zeroStatus, List.replicate 1024 1)] rfl
    (List.forall_mem_singleton.mpr List.length_replicate)
  exact ⟨ls, w, hrun, hdone, hruns ls w hrun⟩

/-- A message buffer of 2^32 + 32 bytes would be needed. -/
def wideParams : StorageUnitParams :=
  { StorageUnitParams.zero with blockLength := 16, maxTransferLength := 0xfffffff0 }

def sampleFlushCall : StgCall := ⟨sampleFlush, none⟩

/-- `ClientMeets`, as a check for runs in which no request is read. -/
def clientMeets (params : StorageUnitParams) (calls : List StgCall) (s : PipeServer) :
    PipeEvent → Bool
  | .act .overlappedInit error => error = errorSuccess
  | .act .memAlloc msg => msg
  | .act .connectNamedPipe error => error = s.pipe.connectError
  | .act .writeParams error => error = errorSuccess
  | .act (.readFile size) (.error _) =>
      s.inbox.head?.any fun x => size.toNat < x.1.length
  | .act (.clientSend message) _ =>
      s.nextId = s.delivered.length && calls[s.nextId]?.bind (stgMessage params) = some message
  | .act .unitIsListed _ | .act .acquireLock _ | .act .releaseLock _ | .act (.disconnect _) _
  | .act .clientOpen _ | .enter | .leave => true
  | _ => false

theorem clientMeets_iff {ev : PipeEvent} (h : clientMeets params calls s ev = true) :
    ClientMeets params calls s ev := by
  cases ev with
  | enter | leave => trivial
  | act a r =>
      cases a with
      | overlappedInit | connectNamedPipe | writeParams =>
          have heq : r = _ := of_decide_eq_true h
          exact heq
      | memAlloc => exact h
      | readFile size =>
          match r with
          | .ok _ => trivial
          | .error _ =>
              obtain ⟨⟨message, origin⟩, hmem, hlong⟩ := (Option.any_eq_true _ _).mp h
              obtain ⟨inbox, hinbox⟩ := List.head?_eq_some_iff.mp hmem
              exact ⟨message, origin, inbox, hinbox, of_decide_eq_true hlong⟩
      | clientSend message =>
          obtain ⟨hnone, hmessage⟩ := (Bool.and_eq_true _ _).mp h
          obtain ⟨call, hcall, hmessage⟩ :=
            Option.bind_eq_some_iff.mp (of_decide_eq_true hmessage)
          exact ⟨of_decide_eq_true hnone, call, hcall, hmessage⟩
      | unitIsListed | acquireLock | releaseLock | disconnect | clientOpen => trivial
      | _ => cases h

/-- The client calls. The server's buffer is too small for the message, and it
drops the client. -/
def flushDropped : List (Choice × Threads.Move (PipeEntry wideParams allOperations)) :=
  let ok : Choice := .ends errorSuccess
  [(ok, .enter _ .clientOpen), (ok, .turn 0), (ok, .turn 0), (ok, .enter _ (.dispatcher 1 []))] ++
    List.replicate 7 (ok, .turn 0) ++
    [(ok, .enter _ (.clientSend (.whole sampleFlush []))), (ok, .turn 0), (ok, .turn 0),
      (.splits (.short 16), .turn 0), (ok, .turn 0)]

theorem pipe_transparent_lost :
    WellFormed wideParams allOperations sampleFlushCall ∧
      ∃ ls w, Run (ClientStep wideParams allOperations [sampleFlushCall]) serveInit ls w ∧
        ¬PipeTransparent wideParams allOperations [sampleFlushCall] ls w := by
  have hnone : ¬Transfers sampleFlushCall.req := by
    unfold Transfers
    decide
  refine ⟨⟨by decide, by decide, fun h => absurd h hnone, fun h => absurd h hnone⟩, ?_⟩
  have hfinal : (Threads.plays (serveRules wideParams allOperations [sampleFlushCall])
      (fun c s a => a.exec s c) (fun _ w => clientMeets wideParams [sampleFlushCall] w.shared) []
      serveInit flushDropped).map (fun x =>
        (x.2.shared.nextId, x.2.shared.delivered.length, x.2.shared.inbox.length,
          x.2.shared.pending.length, (callsHeld x.2.accounts).length)) =
      some (1, 0, 0, 0, 0) := by rfl
  obtain ⟨⟨ls, w⟩, hplays, heq⟩ := Option.map_eq_some_iff.mp hfinal
  simp only [Prod.mk.injEq] at heq
  obtain ⟨hsent, hdelivered, hinbox, hpending, hheld⟩ := heq
  have hrun : RunWhen (ServeStep wideParams allOperations [sampleFlushCall])
      (fun _ w ev => ClientMeets wideParams [sampleFlushCall] w.shared ev) serveInit ls w :=
    Threads.plays_run (fun c _ _ _ _ h => ⟨c, h⟩) (fun _ _ _ h => clientMeets_iff h) .nil hplays
  refine ⟨ls, w, hrun.steps, fun h => ?_⟩
  have hkept := h.kept
  omega

end Winspd.Proofs
