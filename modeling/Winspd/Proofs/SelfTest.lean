import Winspd.Proofs.PipeParts
import Winspd.Proofs.SelfTestTurns
import Winspd.Proofs.Sessions

/-!
# The stress test of the raw disk

The whole of a test: `run` of `stgtest.c` makes its requests over the pipe, and the
dispatcher threads of a raw disk carry them out in the file. Here the pipe and the
memory do not fail, and the file system neither. Then the test does not fail.

The client knows only what it reads from the pipe. Its requests are the calls of a
client of the pipe transport (`ServeInv`), one after the other, so the raw disk makes
one operation at a time, and the operation is what a disk does (`operation_runs`).
`ClientState` says how far the client has come, and what the disk has then.

The proof goes through one round of the test and then through all of them. In a
round the client writes, reads back and compares, and each of its calls is one
operation of the disk. The client's state after a call is determined by what the
operation has done, so the comparison finds what was written.
-/

namespace Winspd.Proofs

open Winspd.Lib Winspd.Sys Winspd.Shared Winspd.Stgtest Winspd.Rawdisk

/-! ## The system -/

/-- Where the thread of the test is. -/
inductive TestThread
  /-- In front of a turn of the loop. -/
  | turn (s : StressState)
  /-- In `StgTransact`, with this request. -/
  | waits (s : StressState) (req : SpdIoctlTransactReq)
  | returns (error : UInt32)

/-- `StgTransact` has returned, and the rest of the turn is done. -/
def TestThread.afterTurn : Except UInt32 StressState → TestThread
  | .ok s => .turn s
  | .error error => .returns error

structure SelfTest where
  server : ServeThreads
  file : RawDiskFile
  client : TestThread
  /-- The messages that the client has read. -/
  received : Nat

inductive SelfTestEvent
  | server (ev : PipeEvent)
  | sends (call : StgCall) (message : Message)
  | receives
  | returns

/-- The dispatcher threads, whose data buffers are `MaxTransferLength` long, and what
the client does. -/
inductive SelfTestEntry (params : StorageUnitParams) : PipeProg Unit → Prop
  | dispatcher (fuel : Nat) (dataBuffer : List UInt8)
      (h : dataBuffer.length = params.maxTransferLength.toNat) :
      SelfTestEntry params (pipeDispatcher params rawDiskInterface fuel dataBuffer)
  | clientOpen : SelfTestEntry params (pipeAction .clientOpen)
  | clientSend (message : Message) : SelfTestEntry params (pipeAction (.clientSend message))

/-- A thread's data buffer is as long as it was allocated, if operations leave it so. -/
def lengthRules (params : StorageUnitParams) : Rules PipeAction PipeAction.Answer Unit where
  start := ()
  track _ _ _ := ()
  May _ a :=
    match a with
    | .operation _ _ _ dataBuffer => dataBuffer.length = params.maxTransferLength.toNat
    | _ => True
  Answers _ a r :=
    match a, r with
    | .operation .., (_, _, dataBuffer) => dataBuffer.length = params.maxTransferLength.toNat
    | _, _ => True
  Settled _ := True

abbrev selfTestRules (params : StorageUnitParams) (calls : List StgCall) :
    Rules PipeAction PipeAction.Answer ServeAccount :=
  (serveRules params rawDiskInterface calls).and (lengthRules params)

/-- Nothing goes wrong between the server and the system, as far as it is not the
client's doing or the raw disk's. -/
def ServerMeets (params : StorageUnitParams) (s : PipeServer) : PipeEvent → Prop
  | .act (.clientSend _) _ => False
  | .act (.operation ..) _ => True
  | ev => ClientMeets params [] s ev

/-- An operation is one of the raw disk. The system may write bytes back at any time. -/
def OnDisk (rawDisk : RawDisk) (order : MemcpyOrder) (f f' : RawDiskFile) : PipeEvent → Prop
  | .act (.operation call _ status dataBuffer) x =>
      (rawDisk.operation order call status dataBuffer).Runs DiskExec f x f'
  | _ => f'.view = f.view ∧ f'.size = f.size

inductive SelfTestStep (a : Stress) (rawDisk : RawDisk) (order : MemcpyOrder) :
    SelfTest → SelfTestEvent → SelfTest → Prop
  | server {w w' : ServeThreads} {f f' : RawDiskFile} {client : TestThread} {received : Nat}
      {ev : PipeEvent}
      (hstep : Threads.Step (selfTestRules a.params []) PipeAction.Exec (SelfTestEntry a.params)
        w ev w')
      (hmeets : ServerMeets a.params w.shared ev) (hfile : OnDisk rawDisk order f f' ev) :
      SelfTestStep a rawDisk order ⟨w, f, client, received⟩ (.server ev)
        ⟨w', f', client, received⟩
  | sends {w w' : ServeThreads} {f : RawDiskFile} {s s₁ : StressState}
      {req : SpdIoctlTransactReq} {message : Message} {received : Nat}
      (hcount : a.opCount > s.i) (hissue : a.issue s = some (s₁, req))
      (hmessage : stgMessage a.params ⟨req, some s₁.dataBuffer⟩ = some message)
      (hstep : Threads.Step (selfTestRules a.params []) PipeAction.Exec (SelfTestEntry a.params)
        w (.act (.clientSend message) ()) w') :
      SelfTestStep a rawDisk order ⟨w, f, .turn s, received⟩
        (.sends ⟨req, some s₁.dataBuffer⟩ message) ⟨w', f, .waits s₁ req, received⟩
  | receives {w : ServeThreads} {f : RawDiskFile} {s : StressState} {req : SpdIoctlTransactReq}
      {received : Nat} {d : Shared.Delivered} {r : Except UInt32 StressState}
      (hread : w.shared.delivered[received]? = some d)
      (hcomplete : a.complete s req (.responds d.response.rsp d.data) = some r) :
      SelfTestStep a rawDisk order ⟨w, f, .waits s req, received⟩ .receives
        ⟨w, f, .afterTurn r, received + 1⟩
  | returns {w : ServeThreads} {f : RawDiskFile} {s : StressState} {received : Nat}
      (hcount : ¬a.opCount > s.i) :
      SelfTestStep a rawDisk order ⟨w, f, .turn s, received⟩ .returns
        ⟨w, f, .returns errorSuccess, received⟩

def selfTestStart (args : StressArgs) (dataBuffer : List UInt8) (file : RawDiskFile) : SelfTest :=
  ⟨serveInit, file, .turn (args.start dataBuffer), 0⟩

def serverEvent : SelfTestEvent → Option PipeEvent
  | .server ev => some ev
  | .sends _ message => some (.act (.clientSend message) ())
  | _ => none

def serverEvents (ls : List SelfTestEvent) : List PipeEvent := ls.filterMap serverEvent

def testCall : SelfTestEvent → Option StgCall
  | .sends call _ => some call
  | _ => none

def testCalls (ls : List SelfTestEvent) : List StgCall := ls.filterMap testCall

variable {params : StorageUnitParams} {calls : List StgCall} {a : Stress} {rawDisk : RawDisk}
  {order : MemcpyOrder} {W W' : SelfTest} {ls : List SelfTestEvent} {ev : SelfTestEvent}
  {s s₁ : StressState} {req : SpdIoctlTransactReq}

/-! ## The data buffers of the threads -/

theorem quiet_length {α : Type} {X : PipeAction → Prop} {p : PipeProg α} (h : p.Only X)
    (hX : ∀ call request status dataBuffer, ¬X (.operation call request status dataBuffer)) :
    (lengthRules params).Safe (fun _ _ => True) () p := by
  refine .of_only (I := fun _ => True) h (fun a _ ha _ => ?_) trivial
  cases a with
  | operation call request status dataBuffer => exact absurd ha (hX _ _ _ _)
  | _ => exact ⟨trivial, fun _ _ => trivial⟩

def LengthKept (params : StorageUnitParams) (r : Transacted (List UInt8)) : Prop :=
  r.dataBuffer.length = params.maxTransferLength.toNat

theorem acceptMessage_length {dataBuffer : List UInt8} {message : Message} {origin : Origin}
    (h : dataBuffer.length = params.maxTransferLength.toNat) :
    (lengthRules params).Safe (fun r _ => LengthKept params r) ()
      (acceptMessage params dataBuffer message origin) := by
  cases message with
  | short _ => exact h
  | whole req payload =>
      unfold acceptMessage
      dsimp only
      split
      · split
        · exact h
        · refine .perform_bind trivial fun put _ => ?_
          split <;> exact h
      · split
        · split
          · exact h
          · next hle =>
              have hle' := UInt32.le_iff_toNat_le.mp (UInt32.not_lt.mp hle)
              show (fillBuffer dataBuffer payload _).length = _
              rw [fillBuffer, List.length_append, List.length_append, List.length_take,
                List.length_replicate, List.length_drop]
              omega
        · exact h

theorem spdStorageUnitHandleTransactPipe_length {response : Option Response}
    {dataBuffer : List UInt8} (h : dataBuffer.length = params.maxTransferLength.toNat) :
    (lengthRules params).Safe (fun r _ => ∃ buffer, r.dataBuffer = some buffer ∧
        buffer.length = params.maxTransferLength.toNat) ()
      (spdStorageUnitHandleTransactPipe params response true (some dataBuffer)) := by
  unfold spdStorageUnitHandleTransactPipe
  rw [if_neg (by simp)]
  refine (quiet_length prepare_connects fun _ _ _ _ => id).bind fun error _ _ => ?_
  split
  · exact ⟨_, rfl, h⟩
  · refine (quiet_length connectSection_connects fun _ _ _ _ => id).bind fun x _ _ => ?_
    dsimp only
    split
    · exact ⟨_, rfl, h⟩
    · split
      · exact ⟨_, rfl, h⟩
      · refine (quiet_length writeResponse_responds fun _ _ _ _ => id).bind fun error _ _ => ?_
        split
        · exact .perform_bind trivial fun _ _ => ⟨_, rfl, h⟩
        · have hread : (lengthRules params).Safe (fun r _ => LengthKept params r) ()
              (Shared.readRequest params x.2 dataBuffer) := by
            refine .perform_bind trivial fun read _ => ?_
            cases read with
            | error _ => exact .perform_bind trivial fun _ _ => h
            | ok x => exact acceptMessage_length h
          exact hread.bind fun r _ hr => ⟨_, rfl, hr⟩

theorem pipeDispatcher_length {interface : Interface} {fuel : Nat} {dataBuffer : List UInt8}
    (h : dataBuffer.length = params.maxTransferLength.toNat) :
    (lengthRules params).Safe (fun _ _ => True) ()
      (pipeDispatcher params interface fuel dataBuffer) := by
  have hloop : (lengthRules params).Safe (fun _ _ => True) ()
      (dispatcherLoop (pipeCalls params) interface fuel none dataBuffer) := by
    refine dispatcherLoop_buffer
      (J := fun _ dataBuffer _ => dataBuffer.length = params.maxTransferLength.toNat)
      (H := fun _ dataBuffer _ => dataBuffer.length = params.maxTransferLength.toNat)
      (fun {response dataBuffer g} hlen => ?_) (fun {request dataBuffer g} hlen => ?_)
      (fun _ => .perform_bind trivial fun _ _ => trivial) h
    · refine (spdStorageUnitHandleTransactPipe_length hlen).bind fun r _ hr => ?_
      obtain ⟨buffer, hbuffer, hlen'⟩ := hr
      have hkept : (r.dataBuffer.getD dataBuffer).length = params.maxTransferLength.toNat := by
        rw [hbuffer]
        exact hlen'
      exact ⟨fun _ => trivial, fun _ _ => hkept, fun _ _ => hkept⟩
    · unfold dispatch
      split
      · exact .perform_bind hlen fun x hx => hx
      · exact hlen
  exact hloop.bind fun _ _ _ => ⟨trivial, fun _ _ => trivial⟩

theorem selfTestEntry_safe {p : PipeProg Unit} (h : SelfTestEntry params p) :
    (selfTestRules params calls).Safe (fun _ => (selfTestRules params calls).Settled)
      (selfTestRules params calls).start p := by
  cases h with
  | dispatcher fuel dataBuffer hlen =>
      exact (pipeDispatcher_serves.and (pipeDispatcher_length hlen)).mono fun _ _ h => h.1
  | clientOpen | clientSend => exact ⟨⟨trivial, trivial⟩, fun _ _ => rfl⟩

/-! ## The calls of the client -/

/-- What the thread of the test has drawn is in order. -/
def ClientOk (a : Stress) : TestThread → Prop
  | .turn s => StressInv a s
  | .waits s₁ req => ∃ s, StressInv a s ∧ a.opCount > s.i ∧ a.issue s = some (s₁, req)
  | .returns _ => True

section Client

variable (hkinds : KindsOk a.opKinds) (haccept : UnitAccepted a.params) (hthread : a.threadId ≠ 0)
include hkinds haccept hthread

theorem ClientOk.step (h : ClientOk a W.client) (hstep : SelfTestStep a rawDisk order W ev W') :
    ClientOk a W'.client ∧
      ∀ call, testCall ev = some call → WellFormed a.params rawDiskInterface call := by
  cases hstep with
  | server => exact ⟨h, fun call hcall => by cases hcall⟩
  | sends hcount hissue hmessage _ =>
      refine ⟨⟨_, h, hcount, hissue⟩, fun call hcall => ?_⟩
      cases hcall
      obtain ⟨s₀, hissued, -, hround, hbuffer⟩ := StressInv.issued h hkinds haccept hissue
      exact hissued.wellFormed hround haccept hbuffer hthread
  | @receives w f s₁ req received d r hread hcomplete =>
      refine ⟨?_, fun call hcall => by cases hcall⟩
      obtain ⟨s, hinv, hcount, hissue⟩ := h
      cases r with
      | error error => trivial
      | ok s' => exact hinv.step hkinds haccept (.turn hcount hissue hcomplete)
  | returns => exact ⟨trivial, fun call hcall => by cases hcall⟩

theorem client_run (hrun : Run (SelfTestStep a rawDisk order) W ls W') (h : ClientOk a W.client) :
    ClientOk a W'.client ∧ ∀ call ∈ testCalls ls,
      WellFormed a.params rawDiskInterface call := by
  induction hrun with
  | nil => exact ⟨h, fun call hcall => by cases hcall⟩
  | @snoc ls ev V V' _ hstep ih =>
      obtain ⟨hok, hcalls⟩ := ih
      obtain ⟨hok', hcall⟩ := hok.step hkinds haccept hthread hstep
      refine ⟨hok', fun call hmem => ?_⟩
      rw [testCalls, List.filterMap_append, List.mem_append] at hmem
      rcases hmem with hmem | hmem
      · exact hcalls call hmem
      · obtain ⟨ev', hev, hof⟩ := List.mem_filterMap.mp hmem
        cases List.mem_singleton.mp hev
        exact hcall call hof

end Client

/-! ## The server -/

theorem step_rules {w w' : ServeThreads} {ev : PipeEvent}
    (h : Threads.Step (selfTestRules params []) PipeAction.Exec (SelfTestEntry params) w ev w') :
    Threads.Step (selfTestRules params calls) PipeAction.Exec (SelfTestEntry params) w ev w' := by
  cases h with
  | enter hp => exact .enter hp
  | act hexec => exact .act hexec
  | leave => exact .leave

/-- What holds of a history of the server. -/
abbrev SelfTestVerified (params : StorageUnitParams) (calls : List StgCall)
    (es : List PipeEvent) (w : ServeThreads) : Prop :=
  Threads.Verified (selfTestRules params calls)
    (ServeInv params rawDiskInterface calls (servedCalls es)) w

variable {es : List PipeEvent} {w w' : ServeThreads}

theorem SelfTestVerified.step {ev : PipeEvent} (hM : params.maxTransferLength.toNat + 48 < 2 ^ 32)
    (hcalls : ∀ call ∈ calls, WellFormed params rawDiskInterface call)
    (hw : SelfTestVerified params calls es w)
    (hstep : Threads.Step (selfTestRules params []) PipeAction.Exec (SelfTestEntry params) w ev w')
    (hmeets : ClientMeets params calls w.shared ev) :
    SelfTestVerified params calls (es ++ [ev]) w' := by
  refine Threads.Verified.step_to (C := fun w ev => ClientMeets params calls w.shared ev)
    (fun hperm h => h.perm hperm) (fun hperm h => h.perm hperm) ?_ ?_ selfTestEntry_safe ?_ hw
    hmeets (step_rules hstep)
  · rintro s gs rfl h
    rw [servedCalls_snoc]
    exact h.cons_none
  · rintro s g gs rfl hg h
    obtain rfl : g = none := hg
    rw [servedCalls_snoc]
    exact h.of_cons_none
  · rintro s us vs act k g r s' rfl - hC hmay h hexec
    rw [servedCalls_snoc]
    obtain ⟨hinv, hserves⟩ := h.exec hM hcalls hmay.1 hexec hC
    refine ⟨hinv, hserves, ?_⟩
    cases act with
    | operation => exact hC
    | _ => trivial

theorem SelfTestVerified.operation {call : OperationCall} {request : Shared.Request}
    {status : StorageUnitStatus} {d : List UInt8} {x : Bool × StorageUnitStatus × List UInt8}
    (hw : SelfTestVerified params calls es w)
    (hstep : Threads.Step (selfTestRules params []) PipeAction.Exec (SelfTestEntry params) w
      (.act (.operation call request status d) x) w') :
    ∃ c, calls[w.shared.delivered.length]? = some c ∧ c.req = request.req ∧
      rawDiskInterface.call request.req = some call ∧ status = zeroStatus ∧
      directData params c <+: d ∧ d.length = params.maxTransferLength.toNat ∧
      w.shared.nextId = w.shared.delivered.length + 1 ∧
      (servedCalls es).called.length = w.shared.delivered.length ∧
      (servedCalls es).answers.length = w.shared.delivered.length ∧
      PipeAction.Exec w.shared (.operation call request status d) x w'.shared := by
  obtain ⟨g, gs, hinv, hmay, hexec, -⟩ :=
    hw.acting (fun hperm h => h.perm hperm) (step_rules hstep)
  obtain ⟨⟨hcall, hstatus, data, rfl, hfirst⟩, hlen⟩ := hmay
  obtain ⟨c, origin, stage, hget, -, -, heq, -, hid, hstage⟩ := hinv.phase.of_held
  cases heq
  obtain ⟨rfl, hcalled, hanswers, -⟩ := hstage
  exact ⟨c, hget, rfl, hcall, hstatus, hfirst, hlen, hid, hcalled, hanswers, hexec⟩

theorem quiet_event {s s' : PipeServer} {act : PipeAction} {x : act.Answer}
    (hexec : act.Exec s x s') (hpending : s.pending = [])
    (hsend : ∀ message, act ≠ .clientSend message)
    (hop : ∀ call request status d, act ≠ .operation call request status d) :
    s'.nextId = s.nextId ∧ s'.pending = [] ∧ s.delivered <+: s'.delivered ∧
      ∀ v, serveStep v (.act act x) = v := by
  have heffect := exec_trafficEffect hexec
  have hsame : ∀ {t : Traffic}, traffic s' = t → t.nextId = s.nextId →
      t.pending = s.pending →
      s.delivered <+: t.delivered →
      s'.nextId = s.nextId ∧ s'.pending = [] ∧ s.delivered <+: s'.delivered := by
    rintro t rfl hid hp hd
    exact ⟨hid, hp.trans hpending, hd⟩
  have hall :
      ∀ {P : Prop},
        (s'.nextId = s.nextId ∧ s'.pending = [] ∧ s.delivered <+: s'.delivered) →
      P → s'.nextId = s.nextId ∧ s'.pending = [] ∧ s.delivered <+: s'.delivered ∧ P :=
    fun h hP => ⟨h.1, h.2.1, h.2.2, hP⟩
  cases act with
  | clientSend message => exact absurd rfl (hsend message)
  | operation call request status d => exact absurd rfl (hop call request status d)
  | readFile size =>
      refine hall ?_ fun _ => rfl
      match x, heffect with
      | .ok (message, origin), ⟨inbox, _, htraffic⟩ =>
          exact hsame htraffic rfl rfl List.prefix_rfl
      | .error _, .inl htraffic => exact hsame htraffic rfl rfl List.prefix_rfl
      | .error _, .inr ⟨_, _, _, _, _, htraffic⟩ =>
          exact hsame htraffic rfl rfl List.prefix_rfl
  | writeFile response data =>
      refine hall ?_ fun _ => rfl
      rcases heffect with ⟨-, htraffic⟩ | ⟨-, htraffic⟩
      · exact hsame htraffic rfl rfl List.prefix_rfl
      · exact hsame htraffic rfl rfl (List.prefix_append _ _)
  | takePending =>
      obtain ⟨request, status, dataBuffer⟩ := x
      obtain ⟨index, hindex, -⟩ := heffect
      rw [hpending] at hindex
      cases hindex
  | disconnectNamedPipe =>
      refine hall ?_ fun _ => rfl
      rcases traffic_disconnectPipe (s := s) with h | h <;> rw [TrafficEffect, h] at heffect <;>
        exact hsame heffect rfl rfl List.prefix_rfl
  | disconnect connected =>
      refine hall ?_ fun _ => rfl
      rw [TrafficEffect] at heffect
      split at heffect
      · rcases traffic_disconnectPipe (s := s) with h | h <;> rw [h] at heffect <;>
          exact hsame heffect rfl rfl List.prefix_rfl
      · exact hsame heffect rfl rfl List.prefix_rfl
  | _ => exact hall (hsame heffect rfl rfl List.prefix_rfl) fun _ => rfl

/-! ## How far the client has come -/

/-- The client has sent this request, the next one that it gets an answer for. -/
structure Waiting (a : Stress) (calls : List StgCall) (received : Nat) (s₀ s₁ : StressState)
    (req : SpdIoctlTransactReq) : Prop where
  ok : ClientOk a (.waits s₁ req)
  issued : Issued a s₀ s₁ req
  round : RoundInv a s₁
  buffer : s₁.dataBuffer.length = a.params.maxTransferLength.toNat
  message : ∃ message, stgMessage a.params ⟨req, some s₁.dataBuffer⟩ = some message
  call : calls[received]? = some ⟨req, some s₁.dataBuffer⟩

/-- What the client has done, and what is on the disk then. -/
inductive ClientState (a : Stress) (calls : List StgCall) (v : ServedCalls) (bytes : Nat → UInt8)
    (nextId received : Nat) : TestThread → Prop
  | turn {s : StressState} (hinv : StressInv a s) (htest : s.j ≠ 0 → TestHolds a s bytes)
      (hsent : nextId = received) : ClientState a calls v bytes nextId received (.turn s)
  | before {s₀ s₁ : StressState} {req : SpdIoctlTransactReq}
      (hwaits : Waiting a calls received s₀ s₁ req) (hsent : nextId = received + 1)
      (hcalled : v.called.length = received) (htest : TestHolds a s₀ bytes) :
      ClientState a calls v bytes nextId received (.waits s₁ req)
  | after {s₀ s₁ : StressState} {req : SpdIoctlTransactReq} {call : OperationCall}
      {d : List UInt8} {found : Nat → UInt8} (hwaits : Waiting a calls received s₀ s₁ req)
      (hsent : nextId = received + 1) (hcalled : v.called.length = received + 1)
      (hcall : rawDiskInterface.call req = some call)
      (hd : directData a.params ⟨req, some s₁.dataBuffer⟩ <+: d)
      (hlen : d.length = a.params.maxTransferLength.toNat) (htest : TestHolds a s₀ found)
      (hbytes : bytes = diskAfter a.params call d found)
      (hanswer : v.answers[received]? =
        some (zeroStatus, some (diskData a.params call d found))) :
      ClientState a calls v bytes nextId received (.waits s₁ req)
  | returns (hsent : nextId = received) :
      ClientState a calls v bytes nextId received (.returns errorSuccess)

structure SelfTestInv (a : Stress) (rawDisk : RawDisk) (calls : List StgCall)
    (ls : List SelfTestEvent) (W : SelfTest) : Prop where
  server : SelfTestVerified a.params calls (serverEvents ls) W.server
  backed : Backed a.params rawDisk W.file.size
  pending : W.server.shared.pending = []
  sent : (testCalls ls).length = W.server.shared.nextId
  received : W.received ≤ W.server.shared.delivered.length
  client : ClientState a calls (servedCalls (serverEvents ls)) W.file.view W.server.shared.nextId
    W.received W.client

theorem serverEvents_snoc {ev : SelfTestEvent} :
    serverEvents (ls ++ [ev]) = serverEvents ls ++ (serverEvent ev).toList := by
  rw [serverEvents, List.filterMap_append]
  cases ev <;> rfl

theorem testCalls_snoc {ev : SelfTestEvent} :
    testCalls (ls ++ [ev]) = testCalls ls ++ (testCall ev).toList := by
  rw [testCalls, List.filterMap_append]
  cases ev <;> rfl

namespace SelfTestInv

section Steps

variable {f f' : RawDiskFile} {client : TestThread} {received : Nat} {message : Message}

theorem quiet {ev : PipeEvent} (hM : a.params.maxTransferLength.toNat + 48 < 2 ^ 32)
    (hcalls : ∀ call ∈ calls, WellFormed a.params rawDiskInterface call)
    (h : SelfTestInv a rawDisk calls ls ⟨w, f, client, received⟩)
    (hstep : Threads.Step (selfTestRules a.params []) PipeAction.Exec (SelfTestEntry a.params)
      w ev w')
    (hmeets : ServerMeets a.params w.shared ev) (hfile : OnDisk rawDisk order f f' ev)
    (hop : ∀ call request status d x, ev ≠ .act (.operation call request status d) x) :
    SelfTestInv a rawDisk calls (ls ++ [.server ev]) ⟨w', f', client, received⟩ := by
  have hclient : ClientMeets a.params calls w.shared ev := by
    cases ev with
    | enter | leave => trivial
    | act act x =>
        cases act with
        | clientSend => exact hmeets.elim
        | operation call request status d => exact absurd rfl (hop call request status d x)
        | readFile =>
            match x, hmeets with
            | .ok _, _ => trivial
            | .error _, hlong => exact hlong
        | _ => exact hmeets
  have hview : f'.view = f.view ∧ f'.size = f.size := by
    cases ev with
    | enter | leave => exact hfile
    | act act x =>
        cases act with
        | operation call request status d => exact absurd rfl (hop call request status d x)
        | _ => exact hfile
  obtain ⟨hid, hpending, hdelivered, hserved⟩ : w'.shared.nextId = w.shared.nextId ∧
      w'.shared.pending = [] ∧ w.shared.delivered <+: w'.shared.delivered ∧
      ∀ v, serveStep v ev = v := by
    cases hstep with
    | enter | leave => exact ⟨rfl, h.pending, List.prefix_rfl, fun _ => rfl⟩
    | act hexec =>
        refine quiet_event hexec h.pending ?_ fun call request status d heq => ?_
        · rintro message rfl
          exact hmeets.elim
        · subst heq
          exact hop call request status d _ rfl
  refine ⟨?_, ?_, hpending, ?_, ?_, ?_⟩
  · rw [serverEvents_snoc]
    exact h.server.step hM hcalls hstep hclient
  · exact hview.2 ▸ h.backed
  · rw [testCalls_snoc]
    exact (congrArg List.length (List.append_nil _)).trans (h.sent.trans hid.symm)
  · exact Nat.le_trans h.received hdelivered.length_le
  · rw [serverEvents_snoc, serverEvent, Option.toList_some, servedCalls_snoc, hserved]
    dsimp only
    rw [hid, hview.1]
    exact h.client

/-- The operation is for the request of the client, and it does what a disk does. -/
theorem operation {call : OperationCall} {request : Shared.Request} {status : StorageUnitStatus}
    {d : List UInt8} {x : Bool × StorageUnitStatus × List UInt8} (haccept : UnitAccepted a.params)
    (hM : a.params.maxTransferLength.toNat + 48 < 2 ^ 32)
    (hcalls : ∀ call ∈ calls, WellFormed a.params rawDiskInterface call)
    (h : SelfTestInv a rawDisk calls ls ⟨w, f, client, received⟩)
    (hstep : Threads.Step (selfTestRules a.params []) PipeAction.Exec (SelfTestEntry a.params)
      w (.act (.operation call request status d) x) w')
    (hfile : OnDisk rawDisk order f f' (.act (.operation call request status d) x)) :
    SelfTestInv a rawDisk calls (ls ++ [.server (.act (.operation call request status d) x)])
      ⟨w', f', client, received⟩ := by
  have hserver : SelfTestVerified a.params calls (serverEvents ls) w := h.server
  obtain ⟨c, hget, hreq, hcall, rfl, hd, hlen, hid, hcalled, hanswers, hexec⟩ :=
    hserver.operation hstep
  rw [← hreq] at hcall
  -- the client waits, and the operation is the one that it waits for
  obtain ⟨s₀, s₁, req, rfl, hwaits, hsent, htest⟩ :
      ∃ s₀ s₁ req, client = .waits s₁ req ∧
      Waiting a calls received s₀ s₁ req ∧ w.shared.nextId = received + 1 ∧
      TestHolds a s₀ f.view := by
    have hreceived : received ≤ w.shared.delivered.length := h.received
    cases h.client with
    | turn _ _ hsent | returns hsent =>
        have hsent' : w.shared.nextId = received := hsent
        omega
    | after _ hsent hcalled' =>
        have hsent' : w.shared.nextId = received + 1 := hsent
        have hcalled'' : (servedCalls (serverEvents ls)).called.length = received + 1 := hcalled'
        omega
    | before hwaits hsent _ htest => exact ⟨_, _, _, rfl, hwaits, hsent, htest⟩
  have hreceived : w.shared.delivered.length = received := by omega
  rw [hreceived] at hget hcalled hanswers
  obtain rfl : c = ⟨req, some s₁.dataBuffer⟩ :=
    Option.some_inj.mp (hget.symm.trans hwaits.call)
  have hok : CallOk a.params call d :=
    hwaits.issued.callOk hwaits.round haccept h.backed hwaits.buffer hcall hd hlen
  obtain ⟨rfl, hbytes, hsize⟩ := operation_runs h.backed hok rfl hfile
  have htraffic := exec_trafficEffect hexec
  have hpending : w'.shared.pending = w.shared.pending := congrArg Traffic.pending htraffic
  have hid' : w'.shared.nextId = w.shared.nextId := congrArg Traffic.nextId htraffic
  have hdelivered : w'.shared.delivered = w.shared.delivered :=
    congrArg Traffic.delivered htraffic
  refine ⟨?_, ?_, hpending.trans h.pending, ?_, ?_, ?_⟩
  · rw [serverEvents_snoc]
    exact h.server.step hM hcalls hstep ((length_diskData hok).trans hlen)
  · exact hsize.symm ▸ h.backed
  · rw [testCalls_snoc]
    exact (congrArg List.length (List.append_nil _)).trans (h.sent.trans hid'.symm)
  · exact hdelivered.symm ▸ h.received
  · rw [serverEvents_snoc, serverEvent, Option.toList_some, servedCalls_snoc]
    refine .after hwaits (hid'.trans hsent) ?_ hcall hd hlen htest hbytes ?_
    · exact (List.length_append.trans (congrArg (· + 1) hcalled))
    · show ((servedCalls (serverEvents ls)).answers ++ [_])[received]? = _
      rw [← hanswers, List.getElem?_concat_length]

theorem sends {req : SpdIoctlTransactReq} (hkinds : KindsOk a.opKinds)
    (haccept : UnitAccepted a.params) (hM : a.params.maxTransferLength.toNat + 48 < 2 ^ 32)
    (hcalls : ∀ call ∈ calls, WellFormed a.params rawDiskInterface call)
    (h : SelfTestInv a rawDisk calls ls ⟨w, f, .turn s, received⟩)
    (hcount : a.opCount > s.i) (hissue : a.issue s = some (s₁, req))
    (hmessage : stgMessage a.params ⟨req, some s₁.dataBuffer⟩ = some message)
    (hstep : Threads.Step (selfTestRules a.params []) PipeAction.Exec (SelfTestEntry a.params)
      w (.act (.clientSend message) ()) w')
    (hfirst : testCalls ls ++ [⟨req, some s₁.dataBuffer⟩] <+: calls) :
    SelfTestInv a rawDisk calls (ls ++ [.sends ⟨req, some s₁.dataBuffer⟩ message])
      ⟨w', f, .waits s₁ req, received⟩ := by
  obtain ⟨hinv, htest, hsent⟩ : StressInv a s ∧ (s.j ≠ 0 → TestHolds a s f.view) ∧
      w.shared.nextId = received := by
    cases h.client with
    | turn hinv htest hsent => exact ⟨hinv, htest, hsent⟩
  have hreceived : received ≤ w.shared.delivered.length := h.received
  have hserver : SelfTestVerified a.params calls (serverEvents ls) w := h.server
  obtain ⟨-, hkept, hanswered, hcalled, hcalledle⟩ := hserver.inv.phase.counts
  have hall : w.shared.nextId = w.shared.delivered.length := by
    have hkept' : w.shared.delivered.length + w.shared.inbox.length + w.shared.pending.length +
        (callsHeld w.accounts).length = w.shared.nextId := hkept
    omega
  have hcall : calls[received]? = some ⟨req, some s₁.dataBuffer⟩ := by
    have hlen : (testCalls ls).length = received := h.sent.trans hsent
    obtain ⟨rest, rfl⟩ := hfirst
    rw [List.append_assoc, List.getElem?_append_right (Nat.le_of_eq hlen), hlen, Nat.sub_self]
    rfl
  obtain ⟨s₀, hissued, hholds, hround, hbuffer⟩ := hinv.issued hkinds haccept hissue
  have hexec : PipeAction.Exec w.shared (.clientSend message) () w'.shared := by
    cases hstep with
    | act hexec => exact hexec
  have htraffic := exec_trafficEffect hexec
  have hpending : w'.shared.pending = w.shared.pending := congrArg Traffic.pending htraffic
  have hid : w'.shared.nextId = w.shared.nextId + 1 := congrArg Traffic.nextId htraffic
  have hdelivered : w'.shared.delivered = w.shared.delivered :=
    congrArg Traffic.delivered htraffic
  refine ⟨?_, h.backed, hpending.trans h.pending, ?_, ?_, ?_⟩
  · rw [serverEvents_snoc]
    refine hserver.step hM hcalls hstep ⟨hall, ⟨req, some s₁.dataBuffer⟩, ?_, hmessage⟩
    · rw [hsent]
      exact hcall
  · rw [testCalls_snoc]
    exact List.length_append.trans (congrArg (· + 1) h.sent |>.trans hid.symm)
  · exact hdelivered.symm ▸ h.received
  · rw [serverEvents_snoc, serverEvent, Option.toList_some, servedCalls_snoc]
    refine .before ⟨⟨s, hinv, hcount, hissue⟩, hissued, hround, hbuffer,
      ⟨message, hmessage⟩, hcall⟩
      (hid.trans (congrArg (· + 1) hsent)) ?_ (hholds _ htest)
    show (servedCalls (serverEvents ls)).called.length = received
    have hle : (servedCalls (serverEvents ls)).called.length ≤ w.shared.nextId := hcalledle
    have hge : w.shared.delivered.length ≤ (servedCalls (serverEvents ls)).answers.length :=
      hanswered
    omega

/-- The response that the client gets is what a disk answers, and the test goes on. -/
theorem receives {req : SpdIoctlTransactReq} {d : Shared.Delivered} (hkinds : KindsOk a.opKinds)
    (haccept : UnitAccepted a.params) (h : SelfTestInv a rawDisk calls ls
      ⟨w, f, .waits s₁ req, received⟩) (hread : w.shared.delivered[received]? = some d) :
    ∃ s', a.complete s₁ req (.responds d.response.rsp d.data) = some (.ok s') ∧
      SelfTestInv a rawDisk calls (ls ++ [.receives]) ⟨w, f, .turn s', received + 1⟩ := by
  have hserver : SelfTestVerified a.params calls (serverEvents ls) w := h.server
  have hlt : received < w.shared.delivered.length := (List.getElem?_eq_some_iff.mp hread).1
  obtain ⟨-, -, hanswered, hcalledge, -⟩ := hserver.inv.phase.counts
  have hanswered' : w.shared.delivered.length ≤ (servedCalls (serverEvents ls)).answers.length :=
    hanswered
  cases h.client with
  | before _ _ hcalled =>
      have hcalled' : (servedCalls (serverEvents ls)).called.length = received := hcalled
      omega
  | @after s₀ _ _ call data found hwaits hsent hcalled hcall hd hlen htest hbytes hanswer =>
      have hresponse := hserver.inv.returned received _ d _ hwaits.call hread hanswer
      obtain ⟨message, hmessage⟩ := hwaits.message
      obtain ⟨dataBuffer, hcomplete⟩ :=
        hwaits.issued.completes hwaits.round haccept hwaits.buffer
        hcall htest hmessage hresponse
      obtain ⟨s, hinv, hcount, hissue⟩ := hwaits.ok
      have hdone : TestHolds a s₁ f.view := by
        have hview : f.view = diskAfter a.params call data found := hbytes
        rw [hview]
        exact hwaits.issued.done hwaits.round haccept h.backed hwaits.buffer hcall hd hlen htest
      refine ⟨_, hcomplete, ?_, h.backed, h.pending, ?_, hlt, ?_⟩
      · rw [serverEvents_snoc]
        exact (List.append_nil (serverEvents ls)).symm ▸ hserver
      · rw [testCalls_snoc]
        exact (congrArg List.length (List.append_nil _)).trans h.sent
      · exact .turn (hinv.step hkinds haccept (.turn hcount hissue hcomplete)) (fun _ => hdone)
          hsent

theorem step {ev : SelfTestEvent} (hkinds : KindsOk a.opKinds) (haccept : UnitAccepted a.params)
    (hM : a.params.maxTransferLength.toNat + 48 < 2 ^ 32)
    (hcalls : ∀ call ∈ calls, WellFormed a.params rawDiskInterface call)
    (h : SelfTestInv a rawDisk calls ls W) (hstep : SelfTestStep a rawDisk order W ev W')
    (hfirst : testCalls (ls ++ [ev]) <+: calls) :
    SelfTestInv a rawDisk calls (ls ++ [ev]) W' := by
  cases hstep with
  | @server w w' f f' client received ev hstep hmeets hfile =>
      by_cases hop : ∃ call request status d x, ev = .act (.operation call request status d) x
      · obtain ⟨call, request, status, d, x, rfl⟩ := hop
        exact h.operation haccept hM hcalls hstep hfile
      · exact h.quiet hM hcalls hstep hmeets hfile fun call request status d x heq =>
          hop ⟨call, request, status, d, x, heq⟩
  | sends hcount hissue hmessage hstep =>
      rw [testCalls_snoc] at hfirst
      exact h.sends hkinds haccept hM hcalls hcount hissue hmessage hstep hfirst
  | receives hread hcomplete =>
      obtain ⟨s', hok, hinv⟩ := h.receives hkinds haccept hread
      cases hok.symm.trans hcomplete
      exact hinv
  | @returns w f s received hcount =>
      have hsent : w.shared.nextId = received := by
        cases h.client with
        | turn _ _ hsent => exact hsent
      refine ⟨?_, h.backed, h.pending, ?_, h.received, .returns hsent⟩
      · rw [serverEvents_snoc]
        exact (List.append_nil (serverEvents ls)).symm ▸ h.server
      · rw [testCalls_snoc]
        exact (congrArg List.length (List.append_nil _)).trans h.sent

end Steps

end SelfTestInv

/-! ## The test -/

/-- The test has not failed, it has a next request, and what it reads is right. -/
structure SelfTestPasses (a : Stress) (W : SelfTest) : Prop where
  returns : ∀ error, W.client = .returns error → error = errorSuccess
  sends : ∀ s, W.client = .turn s → a.opCount > s.i → ∃ s₁ req message,
    a.issue s = some (s₁, req) ∧ stgMessage a.params
      ⟨req, some s₁.dataBuffer⟩ = some message
  receives : ∀ s₁ req d, W.client = .waits s₁ req →
    W.server.shared.delivered[W.received]? = some d →
    ∃ s', a.complete s₁ req (.responds d.response.rsp d.data) = some (.ok s')

variable {args : StressArgs} {dataBuffer : List UInt8} {file : RawDiskFile}

theorem selfTest_inv (haccept : UnitAccepted args.params)
    (hM : args.params.maxTransferLength.toNat + 48 < 2 ^ 32)
    (hbuffer : dataBuffer.length = args.params.maxTransferLength.toNat)
    (hb : Backed args.params rawDisk file.size)
    (hcalls : ∀ call ∈ calls, WellFormed args.params rawDiskInterface call)
    (hrun : Run (SelfTestStep args.stress rawDisk order)
      (selfTestStart args dataBuffer file) ls W) :
    testCalls ls <+: calls → SelfTestInv args.stress rawDisk calls ls W := by
  refine hrun.history
    (I := fun ls W => testCalls ls <+: calls → SelfTestInv args.stress rawDisk calls ls W) ?_ ?_
  · intro _
    refine ⟨⟨.init, fun t ht => by cases ht⟩, hb, rfl, rfl, Nat.le_refl 0, ?_⟩
    exact .turn ⟨hbuffer, fun hj => absurd rfl hj⟩ (fun hj => absurd rfl hj) rfl
  · intro ls V ev V' _ h hstep hfirst
    refine (h ?_).step (opKinds_ok args.opSet) haccept hM hcalls hstep hfirst
    rw [testCalls_snoc] at hfirst
    exact (List.prefix_append _ _).trans hfirst

/-- The stress test of a raw disk does not fail, whatever it draws, and in any order of
the steps of the two sides. -/
theorem selftest_passes (haccept : stgOpenPipeAccepts args.params = true)
    (hM : args.params.maxTransferLength.toNat + 48 < 2 ^ 32) (hthread : args.threadId ≠ 0)
    (hbuffer : dataBuffer.length = args.params.maxTransferLength.toNat)
    (hb : Backed args.params rawDisk file.size)
    (hrun : Run (SelfTestStep args.stress rawDisk order)
      (selfTestStart args dataBuffer file) ls W) :
    SelfTestPasses args.stress W := by
  have hunit := unitAccepted haccept
  have hkinds := opKinds_ok args.opSet
  have hstart : ClientOk args.stress (.turn (args.start dataBuffer)) :=
    ⟨hbuffer, fun hj => absurd rfl hj⟩
  obtain ⟨-, hcalls⟩ := client_run hkinds hunit hthread hrun hstart
  have hinv := selfTest_inv hunit hM hbuffer hb hcalls hrun List.prefix_rfl
  obtain ⟨w, f, client, received⟩ := W
  refine ⟨?_, ?_, ?_⟩
  · rintro error rfl
    cases hinv.client with
    | returns => rfl
  · rintro s rfl -
    cases hinv.client with
    | turn hs =>
        obtain ⟨s₁, req, hissue, -⟩ := hs.issue hkinds hunit
        obtain ⟨s₀, hissued, -, hround, hlen⟩ := hs.issued hkinds hunit hissue
        obtain ⟨payload, hmessage, -⟩ :=
          stgMessage_wellFormed hM (hissued.wellFormed hround hunit hlen hthread)
        exact ⟨s₁, req, _, hissue, hmessage⟩
  · rintro s₁ req d rfl hread
    obtain ⟨s', hcomplete, -⟩ := hinv.receives hkinds hunit hread
    exact ⟨s', hcomplete⟩

/-! ## A test of one block -/

inductive SelfTestMove (params : StorageUnitParams)
  | server (c : Choice) (m : Threads.Move (SelfTestEntry params))
  /-- The thread at this position makes its operation. -/
  | operation (i : Nat)
  | sends
  | receives
  | returns

/-- `ServerMeets`, as a check. -/
def serverMeets (params : StorageUnitParams) (s : PipeServer) : PipeEvent → Bool
  | .act (.clientSend _) _ | .act (.operation ..) _ => false
  | .act (.readFile _) (.ok _) | .act (.takeHintValue _) _ => true
  | .act (.putHintValue ..) put => put
  | .act (.writeFile ..) error => error = errorSuccess
  | ev => clientMeets params [] s ev

theorem serverMeets_iff {s : PipeServer} {ev : PipeEvent} (h : serverMeets params s ev = true) :
    ServerMeets params s ev ∧ ∀ call request status d x,
      ev ≠ .act (.operation call request status d) x := by
  have hclient : ∀ ev, clientMeets params [] s ev = true → ClientMeets params [] s ev :=
    fun _ => clientMeets_iff
  cases ev with
  | enter | leave => exact ⟨trivial, fun _ _ _ _ _ heq => by cases heq⟩
  | act act x =>
      refine ⟨?_, ?_⟩
      · cases act with
        | clientSend | operation => cases h
        | readFile =>
            match x, h with
            | .ok _, _ => trivial
            | .error error, h => exact hclient (.act (.readFile _) (.error error)) h
        | takeHintValue => trivial
        | putHintValue =>
            have hput : x = true := h
            exact fun hfalse => by cases hput.symm.trans hfalse
        | writeFile =>
            have herror : x = errorSuccess := of_decide_eq_true h
            exact herror
        | _ => exact hclient (.act _ x) h
      · rintro call request status d x' heq
        cases heq
        cases h

def diskRun (f : RawDiskFile) (act : FileAction) : Option (RawDiskFile × act.Answer) :=
  act.exec f .succeeds

theorem diskRun_exec {f f' : RawDiskFile} {act : FileAction} {answer : act.Answer}
    (h : diskRun f act = some (f', answer)) : DiskExec f act answer f' := by
  refine ⟨⟨.succeeds, h⟩, ?_⟩
  cases act with
  | load offset | store offset =>
      simp only [diskRun, FileAction.exec] at h
      split at h
      · cases h
        first | exact ⟨_, rfl⟩ | rfl
      · cases h
  | _ =>
      cases h
      first | rfl | trivial

/-- The thread makes an operation of the raw disk. -/
def operationRun (rawDisk : RawDisk) (order : MemcpyOrder) (f : RawDiskFile) (s : PipeServer)
    (act : PipeAction) : Option (PipeServer × act.Answer) :=
  match act with
  | .operation call request status d =>
      ((rawDisk.operation order call status d).alone diskRun f).bind fun x =>
        PipeAction.exec s (.operation call request status d)
          (.returns x.2.1 (some x.2.2.1) x.2.2.2)
  | _ => none

/-- What it answers is what comes of the operation. -/
def OperationGood (rawDisk : RawDisk) (order : MemcpyOrder) (f : RawDiskFile) :
    (act : PipeAction) → act.Answer → Prop
  | .operation call _ status d, x =>
      ∃ f', (rawDisk.operation order call status d).alone diskRun f = some (f', x)
  | _, _ => False

theorem operationRun_exec {f : RawDiskFile} (s : PipeServer) (act : PipeAction) (s' : PipeServer)
    (x : act.Answer) (h : operationRun rawDisk order f s act = some (s', x)) :
    PipeAction.Exec s act x s' ∧ OperationGood rawDisk order f act x := by
  cases act with
  | operation call request status d =>
      obtain ⟨⟨f', y⟩, hf, hexec⟩ := Option.bind_eq_some_iff.mp h
      refine ⟨⟨_, hexec⟩, f', ?_⟩
      cases hexec
      exact hf
  | _ => cases h

def selfTestMove (a : Stress) (rawDisk : RawDisk) (order : MemcpyOrder) :
    SelfTest → SelfTestMove a.params → Option SelfTest
  | ⟨w, f, client, received⟩, .server c m => do
      let (ev, w') ← Threads.move (selfTestRules a.params []) (fun s act => act.exec s c) w m
      if serverMeets a.params w.shared ev then some ⟨w', f, client, received⟩ else none
  | ⟨w, f, client, received⟩, .operation i => do
      let m : Threads.Move (SelfTestEntry a.params) := .turn i
      let (ev, w') ← Threads.move (selfTestRules a.params []) (operationRun rawDisk order f) w m
      match ev with
      | .act (.operation call _ status d) _ =>
          ((rawDisk.operation order call status d).alone diskRun f).map fun x =>
            ⟨w', x.1, client, received⟩
      | _ => none
  | ⟨w, f, .turn s, received⟩, .sends => do
      let (s₁, req) ← a.issue s
      let message ← stgMessage a.params ⟨req, some s₁.dataBuffer⟩
      let (s', _) ← PipeAction.exec w.shared (.clientSend message) (.ends 0)
      if a.opCount > s.i then some ⟨⟨s', w.threads⟩, f, .waits s₁ req, received⟩ else none
  | ⟨w, f, .waits s req, received⟩, .receives => do
      let d ← w.shared.delivered[received]?
      let r ← a.complete s req (.responds d.response.rsp d.data)
      some ⟨w, f, .afterTurn r, received + 1⟩
  | ⟨w, f, .turn s, received⟩, .returns =>
      if a.opCount > s.i then none else some ⟨w, f, .returns errorSuccess, received⟩
  | _, _ => none

def selfTestMoves (a : Stress) (rawDisk : RawDisk) (order : MemcpyOrder) :
    SelfTest → List (SelfTestMove a.params) → Option SelfTest
  | W, [] => some W
  | W, m :: ms => (selfTestMove a rawDisk order W m).bind fun W' =>
      selfTestMoves a rawDisk order W' ms

def sampleTest : StressArgs where
  params :=
    { StorageUnitParams.zero with blockCount := 4, blockLength := 16, maxTransferLength := 16 }
  opCount := 2
  opSet := .empty
  blockAddress := 1
  blockCount := 1
  randomSeed := 1
  threadId := 1

def testFile : RawDiskFile := ⟨64, fun _ => 0, fun _ => 0, fun _ => 0⟩

/-- The client connects, writes block 1, and reads it. -/
def sampleMoves : List (SelfTestMove sampleTest.params) :=
  let server := SelfTestMove.server (.ends errorSuccess)
  let turns := fun n => List.replicate n (server (.turn 0))
  [server (.enter _ .clientOpen)] ++ turns 2 ++
    [server (.enter _ (.dispatcher 3 (List.replicate 16 0) rfl))] ++ turns 7 ++
    [.sends] ++ turns 1 ++ [.operation 0] ++ turns 6 ++
    [.receives, .sends] ++ turns 2 ++ [.operation 0] ++ turns 7 ++ [.receives, .returns]

theorem choiceRun_exec (c : Choice) (s : PipeServer) (act : PipeAction) (s' : PipeServer)
    (x : act.Answer)
    (h : act.exec s c = some (s', x)) : PipeAction.Exec s act x s' ∧ True :=
      ⟨⟨c, h⟩, trivial⟩

theorem selfTestMove_run {m : SelfTestMove a.params}
    (h : selfTestMove a rawDisk order W m = some W') :
    ∃ ls, Run (SelfTestStep a rawDisk order) W ls W' := by
  obtain ⟨w, f, client, received⟩ := W
  cases m with
  | server c m =>
      simp only [selfTestMove, Option.bind_eq_bind, Option.bind_eq_some_iff] at h
      obtain ⟨⟨ev, w'⟩, hmove, h⟩ := h
      dsimp only at h
      split at h
      · next hmeets =>
          cases h
          obtain ⟨hserver, hop⟩ := serverMeets_iff hmeets
          have hstep := (Threads.move_step (choiceRun_exec c) hmove).1
          refine ⟨_, .single (.server hstep hserver ?_)⟩
          cases ev with
          | enter | leave => exact ⟨rfl, rfl⟩
          | act act x =>
              cases act with
              | operation call request status d => exact absurd rfl (hop call request status d x)
              | _ => exact ⟨rfl, rfl⟩
      · cases h
  | operation i =>
      simp only [selfTestMove, Option.bind_eq_bind, Option.bind_eq_some_iff] at h
      obtain ⟨⟨ev, w'⟩, hmove, h⟩ := h
      obtain ⟨hstep, hgood⟩ := Threads.move_step operationRun_exec hmove
      dsimp only at h
      split at h
      · next call request status d x =>
          obtain ⟨f', hf⟩ := hgood _ _ rfl
          rw [hf] at h
          cases h
          exact ⟨_, .single (.server hstep trivial (Prog.runs_of_alone diskRun_exec hf))⟩
      · cases h
  | sends =>
      cases client with
      | turn s =>
          simp only [selfTestMove, Option.bind_eq_bind, Option.bind_eq_some_iff] at h
          obtain ⟨⟨s₁, req⟩, hissue, message, hmessage, ⟨s', ⟨⟩⟩, hexec, h⟩ := h
          dsimp only at h
          split at h
          · next hcount =>
              cases h
              have hsend : Threads.Step (selfTestRules a.params []) PipeAction.Exec
                  (SelfTestEntry a.params)
                    ⟨w.shared, ⟨pipeAction (.clientSend message), none⟩ ::
                    w.threads⟩ (.act (.clientSend message) ())
                      ⟨s', ⟨.ret (), none⟩ :: w.threads⟩ :=
                Threads.step_head ⟨.ends 0, hexec⟩
              have hleave : Threads.Step (selfTestRules a.params []) PipeAction.Exec
                  (SelfTestEntry a.params) ⟨s', [] ++ ⟨.ret (), none⟩ :: w.threads⟩ .leave
                    ⟨s', [] ++ w.threads⟩ := .leave
              exact ⟨_, .cons (.server (.enter (.clientSend message)) trivial ⟨rfl, rfl⟩)
                (.cons (.sends hcount hissue hmessage hsend)
                  (.single (.server hleave trivial ⟨rfl, rfl⟩)))⟩
          · cases h
      | waits | returns => cases h
  | receives =>
      cases client with
      | waits s req =>
          simp only [selfTestMove, Option.bind_eq_bind, Option.bind_eq_some_iff] at h
          obtain ⟨d, hread, r, hcomplete, h⟩ := h
          cases h
          exact ⟨_, .single (.receives hread hcomplete)⟩
      | turn | returns => cases h
  | returns =>
      cases client with
      | turn s =>
          simp only [selfTestMove] at h
          split at h
          · cases h
          · next hcount =>
              cases h
              exact ⟨_, .single (.returns hcount)⟩
      | waits | returns => cases h

theorem selfTestMoves_run {ms : List (SelfTestMove a.params)}
    (h : selfTestMoves a rawDisk order W ms = some W') :
    ∃ ls, Run (SelfTestStep a rawDisk order) W ls W' := by
  induction ms generalizing W with
  | nil =>
      cases h
      exact ⟨[], .nil⟩
  | cons m ms ih =>
      obtain ⟨V, hmove, h⟩ := Option.bind_eq_some_iff.mp h
      obtain ⟨ls, hrun⟩ := selfTestMove_run hmove
      obtain ⟨ls', hrun'⟩ := ih h
      exact ⟨ls ++ ls', hrun.append hrun'⟩

theorem sampleTest_returns : ∃ W, selfTestMoves sampleTest.stress ⟨4, 16, false⟩ .forward
      (selfTestStart sampleTest (List.replicate 16 0) testFile) sampleMoves = some W ∧
        W.client = .returns errorSuccess :=
  ⟨_, rfl, rfl⟩

theorem selftest_passes_block : ∃ ls W,
    Run (SelfTestStep sampleTest.stress ⟨4, 16, false⟩ .forward)
      (selfTestStart sampleTest (List.replicate 16 0) testFile) ls W ∧
    W.client = .returns errorSuccess ∧ SelfTestPasses sampleTest.stress W := by
  obtain ⟨W, hmoves, hreturns⟩ := sampleTest_returns
  obtain ⟨ls, hrun⟩ := selfTestMoves_run hmoves
  have hb : Backed sampleTest.params ⟨4, 16, false⟩ testFile.size :=
    ⟨⟨by decide, by decide, by decide⟩, rfl, rfl, by decide⟩
  exact ⟨ls, W, hrun, hreturns,
    selftest_passes (by decide) (by decide) (by decide) List.length_replicate hb hrun⟩

end Winspd.Proofs
