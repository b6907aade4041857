import Winspd.Proofs.Requests
import Winspd.Proofs.RawdiskOperations

/-!
# The driver and the raw disk

One system of a unit's driver side, `UnitSys`, the dispatcher threads of a raw disk
and its file. A thread runs the loop of the library (`dispatcherLoop`) over the
device transport, and the operations of the raw disk in it. Threads are interrupted
between any two actions: between the response and the request of a
`SPD_IOCTL_TRANSACT`, and between any two bytes of a `memcpy`. In between StorPort
starts, cancels and resets SRBs, and the system writes back what it likes of the
file.

The account of a thread is the request it has, and what it has done for it.
`DiskThreads.May` is what the threads are shown to keep to: a response that is GOOD
comes after all that the request asks for (`Fulfilled`), and the accesses are those the
request is about.
-/

namespace Winspd.Proofs

open Winspd.Lib Winspd.Sys Winspd.Shared Winspd.Spec Winspd.Rawdisk

/-! ## The machine -/

structure DiskSys where
  unit : UnitSys
  file : RawDiskFile

inductive DiskAction
  /-- What happens to the unit. -/
  | unit (op : UnitOp)
  | file (a : FileAction)
  /-- `SPD_IOCTL_TRANSACT`, up to the response: zero, or the error of the call. -/
  | begin
  /-- The wait for an SRB ends: zero, or the error of the call. -/
  | waitEnds
  /-- The system writes a byte of the view back. -/
  | writeBack (p : Nat)
  /-- What was written of a byte gets to the medium. -/
  | makeDurable (p : Nat)
  /-- A call that does not end. -/
  | wait

namespace DiskAction

abbrev Answer : DiskAction → Type
  -- programs look at the request that was handed out, and at nothing else
  | .unit _ => UnitEvent
  | .file a => a.Answer
  | .begin => UInt32
  | .waitEnds => UInt32
  | _ => Unit

end DiskAction

/-- What the environment decides about an action. -/
inductive DiskChoice
  | runs
  | file (c : FileChoice)
  /-- A call ends with an error, or with zero. -/
  | ends (error : UInt32)

/-- `none` when the action cannot be executed, or cannot end so. -/
def DiskAction.exec (disk : Disk) (s : DiskSys) :
    (a : DiskAction) → DiskChoice → Option (DiskSys × a.Answer)
  | .unit op, .runs =>
      (op.exec disk s.unit.mem s.unit.ioq).map fun r =>
        let ev : UnitEvent := ⟨op, r.2.2.1, r.2.2.2⟩
        let live := (s.unit.live ++ ev.arrived).filter fun i => i.srb ∉ ev.completed
        ({ s with unit := ⟨r.1, r.2.1, live⟩ }, ev)
  | .file a, .file c => (a.exec s.file c).map fun r => ({ s with file := r.1 }, r.2)
  | .begin, .ends error => some (s, error)
  | .waitEnds, .ends error => some (s, error)
  | .writeBack p, .runs =>
      some
        ({ s with
            file := { s.file with
              written := Function.update s.file.written p (s.file.view p) } }, ())
  | .makeDurable p, .runs =>
      some
        ({ s with
            file := { s.file with
              durable := Function.update s.file.durable p (s.file.written p) } }, ())
  | _, _ => none

/-- An action can answer `r` and leave state `s'`. -/
def DiskAction.Exec (disk : Disk) (s : DiskSys) (a : DiskAction) (r : a.Answer) (s' : DiskSys) :
    Prop := ∃ c, a.exec disk s c = some (s', r)

/-! ## The programs -/

abbrev DiskProg := Prog DiskAction DiskAction.Answer

abbrev diskAction (a : DiskAction) : DiskProg a.Answer := Prog.perform a

/-- `SPD_IOCTL_TRANSACT_REQ`, as user mode reads it. -/
def userReq (req : TransactReq) : SpdIoctlTransactReq :=
  match req.op with
  | .reserved => ⟨req.hint, 0, 0, 0, false⟩
  | .read blockAddress blockCount forceUnitAccess =>
      ⟨req.hint, transactReadKind, blockAddress, blockCount, forceUnitAccess⟩
  | .write blockAddress blockCount forceUnitAccess =>
      ⟨req.hint, transactWriteKind, blockAddress, blockCount, forceUnitAccess⟩
  | .flush blockAddress blockCount =>
      ⟨req.hint, transactFlushKind, blockAddress, blockCount, false⟩
  | .unmap count => ⟨req.hint, transactUnmapKind, count.toUInt64, 0, false⟩

/-- The response of a transact call, if there is one. -/
def sendResponse (response : Option Response) (dataBuffer : List UInt8) : DiskProg Unit :=
  match response with
  | none => pure ()
  | some response => do
      let _ ← diskAction (.unit (.transactRsp response.rsp (some dataBuffer)))
      pure ()

/-- `SpdStorageUnitHandleTransact`, on a device handle. A wait that has timed out is a
call without a request. -/
def transactDevice (response : Option Response) (dataBuffer : List UInt8) :
    DiskProg (Transacted (List UInt8)) := do
  let error ← diskAction .begin
  if error ≠ 0 then pure ⟨error, none, dataBuffer⟩
  else do
    sendResponse response dataBuffer
    let ev ← diskAction (.unit (.transactReq dataBuffer))
    match ev.handed with
    | some (req, dataBuffer) => pure ⟨0, some ⟨userReq req, ⟨0, 0⟩⟩, dataBuffer⟩
    | none => do
        let error ← diskAction .waitEnds
        pure ⟨error, none, dataBuffer⟩

/-- A program of the raw disk, in the system. -/
abbrev onFile {α : Type} (p : FileProg α) : DiskProg α := p.embed DiskAction.file fun _ r => r

def diskCalls (rawDisk : RawDisk) (order : MemcpyOrder) :
    DispatcherCalls DiskAction DiskAction.Answer (List UInt8) where
  transact := transactDevice
  operation call _ status dataBuffer := onFile (rawDisk.operation order call status dataBuffer)
  forever := do
    diskAction .wait
    pure 0

/-- A dispatcher thread, once it has its data buffer. The first one flushes when its
loop has ended. -/
def diskThread (rawDisk : RawDisk) (order : MemcpyOrder) (fuel : Nat) (first : Bool)
    (dataBuffer : List UInt8) : DiskProg Unit := do
  let _ ← dispatcherLoop (diskCalls rawDisk order) rawDiskInterface fuel none dataBuffer
  if first then do
    let _ ← onFile (rawDisk.flush dataBuffer 0 0 zeroStatus)
    pure ()
  else pure ()

inductive DiskEntry (unit : StorageUnitParams) (rawDisk : RawDisk) (order : MemcpyOrder) :
    DiskProg Unit → Prop
  | dispatcher (fuel : Nat) (first : Bool) (dataBuffer : List UInt8)
      (h : dataBuffer.length = unit.maxTransferLength.toNat) :
      DiskEntry unit rawDisk order (diskThread rawDisk order fuel first dataBuffer)
  | storPort (op : UnitOp) (h : ¬ op.Transacts) :
      DiskEntry unit rawDisk order (diskAction (.unit op) >>= fun _ => pure ())
  | writeBack (p : Nat) : DiskEntry unit rawDisk order (diskAction (.writeBack p))
  | makeDurable (p : Nat) : DiskEntry unit rawDisk order (diskAction (.makeDurable p))

/-! ## Accounts -/

/-- The request a thread has, and what it has done since it got it. -/
structure DiskServing where
  request : Option Request
  events : List FileEvent

namespace DiskThreads

def track : (a : DiskAction) → a.Answer → DiskServing → DiskServing
  | .unit (.transactReq _), ev, _ => ⟨ev.handed, []⟩
  | .unit (.transactRsp ..), _, _ => ⟨none, []⟩
  | .file a, answer, g => { g with events := g.events ++ [⟨a, answer⟩] }
  | _, _, g => g

/-- A GOOD response is for the request of the thread, and it was served. -/
def MayRespond (unit : StorageUnitParams) (rawDisk : RawDisk) (g : DiskServing) (rsp : TransactRsp)
    (dataBuffer : List UInt8) : Prop :=
  dataBuffer.length = unit.maxTransferLength.toNat ∧ ∃ r, g.request = some r ∧
    rsp.hint = r.1.hint ∧
      (rsp.status.scsiStatus = scsistatGood → Fulfilled unit rawDisk r dataBuffer g.events)

def MayFile (unit : StorageUnitParams) (g : DiskServing) (a : FileAction) : Prop :=
  match g.request with
  | some r => FileMay unit r a
  | none => ∃ offset length, a = .flushViewOfFile offset length ∨ a = .flushFileBuffers

def May (unit : StorageUnitParams) (rawDisk : RawDisk) (g : DiskServing) : DiskAction → Prop
  | .unit (.transactReq dataBuffer) =>
      g.request = none ∧ dataBuffer.length = unit.maxTransferLength.toNat
  | .unit (.transactRsp rsp dataBuffer) =>
      ∃ buf, dataBuffer = some buf ∧ MayRespond unit rawDisk g rsp buf
  | .file a => MayFile unit g a
  | _ => True

structure HandedOk (unit : StorageUnitParams) (r : Request) : Prop where
  hint : r.1.hint ≠ 0
  allowed : AllowedRequest unit r
  length : r.2.length = unit.maxTransferLength.toNat

def handedBy : (a : DiskAction) → a.Answer → Option Request
  | .unit (.transactReq _), ev => ev.handed
  | _, _ => none

def Answers (unit : StorageUnitParams) (_ : DiskServing) (a : DiskAction) (x : a.Answer) : Prop :=
  ∀ r, handedBy a x = some r → HandedOk unit r

end DiskThreads

def diskRules (unit : StorageUnitParams) (rawDisk : RawDisk) :
    Rules DiskAction DiskAction.Answer DiskServing where
  start := ⟨none, []⟩
  track := DiskThreads.track
  May := DiskThreads.May unit rawDisk
  Answers := DiskThreads.Answers unit
  Settled _ := True

/-! ## Every thread is safe -/

variable {unit : StorageUnitParams} {rawDisk : RawDisk} {order : MemcpyOrder} {size : Nat}
  {r : Request} {dataBuffer : List UInt8} {response : Option Response} {g : DiskServing}

theorem onFile_safe {α : Type} {p : FileProg α} {Q : α → List FileEvent → Prop}
    (h : (fileRules unit r).Safe Q [] p) :
    (diskRules unit rawDisk).Safe (fun x g => g.request = some r ∧ Q x g.events)
      ⟨some r, []⟩ (onFile p) := by
  let account (events : List FileEvent) : DiskServing := ⟨some r, events⟩
  have hembed : (diskRules unit rawDisk).Safe
      (fun x g => ∃ events, g = account events ∧ Q x events) (account [])
      (p.embed DiskAction.file fun _ r => r) :=
    Rules.Safe.embed (fun _ _ hmay => hmay) (fun _ _ _ _ => trivial) (fun _ _ _ => rfl) h
  exact hembed.mono fun x g hx => by
    obtain ⟨events, rfl, hq⟩ := hx
    exact ⟨rfl, hq⟩

/-- What a thread is in when it makes a transact call: it has served its request, or it
has none. -/
def CallsWith (unit : StorageUnitParams) (rawDisk : RawDisk) (response : Option Response)
    (dataBuffer : List UInt8) (g : DiskServing) : Prop :=
  dataBuffer.length = unit.maxTransferLength.toNat ∧
    match response with
    | none => g.request = none
    | some response => DiskThreads.MayRespond unit rawDisk g response.rsp dataBuffer

def CallEnds (unit : StorageUnitParams) (x : Transacted (List UInt8)) (g : DiskServing) : Prop :=
  x.error = 0 → x.dataBuffer.length = unit.maxTransferLength.toNat ∧
    match x.req with
    | none => g.request = none
    | some request => ∃ req, request.req = userReq req ∧
        g = ⟨some (req, x.dataBuffer), []⟩ ∧ DiskThreads.HandedOk unit (req, x.dataBuffer)

theorem sendResponse_safe (h : CallsWith unit rawDisk response dataBuffer g) :
    (diskRules unit rawDisk).Safe (fun _ g => g.request = none) g
      (sendResponse response dataBuffer) := by
  obtain ⟨-, hresponse⟩ := h
  cases response with
  | none => exact hresponse
  | some response =>
      exact Rules.Safe.perform_bind ⟨dataBuffer, rfl, hresponse⟩ fun ev _ => rfl

theorem transactDevice_safe (h : CallsWith unit rawDisk response dataBuffer g) :
    (diskRules unit rawDisk).Safe (CallEnds unit) g (transactDevice response dataBuffer) := by
  refine Rules.Safe.perform_bind trivial fun error _ => ?_
  split
  · next herror => exact fun hzero => absurd hzero herror
  · refine Rules.Safe.bind (sendResponse_safe h) fun _ g hg => ?_
    refine Rules.Safe.perform_bind ⟨hg, h.1⟩ fun ev hev => ?_
    have hok : ∀ r, ev.handed = some r → DiskThreads.HandedOk unit r := hev
    show (diskRules unit rawDisk).Safe _ ⟨ev.handed, []⟩ _
    split
    · next req buf heq =>
        rw [heq] at hok ⊢
        exact fun _ => ⟨(hok _ rfl).length, req, rfl, rfl, hok _ rfl⟩
    · next heq =>
        rw [heq]
        exact Rules.Safe.perform_bind trivial fun error _ _ => ⟨h.1, rfl⟩

theorem rawDiskInterface_call {req : TransactReq} (h : AllowedRequest unit (req, dataBuffer)) :
    ∃ call, rawDiskInterface.call (userReq req) = some call ∧
      match call with
      | .read blockAddress blockCount flushFlag =>
          req.op = .read blockAddress blockCount flushFlag
      | .write blockAddress blockCount flushFlag =>
          req.op = .write blockAddress blockCount flushFlag
      | .flush blockAddress blockCount => req.op = .flush blockAddress blockCount
      | .unmap count => req.op = .unmap count := by
  obtain ⟨hint, op⟩ := req
  cases op with
  | reserved => exact h.elim
  | read blockAddress blockCount flag => exact ⟨.read blockAddress blockCount flag, rfl, rfl⟩
  | write blockAddress blockCount flag => exact ⟨.write blockAddress blockCount flag, rfl, rfl⟩
  | flush blockAddress blockCount => exact ⟨.flush blockAddress blockCount, rfl, rfl⟩
  | unmap count =>
      have hcount : count.toUInt64.toUInt32 = count := UInt32.toUInt32_toUInt64 count
      refine ⟨.unmap count, ?_, rfl⟩
      show some (OperationCall.unmap count.toUInt64.toUInt32) = _
      rw [hcount]

theorem userReq_hint (req : TransactReq) : (userReq req).hint = req.hint := by
  unfold userReq
  split <;> rfl

theorem diskDispatch_safe {req : TransactReq} {origin : Origin} (hb : Backed unit rawDisk size)
    (hok : DiskThreads.HandedOk unit (req, dataBuffer)) :
    (diskRules unit rawDisk).Safe
      (fun x g => x.1 = true ∧ CallsWith unit rawDisk (some x.2.1) x.2.2 g)
      ⟨some (req, dataBuffer), []⟩
      (dispatch (diskCalls rawDisk order) rawDiskInterface ⟨userReq req, origin⟩
        dataBuffer) := by
  obtain ⟨call, hcall, hop⟩ := rawDiskInterface_call hok.allowed
  rw [dispatch, hcall]
  refine Rules.Safe.bind (onFile_safe (operation_safe hb hok.allowed hok.length hop))
    fun x g hx => ?_
  obtain ⟨complete, status, buf⟩ := x
  obtain ⟨hrequest, hcomplete, hlength, hserved⟩ := hx
  exact ⟨hcomplete, hlength, hlength, (req, dataBuffer), hrequest, userReq_hint req, hserved⟩

theorem diskLoop_safe {fuel : Nat} (hb : Backed unit rawDisk size)
    (h : CallsWith unit rawDisk response dataBuffer g) :
    (diskRules unit rawDisk).Safe (fun _ _ => True) g
      (dispatcherLoop (diskCalls rawDisk order) rawDiskInterface fuel response dataBuffer) := by
  induction fuel generalizing response dataBuffer g with
  | zero => exact Rules.Safe.perform_bind trivial fun _ _ => trivial
  | succ fuel ih =>
      refine Rules.Safe.bind (transactDevice_safe h) fun x g hx => ?_
      split
      · trivial
      · next herror =>
          obtain ⟨hlength, hrequest⟩ := hx (not_not.mp herror)
          cases hreq : x.req with
          | none =>
              rw [hreq] at hrequest
              exact ih ⟨hlength, hrequest⟩
          | some request =>
              rw [hreq] at hrequest
              obtain ⟨req, huser, rfl, hok⟩ := hrequest
              have hhint : request.req.hint ≠ 0 := by
                rw [huser, userReq_hint]
                exact hok.hint
              rw [Option.getD_some, if_neg hhint]
              obtain ⟨_, origin⟩ := request
              dsimp only at huser
              subst huser
              refine Rules.Safe.bind (diskDispatch_safe hb hok) fun y g hy => ?_
              obtain ⟨complete, response, buf⟩ := y
              obtain ⟨rfl, hcalls⟩ := hy
              exact ih hcalls

theorem finalFlush_safe :
    (diskRules unit rawDisk).Safe (fun _ _ => True) g
      (onFile (rawDisk.flush dataBuffer 0 0 zeroStatus)) := by
  have hmay : ∀ (g : DiskServing) (a : FileAction), (∃ offset length,
      a = .flushViewOfFile offset length ∨ a = .flushFileBuffers) →
      DiskThreads.MayFile unit g a := by
    intro g a ha
    unfold DiskThreads.MayFile
    split
    · obtain ⟨offset, length, rfl | rfl⟩ := ha <;> trivial
    · exact ha
  refine ⟨hmay _ _ ⟨_, _, .inl rfl⟩, fun flushedView _ => ?_⟩
  cases flushedView with
  | false => trivial
  | true => exact ⟨hmay _ _ ⟨0, 0, .inr rfl⟩, fun flushedFile _ => trivial⟩

theorem DiskEntry.safe {p : DiskProg Unit} (hb : Backed unit rawDisk size)
    (h : DiskEntry unit rawDisk order p) :
    (diskRules unit rawDisk).Safe (fun _ => (diskRules unit rawDisk).Settled)
      (diskRules unit rawDisk).start p := by
  cases h with
  | dispatcher fuel first dataBuffer hlength =>
      refine Rules.Safe.bind (diskLoop_safe hb ⟨hlength, rfl⟩) fun _ g _ => ?_
      split
      · exact Rules.Safe.bind finalFlush_safe fun _ _ _ => trivial
      · trivial
  | storPort op hop =>
      refine Rules.Safe.perform_bind ?_ fun _ _ => trivial
      cases op with
      | transactReq buf => exact absurd trivial hop
      | transactRsp rsp buf => exact absurd trivial hop
      | _ => trivial
  | writeBack p => exact ⟨trivial, fun _ _ => trivial⟩
  | makeDurable p => exact ⟨trivial, fun _ _ => trivial⟩

end Winspd.Proofs
