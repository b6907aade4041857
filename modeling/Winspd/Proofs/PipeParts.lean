import Winspd.Shared.Stghandle

/-!
# The parts of a call

`SpdStorageUnitHandleTransactPipe` connects, writes a response and reads a
request. Each part makes its own actions. What these keep, the part keeps.
-/

namespace Winspd.Proofs

open Winspd.Lib Winspd.Sys Winspd.Shared

variable {params : StorageUnitParams}

/-- The actions of the first checks and of the connect section. -/
def Connects : PipeAction → Prop
  | .overlappedInit | .unitIsListed | .memAlloc => True
  | .acquireLock | .connectNamedPipe | .waitConnect | .writeParams | .disconnectNamedPipe
  | .releaseLock => True
  | _ => False

/-- The actions of the branch for `0 != Rsp`. -/
def Responds : PipeAction → Prop
  | .takeHintValue _ | .writeFile .. => True
  | _ => False

/-- Those of the branch for `0 != Req`, and of the disconnect section. -/
def Requests : PipeAction → Prop
  | .readFile _ | .putHintValue .. | .disconnect _ => True
  | _ => False

theorem prepare_connects : prepare.Only Connects := by
  refine .bind (.perform trivial) fun error => ?_
  split
  · trivial
  · refine .bind (.perform trivial) fun listed => ?_
    split
    · trivial
    · exact .bind (.perform trivial) fun _ => trivial

theorem connectSection_connects : connectSection.Only Connects := by
  refine .bind (.perform trivial) fun connected => ?_
  have hwait : waitConnectNamedPipe.Only Connects := by
    refine .bind (.perform trivial) fun error => ?_
    split
    · trivial
    · exact .perform trivial
  have hconnect : (connectUnlessConnected connected).Only Connects := by
    unfold connectUnlessConnected
    split
    · refine hwait.bind fun error => ?_
      split
      · refine .bind (.perform trivial) fun error => ?_
        split
        · trivial
        · exact .bind (.perform trivial) fun _ => trivial
      · trivial
    · trivial
  exact hconnect.bind fun _ => .bind (.perform trivial) fun _ => trivial

theorem writeResponse_responds {response : Option Response} {dataBuffer : Option (List UInt8)} :
    (writeResponse response dataBuffer).Only Responds := by
  unfold writeResponse
  split
  · split
    · exact .bind (.perform trivial) fun _ => .perform trivial
    · exact .perform trivial
  · exact .perform trivial
  · trivial

theorem disconnect_requests {β : Type} {connected : Int32} {req : Bool} {dataBuffer : β} :
    (disconnect connected req dataBuffer).Only Requests :=
  .bind (.perform trivial) fun _ => trivial

theorem readRequest_requests {connected : Int32} {dataBuffer : List UInt8} :
    (readRequest params connected dataBuffer).Only Requests := by
  refine .bind (.perform trivial) fun read => ?_
  split
  · exact disconnect_requests
  · next message origin =>
      cases message with
      | short _ => trivial
      | whole req payload =>
          unfold acceptMessage
          dsimp only
          split
          · split
            · trivial
            · refine .bind (.perform trivial) fun put => ?_
              split <;> trivial
          · split
            · split <;> trivial
            · trivial

end Winspd.Proofs
