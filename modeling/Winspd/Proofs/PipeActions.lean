import Winspd.Shared.Stghandle

/-!
# What the actions of the pipe do

The machine of `Shared.Stghandle` taken apart: for each part of its state, what
an action can do to it and answer. Every action leaves the parts alone that are
not named with it. The invariants are derived from these lemmas and do not look
at the machine again.
-/

namespace Winspd.Proofs

open Winspd.Lib Winspd.Sys Winspd.Shared

variable {s s' : PipeServer} {a : PipeAction} {r : a.Answer}

/-! ## The lock and the counter -/

/-- What an action does to the lock and to `Connected`. -/
def ConnectEffect (s s' : PipeServer) : (a : PipeAction) → a.Answer → Prop
  | .acquireLock, connected =>
      s.locked = false ∧ s'.locked = true ∧ s'.connected = s.connected ∧
      connected = s.connected
  | .writeParams, error =>
      s'.locked = s.locked ∧
        s'.connected = if error = errorSuccess then -s.connected + 1 else s.connected
  | .releaseLock, connected =>
      s'.locked = false ∧ s'.connected = s.connected ∧ connected = s.connected
  | .disconnect connected, done =>
      s.locked = false ∧ s'.locked = false ∧ (done = true → connected = s.connected) ∧
        s'.connected = if done then -s.connected else s.connected
  | _, _ => s'.locked = s.locked ∧ s'.connected = s.connected

theorem disconnectPipe_locked : s.disconnectPipe.locked = s.locked := by
  unfold PipeServer.disconnectPipe
  split <;> rfl

theorem disconnectPipe_connected : s.disconnectPipe.connected = s.connected := by
  unfold PipeServer.disconnectPipe
  split <;> rfl

theorem exec_connectEffect (h : a.Exec s r s') : ConnectEffect s s' a r := by
  obtain ⟨c, h⟩ := h
  cases a with
  | acquireLock =>
      simp only [PipeAction.exec] at h
      split at h
      · cases h
      · next hlocked =>
          cases h
          exact ⟨by simpa using hlocked, rfl, rfl, rfl⟩
  | writeParams =>
      cases c with
      | ends error =>
          simp only [PipeAction.exec] at h
          split at h
          · split at h
            · cases h
              exact ⟨rfl, rfl⟩
            · cases h
          · next he =>
              cases h
              exact ⟨rfl, (if_neg he).symm⟩
      | _ => cases h
  | releaseLock =>
      cases h
      exact ⟨rfl, rfl, rfl⟩
  | disconnect connected =>
      simp only [PipeAction.exec] at h
      split at h
      · cases h
      · next hlocked =>
          have hlocked : s.locked = false := by simpa using hlocked
          split at h
          · next heq =>
              cases h
              exact ⟨hlocked, disconnectPipe_locked.trans hlocked, fun _ => heq, rfl⟩
          · cases h
            exact ⟨hlocked, hlocked, by simp, rfl⟩
  | disconnectNamedPipe =>
      cases h
      exact ⟨disconnectPipe_locked, disconnectPipe_connected⟩
  | takePending =>
      cases c with
      | takes index status dataBuffer =>
          simp only [PipeAction.exec, Option.map_eq_some_iff] at h
          obtain ⟨request, -, h⟩ := h
          cases h
          exact ⟨rfl, rfl⟩
      | _ => cases h
  | _ =>
      cases c <;> simp only [PipeAction.exec] at h <;> (try cases h) <;>
        (try exact ⟨rfl, rfl⟩) <;> (repeat' split at h) <;> cases h <;> exact ⟨rfl, rfl⟩

/-! ## The messages -/

/-- The fields of the state that messages are in. -/
structure Traffic where
  client : Nat
  nextId : Nat
  inbox : List (Message × Origin)
  pending : List Request
  delivered : List Delivered

def traffic (s : PipeServer) : Traffic := ⟨s.client, s.nextId, s.inbox, s.pending, s.delivered⟩

def TrafficEffect (s s' : PipeServer) : (a : PipeAction) → a.Answer → Prop
  | .readFile _, .ok (message, origin) =>
      ∃ inbox, s.inbox = (message, origin) :: inbox ∧
        traffic s' = { traffic s with inbox := inbox }
  | .readFile _, .error _ =>
      traffic s' = traffic s ∨ ∃ message rest origin inbox, s.inbox =
        (message, origin) :: inbox ∧
        traffic s' = { traffic s with inbox := (rest, origin) :: inbox }
  | .writeFile response data, error =>
      error ≠ errorSuccess ∧ traffic s' = traffic s ∨
        error = errorSuccess ∧ traffic s' =
          { traffic s with delivered := s.delivered ++ [⟨s.client, response, data⟩] }
  | .operation _ request _ _, (complete, _) =>
      traffic s' =
        { traffic s with pending := if complete = true then s.pending else request :: s.pending }
  | .takePending, (request, _, _) =>
      ∃ index, s.pending[index]? = some request ∧
        traffic s' = { traffic s with pending := s.pending.eraseIdx index }
  | .disconnectNamedPipe, _ => traffic s' = traffic s.disconnectPipe
  | .disconnect _, done => traffic s' = if done = true then traffic s.disconnectPipe else traffic s
  | .clientOpen, _ => traffic s' = { traffic s with client := s.client + 1, inbox := [] }
  | .clientSend message, _ =>
      traffic s' = { traffic s with
        inbox := s.inbox ++ [(message, ⟨s.client, s.nextId⟩)]
        nextId := s.nextId + 1 }
  | _, _ => traffic s' = traffic s

theorem traffic_disconnectPipe :
    traffic s.disconnectPipe = traffic s ∨
      traffic s.disconnectPipe = { traffic s with inbox := [] } := by
  unfold PipeServer.disconnectPipe
  split
  · exact .inl rfl
  · exact .inr rfl

theorem exec_trafficEffect (h : a.Exec s r s') : TrafficEffect s s' a r := by
  obtain ⟨c, h⟩ := h
  cases a with
  | readFile size =>
      cases c with
      | ends error =>
          simp only [PipeAction.exec] at h
          split at h
          · split at h
            · cases h
            · next hinbox =>
                split at h
                · cases h
                  exact ⟨_, hinbox, rfl⟩
                · cases h
          · cases h
            exact .inl rfl
      | splits rest =>
          simp only [PipeAction.exec] at h
          split at h
          · cases h
          · next hinbox =>
              split at h
              · cases h
              · cases h
                exact .inr ⟨_, rest, _, _, hinbox, rfl⟩
      | _ => cases h
  | writeFile response data =>
      cases c with
      | ends error =>
          simp only [PipeAction.exec] at h
          split at h
          · split at h
            · cases h
              exact .inr ⟨rfl, rfl⟩
            · cases h
          · next he =>
              cases h
              exact .inl ⟨he, rfl⟩
      | _ => cases h
  | operation call request status dataBuffer =>
      cases c with
      | returns complete set dataBuffer =>
          cases h
          rfl
      | _ => cases h
  | takePending =>
      cases c with
      | takes index status dataBuffer =>
          simp only [PipeAction.exec, Option.map_eq_some_iff] at h
          obtain ⟨request, hindex, h⟩ := h
          cases h
          exact ⟨index, hindex, rfl⟩
      | _ => cases h
  | disconnectNamedPipe =>
      cases h
      rfl
  | disconnect connected =>
      simp only [PipeAction.exec] at h
      split at h
      · cases h
      · split at h
        · cases h
          rfl
        · cases h
          rfl
  | clientOpen | clientSend =>
      simp only [PipeAction.exec] at h
      split at h
      · cases h
        rfl
      · cases h
  | _ =>
      cases c <;> simp only [PipeAction.exec] at h <;> (try cases h) <;>
        (try rfl) <;> (repeat' split at h) <;> cases h <;> rfl

/-! ## The table of hints -/

def TableEffect (s s' : PipeServer) : (a : PipeAction) → a.Answer → Prop
  | .takeHintValue response, _ =>
      s'.hashBuckets = (s.hashBuckets.take hashIndex response.rsp.hint).2
  | .putHintValue request value, put =>
      ∃ memory, s.hashBuckets.put hashIndex memory request.req.hint value = (put, s'.hashBuckets)
  | _, _ => s'.hashBuckets = s.hashBuckets

theorem hashBuckets_disconnectPipe : s.disconnectPipe.hashBuckets = s.hashBuckets := by
  unfold PipeServer.disconnectPipe
  split <;> rfl

theorem exec_tableEffect (h : a.Exec s r s') : TableEffect s s' a r := by
  obtain ⟨c, h⟩ := h
  cases a with
  | takeHintValue response =>
      simp only [PipeAction.exec] at h
      split at h
      · cases h
      · cases h
        rfl
  | putHintValue request value =>
      cases c with
      | ends error =>
          simp only [PipeAction.exec] at h
          split at h
          · cases h
          · cases h
            exact ⟨_, rfl⟩
      | _ => cases h
  | disconnectNamedPipe =>
      cases h
      exact hashBuckets_disconnectPipe
  | disconnect connected =>
      simp only [PipeAction.exec] at h
      split at h
      · cases h
      · split at h
        · cases h
          exact @hashBuckets_disconnectPipe s
        · cases h
          rfl
  | takePending =>
      cases c with
      | takes index status dataBuffer =>
          simp only [PipeAction.exec, Option.map_eq_some_iff] at h
          obtain ⟨request, -, h⟩ := h
          cases h
          rfl
      | _ => cases h
  | _ =>
      cases c <;> simp only [PipeAction.exec] at h <;> (try cases h) <;>
        (try rfl) <;> (repeat' split at h) <;> cases h <;> rfl

/-! ## The instance -/

/-- What an action does to the pipe instance. -/
def PipeEffect (s s' : PipeServer) : (a : PipeAction) → a.Answer → Prop
  | .connectNamedPipe, error =>
      s'.pipe = s.pipe.connect ∧ error = s.pipe.connectError ∨
        s'.pipe = s.pipe ∧ error ≠ errorIoPending ∧ error ≠ errorPipeConnected
  | .waitConnect, error =>
      s'.pipe = s.pipe ∧ (error = errorSuccess → s.pipe = .connected ∨ s.pipe = .closed)
  | .writeParams, error => s'.pipe = s.pipe ∧ (error = errorSuccess → s.pipe = .connected)
  | .disconnectNamedPipe, _ => s'.pipe = s.disconnectPipe.pipe
  | .disconnect _, done => s'.pipe = if done = true then s.disconnectPipe.pipe else s.pipe
  | .clientOpen, _ => s.pipe = .listening ∧ s'.pipe = .connected
  | .clientClose, _ => s.pipe = .connected ∧ s'.pipe = .closed
  | .clientSend _, _ => s.pipe = .connected ∧ s'.pipe = .connected
  | _, _ => s'.pipe = s.pipe

theorem exec_pipeEffect (h : a.Exec s r s') : PipeEffect s s' a r := by
  obtain ⟨c, h⟩ := h
  cases a with
  | connectNamedPipe =>
      cases c with
      | ends error =>
          simp only [PipeAction.exec] at h
          split at h
          · cases h
            exact .inl ⟨rfl, rfl⟩
          · split at h
            · cases h
            · next hother =>
                cases h
                exact .inr ⟨rfl, not_or.mp hother⟩
      | _ => cases h
  | waitConnect =>
      cases c with
      | ends error =>
          simp only [PipeAction.exec] at h
          split at h
          · split at h
            · next hpipe =>
                cases h
                exact ⟨rfl, fun _ => hpipe⟩
            · cases h
          · next he =>
              cases h
              exact ⟨rfl, fun h => absurd h he⟩
      | _ => cases h
  | writeParams =>
      cases c with
      | ends error =>
          simp only [PipeAction.exec] at h
          split at h
          · split at h
            · next hpipe =>
                cases h
                exact ⟨rfl, fun _ => hpipe⟩
            · cases h
          · next he =>
              cases h
              exact ⟨rfl, fun h => absurd h he⟩
      | _ => cases h
  | disconnectNamedPipe =>
      cases h
      rfl
  | disconnect connected =>
      simp only [PipeAction.exec] at h
      split at h
      · cases h
      · split at h
        · cases h
          rfl
        · cases h
          rfl
  | clientOpen | clientClose =>
      simp only [PipeAction.exec] at h
      split at h
      · next hpipe =>
          cases h
          exact ⟨hpipe, rfl⟩
      · cases h
  | clientSend message =>
      simp only [PipeAction.exec] at h
      split at h
      · next hpipe =>
          cases h
          exact ⟨hpipe, hpipe⟩
      · cases h
  | takePending =>
      cases c with
      | takes index status dataBuffer =>
          simp only [PipeAction.exec, Option.map_eq_some_iff] at h
          obtain ⟨request, -, h⟩ := h
          cases h
          rfl
      | _ => cases h
  | _ =>
      cases c <;> simp only [PipeAction.exec] at h <;> (try cases h) <;>
        (try rfl) <;> (repeat' split at h) <;> cases h <;> rfl

/-! ## Shutdown -/

/-- What an action does to the stop event. -/
def StopEffect (s s' : PipeServer) : (a : PipeAction) → a.Answer → Prop
  | .shutdown, _ => s'.listed = false ∧ s'.event = (s.event || s.listed)
  | _, _ => s'.listed = s.listed ∧ s'.event = s.event

theorem stop_disconnectPipe :
    s.disconnectPipe.listed = s.listed ∧ s.disconnectPipe.event = s.event := by
  unfold PipeServer.disconnectPipe
  split <;> exact ⟨rfl, rfl⟩

theorem exec_stopEffect (h : a.Exec s r s') : StopEffect s s' a r := by
  obtain ⟨c, h⟩ := h
  cases a with
  | disconnectNamedPipe =>
      cases h
      exact stop_disconnectPipe
  | disconnect connected =>
      simp only [PipeAction.exec] at h
      split at h
      · cases h
      · split at h
        · cases h
          exact @stop_disconnectPipe s
        · cases h
          exact ⟨rfl, rfl⟩
  | takePending =>
      cases c with
      | takes index status dataBuffer =>
          simp only [PipeAction.exec, Option.map_eq_some_iff] at h
          obtain ⟨request, -, h⟩ := h
          cases h
          exact ⟨rfl, rfl⟩
      | _ => cases h
  | _ =>
      cases c <;> simp only [PipeAction.exec] at h <;> (try cases h) <;>
        (try exact ⟨rfl, rfl⟩) <;> (repeat' split at h) <;> cases h <;> exact ⟨rfl, rfl⟩

end Winspd.Proofs
