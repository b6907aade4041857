import Winspd.Proofs.Dispatcher
import Winspd.Proofs.PipeActions

/-!
# Threads in the connect section

What matters here of a thread is where it is in the connect section, and its
copy of `Connected`. `connectRules` allows in every phase of the section the
one action the section makes next, outside the section those that are not part
of it, and a disconnect only with the copy. Every program of the pipe is safe.

`ConnectInv` says what the lock is for: one thread at most is in the section,
and as long as it has not written the parameters there is no connection.
-/

namespace Winspd.Proofs

open Winspd.Lib Winspd.Sys Winspd.Shared

/-! ## Accounts -/

inductive ConnectPhase
  | idle
  /-- It has the lock, and will call `ConnectNamedPipe`. -/
  | calling
  | waiting
  | writing
  /-- It will call `DisconnectNamedPipe`. -/
  | failing
  /-- It will release the lock. -/
  | leaving (success : Bool)
  deriving DecidableEq, Repr

structure ConnectAccount where
  phase : ConnectPhase
  /-- The local variable `Connected`. -/
  copy : Int32
  deriving DecidableEq, Repr

namespace ConnectAccount

def idle (copy : Int32) : ConnectAccount := ⟨.idle, copy⟩

/-- Is the thread in the section, and holds the lock? -/
def Inside (g : ConnectAccount) : Prop := g.phase ≠ .idle

instance (g : ConnectAccount) : Decidable g.Inside := by
  unfold Inside
  infer_instance

def track : (a : PipeAction) → a.Answer → ConnectAccount → ConnectAccount
  | .acquireLock, connected, g =>
      { g with phase := if connected ≤ 0 then .calling else .leaving true }
  | .connectNamedPipe, error, g =>
      { g with
        phase :=
          if error = errorSuccess ∨ error = errorIoPending then .waiting
          else if error = errorPipeConnected then .writing
          else .leaving false }
  | .waitConnect, error, g =>
      { g with
        phase :=
          if error = errorSuccess ∨ error = errorPipeConnected then .writing
          else .leaving false }
  | .writeParams, error, g =>
      { g with phase := if error = errorSuccess then .leaving true else .failing }
  | .disconnectNamedPipe, _, g => { g with phase := .leaving false }
  | .releaseLock, connected, _ => ⟨.idle, connected⟩
  | _, _, g => g

def May (g : ConnectAccount) : PipeAction → Prop
  | .connectNamedPipe => g.phase = .calling
  | .waitConnect => g.phase = .waiting
  | .writeParams => g.phase = .writing
  | .disconnectNamedPipe => g.phase = .failing
  | .releaseLock => ∃ success, g.phase = .leaving success
  | .disconnect connected => g.phase = .idle ∧ connected = g.copy ∧ 0 < connected
  | _ => g.phase = .idle

/-- Who leaves the section with success has a connection. -/
def Answers (g : ConnectAccount) : (a : PipeAction) → a.Answer → Prop
  | .releaseLock, connected => g.phase = .leaving true → 0 < connected
  | _, _ => True

end ConnectAccount

def connectRules : Rules PipeAction PipeAction.Answer ConnectAccount where
  start := .idle 0
  track := ConnectAccount.track
  May := ConnectAccount.May
  Answers := ConnectAccount.Answers
  Settled g := g.phase = .idle

/-! ## The programs -/

variable {α β : Type} {params : StorageUnitParams} {interface : Interface} {g : ConnectAccount}
  {copy : Int32}

/-- From outside the section to outside the section. -/
abbrev StaysOut (p : PipeProg α) : Prop :=
  ∀ copy, connectRules.Safe (fun _ g => g.phase = .idle) (.idle copy) p

theorem safe_out {Q : α → ConnectAccount → Prop} {a : PipeAction}
    {f : a.Answer → PipeProg α}
    (hmay : ConnectAccount.May (.idle copy) a)
    (htrack : ∀ r, ConnectAccount.track a r (.idle copy) = .idle copy)
    (h : ∀ r, connectRules.Safe Q (.idle copy) (f r)) :
    connectRules.Safe Q (.idle copy) (pipeAction a >>= f) :=
  .perform_bind hmay fun r _ => by
    rw [show connectRules.track a r (.idle copy) = .idle copy from htrack r]
    exact h r

theorem writeParams_safe :
    connectRules.Safe (fun error g => g = ⟨.leaving (error = errorSuccess), copy⟩)
      ⟨.writing, copy⟩
      (do
        let error ← pipeAction .writeParams
        if error = errorSuccess then pure errorSuccess
        else do
          pipeAction .disconnectNamedPipe
          pure errorNoData) := by
  refine .perform_bind rfl fun error _ => ?_
  by_cases he : error = errorSuccess
  · subst he
    rfl
  · have hphase :
        connectRules.track .writeParams error ⟨.writing, copy⟩ = ⟨.failing, copy⟩ := by
      simp [connectRules, ConnectAccount.track, he]
    rw [hphase, if_neg he]
    exact .perform_bind rfl fun _ _ => rfl

theorem waitConnectNamedPipe_safe :
    connectRules.Safe (fun error g => g =
        ⟨if error = errorSuccess ∨ error = errorPipeConnected then .writing
          else .leaving false, copy⟩)
      ⟨.calling, copy⟩ waitConnectNamedPipe := by
  refine .perform_bind rfl fun error _ => ?_
  by_cases hwait : error = errorSuccess ∨ error = errorIoPending
  · have hphase : connectRules.track .connectNamedPipe error ⟨.calling, copy⟩ =
        ⟨.waiting, copy⟩ := by
      simp [connectRules, ConnectAccount.track, hwait]
    have hnot : ¬ (error ≠ errorSuccess ∧ error ≠ errorIoPending) := fun h => by
      rcases hwait with he | he
      · exact h.1 he
      · exact h.2 he
    rw [hphase, if_neg hnot]
    exact .perform_bind rfl fun error _ => rfl
  · have hne := not_or.mp hwait
    have hphase : connectRules.track .connectNamedPipe error ⟨.calling, copy⟩ =
        ⟨if error = errorPipeConnected then .writing else .leaving false, copy⟩ := by
      simp [connectRules, ConnectAccount.track, hwait]
    rw [hphase, if_pos hne]
    show (⟨_, copy⟩ : ConnectAccount) = ⟨_, copy⟩
    by_cases hc : error = errorPipeConnected
    · rw [if_pos hc, if_pos (.inr hc)]
    · rw [if_neg hc, if_neg (not_or.mpr ⟨hne.1, hc⟩)]

theorem connectPipe_safe :
    connectRules.Safe (fun error g => g = ⟨.leaving (error = errorSuccess), copy⟩)
      ⟨.calling, copy⟩
      connectPipe := by
  refine waitConnectNamedPipe_safe.bind fun error g hg => ?_
  subst hg
  split
  · exact writeParams_safe
  · next h =>
      rw [not_or] at h
      show (⟨.leaving false, copy⟩ : ConnectAccount) = ⟨.leaving _, copy⟩
      rw [decide_eq_false h.1]

theorem connectUnlessConnected_safe {connected : Int32} :
    connectRules.Safe (fun error g => g = ⟨.leaving (error = errorSuccess), copy⟩)
      ⟨if connected ≤ 0 then .calling else .leaving true, copy⟩
      (connectUnlessConnected connected) := by
  unfold connectUnlessConnected
  split
  · exact connectPipe_safe
  · rfl

/-- Without an error there is a connection, and the copy is its generation. -/
theorem connectSection_safe :
    connectRules.Safe (fun r g => g = .idle r.2 ∧ (r.1 = errorSuccess → 0 < r.2)) (.idle copy)
      connectSection := by
  refine .perform_bind rfl fun connected _ => ?_
  refine connectUnlessConnected_safe.bind fun error g hg => ?_
  subst hg
  refine .perform_bind ⟨_, rfl⟩ fun connected hans => ⟨rfl, fun he => ?_⟩
  exact hans (congrArg _ (decide_eq_true he))

theorem zeroout_out {req : Bool} {dataBuffer : β} {Q : Transacted β → ConnectAccount → Prop}
    (h : Q ⟨errorSuccess, if req then some .zero else none, dataBuffer⟩ g) :
    connectRules.Safe Q g (zeroout req dataBuffer) := h

theorem disconnect_out {req : Bool} {dataBuffer : β} (hpos : 0 < copy) :
    connectRules.Safe (fun _ g => g.phase = .idle) (.idle copy) (disconnect copy req dataBuffer) :=
  safe_out ⟨rfl, rfl, hpos⟩ (fun _ => rfl) fun _ => rfl

theorem writeResponse_out {response : Option Response} {dataBuffer : Option (List UInt8)} :
    connectRules.Safe (fun _ g => g = .idle copy) (.idle copy)
      (writeResponse response dataBuffer) := by
  unfold writeResponse
  split
  · split
    · refine safe_out rfl (fun _ => rfl) fun _ => ?_
      exact .perform_bind rfl fun _ _ => rfl
    · exact .perform_bind rfl fun _ _ => rfl
  · exact .perform_bind rfl fun _ _ => rfl
  · rfl

theorem acceptMessage_out {dataBuffer : List UInt8} {message : Message} {origin : Origin} :
    connectRules.Safe (fun _ g => g.phase = .idle) (.idle copy)
      (acceptMessage params dataBuffer message origin) := by
  cases message with
  | short _ => rfl
  | whole req payload =>
      unfold acceptMessage
      dsimp only
      split
      · split
        · rfl
        · refine safe_out rfl (fun _ => rfl) fun put => ?_
          split <;> rfl
      · split
        · split <;> rfl
        · rfl

theorem readRequest_out {dataBuffer : List UInt8} (hpos : 0 < copy) :
    connectRules.Safe (fun _ g => g.phase = .idle) (.idle copy)
      (readRequest params copy dataBuffer) := by
  refine safe_out rfl (fun _ => rfl) fun read => ?_
  split
  · exact disconnect_out hpos
  · exact acceptMessage_out

theorem transactConnected_out {response : Option Response} {req : Bool}
    {dataBuffer : Option (List UInt8)} (hpos : 0 < copy) :
    connectRules.Safe (fun _ g => g.phase = .idle) (.idle copy)
      (transactConnected params copy response req dataBuffer) := by
  refine writeResponse_out.bind fun error g hg => ?_
  subst hg
  split
  · exact disconnect_out hpos
  · split
    · exact (readRequest_out hpos).bind fun r g hg => hg
    · rfl

theorem prepare_out : connectRules.Safe (fun _ g => g = .idle copy) (.idle copy) prepare := by
  refine safe_out rfl (fun _ => rfl) fun error => ?_
  split
  · rfl
  · refine safe_out rfl (fun _ => rfl) fun listed => ?_
    split
    · rfl
    · exact safe_out rfl (fun _ => rfl) fun _ => rfl

theorem spdStorageUnitHandleTransactPipe_out {response : Option Response} {req : Bool}
    {dataBuffer : Option (List UInt8)} :
    StaysOut (spdStorageUnitHandleTransactPipe params response req dataBuffer) := by
  intro copy
  unfold spdStorageUnitHandleTransactPipe
  split
  · rfl
  · refine prepare_out.bind fun error g hg => ?_
    subst hg
    split
    · rfl
    · refine connectSection_safe.bind fun r g hr => ?_
      obtain ⟨error, connected⟩ := r
      obtain ⟨rfl, hpos⟩ := hr
      dsimp only
      split
      · exact zeroout_out rfl
      · split
        · rfl
        · next h => exact transactConnected_out (hpos (not_not.mp h))

theorem pipeDispatcher_out {fuel : Nat} {dataBuffer : List UInt8} :
    StaysOut (pipeDispatcher params interface fuel dataBuffer) := by
  intro copy
  have hloop : connectRules.Safe (fun _ g => g.phase = .idle) (.idle copy)
      (dispatcherLoop (pipeCalls params) interface fuel none dataBuffer) := by
    refine dispatcherLoop_safe (J := fun _ g => g.phase = .idle) (H := fun _ g => g.phase = .idle)
      (fun {_ g} dataBuffer hg => ?_) (fun {request g} dataBuffer hg => ?_)
      (fun {_ g} hg => ?_) rfl
    · obtain ⟨phase, copy⟩ := g
      cases hg
      exact (spdStorageUnitHandleTransactPipe_out copy).bind fun r g hr =>
        ⟨fun _ => hr, fun _ _ => hr, fun _ _ => hr⟩
    · obtain ⟨phase, copy⟩ := g
      cases hg
      refine dispatch_safe (L := connectRules) (J := fun _ g => g.phase = .idle) (fun call _ => ?_)
        fun _ => rfl
      exact ⟨rfl, fun _ _ => rfl⟩
    · obtain ⟨phase, copy⟩ := g
      cases hg
      exact safe_out rfl (fun _ => rfl) fun _ => rfl
  refine hloop.bind fun _ g hg => ?_
  obtain ⟨phase, copy⟩ := g
  cases hg
  exact .perform_bind rfl fun _ _ => rfl

theorem spdStorageUnitSendResponse_out : StaysOut (spdStorageUnitSendResponse params) := by
  intro copy
  refine safe_out rfl (fun _ => rfl) fun x => ?_
  obtain ⟨request, status, dataBuffer⟩ := x
  refine (spdStorageUnitHandleTransactPipe_out copy).bind fun r g hg => ?_
  obtain ⟨phase, copy⟩ := g
  cases hg
  split
  · exact .perform_bind rfl fun _ _ => rfl
  · rfl

theorem pipeCaller_out {p : PipeProg Unit} (h : PipeCaller params interface p) :
    connectRules.Safe (fun _ => connectRules.Settled) connectRules.start p := by
  cases h with
  | entry h =>
      cases h with
      | dispatcher => exact pipeDispatcher_out 0
      | sendResponse => exact spdStorageUnitSendResponse_out 0
      | shutdown | clientOpen | clientClose | clientSend => exact ⟨rfl, fun _ _ => rfl⟩
  | call => exact (spdStorageUnitHandleTransactPipe_out 0).bind fun _ _ hg => hg

/-! ## What the lock protects -/

/-- The parameters were written, and there is a connection. -/
def isHandshake : PipeEvent → Bool
  | .act .writeParams error => error = errorSuccess
  | _ => false

variable {s s' : PipeServer} {a : PipeAction} {r : a.Answer} {gs gs' : List ConnectAccount}

def ConnectAccount.Before (g : ConnectAccount) : Prop :=
  g.phase = .calling ∨ g.phase = .waiting ∨ g.phase = .writing ∨ g.phase = .failing

structure ConnectInv (s : PipeServer) (gs : List ConnectAccount) : Prop where
  one : (gs.countP fun g => g.Inside) = if s.locked then 1 else 0
  down : ∀ g ∈ gs, g.Before → s.connected ≤ 0
  up : ∀ g ∈ gs, g.phase = .leaving true → 0 < s.connected

namespace ConnectInv

theorem init : ConnectInv .init [] :=
  ⟨rfl, fun _ h => absurd h List.not_mem_nil, fun _ h => absurd h List.not_mem_nil⟩

theorem perm (hperm : gs.Perm gs') (h : ConnectInv s gs) : ConnectInv s gs' :=
  ⟨(hperm.countP_eq _).symm.trans h.one, fun g hg => h.down g (hperm.mem_iff.mpr hg),
    fun g hg => h.up g (hperm.mem_iff.mpr hg)⟩

theorem out_of_free (h : ConnectInv s gs) (hlocked : s.locked = false) :
    ∀ g ∈ gs, g.phase = .idle := by
  have hone := h.one
  rw [hlocked, if_neg (by decide), List.countP_eq_zero] at hone
  intro g hg
  have hout := hone g hg
  rwa [decide_eq_true_iff, ConnectAccount.Inside, not_not] at hout

theorem alone (h : ConnectInv s (g :: gs)) (hg : g.Inside) :
    s.locked = true ∧ ∀ h ∈ gs, h.phase = .idle := by
  have hone := h.one
  rw [List.countP_cons, if_pos (decide_eq_true hg)] at hone
  split at hone
  · next hlocked =>
      refine ⟨hlocked, fun h hh => ?_⟩
      have hzero : gs.countP (fun g => g.Inside) = 0 := by omega
      have hout := List.countP_eq_zero.mp hzero h hh
      rwa [decide_eq_true_iff, ConnectAccount.Inside, not_not] at hout
  · omega

theorem of_alone (hout : ∀ h ∈ gs, h.phase = .idle) (hlocked : s.locked = decide g.Inside)
    (hdown : g.Before → s.connected ≤ 0) (hup : g.phase = .leaving true → 0 < s.connected) :
    ConnectInv s (g :: gs) := by
  have hzero : gs.countP (fun g => g.Inside) = 0 := List.countP_eq_zero.mpr fun h hh => by
    rw [decide_eq_true_iff, ConnectAccount.Inside, not_not]
    exact hout h hh
  refine ⟨?_, fun h hh hb => ?_, fun h hh hl => ?_⟩
  · rw [List.countP_cons, hzero, hlocked, Nat.zero_add]
  · rcases List.mem_cons.mp hh with rfl | hh
    · exact hdown hb
    · rcases hb with hb | hb | hb | hb <;> rw [hout h hh] at hb <;> cases hb
  · rcases List.mem_cons.mp hh with rfl | hh
    · exact hup hl
    · rw [hout h hh] at hl
      cases hl

theorem frame (h : ConnectInv s gs) (hlocked : s'.locked = s.locked)
    (hconnected : s'.connected = s.connected) : ConnectInv s' gs :=
  ⟨by rw [hlocked]; exact h.one, fun g hg hb => by rw [hconnected]; exact h.down g hg hb,
    fun g hg hl => by rw [hconnected]; exact h.up g hg hl⟩

theorem cons_idle (hg : g.phase = .idle) : ConnectInv s (g :: gs) ↔ ConnectInv s gs := by
  have hcount : (g :: gs).countP (fun g => g.Inside) = gs.countP fun g => g.Inside := by
    refine List.countP_cons_of_neg ?_
    rw [decide_eq_true_iff, ConnectAccount.Inside, not_not]
    exact hg
  constructor
  · intro h
    exact ⟨by rw [← hcount]; exact h.one, fun g hg => h.down g (List.mem_cons_of_mem _ hg),
      fun g hg => h.up g (List.mem_cons_of_mem _ hg)⟩
  · intro h
    refine ⟨by rw [hcount]; exact h.one, fun g' hg' hb => ?_, fun g' hg' hl => ?_⟩
    · rcases List.mem_cons.mp hg' with rfl | hg'
      · rcases hb with hb | hb | hb | hb <;> rw [hg] at hb <;> cases hb
      · exact h.down g' hg' hb
    · rcases List.mem_cons.mp hg' with rfl | hg'
      · rw [hg] at hl
        cases hl
      · exact h.up g' hg' hl

/-- An action keeps it. `hup` is that the counter does not overflow. -/
theorem exec (h : ConnectInv s (g :: gs)) (hmay : g.May a) (hexec : a.Exec s r s')
    (hup : isHandshake (.act a r) → s.connected ≤ 0 → 0 < -s.connected + 1) :
    ConnectInv s' (ConnectAccount.track a r g :: gs) ∧ g.Answers a r := by
  have heffect := exec_connectEffect hexec
  cases a with
  | acquireLock =>
      obtain ⟨hfree, hlocked, hconnected, rfl⟩ := heffect
      refine ⟨of_alone (fun h' hh' => h.out_of_free hfree h' (List.mem_cons_of_mem _ hh'))
        ?_ ?_ ?_, trivial⟩
      · rw [hlocked]
        unfold ConnectAccount.Inside ConnectAccount.track
        by_cases hle : s.connected ≤ 0 <;> simp [hle]
      · intro hb
        by_cases hle : s.connected ≤ 0
        · rwa [hconnected]
        · simp [ConnectAccount.track, ConnectAccount.Before, hle] at hb
      · intro hl
        by_cases hle : s.connected ≤ 0
        · simp [ConnectAccount.track, hle] at hl
        · rw [hconnected]
          exact Int32.not_le.mp hle
  | connectNamedPipe =>
      have hphase : g.phase = .calling := hmay
      obtain ⟨hlocked, hout⟩ := h.alone (by rw [ConnectAccount.Inside, hphase]; decide)
      have hdown := h.down g List.mem_cons_self (.inl hphase)
      obtain ⟨hl, hc⟩ := heffect
      refine ⟨of_alone hout ?_ (fun _ => by rwa [hc]) fun hl => ?_, trivial⟩
      · rw [hl, hlocked]
        unfold ConnectAccount.Inside ConnectAccount.track
        dsimp only
        split
        · rfl
        · split <;> rfl
      · unfold ConnectAccount.track at hl
        dsimp only at hl
        split at hl
        · cases hl
        · split at hl <;> cases hl
  | waitConnect =>
      have hphase : g.phase = .waiting := hmay
      obtain ⟨hlocked, hout⟩ := h.alone (by rw [ConnectAccount.Inside, hphase]; decide)
      have hdown := h.down g List.mem_cons_self (.inr (.inl hphase))
      obtain ⟨hl, hc⟩ := heffect
      refine ⟨of_alone hout ?_ (fun _ => by rwa [hc]) fun hl => ?_, trivial⟩
      · rw [hl, hlocked]
        unfold ConnectAccount.Inside ConnectAccount.track
        dsimp only
        split <;> rfl
      · unfold ConnectAccount.track at hl
        dsimp only at hl
        split at hl <;> cases hl
  | writeParams =>
      have hphase : g.phase = .writing := hmay
      obtain ⟨hlocked, hout⟩ := h.alone (by rw [ConnectAccount.Inside, hphase]; decide)
      have hdown := h.down g List.mem_cons_self (.inr (.inr (.inl hphase)))
      obtain ⟨hl, hc⟩ := heffect
      refine ⟨of_alone hout ?_ (fun hb => ?_) fun hleaving => ?_, trivial⟩
      · rw [hl, hlocked]
        unfold ConnectAccount.Inside ConnectAccount.track
        dsimp only
        split <;> rfl
      · by_cases he : r = errorSuccess
        · simp [ConnectAccount.track, ConnectAccount.Before, he] at hb
        · rw [hc, if_neg he]
          exact hdown
      · by_cases he : r = errorSuccess
        · rw [hc, if_pos he]
          exact hup (decide_eq_true he) hdown
        · simp [ConnectAccount.track, he] at hleaving
  | disconnectNamedPipe =>
      have hphase : g.phase = .failing := hmay
      obtain ⟨hlocked, hout⟩ := h.alone (by rw [ConnectAccount.Inside, hphase]; decide)
      obtain ⟨hl, hc⟩ := heffect
      refine ⟨of_alone hout (by rw [hl, hlocked]; rfl) (fun hb => ?_) (fun hl => by cases hl),
        trivial⟩
      rcases hb with hb | hb | hb | hb <;> cases hb
  | releaseLock =>
      obtain ⟨success, hphase⟩ := hmay
      obtain ⟨-, hout⟩ := h.alone (by rw [ConnectAccount.Inside, hphase]; simp)
      obtain ⟨hl, hc, rfl⟩ := heffect
      refine ⟨of_alone hout hl (fun hb => ?_) (fun hl => by cases hl), fun hleaving => ?_⟩
      · rcases hb with hb | hb | hb | hb <;> cases hb
      · exact h.up g List.mem_cons_self hleaving
  | disconnect connected =>
      obtain ⟨hphase, -, -⟩ := hmay
      obtain ⟨hfree, hl, -, -⟩ := heffect
      have hout := h.out_of_free hfree
      refine ⟨of_alone (fun h' hh' => hout h' (List.mem_cons_of_mem _ hh')) ?_ (fun hb => ?_)
        (fun hl => ?_), trivial⟩
      · rw [hl]
        simp [ConnectAccount.track, ConnectAccount.Inside, hphase]
      · rw [show ConnectAccount.track (.disconnect connected) r g = g from rfl] at hb
        rcases hb with hb | hb | hb | hb <;> rw [hphase] at hb <;> cases hb
      · rw [show ConnectAccount.track (.disconnect connected) r g = g from rfl, hphase] at hl
        cases hl
  | _ =>
      obtain ⟨hl, hc⟩ := heffect
      exact ⟨h.frame hl hc, trivial⟩

end ConnectInv

end Winspd.Proofs
