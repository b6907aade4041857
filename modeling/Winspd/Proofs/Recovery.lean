import Winspd.Proofs.Generations

/-!
# The pipe server after a client

A client can leave at any time. A thread that notices calls
`DisconnectNamedPipe`, in the disconnect section or, when it could not write
the parameters, in the connect section. Without this call the instance refuses
the next client, and `ConnectNamedPipe` fails.

Nobody notices a client that has come and gone before the first
`ConnectNamedPipe`: this fails with `ERROR_NO_DATA`, and there is no
`DisconnectNamedPipe` on that path. From then on every call fails the same way.
When no client leaves that early, an instance whose client is gone always has a
thread that will notice (`RecoverInv`), and the next client can always be
listened.

The invariant is about those who still have to act. The pipe is `Unattended` when
no client counts as connected and its client has gone, or can come at any time. Then
some thread in the connect section is `Engaged`: it waits, or writes the parameters,
or is about to disconnect the pipe. So every action has to hand this duty on, to the
same thread in its next phase or to nobody, when the pipe is in order. Each action
has its own lemma, and `RecoverInv.exec` is all of them.
-/

namespace Winspd.Proofs

open Winspd.Lib Winspd.Sys Winspd.Shared

/-- `ConnectNamedPipe` ends as its instance's state says, and a wait for a
client ends with one, or with the stop event. -/
def Documented (s : PipeServer) : PipeEvent → Prop
  | .act .connectNamedPipe error => error = s.pipe.connectError
  | .act .waitConnect error => error ≠ errorSuccess → s.event = true
  | _ => True

/-- A step of the server on a pipe that does what is documented. -/
abbrev ServerStep (params : StorageUnitParams) (interface : Interface) (w : PipeThreads)
    (ev : PipeEvent) (w' : PipeThreads) : Prop :=
  PipeStep params interface w ev w' ∧ Documented w.shared ev

/-- The server has called `ConnectNamedPipe`. -/
def Listened (ls : List PipeEvent) : Prop := ∃ error, .act .connectNamedPipe error ∈ ls

/-- No client closes the pipe before that, and connections can be counted. -/
def ClosesListened (ls : List PipeEvent) (_ : PipeThreads) (ev : PipeEvent) : Prop :=
  (∀ r, ev = .act .clientClose r → Listened ls) ∧ handshakes (ls ++ [ev]) < 2147483648

/-- A run of the server in which clients do not leave that early. -/
abbrev ServerRun (params : StorageUnitParams) (interface : Interface) (ls : List PipeEvent)
    (w : PipeThreads) : Prop :=
  RunWhen (ServerStep params interface) ClosesListened pipeInit ls w

variable {params : StorageUnitParams} {interface : Interface} {s s' : PipeServer}
  {a : PipeAction} {r : a.Answer} {g g' : ConnectAccount} {gs gs' : List ConnectAccount}
  {ls ls' : List PipeEvent} {ev : PipeEvent} {w w' : PipeThreads} {listened listened' : Prop}

/-! ## Who will notice -/

/-- It has called `ConnectNamedPipe`, and there is no connection yet. -/
def ConnectAccount.Engaged (g : ConnectAccount) : Prop :=
  g.phase = .waiting ∨ g.phase = .writing ∨ g.phase = .failing

/-- The instance needs a thread that is engaged. -/
def Unattended (listened : Prop) (s : PipeServer) : Prop :=
  s.connected ≤ 0 ∧ (s.pipe = .closed ∨ listened ∧ s.pipe ≠ .disconnected)

structure RecoverInv (listened : Prop) (s : PipeServer) (gs : List ConnectAccount) : Prop where
  connect : ConnectInv s gs
  stop : s.listed = true ∨ s.event = true
  engaged : s.event = false → Unattended listened s → ∃ g ∈ gs, g.Engaged
  up : 0 < s.connected → s.pipe = .connected ∨ s.pipe = .closed
  opened : s.event = false → ∀ g ∈ gs, g.phase = .writing ∨ g.phase = .failing →
    s.pipe = .connected ∨ s.pipe = .closed
  waiting : ∀ g ∈ gs, g.phase = .waiting → s.pipe ≠ .disconnected

theorem ConnectAccount.Engaged.inside (h : g.Engaged) : g.Inside := by
  unfold ConnectAccount.Inside
  rcases h with h | h | h <;> rw [h] <;> decide

theorem not_idle_of_engaged (h : g.phase = .idle) : ¬ g.Engaged := fun he => he.inside h

theorem pipe_disconnectPipe (h : s.pipe = .connected ∨ s.pipe = .closed) :
    s.disconnectPipe.pipe = .disconnected := by
  unfold PipeServer.disconnectPipe
  rw [if_neg]
  intro hl
  rcases h with h | h <;> rw [hl] at h <;> cases h

namespace RecoverInv

theorem init : RecoverInv False .init [] where
  connect := .init
  stop := .inl rfl
  engaged _ h := by
    rcases h.2 with hclosed | ⟨hf, -⟩
    · cases hclosed
    · exact hf.elim
  up h := absurd h (by decide)
  opened _ _ h := absurd h List.not_mem_nil
  waiting _ h := absurd h List.not_mem_nil

theorem perm (hperm : gs.Perm gs') (h : RecoverInv listened s gs) : RecoverInv listened s gs' :=
  ⟨h.connect.perm hperm, h.stop,
    fun hevent hu => by
      obtain ⟨g, hg, he⟩ := h.engaged hevent hu
      exact ⟨g, hperm.mem_iff.mp hg, he⟩,
    h.up, fun hevent g hg => h.opened hevent g (hperm.mem_iff.mpr hg),
    fun g hg => h.waiting g (hperm.mem_iff.mpr hg)⟩

theorem cons_idle (hg : g.phase = .idle) (h : RecoverInv listened s gs) :
    RecoverInv listened s (g :: gs) := by
  refine ⟨(ConnectInv.cons_idle hg).mpr h.connect, h.stop, fun hevent hu => ?_, h.up,
    fun hevent g' hg' hp => ?_, fun g' hg' hp => ?_⟩
  · obtain ⟨g', hg', he⟩ := h.engaged hevent hu
    exact ⟨g', List.mem_cons_of_mem _ hg', he⟩
  · rcases List.mem_cons.mp hg' with rfl | hg'
    · rw [hg] at hp
      rcases hp with hp | hp <;> cases hp
    · exact h.opened hevent g' hg' hp
  · rcases List.mem_cons.mp hg' with rfl | hg'
    · rw [hg] at hp
      cases hp
    · exact h.waiting g' hg' hp

theorem of_cons_idle (hg : g.phase = .idle) (h : RecoverInv listened s (g :: gs)) :
    RecoverInv listened s gs := by
  refine ⟨(ConnectInv.cons_idle hg).mp h.connect, h.stop, fun hevent hu => ?_, h.up,
    fun hevent g' hg' => h.opened hevent g' (List.mem_cons_of_mem _ hg'),
    fun g' hg' => h.waiting g' (List.mem_cons_of_mem _ hg')⟩
  obtain ⟨g', hg', he⟩ := h.engaged hevent hu
  rcases List.mem_cons.mp hg' with rfl | hg'
  · exact absurd he (not_idle_of_engaged hg)
  · exact ⟨g', hg', he⟩

theorem of_alone (hconnect : ConnectInv s (g :: gs)) (hstop : s.listed = true ∨ s.event = true)
    (hout : ∀ h ∈ gs, h.phase = .idle)
    (hengaged : s.event = false → Unattended listened s → g.Engaged)
    (hup : 0 < s.connected → s.pipe = .connected ∨ s.pipe = .closed)
    (hopened : s.event = false → g.phase = .writing ∨ g.phase = .failing →
      s.pipe = .connected ∨ s.pipe = .closed)
    (hwaiting : g.phase = .waiting → s.pipe ≠ .disconnected) :
    RecoverInv listened s (g :: gs) := by
  refine ⟨hconnect, hstop, fun hevent hu => ⟨g, List.mem_cons_self, hengaged hevent hu⟩, hup,
    fun hevent g' hg' hp => ?_, fun g' hg' hp => ?_⟩
  · rcases List.mem_cons.mp hg' with rfl | hg'
    · exact hopened hevent hp
    · rw [hout g' hg'] at hp
      rcases hp with hp | hp <;> cases hp
  · rcases List.mem_cons.mp hg' with rfl | hg'
    · exact hwaiting hp
    · rw [hout g' hg'] at hp
      cases hp

theorem frame (h : RecoverInv listened s (g :: gs)) (hconnect : ConnectInv s' (g' :: gs))
    (hstop : s'.listed = true ∨ s'.event = true) (hevent : s'.event = false → s.event = false)
    (hconnected : s'.connected = s.connected) (hpipe : s'.pipe = s.pipe)
    (hphase : g'.phase = g.phase) : RecoverInv listened s' (g' :: gs) := by
  have hengaged : g.Engaged → g'.Engaged := fun he => by
    unfold ConnectAccount.Engaged at he ⊢
    rwa [hphase]
  refine ⟨hconnect, hstop, fun he hu => ?_, by rw [hconnected, hpipe]; exact h.up,
    fun he x hx hp => ?_, fun x hx hp => ?_⟩
  · have hu' : Unattended listened s := by
      unfold Unattended at hu ⊢
      rwa [hconnected, hpipe] at hu
    obtain ⟨x, hx, hex⟩ := h.engaged (hevent he) hu'
    rcases List.mem_cons.mp hx with rfl | hx
    · exact ⟨g', List.mem_cons_self, hengaged hex⟩
    · exact ⟨x, List.mem_cons_of_mem _ hx, hex⟩
  · rw [hpipe]
    rcases List.mem_cons.mp hx with rfl | hx
    · exact h.opened (hevent he) g List.mem_cons_self (by rwa [← hphase])
    · exact h.opened (hevent he) x (List.mem_cons_of_mem _ hx) hp
  · rw [hpipe]
    rcases List.mem_cons.mp hx with rfl | hx
    · exact h.waiting g List.mem_cons_self (hphase.symm.trans hp)
    · exact h.waiting x (List.mem_cons_of_mem _ hx) hp

/-- `ConnectNamedPipe` finds no client that has gone, or the unit is stopped. -/
theorem not_closed (h : RecoverInv listened s (g :: gs)) (hevent : s.event = false)
    (hphase : g.phase = .calling) : s.pipe ≠ .closed := by
  intro hclosed
  have hinside : g.Inside := by
    rw [ConnectAccount.Inside, hphase]
    decide
  have hdown := h.connect.down g List.mem_cons_self (.inl hphase)
  obtain ⟨x, hx, he⟩ := h.engaged hevent ⟨hdown, .inl hclosed⟩
  rcases List.mem_cons.mp hx with rfl | hx
  · rcases he with he | he | he <;> rw [hphase] at he <;> cases he
  · exact not_idle_of_engaged ((h.connect.alone hinside).2 x hx) he

theorem mono (hlistened : listened' → listened) (h : RecoverInv listened s gs) :
    RecoverInv listened' s gs :=
  ⟨h.connect, h.stop,
    fun hevent hu => h.engaged hevent ⟨hu.1, hu.2.imp id (And.imp_left hlistened)⟩,
    h.up, h.opened, h.waiting⟩

/-- `ConnectNamedPipe` serves. -/
theorem connectNamedPipe {error : UInt32} (h : RecoverInv listened s (g :: gs))
    (hphase : g.phase = .calling) (hexec : PipeAction.Exec s .connectNamedPipe error s')
    (herror : error = s.pipe.connectError) :
    RecoverInv listened' s' (ConnectAccount.track .connectNamedPipe error g :: gs) := by
  have hinside : g.Inside := by
    rw [ConnectAccount.Inside, hphase]
    decide
  have hout := (h.connect.alone hinside).2
  have hinv := (h.connect.exec (a := .connectNamedPipe) hphase hexec (fun hh => by cases hh)).1
  have hpipe := exec_pipeEffect hexec
  have hstop := exec_stopEffect hexec
  have hdown : s'.connected ≤ 0 := by
    rw [(exec_connectEffect hexec).2]
    exact h.connect.down g List.mem_cons_self (.inl hphase)
  have hstop' : s'.listed = true ∨ s'.event = true := by
    rw [hstop.1, hstop.2]
    exact h.stop
  have hnot : ¬ 0 < s'.connected := Int32.not_lt.mpr hdown
  have hphase' : (ConnectAccount.track .connectNamedPipe error g).phase =
      if error = errorSuccess ∨ error = errorIoPending then .waiting
      else if error = errorPipeConnected then .writing else .leaving false := rfl
  subst herror
  have hnew : s'.pipe = s.pipe.connect := by
    rcases hpipe with ⟨hnew, -⟩ | ⟨hsame, hpending, -⟩
    · exact hnew
    · cases hp : s.pipe <;> rw [hp] at hsame hpending <;>
        first | exact hsame | exact absurd rfl hpending
  cases hp : s.pipe with
  | listening | disconnected =>
      rw [hp] at hphase' hinv hnew
      refine of_alone hinv hstop' hout (fun _ _ => .inl hphase') (absurd · hnot) (fun _ hw => ?_)
        (fun _ => by rw [hnew]; decide)
      rw [hphase'] at hw
      rcases hw with hw | hw <;> cases hw
  | connected =>
      rw [hp] at hphase' hinv hnew
      exact of_alone hinv hstop' hout (fun _ _ => .inr (.inl hphase')) (absurd · hnot)
        (fun _ _ => .inl hnew) (fun _ => by rw [hnew]; decide)
  | closed =>
      rw [hp] at hphase' hinv hnew
      refine of_alone hinv hstop' hout (fun hevent _ => ?_) (absurd · hnot)
        (fun _ _ => .inr hnew) (fun _ => by rw [hnew]; decide)
      exact absurd hp (h.not_closed (by rwa [← hstop.2]) hphase)

/-- The thread that comes in while a client is connected has no one else to wait for. -/
theorem acquireLock {r : PipeAction.Answer .acquireLock} (h : RecoverInv listened s (g :: gs))
    (hinv : ConnectInv s' (ConnectAccount.track .acquireLock r g :: gs))
    (hexec : PipeAction.Exec s .acquireLock r s') :
    RecoverInv listened s' (ConnectAccount.track .acquireLock r g :: gs) := by
  have hconnect := exec_connectEffect hexec
  have hpipe := exec_pipeEffect hexec
  have hstop := exec_stopEffect hexec
  obtain ⟨hfree, -, hconnected, rfl⟩ := hconnect
  have hout := h.connect.out_of_free hfree
  have hphase : (ConnectAccount.track .acquireLock s.connected g).phase =
    if s.connected ≤ 0 then .calling else .leaving true := rfl
  refine of_alone hinv (by rw [hstop.1, hstop.2]; exact h.stop)
    (fun x hx => hout x (List.mem_cons_of_mem _ hx)) (fun hevent hu => ?_)
    (by rw [hconnected, hpipe]; exact h.up) (fun _ hp => ?_) (fun hp => ?_)
  · rw [hstop.2] at hevent
    unfold Unattended at hu
    rw [hconnected, hpipe] at hu
    obtain ⟨x, hx, he⟩ := h.engaged hevent hu
    exact absurd he (not_idle_of_engaged (hout x hx))
  · rw [hphase] at hp
    split at hp <;> rcases hp with hp | hp <;> cases hp
  · rw [hphase] at hp
    split at hp <;> cases hp

theorem waitConnect {r : PipeAction.Answer .waitConnect} (h : RecoverInv listened s (g :: gs))
    (hinv : ConnectInv s' (ConnectAccount.track .waitConnect r g :: gs))
    (hmay : g.May .waitConnect) (hexec : PipeAction.Exec s .waitConnect r s')
    (hwait : Documented s (.act .waitConnect r)) :
    RecoverInv listened s' (ConnectAccount.track .waitConnect r g :: gs) := by
  have hconnect := exec_connectEffect hexec
  have hpipe := exec_pipeEffect hexec
  have hstop := exec_stopEffect hexec
  have hphase : g.phase = .waiting := hmay
  have hout := (h.connect.alone (by rw [ConnectAccount.Inside, hphase]; decide)).2
  have hdown : s'.connected ≤ 0 := by
    rw [hconnect.2]
    exact h.connect.down g List.mem_cons_self (.inr (.inl hphase))
  have hphase' : (ConnectAccount.track .waitConnect r g).phase =
    if r = errorSuccess ∨ r = errorPipeConnected then .writing else .leaving false := rfl
  obtain ⟨hsame, hopen⟩ := hpipe
  have hsuccess : s'.event = false → r = errorSuccess := by
    intro hevent
    by_contra hne
    rw [hstop.2, hwait hne] at hevent
    cases hevent
  refine of_alone hinv (by rw [hstop.1, hstop.2]; exact h.stop) hout (fun hevent _ => ?_)
    (absurd · (Int32.not_lt.mpr hdown)) (fun hevent _ => ?_) (fun hw => ?_)
  · rw [if_pos (.inl (hsuccess hevent))] at hphase'
    exact .inr (.inl hphase')
  · rw [hsame]
    exact hopen (hsuccess hevent)
  · rw [hphase'] at hw
    split at hw <;> cases hw

/-- After the parameters are written a client is connected, or the pipe is disconnected next. -/
theorem writeParams {r : PipeAction.Answer .writeParams} (h : RecoverInv listened s (g :: gs))
    (hinv : ConnectInv s' (ConnectAccount.track .writeParams r g :: gs))
    (hmay : g.May .writeParams) (hexec : PipeAction.Exec s .writeParams r s')
    (hup : isHandshake (.act .writeParams r) → s.connected ≤ 0 → 0 < -s.connected + 1) :
    RecoverInv listened s' (ConnectAccount.track .writeParams r g :: gs) := by
  have hconnect := exec_connectEffect hexec
  have hpipe := exec_pipeEffect hexec
  have hstop := exec_stopEffect hexec
  have hphase : g.phase = .writing := hmay
  have hout := (h.connect.alone (by rw [ConnectAccount.Inside, hphase]; decide)).2
  have hphase' : (ConnectAccount.track .writeParams r g).phase =
    if r = errorSuccess then .leaving true else .failing := rfl
  obtain ⟨hsame, hopen⟩ := hpipe
  have hdown := h.connect.down g List.mem_cons_self (.inr (.inr (.inl hphase)))
  by_cases hr : r = errorSuccess
  · rw [if_pos hr] at hphase'
    have hpos : 0 < s'.connected := by
      rw [hconnect.2, if_pos hr]
      exact hup (decide_eq_true hr) hdown
    refine of_alone hinv (by rw [hstop.1, hstop.2]; exact h.stop) hout
      (fun _ hu => absurd hpos (Int32.not_lt.mpr hu.1))
      (fun _ => .inl (hsame.trans (hopen hr))) (fun _ hw => ?_) (fun hw => ?_)
    · rw [hphase'] at hw
      rcases hw with hw | hw <;> cases hw
    · rw [hphase'] at hw
      cases hw
  · rw [if_neg hr] at hphase'
    have hnot : ¬ 0 < s'.connected := by
      rw [hconnect.2, if_neg hr]
      exact Int32.not_lt.mpr hdown
    refine of_alone hinv (by rw [hstop.1, hstop.2]; exact h.stop) hout
      (fun _ _ => .inr (.inr hphase')) (absurd · hnot) (fun hevent _ => ?_) (fun hw => ?_)
    · rw [hsame]
      exact h.opened (by rwa [← hstop.2]) g List.mem_cons_self (.inl hphase)
    · rw [hphase'] at hw
      cases hw

theorem disconnectNamedPipe {r : PipeAction.Answer .disconnectNamedPipe}
    (h : RecoverInv listened s (g :: gs))
    (hinv : ConnectInv s' (ConnectAccount.track .disconnectNamedPipe r g :: gs))
    (hmay : g.May .disconnectNamedPipe) (hexec : PipeAction.Exec s .disconnectNamedPipe r s') :
    RecoverInv listened s' (ConnectAccount.track .disconnectNamedPipe r g :: gs) := by
  have hconnect := exec_connectEffect hexec
  have hpipe := exec_pipeEffect hexec
  have hstop := exec_stopEffect hexec
  have hphase : g.phase = .failing := hmay
  have hout := (h.connect.alone (by rw [ConnectAccount.Inside, hphase]; decide)).2
  have hdown := h.connect.down g List.mem_cons_self (.inr (.inr (.inr hphase)))
  refine of_alone hinv (by rw [hstop.1, hstop.2]; exact h.stop) hout (fun hevent hu => ?_)
    (fun hpos => ?_) (fun _ hw => ?_) (fun hw => ?_)
  · have hgone : s'.pipe = .disconnected := by
      rw [hpipe]
      exact pipe_disconnectPipe
        (h.opened (by rwa [← hstop.2]) g List.mem_cons_self (.inr hphase))
    rw [Unattended, hgone] at hu
    rcases hu.2 with hc | ⟨-, hne⟩
    · cases hc
    · exact absurd rfl hne
  · rw [hconnect.2] at hpos
    exact absurd hpos (Int32.not_lt.mpr hdown)
  · rcases hw with hw | hw <;> cases hw
  · cases hw

theorem releaseLock {r : PipeAction.Answer .releaseLock} (h : RecoverInv listened s (g :: gs))
    (hinv : ConnectInv s' (ConnectAccount.track .releaseLock r g :: gs))
    (hmay : g.May .releaseLock) (hexec : PipeAction.Exec s .releaseLock r s') :
    RecoverInv listened s' (ConnectAccount.track .releaseLock r g :: gs) := by
  have hconnect := exec_connectEffect hexec
  have hpipe := exec_pipeEffect hexec
  have hstop := exec_stopEffect hexec
  obtain ⟨success, hphase⟩ := hmay
  have hout := (h.connect.alone (by rw [ConnectAccount.Inside, hphase]; simp)).2
  obtain ⟨-, hconnected, rfl⟩ := hconnect
  refine of_alone hinv (by rw [hstop.1, hstop.2]; exact h.stop) hout (fun hevent hu => ?_)
    (by rw [hconnected, hpipe]; exact h.up) (fun _ hw => ?_) (fun hw => ?_)
  · rw [hstop.2] at hevent
    rw [Unattended, hconnected, hpipe] at hu
    obtain ⟨x, hx, he⟩ := h.engaged hevent hu
    rcases List.mem_cons.mp hx with rfl | hx
    · rcases he with he | he | he <;> rw [hphase] at he <;> cases he
    · exact absurd he (not_idle_of_engaged (hout x hx))
  · rcases hw with hw | hw <;> cases hw
  · cases hw

theorem disconnect {connected : Int32} {r : PipeAction.Answer (.disconnect connected)}
    (h : RecoverInv listened s (g :: gs))
    (hinv : ConnectInv s' (ConnectAccount.track (.disconnect connected) r g :: gs))
    (hmay : g.May (.disconnect connected))
    (hexec : PipeAction.Exec s (.disconnect connected) r s') :
    RecoverInv listened s' (ConnectAccount.track (.disconnect connected) r g :: gs) := by
  have hconnect := exec_connectEffect hexec
  have hpipe := exec_pipeEffect hexec
  have hstop := exec_stopEffect hexec
  obtain ⟨hphase, -, hpos⟩ := hmay
  obtain ⟨hfree, -, hsame, hconnected⟩ := hconnect
  have hout := h.connect.out_of_free hfree
  rcases Bool.eq_false_or_eq_true r with rfl | rfl
  · have hcurrent : 0 < s.connected := by rwa [← hsame rfl]
    have hgone : s'.pipe = .disconnected := by
      rw [hpipe, if_pos rfl]
      exact pipe_disconnectPipe (h.up hcurrent)
    have hnot : ¬ 0 < s'.connected := by
      have hpos' := pos_iff_toInt.mp hcurrent
      rw [hconnected, if_pos rfl, pos_iff_toInt, toInt_neg_pos hcurrent]
      omega
    refine of_alone hinv (by rw [hstop.1, hstop.2]; exact h.stop)
      (fun x hx => hout x (List.mem_cons_of_mem _ hx)) (fun _ hu => ?_) (absurd · hnot)
      (fun _ hw => ?_) (fun hw => ?_)
    · rw [Unattended, hgone] at hu
      rcases hu.2 with hc | ⟨-, hne⟩
      · cases hc
      · exact absurd rfl hne
    · rw [show ConnectAccount.track (.disconnect connected) true g = g from rfl, hphase] at hw
      rcases hw with hw | hw <;> cases hw
    · rw [show ConnectAccount.track (.disconnect connected) true g = g from rfl, hphase] at hw
      cases hw
  · exact h.frame hinv (by rw [hstop.1, hstop.2]; exact h.stop) (fun he => by rwa [← hstop.2])
      hconnected hpipe rfl

/-- Every other action keeps it. A client may only close when `listened`. -/
theorem exec (h : RecoverInv listened s (g :: gs)) (hmay : g.May a) (hexec : a.Exec s r s')
    (hup : isHandshake (.act a r) → s.connected ≤ 0 → 0 < -s.connected + 1)
    (hwait : Documented s (.act a r)) (hclose : a = .clientClose → listened)
    (hother : a ≠ .connectNamedPipe) :
    RecoverInv listened s' (ConnectAccount.track a r g :: gs) := by
  have hinv := (h.connect.exec hmay hexec hup).1
  have hconnect := exec_connectEffect hexec
  have hpipe := exec_pipeEffect hexec
  have hstop := exec_stopEffect hexec
  cases a with
  | connectNamedPipe => exact absurd rfl hother
  | acquireLock => exact h.acquireLock hinv hexec
  | waitConnect => exact h.waitConnect hinv hmay hexec hwait
  | writeParams => exact h.writeParams hinv hmay hexec hup
  | disconnectNamedPipe => exact h.disconnectNamedPipe hinv hmay hexec
  | releaseLock => exact h.releaseLock hinv hmay hexec
  | disconnect connected => exact h.disconnect hinv hmay hexec
  | clientOpen =>
      obtain ⟨hlistening, hopen⟩ := hpipe
      refine ⟨hinv, by rw [hstop.1, hstop.2]; exact h.stop, fun hevent hu => ?_,
        fun _ => .inl hopen, fun _ _ _ _ => .inl hopen, fun _ _ _ => by rw [hopen]; decide⟩
      rw [Unattended, hconnect.2, hopen] at hu
      rcases hu with ⟨hle, hc | ⟨hs, -⟩⟩
      · cases hc
      · exact h.engaged (by rwa [← hstop.2]) ⟨hle, .inr ⟨hs, by rw [hlistening]; decide⟩⟩
  | clientClose =>
      obtain ⟨hopen, hclosed⟩ := hpipe
      refine ⟨hinv, by rw [hstop.1, hstop.2]; exact h.stop, fun hevent hu => ?_,
        fun _ => .inr hclosed, fun _ _ _ _ => .inr hclosed, fun _ _ _ => by rw [hclosed]; decide⟩
      rw [Unattended, hconnect.2] at hu
      exact h.engaged
        (by rwa [← hstop.2]) ⟨hu.1, .inr ⟨hclose rfl, by rw [hopen]; decide⟩⟩
  | clientSend message =>
      exact h.frame hinv (by rw [hstop.1, hstop.2]; exact h.stop) (fun he => by rwa [← hstop.2])
        hconnect.2 (hpipe.2.trans hpipe.1.symm) rfl
  | shutdown =>
      have hevent : s'.event = true := by
        rw [hstop.2]
        rcases h.stop with hl | he
        · rw [hl, Bool.or_true]
        · rw [he, Bool.true_or]
      refine h.frame hinv (.inr hevent) (fun he => ?_) hconnect.2 hpipe rfl
      rw [hevent] at he
      cases he
  | _ =>
      exact h.frame hinv (by rw [hstop.1, hstop.2]; exact h.stop) (fun he => by rwa [← hstop.2])
        hconnect.2 hpipe rfl

end RecoverInv

/-! ## Runs -/

theorem listened_snoc :
    Listened (ls ++ [ev]) ↔ Listened ls ∨ ∃ error, ev = .act .connectNamedPipe error := by
  unfold Listened
  simp only [List.mem_append, List.mem_singleton, exists_or, eq_comm]

/-- What holds of a history of the server and the state it leads to. -/
structure ServerInv (ls : List PipeEvent) (w : PipeThreads) : Prop where
  generation : GenerationInv ls w
  recover : Threads.Verified connectRules (RecoverInv (Listened ls)) w

theorem ServerInv.step (h : ServerInv ls w) (hstep : ServerStep params interface w ev w')
    (hC : ClosesListened ls w ev) : ServerInv (ls ++ [ev]) w' := by
  refine ⟨h.generation.step hstep.1 hC.2, ?_⟩
  refine Threads.Verified.step_to
    (C := fun w ev => ClosesListened ls w ev ∧ Documented w.shared ev ∧
      (isHandshake ev = true → w.shared.connected ≤ 0 → 0 < -w.shared.connected + 1))
    (fun hperm h => h.perm hperm) (fun hperm h => h.perm hperm) (fun hev h => ?_)
    (fun hev hg h => ?_) pipeCaller_out ?_ h.recover
    ⟨hC, hstep.2, h.generation.no_overflow hC.2⟩ hstep.1
  · refine (h.cons_idle rfl).mono fun hl => (listened_snoc.mp hl).resolve_right ?_
    rintro ⟨error, rfl⟩
    cases hev
  · refine (h.of_cons_idle hg).mono fun hl => (listened_snoc.mp hl).resolve_right ?_
    rintro ⟨error, rfl⟩
    cases hev
  · intro s us vs a k g r s' hev _ hC hmay h hexec
    obtain ⟨hC, hdoc, hup⟩ := hC
    have hmay : g.May a := hmay
    refine ⟨?_, (h.connect.exec hmay hexec hup).2⟩
    by_cases hconn : a = .connectNamedPipe
    · subst hconn
      exact h.connectNamedPipe hmay hexec hdoc
    · refine (h.exec hmay hexec hup hdoc (fun ha => ?_) hconn).mono fun hl => ?_
      · subst ha
        exact hC.1 r rfl
      · refine (listened_snoc.mp hl).resolve_right ?_
        rintro ⟨error, rfl⟩
        cases hev
        exact hconn rfl

theorem serverRun_inv (hrun : ServerRun params interface ls w) : ServerInv ls w := by
  refine hrun.history (I := ServerInv) ⟨generationInv_init, ⟨?_, ?_⟩⟩
    fun h hstep hC => h.step hstep hC
  · exact RecoverInv.init.mono fun ⟨_, h⟩ => absurd h List.not_mem_nil
  · exact fun _ h => absurd h List.not_mem_nil

/-! ## The next client -/

/-- The server can go on to a handshake. -/
def Recovers (params : StorageUnitParams) (interface : Interface) (ls : List PipeEvent) : Prop :=
  ∃ ls' w', ServerRun params interface (ls ++ ls') w' ∧ 0 < handshakes ls'

/-- The unit has not been shut down, and one more handshake can be counted. -/
structure Serving (params : StorageUnitParams) (interface : Interface) (ls : List PipeEvent)
    (w : PipeThreads) : Prop where
  run : ServerRun params interface ls w
  bound : handshakes ls + 1 < 2147483648
  event : w.shared.event = false

theorem pipeState_cases (pipe : PipeState) :
    pipe = .listening ∨ pipe = .disconnected ∨ pipe = .connected ∨ pipe = .closed := by
  cases pipe <;> decide

/-- The action a thread in the section makes next. -/
def ConnectPhase.action : ConnectPhase → Option PipeAction
  | .idle => none
  | .calling => some .connectNamedPipe
  | .waiting => some .waitConnect
  | .writing => some .writeParams
  | .failing => some .disconnectNamedPipe
  | .leaving _ => some .releaseLock

theorem inside_next {p : PipeProg Unit}
    (hsafe : connectRules.Safe (fun _ => connectRules.Settled) g p) (hg : g.Inside) :
    p.next = g.phase.action := by
  cases p with
  | ret x => exact absurd hsafe hg
  | act a k =>
      have hmay : g.May a := hsafe.1
      cases a with
      | connectNamedPipe | waitConnect | writeParams | disconnectNamedPipe =>
          have hphase : g.phase = _ := hmay
          rw [hphase]
          rfl
      | releaseLock =>
          obtain ⟨success, hphase⟩ := hmay
          rw [hphase]
          rfl
      | disconnect connected => exact absurd hmay.1 hg
      | _ => exact absurd hmay hg

/-- What threads do in the section does not shut the unit down. -/
theorem action_event {phase : ConnectPhase} (ha : phase.action = some a) (hexec : a.Exec s r s') :
    s'.event = s.event := by
  have hstop := exec_stopEffect hexec
  cases phase <;> cases ha <;> exact hstop.2

/-- The program leaves the section, and disconnects when it cannot read. -/
def Notices (p : PipeProg Unit) : Prop :=
  ∃ k, p = .act .releaseLock k ∧ ∀ connected, ∃ size k',
    k connected = .act (.readFile size) k' ∧
    ∀ error, ∃ k'', k' (.error error) = .act (.disconnect connected) k''

namespace Serving

theorem inv (h : Serving params interface ls w) : RecoverInv (Listened ls) w.shared w.accounts :=
  (serverRun_inv h.run).recover.inv

theorem step (hw : Serving params interface ls w) (hstep : ServerStep params interface w ev w')
    (hclose : ∀ r, ev ≠ .act .clientClose r) (hevent : w'.shared.event = false)
    (h : isHandshake ev = false → Serving params interface (ls ++ [ev]) w' →
      Recovers params interface (ls ++ [ev])) : Recovers params interface ls := by
  have hbound := hw.bound
  have hcount : handshakes (ls ++ [ev]) = handshakes ls + if isHandshake ev then 1 else 0 :=
    handshakes_snoc
  have hbound' : handshakes (ls ++ [ev]) < 2147483648 := by
    rw [hcount]
    split <;> omega
  have hrun := hw.run.snoc hstep ⟨fun r hr => absurd hr (hclose r), hbound'⟩
  rcases Bool.eq_false_or_eq_true (isHandshake ev) with hh | hh
  · refine ⟨[ev], w', hrun, ?_⟩
    rw [handshakes, List.countP_singleton, if_pos hh]
    exact Nat.one_pos
  · rw [hh, if_neg (by decide), Nat.add_zero] at hcount
    obtain ⟨ls', w'', hrun', hpos⟩ := h hh ⟨hrun, by rwa [hcount], hevent⟩
    refine ⟨ev :: ls', w'', by rwa [List.append_assoc] at hrun', ?_⟩
    rw [handshakes, List.countP_cons]
    exact Nat.lt_of_lt_of_le hpos (Nat.le_add_right _ _)

theorem inside (hw : Serving params interface ls w) (hg : g ∈ w.accounts)
    (ha : g.phase.action = some a) (hexec : a.Exec w.shared r s')
    (hdoc : Documented w.shared (.act a r))
    (h : ∀ w', isHandshake (.act a r) = false →
      Serving params interface (ls ++ [.act a r]) w' →
      w'.shared = s' → ConnectAccount.track a r g ∈ w'.accounts →
      Recovers params interface (ls ++ [.act a r])) : Recovers params interface ls := by
  obtain ⟨t, ht, rfl⟩ := List.mem_map.mp hg
  have hinside : t.account.Inside := fun hidle => by
    rw [hidle] at ha
    cases ha
  have hnext := (inside_next ((serverRun_inv hw.run).recover.safe t ht) hinside).trans ha
  obtain ⟨w', hstep, hshared, hmem⟩ : ∃ w', PipeStep params interface w (.act a r) w' ∧
      w'.shared = s' ∧ ConnectAccount.track a r t.account ∈ w'.accounts :=
    Threads.step_of_mem ht hnext hexec
  refine hw.step ⟨hstep, hdoc⟩ (fun r' hr' => ?_) ?_ fun hh hw' => h w' hh hw' hshared hmem
  · cases hr'
    cases hp : t.account.phase <;> rw [hp] at ha <;> cases ha
  · rw [hshared, action_event ha hexec]
    exact hw.event

theorem opens (hw : Serving params interface ls w) (hpipe : w.shared.pipe = .listening)
    (h : ∀ ls' w', Serving params interface ls' w' → w'.shared.pipe = .connected →
      (∀ g ∈ w.accounts, g ∈ w'.accounts) → Recovers params interface ls') :
    Recovers params interface ls := by
  obtain ⟨s, ts⟩ := w
  have henter : PipeStep params interface ⟨s, ts⟩ .enter
      ⟨s, ⟨pipeAction .clientOpen, .idle 0⟩ :: ts⟩ := .enter (.entry .clientOpen)
  refine hw.step ⟨henter, trivial⟩ (fun _ h => by cases h) hw.event fun _ hw' => ?_
  have hexec : PipeAction.Exec s .clientOpen ()
      { s with pipe := .connected, client := s.client + 1, inbox := [] } :=
    ⟨.ends errorSuccess, if_pos hpipe⟩
  refine hw'.step ⟨Threads.step_head hexec, trivial⟩ (fun _ h => by cases h) hw.event
    fun _ hw'' => ?_
  exact h _ _ hw'' rfl fun g hg => List.mem_cons_of_mem _ hg

theorem writing (hw : Serving params interface ls w) (hg : g ∈ w.accounts)
    (hphase : g.phase = .writing) (hpipe : w.shared.pipe = .connected) :
    Recovers params interface ls := by
  have hexec : PipeAction.Exec w.shared .writeParams errorSuccess
      { w.shared with connected := -w.shared.connected + 1 } :=
    ⟨.ends errorSuccess, by simp [PipeAction.exec, hpipe, errorSuccess]⟩
  exact hw.inside hg (by rw [hphase]; rfl) hexec trivial fun w' hh => by cases hh

theorem waiting_connected (hw : Serving params interface ls w) (hg : g ∈ w.accounts)
    (hphase : g.phase = .waiting) (hpipe : w.shared.pipe = .connected) :
    Recovers params interface ls := by
  have hexec : PipeAction.Exec w.shared .waitConnect errorSuccess w.shared :=
    ⟨.ends errorSuccess, by simp [PipeAction.exec, hpipe, errorSuccess]⟩
  refine hw.inside hg (by rw [hphase]; rfl) hexec (fun h => absurd rfl h)
    fun w' _ hw' hshared hg' => ?_
  exact hw'.writing hg' rfl (by rw [hshared, hpipe])

theorem waiting_listening (hw : Serving params interface ls w) (hg : g ∈ w.accounts)
    (hphase : g.phase = .waiting) (hpipe : w.shared.pipe = .listening) :
    Recovers params interface ls :=
  hw.opens hpipe fun _ _ hw' hpipe' hmem => hw'.waiting_connected (hmem g hg) hphase hpipe'

theorem calling (hw : Serving params interface ls w) (hg : g ∈ w.accounts)
    (hphase : g.phase = .calling) : Recovers params interface ls := by
  have hexec : PipeAction.Exec w.shared .connectNamedPipe w.shared.pipe.connectError
      { w.shared with pipe := w.shared.pipe.connect } := ⟨.ends errorSuccess, rfl⟩
  refine hw.inside hg (by rw [hphase]; rfl) hexec rfl fun w' _ hw' hshared hg' => ?_
  have hphase' : (ConnectAccount.track .connectNamedPipe w.shared.pipe.connectError g).phase =
    if w.shared.pipe.connectError = errorSuccess ∨ w.shared.pipe.connectError =
      errorIoPending then
      .waiting
    else if w.shared.pipe.connectError = errorPipeConnected then .writing else .leaving false := rfl
  have hpipe' : w'.shared.pipe = w.shared.pipe.connect := congrArg _ hshared
  rcases pipeState_cases w.shared.pipe with hp | hp | hp | hp
  · exact hw'.waiting_listening hg' (hphase'.trans (if_pos (by rw [hp]; decide)))
      (by rw [hpipe', hp]; rfl)
  · exact hw'.waiting_listening hg' (hphase'.trans (if_pos (by rw [hp]; decide)))
      (by rw [hpipe', hp]; rfl)
  · exact hw'.writing hg' (hphase'.trans ((if_neg (by rw [hp]; decide)).trans
      (if_pos (by rw [hp]; decide)))) (by rw [hpipe', hp]; rfl)
  · have hinv := hw.inv.perm (List.perm_cons_erase hg)
    exact absurd hp (hinv.not_closed hw.event hphase)

theorem head {ts : List (Thread PipeAction PipeAction.Answer ConnectAccount)} {p : PipeProg Unit}
    {k : a.Answer → PipeProg Unit} (hw : Serving params interface ls ⟨s, ⟨p, g⟩ :: ts⟩)
    (hp : p = .act a k) (hexec : a.Exec s r s') (hdoc : Documented s (.act a r))
    (hclose : a ≠ .clientClose) (hevent : s'.event = false)
    (h : Serving params interface (ls ++ [.act a r])
        ⟨s', ⟨k r, ConnectAccount.track a r g⟩ :: ts⟩ →
      Recovers params interface (ls ++ [.act a r])) :
    Recovers params interface ls := by
  subst hp
  refine hw.step ⟨Threads.step_head hexec, hdoc⟩ (fun r' hr' => ?_) hevent fun _ hw' => h hw'
  cases hr'
  exact hclose rfl

theorem call (hw : Serving params interface ls w) (hfree : w.shared.locked = false)
    (h : ∀ ls' p, (0 < w.shared.connected → Notices p) →
      Serving params interface ls' ⟨{ w.shared with locked := true },
        ⟨p, ⟨if w.shared.connected ≤ 0 then .calling else .leaving true, 0⟩⟩ ::
          w.threads⟩ →
      Recovers params interface ls') : Recovers params interface ls := by
  obtain ⟨s, ts⟩ := w
  have hevent : s.event = false := hw.event
  have hfree : s.locked = false := hfree
  have hlisted : s.listed = true := hw.inv.stop.resolve_right (by simp [hevent])
  have henter : PipeStep params interface ⟨s, ts⟩ .enter _ := .enter (.call none true (some []))
  refine hw.step ⟨henter, trivial⟩ (fun _ h => by cases h) hevent fun _ hw => ?_
  refine hw.head (a := .overlappedInit) (r := errorSuccess) rfl
    ⟨.ends errorSuccess, rfl⟩ trivial
    (by simp) hevent fun hw => ?_
  refine hw.head (a := .unitIsListed) (r := true) rfl
    ⟨.ends errorSuccess, by rw [← hlisted]; rfl⟩
    trivial (by simp) hevent fun hw => ?_
  refine hw.head (a := .memAlloc) (r := true) rfl ⟨.ends errorSuccess, rfl⟩ trivial
    (by simp) hevent
    fun hw => ?_
  refine hw.head (a := .acquireLock) (r := s.connected) rfl
    ⟨.ends errorSuccess, if_neg (by simp [hfree])⟩ trivial (by simp) hevent fun hw => ?_
  refine h _ _ (fun hpos => ?_) hw
  have hconnect : connectUnlessConnected s.connected = .ret errorSuccess :=
    if_neg (Int32.not_le.mpr hpos)
  simp only [Prog.bind, hconnect]
  exact ⟨_, rfl, fun c => ⟨_, _, rfl, fun error => ⟨_, rfl⟩⟩⟩

theorem free_down (hw : Serving params interface ls w) (hfree : w.shared.locked = false)
    (hle : w.shared.connected ≤ 0) : Recovers params interface ls :=
  hw.call hfree fun _ _ _ hw' => hw'.calling List.mem_cons_self (if_pos hle)

theorem exec_disconnect (hfree : s.locked = false) :
    PipeAction.Exec s (.disconnect s.connected) true
      { s.disconnectPipe with connected := -s.connected } :=
  ⟨.ends errorSuccess, by rw [PipeAction.exec, if_neg (by simp [hfree]), if_pos rfl]⟩

theorem free (hw : Serving params interface ls w) (hfree : w.shared.locked = false) :
    Recovers params interface ls := by
  by_cases hle : w.shared.connected ≤ 0
  · exact hw.free_down hfree hle
  have hpos := Int32.not_le.mp hle
  refine hw.call hfree fun ls' p hnotices hw' => ?_
  obtain ⟨k, hk, hread⟩ := hnotices hpos
  refine hw'.head hk ⟨.ends errorSuccess, rfl⟩ trivial (by simp) hw.event fun hw' => ?_
  obtain ⟨size, k', hk', hdisconnect⟩ := hread w.shared.connected
  refine hw'.head (a := .readFile size) (r := .error errorNoData) hk' ⟨.ends errorNoData, rfl⟩
    trivial (by simp) hw.event fun hw' => ?_
  obtain ⟨k'', hk''⟩ := hdisconnect errorNoData
  have hexec := exec_disconnect (s := { w.shared with locked := false }) rfl
  refine hw'.head hk'' hexec trivial (by simp) ?_ fun hw' => ?_
  · exact stop_disconnectPipe.2.trans hw.event
  refine hw'.free_down disconnectPipe_locked (Int32.not_lt.mp fun h => ?_)
  have hpos' := pos_iff_toInt.mp hpos
  rw [pos_iff_toInt, toInt_neg_pos hpos] at h
  omega

theorem leaving {success : Bool} (hw : Serving params interface ls w) (hg : g ∈ w.accounts)
    (hphase : g.phase = .leaving success) : Recovers params interface ls := by
  have hexec : PipeAction.Exec w.shared .releaseLock w.shared.connected
      { w.shared with locked := false } := ⟨.ends errorSuccess, rfl⟩
  refine hw.inside hg (by rw [hphase]; rfl) hexec trivial fun w' _ hw' hshared _ => ?_
  exact hw'.free (by rw [hshared])

theorem failing (hw : Serving params interface ls w) (hg : g ∈ w.accounts)
    (hphase : g.phase = .failing) : Recovers params interface ls := by
  have hexec : PipeAction.Exec w.shared .disconnectNamedPipe () w.shared.disconnectPipe :=
    ⟨.ends errorSuccess, rfl⟩
  refine hw.inside hg (by rw [hphase]; rfl) hexec trivial fun w' _ hw' _ hg' => ?_
  exact hw'.leaving hg' rfl

theorem writing_fails (hw : Serving params interface ls w) (hg : g ∈ w.accounts)
    (hphase : g.phase = .writing) : Recovers params interface ls := by
  have hexec : PipeAction.Exec w.shared .writeParams errorNoData w.shared :=
    ⟨.ends errorNoData, rfl⟩
  refine hw.inside hg (by rw [hphase]; rfl) hexec trivial fun w' _ hw' _ hg' => ?_
  exact hw'.failing hg' rfl

theorem waiting (hw : Serving params interface ls w) (hg : g ∈ w.accounts)
    (hphase : g.phase = .waiting) : Recovers params interface ls := by
  rcases pipeState_cases w.shared.pipe with hp | hp | hp | hp
  · exact hw.waiting_listening hg hphase hp
  · exact absurd hp (hw.inv.waiting g hg hphase)
  · exact hw.waiting_connected hg hphase hp
  · have hexec : PipeAction.Exec w.shared .waitConnect errorSuccess w.shared :=
      ⟨.ends errorSuccess, by simp [PipeAction.exec, hp, errorSuccess]⟩
    refine hw.inside hg (by rw [hphase]; rfl) hexec (fun h => absurd rfl h)
      fun w' _ hw' hshared hg' => ?_
    exact hw'.writing_fails hg' rfl

theorem recovers (hw : Serving params interface ls w) : Recovers params interface ls := by
  have hone := hw.inv.connect.one
  rcases Bool.eq_false_or_eq_true w.shared.locked with hlocked | hlocked
  · rw [hlocked, if_pos rfl] at hone
    obtain ⟨g, hg, hinside⟩ := List.countP_pos_iff.mp (hone ▸ Nat.one_pos)
    rw [decide_eq_true_iff] at hinside
    cases hphase : g.phase with
    | idle => exact absurd hphase hinside
    | calling => exact hw.calling hg hphase
    | waiting => exact hw.waiting hg hphase
    | writing => exact hw.writing_fails hg hphase
    | failing => exact hw.failing hg hphase
    | leaving success => exact hw.leaving hg hphase
  · exact hw.free hlocked

end Serving

/-- As long as the unit is not shut down: while the lock is free, there is a
connection or the next `ConnectNamedPipe` can accept a client; whoever calls
`ConnectNamedPipe` can accept one; and there is always a way to the next
handshake. -/
theorem pipe_survives (hrun : RunWhen (ServerStep params interface) ClosesListened pipeInit ls w)
    (hevent : w.shared.event = false) :
    (w.shared.locked = false →
      0 < w.shared.connected ∧ (w.shared.pipe = .connected ∨ w.shared.pipe = .closed) ∨
        w.shared.pipe.connectError ≠ errorNoData) ∧
      (∀ t ∈ w.threads, t.prog.next = some .connectNamedPipe →
        w.shared.pipe.connectError ≠ errorNoData) ∧
      (handshakes ls + 1 < 2147483648 →
        ∃ ls' w', RunWhen (ServerStep params interface) ClosesListened pipeInit (ls ++ ls') w' ∧
          0 < handshakes ls') := by
  have hw := serverRun_inv hrun
  have hinv := hw.recover.inv
  have herror : w.shared.pipe ≠ .closed → w.shared.pipe.connectError ≠ errorNoData := by
    intro hne
    cases hp : w.shared.pipe with
    | closed => exact absurd hp hne
    | _ => decide
  refine ⟨fun hlocked => ?_, fun t ht hnext => herror ?_, fun hbound => ?_⟩
  · by_cases hpos : 0 < w.shared.connected
    · exact .inl ⟨hpos, hinv.up hpos⟩
    · refine .inr (herror fun hclosed => ?_)
      obtain ⟨g, hg, he⟩ := hinv.engaged hevent ⟨Int32.not_lt.mp hpos, .inl hclosed⟩
      exact not_idle_of_engaged (hinv.connect.out_of_free hlocked g hg) he
  · have hphase : t.account.phase = .calling := (hw.recover.safe t ht).next hnext
    have hmem : t.account ∈ w.accounts := List.mem_map_of_mem ht
    exact (hinv.perm (List.perm_cons_erase hmem)).not_closed hevent hphase
  · exact Serving.recovers ⟨hrun, hbound, hevent⟩

/-! ## A client that leaves early -/

/-- It has not called `ConnectNamedPipe` with success. -/
def ConnectAccount.Unheard (g : ConnectAccount) : Prop :=
  g.phase = .idle ∨ g.phase = .calling ∨ g.phase = .leaving false

structure Unnoticed (s : PipeServer) (gs : List ConnectAccount) : Prop where
  down : s.connected ≤ 0
  unheard : ∀ g ∈ gs, g.Unheard

namespace Unnoticed

theorem perm (hperm : gs.Perm gs') (h : Unnoticed s gs) : Unnoticed s gs' :=
  ⟨h.down, fun g hg => h.unheard g (hperm.mem_iff.mpr hg)⟩

/-- An action keeps it, unless `ConnectNamedPipe` accepts a client. -/
theorem exec (h : Unnoticed s (g :: gs)) (hmay : g.May a) (hexec : a.Exec s r s')
    (hfails : ∀ error, ThreadEvent.act a r = .act .connectNamedPipe error →
      error = errorNoData) :
    Unnoticed s' (ConnectAccount.track a r g :: gs) ∧ g.Answers a r := by
  have hconnect := exec_connectEffect hexec
  have hg := h.unheard g List.mem_cons_self
  have hcons : ∀ {g'}, s'.connected = s.connected → ConnectAccount.Unheard g' →
      Unnoticed s' (g' :: gs) := fun hconnected hg' => by
    refine ⟨by rw [hconnected]; exact h.down, fun x hx => ?_⟩
    rcases List.mem_cons.mp hx with rfl | hx
    · exact hg'
    · exact h.unheard x (List.mem_cons_of_mem _ hx)
  cases a with
  | acquireLock =>
      obtain ⟨-, -, hconnected, rfl⟩ := hconnect
      exact ⟨hcons hconnected (.inr (.inl (if_pos h.down))), trivial⟩
  | connectNamedPipe =>
      obtain rfl := hfails r rfl
      exact ⟨hcons hconnect.2 (.inr (.inr rfl)), trivial⟩
  | waitConnect | writeParams | disconnectNamedPipe =>
      have hphase : g.phase = _ := hmay
      rcases hg with hg | hg | hg <;> rw [hphase] at hg <;> cases hg
  | releaseLock =>
      refine ⟨hcons hconnect.2.1 (.inl rfl), fun hleaving => ?_⟩
      rcases hg with hg | hg | hg <;> rw [hleaving] at hg <;> cases hg
  | disconnect connected =>
      obtain ⟨-, -, hsame, hconnected⟩ := hconnect
      rcases Bool.eq_false_or_eq_true r with rfl | rfl
      · have hpos := hmay.2.2
        rw [hsame rfl] at hpos
        exact absurd hpos (Int32.not_lt.mpr h.down)
      · exact ⟨hcons hconnected hg, trivial⟩
  | _ => exact ⟨hcons hconnect.2 hg, trivial⟩

theorem closed (h : Unnoticed s (g :: gs)) (hmay : g.May a) (hexec : a.Exec s r s')
    (hpipe : s.pipe = .closed) : s'.pipe = .closed := by
  have hg := h.unheard g List.mem_cons_self
  have heffect := exec_pipeEffect hexec
  cases a with
  | connectNamedPipe =>
      rcases heffect with ⟨hnew, -⟩ | ⟨hsame, -⟩
      · rw [hnew, hpipe]
        rfl
      · exact hsame.trans hpipe
  | waitConnect | writeParams => exact heffect.1.trans hpipe
  | disconnectNamedPipe =>
      have hphase : g.phase = _ := hmay
      rcases hg with hg | hg | hg <;> rw [hphase] at hg <;> cases hg
  | disconnect connected =>
      obtain ⟨-, -, hsame, -⟩ := exec_connectEffect hexec
      rcases Bool.eq_false_or_eq_true r with rfl | rfl
      · have hpos := hmay.2.2
        rw [hsame rfl] at hpos
        exact absurd hpos (Int32.not_lt.mpr h.down)
      · exact heffect.trans hpipe
  | clientOpen | clientClose | clientSend =>
      have hother := heffect.1
      rw [hpipe] at hother
      cases hother
  | _ => exact heffect.trans hpipe

theorem no_handshake (h : Unnoticed s (g :: gs)) (hmay : g.May a) :
    isHandshake (.act a r) = false := by
  cases a with
  | writeParams =>
      have hphase : g.phase = _ := hmay
      rcases h.unheard g List.mem_cons_self with hg | hg | hg <;> rw [hphase] at hg <;> cases hg
  | _ => rfl

theorem step (hw : Threads.Verified connectRules Unnoticed w)
    (hstep : PipeStep params interface w ev w')
    (hfails : ∀ error, ev = .act .connectNamedPipe error → error = errorNoData) :
    Threads.Verified connectRules Unnoticed w' := by
  refine hw.step (C := fun _ ev => ∀ error, ev = .act .connectNamedPipe error →
    error = errorNoData)
    (fun hperm h => h.perm hperm) (fun h => ⟨h.down, fun g hg => ?_⟩)
    (fun _ h => ⟨h.down, fun g hg => h.unheard g (List.mem_cons_of_mem _ hg)⟩) pipeCaller_out
    (fun _ hfails hmay h hexec => h.exec hmay hexec hfails) hfails hstep
  rcases List.mem_cons.mp hg with rfl | hg
  · exact .inl rfl
  · exact h.unheard g hg

theorem of_run (hrun : Run (ServerStep params interface) pipeInit ls w) (hnot : ¬ Listened ls) :
    Threads.Verified connectRules Unnoticed w := by
  refine hrun.history (I := fun ls w => ¬ Listened ls →
    Threads.Verified connectRules Unnoticed w)
    (fun _ => ⟨⟨by decide, fun _ h => absurd h List.not_mem_nil⟩,
      fun _ h => absurd h List.not_mem_nil⟩)
    (fun {ls w ev w'} _ ih hstep hnot => ?_) hnot
  rw [listened_snoc, not_or] at hnot
  exact step (ih hnot.1) hstep.1 fun error hev => absurd ⟨error, hev⟩ hnot.2

end Unnoticed

/-- A client that has gone before it was noticed. Then no `ConnectNamedPipe`
succeeds any more, and there is no connection, whatever threads and clients do. -/
theorem never_connects (hrun : Run (ServerStep params interface) pipeInit ls w)
    (hnot : ¬ Listened ls) (hpipe : w.shared.pipe = .closed)
    (hrun' : Run (ServerStep params interface) w ls' w') :
    handshakes ls' = 0 ∧ ∀ error, .act .connectNamedPipe error ∈ ls' →
    error = errorNoData := by
  refine (hrun'.history (I := fun ls w => (Threads.Verified connectRules Unnoticed w ∧
      w.shared.pipe = .closed) ∧ handshakes ls = 0 ∧
      ∀ error, .act .connectNamedPipe error ∈ ls → error = errorNoData)
    ⟨⟨Unnoticed.of_run hrun hnot, hpipe⟩, rfl, fun _ h => absurd h List.not_mem_nil⟩
    fun {ls w ev w'} _ ih hstep => ?_).2
  obtain ⟨⟨hw, hpipe⟩, hzero, hall⟩ := ih
  obtain ⟨hstep, hdoc⟩ := hstep
  have hfails : ∀ error, ev = .act .connectNamedPipe error → error = errorNoData := by
    rintro error rfl
    rw [show error = w.shared.pipe.connectError from hdoc, hpipe]
    rfl
  have hkept : w'.shared.pipe = .closed ∧ isHandshake ev = false := by
    cases ev with
    | enter | leave =>
        cases hstep
        exact ⟨hpipe, rfl⟩
    | act a r =>
        obtain ⟨g, gs, hinv, hmay, hexec, -⟩ := hw.acting (fun hp h => h.perm hp) hstep
        exact ⟨hinv.closed hmay hexec hpipe, hinv.no_handshake hmay⟩
  refine ⟨⟨Unnoticed.step hw hstep hfails, hkept.1⟩, ?_, fun error hmem => ?_⟩
  · rw [handshakes_snoc, hzero, hkept.2, if_neg (by decide)]
  · rcases List.mem_append.mp hmem with hmem | hmem
    · exact hall error hmem
    · exact hfails error (List.mem_singleton.mp hmem).symm

/-! ## Two runs -/

def isListen : PipeEvent → Bool
  | .act .connectNamedPipe _ => true
  | _ => false

theorem listened_iff : Listened ls ↔ ls.any isListen = true := by
  rw [List.any_eq_true]
  constructor
  · rintro ⟨error, hmem⟩
    exact ⟨_, hmem, rfl⟩
  · rintro ⟨ev, hmem, hlisten⟩
    cases ev with
    | enter | leave => cases hlisten
    | act a r =>
        cases a with
        | connectNamedPipe => exact ⟨r, hmem⟩
        | _ => cases hlisten

/-- `Documented`, as a check. -/
def documented (s : PipeServer) : PipeEvent → Bool
  | .act .connectNamedPipe error => error = s.pipe.connectError
  | .act .waitConnect error => error = errorSuccess || s.event
  | _ => true

theorem documented_iff (h : documented s ev = true) : Documented s ev := by
  cases ev with
  | enter | leave => trivial
  | act a r =>
      cases a with
      | connectNamedPipe =>
          have herror : r = s.pipe.connectError := of_decide_eq_true h
          exact herror
      | waitConnect =>
          intro hne
          rcases (Bool.or_eq_true _ _).mp h with h | h
          · exact absurd (of_decide_eq_true h) hne
          · exact h
      | _ => trivial

/-- `ClosesListened`, as a check. -/
def closesListened (ls : List PipeEvent) (ev : PipeEvent) : Bool :=
  (match ev with
    | .act .clientClose _ => ls.any isListen
    | _ => true) && handshakes (ls ++ [ev]) < 2147483648

theorem closesListened_iff (h : closesListened ls ev = true) : ClosesListened ls w ev := by
  obtain ⟨hclose, hbound⟩ := (Bool.and_eq_true _ _).mp h
  refine ⟨?_, of_decide_eq_true hbound⟩
  rintro r rfl
  exact listened_iff.mpr hclose

/-- A schedule whose events are checked is a run of the server. -/
theorem serverPlays_run {ms : List (Choice × Threads.Move (PipeCaller params interface))}
    {ok : List PipeEvent → PipeEvent → Bool}
    {C : List PipeEvent → PipeThreads → PipeEvent → Prop}
    (hok : ∀ ls w ev, ok ls ev = true → C ls w ev)
    (h : Threads.plays connectRules (fun c s a => a.exec s c)
      (fun ls w ev => documented w.shared ev && ok ls ev) [] pipeInit ms = some (ls, w)) :
    RunWhen (ServerStep params interface) C pipeInit ls w := by
  refine RunWhen.part
    (Threads.plays_run (fun c _ _ _ _ h => ⟨c, h⟩) (fun ls w ev h => ?_) .nil h)
  exact ((Bool.and_eq_true _ _).mp h).imp documented_iff (hok ls w ev)

def closeMove : Threads.Move (PipeCaller .zero ⟨true, true, true, true⟩) :=
  .enter _ (.entry .clientClose)

/-- A client opens the pipe and is served. It closes the pipe, and a call fails
to read and disconnects it. -/
def servedAndLeft : List (Choice × Threads.Move (PipeCaller .zero ⟨true, true, true, true⟩)) :=
  let ok : Choice := .ends errorSuccess
  [(ok, openMove), (ok, .turn 0), (ok, .turn 0), (ok, callMove),
    -- up to the lock, and the connect section
    (ok, .turn 0), (ok, .turn 0), (ok, .turn 0), (ok, .turn 0), (ok, .turn 0), (ok, .turn 0),
    (ok, .turn 0),
    (ok, closeMove), (ok, .turn 0), (ok, .turn 0),
    (.ends errorNoData, .turn 0), (ok, .turn 0)]

theorem pipe_survives_served :
    ∃ ls w, RunWhen (ServerStep .zero ⟨true, true, true, true⟩) ClosesListened
      pipeInit ls w ∧
      handshakes ls = 1 ∧ w.shared.pipe.connectError ≠ errorNoData ∧
      ∃ ls' w', RunWhen (ServerStep .zero ⟨true, true, true, true⟩) ClosesListened pipeInit
        (ls ++ ls') w' ∧ 0 < handshakes ls' := by
  have hfinal : (Threads.plays connectRules (fun c s a => a.exec s c)
      (fun ls w ev => documented w.shared ev && closesListened ls ev) [] pipeInit servedAndLeft).map
      (fun x => (handshakes x.1, x.2.shared.event, x.2.shared.locked,
        decide (0 < x.2.shared.connected))) = some (1, false, false, false) := by rfl
  obtain ⟨⟨ls, w⟩, hplays, hfinal⟩ := Option.map_eq_some_iff.mp hfinal
  simp only [Prod.mk.injEq, decide_eq_false_iff_not] at hfinal
  obtain ⟨hone, hevent, hlocked, hdown⟩ := hfinal
  have hrun :
      RunWhen (ServerStep .zero ⟨true, true, true, true⟩) ClosesListened pipeInit ls w :=
    serverPlays_run (fun _ _ _ h => closesListened_iff h) hplays
  obtain ⟨haccepts, -, hnext⟩ := pipe_survives hrun hevent
  refine ⟨ls, w, hrun, hone, ?_, hnext (by omega)⟩
  exact (haccepts hlocked).resolve_left fun h => hdown h.1

/-- A client opens the pipe and closes it. -/
def openedAndLeft : List (Choice × Threads.Move (PipeCaller .zero ⟨true, true, true, true⟩)) :=
  let ok : Choice := .ends errorSuccess
  [(ok, openMove), (ok, .turn 0), (ok, .turn 0), (ok, closeMove), (ok, .turn 0),
    (ok, .turn 0)]

/-- No call is made yet, the unit is not shut down, and already there will
never be a connection. -/
theorem pipe_survives_left :
    ∃ ls w, Run (ServerStep .zero ⟨true, true, true, true⟩) pipeInit ls w ∧
      w.shared.event = false ∧ w.shared.locked = false ∧ ¬ 0 < w.shared.connected ∧
      w.shared.pipe.connectError = errorNoData ∧
      ∀ ls' w', Run (ServerStep .zero ⟨true, true, true, true⟩) w ls' w' →
        handshakes ls' = 0 ∧ ∀ error, .act .connectNamedPipe error ∈ ls' →
        error = errorNoData := by
  have hfinal : (Threads.plays connectRules (fun c s a => a.exec s c)
      (fun ls w ev => documented w.shared ev && true) [] pipeInit openedAndLeft).map
      (fun x => (x.1.any isListen, x.2.shared.event, x.2.shared.locked,
        decide (0 < x.2.shared.connected), x.2.shared.pipe)) =
        some (false, false, false, false, .closed) := by rfl
  obtain ⟨⟨ls, w⟩, hplays, hfinal⟩ := Option.map_eq_some_iff.mp hfinal
  simp only [Prod.mk.injEq, decide_eq_false_iff_not] at hfinal
  obtain ⟨hlisten, hevent, hlocked, hdown, hpipe⟩ := hfinal
  have hrun : RunWhen (ServerStep .zero ⟨true, true, true, true⟩) (fun _ _ _ => True)
      pipeInit ls w :=
    serverPlays_run (fun _ _ _ _ => trivial) hplays
  refine ⟨ls, w, hrun.run, hevent, hlocked, hdown, by rw [hpipe]; rfl, fun ls' w' hrun' => ?_⟩
  refine never_connects hrun.run (fun hl => ?_) hpipe hrun'
  rw [listened_iff, hlisten] at hl
  cases hl

end Winspd.Proofs
