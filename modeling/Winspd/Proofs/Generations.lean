import Winspd.Proofs.Connect

/-!
# Connection generations

`Connected` of a pipe unit is the number of the handshakes that succeeded, with
a minus in front when the server has torn down the last connection. A thread
keeps a copy from the connect section it went through. Only while its copy is
the value of `Connected` does it disconnect, and then `Connected` changes its
sign, so that no other thread disconnects that generation.

All threads that make transact calls are meant here, whatever they respond.
System calls can end in any way.
-/

namespace Winspd.Proofs

open Winspd.Lib Winspd.Sys Winspd.Shared

abbrev PipeThreads := Threads PipeAction PipeAction.Answer PipeServer ConnectAccount

abbrev PipeStep (params : StorageUnitParams) (interface : Interface) :
    PipeThreads → PipeEvent → PipeThreads → Prop :=
  Threads.Step connectRules PipeAction.Exec (PipeCaller params interface)

def pipeInit : PipeThreads := ⟨.init, []⟩

def handshakes (ls : List PipeEvent) : Nat := ls.countP isHandshake

/-- A handshake, or that the server tears the connection down. -/
def connectionEvent : PipeEvent → Option Bool
  | .act .writeParams error => if error = errorSuccess then some true else none
  | .act .disconnectNamedPipe _ => some false
  | .act (.disconnect _) done => if done = true then some false else none
  | _ => none

/-- The last connection has completed its handshake and has not been torn down. -/
abbrev Established (ls : List PipeEvent) : Prop := LastIs connectionEvent ls true

def isTeardown (c : Int32) : PipeEvent → Bool
  | .act (.disconnect connected) done => done = true ∧ connected = c
  | _ => false

/-- How often the disconnect section disconnected generation `c`. -/
def teardowns (c : Int32) (ls : List PipeEvent) : Nat := ls.countP (isTeardown c)

variable {params : StorageUnitParams} {interface : Interface} {ls : List PipeEvent}
  {w w' : PipeThreads} {ev : PipeEvent} {c : Int32}

/-! ## The counter -/

theorem toInt_neg_pos (h : 0 < c) : (-c).toInt = -c.toInt := by
  have hlt := Int32.lt_iff_toInt_lt.mp h
  have hle := Int32.toInt_lt c
  rw [Int32.toInt_neg, Int.bmod_eq_of_le] <;> simp at * <;> omega

theorem toInt_reconnect (hle : c ≤ 0) (hc : -2147483647 < c.toInt) :
    (-c + 1).toInt = -c.toInt + 1 := by
  have hle := Int32.le_iff_toInt_le.mp hle
  have hneg : (-c).toInt = -c.toInt := by
    rw [Int32.toInt_neg, Int.bmod_eq_of_le] <;> simp at * <;> omega
  rw [Int32.toInt_add, hneg, Int.bmod_eq_of_le] <;> simp at * <;> omega

theorem pos_iff_toInt : 0 < c ↔ 0 < c.toInt := Int32.lt_iff_toInt_lt

theorem handshakes_append {ls' : List PipeEvent} :
    handshakes (ls ++ ls') = handshakes ls + handshakes ls' := List.countP_append

theorem handshakes_snoc : handshakes (ls ++ [ev]) = handshakes ls + if isHandshake ev then
    1 else 0 := by
  rw [handshakes_append]
  congr 1
  exact List.countP_singleton

theorem teardowns_snoc :
    teardowns c (ls ++ [ev]) = teardowns c ls + if isTeardown c ev then 1 else 0 := by
  rw [teardowns, List.countP_append]
  congr 1
  exact List.countP_singleton

/-! ## Runs -/

/-- What holds of a history and the state it leads to. -/
structure GenerationInv (ls : List PipeEvent) (w : PipeThreads) : Prop where
  verified : Threads.Verified connectRules ConnectInv w
  counted : w.shared.connected.toInt.natAbs = handshakes ls
  established : 0 < w.shared.connected ↔ Established ls
  once : ∀ c, teardowns c ls ≤ 1
  /-- A generation that was disconnected is past. -/
  past : ∀ c, 0 < teardowns c ls →
    c.toInt < (handshakes ls : Int) ∨
      c.toInt = (handshakes ls : Int) ∧ w.shared.connected ≤ 0
  own : ∀ pre post c, ls = pre ++ .act (.disconnect c) true :: post →
    c.toInt = (handshakes pre : Int) ∧ Established pre

theorem generationInv_init : GenerationInv [] pipeInit where
  verified := ⟨.init, fun _ h => absurd h List.not_mem_nil⟩
  counted := rfl
  established := by
    refine iff_of_false (by decide) ?_
    rintro ⟨pre, l, post, h, -⟩
    simp at h
  once _ := Nat.zero_le 1
  past _ h := absurd h (Nat.lt_irrefl 0)
  own pre post c h := by simp at h

theorem GenerationInv.quiet (h : GenerationInv ls w)
    (hverified : Threads.Verified connectRules ConnectInv w')
    (hconnected : w'.shared.connected = w.shared.connected) (hhandshake : isHandshake ev = false)
    (hevent : connectionEvent ev = none ∨ w.shared.connected ≤ 0 ∧
      connectionEvent ev = some false)
    (hteardown : ∀ c, isTeardown c ev = false) : GenerationInv (ls ++ [ev]) w' where
  verified := hverified
  counted := by
    rw [hconnected, h.counted, handshakes_snoc, hhandshake, if_neg (by decide), Nat.add_zero]
  established := by
    rw [hconnected]
    rcases hevent with hnone | ⟨hle, hfalse⟩
    · rw [h.established]
      refine ⟨fun hlast => hlast.keep hnone, fun hlast => ?_⟩
      rw [Established, lastIs_iff, List.filterMap_append, List.filterMap_cons, hnone,
        List.filterMap_nil, List.append_nil] at hlast
      exact lastIs_iff.mpr hlast
    · refine iff_of_false (fun hpos => ?_) fun hlast => ?_
      · exact Int32.not_lt.mpr hle hpos
      · exact absurd (hlast.unique (.last hfalse)) (by decide)
  once c := by
    rw [teardowns_snoc, hteardown, if_neg (by decide)]
    exact h.once c
  past c hc := by
    rw [teardowns_snoc, hteardown, if_neg (by decide)] at hc
    rw [hconnected, handshakes_snoc, hhandshake, if_neg (by decide)]
    exact h.past c hc
  own pre post c heq := by
    rcases snoc_eq_middle heq with ⟨-, rfl⟩ | ⟨post, heq⟩
    · have hno := hteardown c
      simp [isTeardown] at hno
    · exact h.own pre post c heq

theorem GenerationInv.handshake (h : GenerationInv ls w)
    (hverified : Threads.Verified connectRules ConnectInv w') (hle : w.shared.connected ≤ 0)
    (hconnected : w'.shared.connected = -w.shared.connected + 1)
    (hev : ev = .act .writeParams errorSuccess) (hbound : handshakes (ls ++ [ev]) < 2147483648) :
    GenerationInv (ls ++ [ev]) w' := by
  have hsnoc : handshakes (ls ++ [ev]) = handshakes ls + 1 := by
    rw [handshakes_snoc, hev]
    rfl
  have hcounted := h.counted
  have hle' := Int32.le_iff_toInt_le.mp hle
  rw [show (0 : Int32).toInt = 0 from rfl] at hle'
  have hnew : w'.shared.connected.toInt = -w.shared.connected.toInt + 1 := by
    rw [hconnected]
    exact toInt_reconnect hle (by omega)
  have hteardown : ∀ c, isTeardown c ev = false := fun c => by rw [hev]; rfl
  refine ⟨hverified, by omega, iff_of_true ?_ (.last (by rw [hev]; rfl)), fun c => ?_,
    fun c hc => ?_, fun pre post c heq => ?_⟩
  · rw [pos_iff_toInt]
    omega
  · rw [teardowns_snoc, hteardown, if_neg (by decide)]
    exact h.once c
  · rw [teardowns_snoc, hteardown, if_neg (by decide)] at hc
    have hpast := h.past c hc
    omega
  · rcases snoc_eq_middle heq with ⟨-, hlast⟩ | ⟨post, heq⟩
    · rw [hev] at hlast
      cases hlast
    · exact h.own pre post c heq

theorem GenerationInv.teardown (h : GenerationInv ls w)
    (hverified : Threads.Verified connectRules ConnectInv w') (hpos : 0 < c)
    (hc : c = w.shared.connected) (hconnected : w'.shared.connected = -w.shared.connected)
    (hev : ev = .act (.disconnect c) true) : GenerationInv (ls ++ [ev]) w' := by
  have hsnoc : handshakes (ls ++ [ev]) = handshakes ls := by
    rw [handshakes_snoc, hev]
    rfl
  have hcounted := h.counted
  subst hc
  have hpos' := pos_iff_toInt.mp hpos
  have hnew : w'.shared.connected.toInt = -w.shared.connected.toInt := by
    rw [hconnected]
    exact toInt_neg_pos hpos
  have hnot : ¬ 0 < w'.shared.connected := fun h => by
    rw [pos_iff_toInt] at h
    omega
  -- this generation has not been disconnected before
  have hnever : teardowns w.shared.connected ls = 0 := by
    refine Nat.eq_zero_of_not_pos fun hbefore => ?_
    rcases h.past _ hbefore with hlt | ⟨-, hle⟩
    · omega
    · exact Int32.not_lt.mpr hle hpos
  have hteardown : ∀ c', isTeardown c' ev = true ↔ w.shared.connected = c' := by
    intro c'
    rw [hev, isTeardown]
    simp
  have hlastNot : ¬ Established (ls ++ [ev]) := fun hlast =>
    absurd (hlast.unique (.last (by rw [hev]; rfl : connectionEvent ev = some false))) (by decide)
  refine ⟨hverified, by omega, iff_of_false hnot hlastNot, fun c' => ?_, fun c' hc' => ?_,
    fun pre post c' heq => ?_⟩
  · rw [teardowns_snoc]
    split
    · next ht =>
        have hone : teardowns c' ls = 0 := by rw [← (hteardown c').mp ht, hnever]
        omega
    · exact h.once c'
  · rw [hsnoc]
    rw [teardowns_snoc] at hc'
    split at hc'
    · next ht =>
        rw [← (hteardown c').mp ht]
        exact .inr ⟨by omega, Int32.not_lt.mp hnot⟩
    · rcases h.past c' hc' with hlt | ⟨heq, hle⟩
      · exact .inl hlt
      · exact absurd hpos (Int32.not_lt.mpr hle)
  · rcases snoc_eq_middle heq with ⟨rfl, hlast⟩ | ⟨post, heq⟩
    · rw [hev] at hlast
      cases hlast
      exact ⟨by omega, h.established.mp hpos⟩
    · exact h.own pre post c' heq

theorem GenerationInv.no_overflow (h : GenerationInv ls w)
    (hbound : handshakes (ls ++ [ev]) < 2147483648) (hhandshake : isHandshake ev = true)
    (hle : w.shared.connected ≤ 0) : 0 < -w.shared.connected + 1 := by
  have hcounted := h.counted
  have hle' := Int32.le_iff_toInt_le.mp hle
  rw [show (0 : Int32).toInt = 0 from rfl] at hle'
  rw [handshakes_snoc, if_pos hhandshake] at hbound
  rw [pos_iff_toInt, toInt_reconnect hle (by omega)]
  omega

/-- A step that does not overflow the counter keeps what is verified. -/
theorem pipeStep_verified (hw : Threads.Verified connectRules ConnectInv w)
    (hup : isHandshake ev = true → w.shared.connected ≤ 0 → 0 < -w.shared.connected + 1)
    (hstep : PipeStep params interface w ev w') :
    Threads.Verified connectRules ConnectInv w' := by
  refine hw.step (C := fun w ev => isHandshake ev = true → w.shared.connected ≤ 0 →
      0 < -w.shared.connected + 1)
    (fun hperm h => h.perm hperm) (fun h => ?_) (fun hg h => ?_) pipeCaller_out
    (fun _ hC hmay hinv hexec => ?_) hup hstep
  · exact (ConnectInv.cons_idle rfl).mpr h
  · exact (ConnectInv.cons_idle hg).mp h
  · exact hinv.exec hmay hexec hC

theorem GenerationInv.step (h : GenerationInv ls w) (hstep : PipeStep params interface w ev w')
    (hbound : handshakes (ls ++ [ev]) < 2147483648) : GenerationInv (ls ++ [ev]) w' := by
  have hup : isHandshake ev = true → w.shared.connected ≤ 0 → 0 < -w.shared.connected + 1 :=
    h.no_overflow hbound
  have hverified := pipeStep_verified h.verified hup hstep
  cases ev with
  | enter | leave =>
      have hshared : w'.shared = w.shared := by
        cases hstep
        rfl
      exact h.quiet hverified (congrArg _ hshared) rfl (.inl rfl) fun _ => rfl
  | act a r =>
      obtain ⟨g, gs, hinv, hmay, hexec, -⟩ := h.verified.acting (fun hp h => h.perm hp) hstep
      have heffect := exec_connectEffect hexec
      cases a with
      | writeParams =>
          have hphase : g.phase = .writing := hmay
          have hle := hinv.down g List.mem_cons_self (.inr (.inr (.inl hphase)))
          obtain ⟨-, hconnected⟩ := heffect
          by_cases he : r = errorSuccess
          · rw [if_pos he] at hconnected
            exact h.handshake hverified hle hconnected (by rw [he]) hbound
          · rw [if_neg he] at hconnected
            exact h.quiet hverified hconnected (decide_eq_false he) (.inl (if_neg he)) fun _ => rfl
      | disconnectNamedPipe =>
          have hphase : g.phase = .failing := hmay
          have hle := hinv.down g List.mem_cons_self (.inr (.inr (.inr hphase)))
          exact h.quiet hverified heffect.2 rfl (.inr ⟨hle, rfl⟩) fun _ => rfl
      | disconnect connected =>
          obtain ⟨-, -, hpos⟩ := hmay
          obtain ⟨-, -, hsame, hconnected⟩ := heffect
          rcases Bool.eq_false_or_eq_true r with rfl | rfl
          · exact h.teardown hverified hpos (hsame rfl) hconnected rfl
          · exact h.quiet hverified hconnected rfl (.inl rfl) fun _ => rfl
      | acquireLock =>
          exact h.quiet hverified heffect.2.2.1 rfl (.inl rfl) fun _ => rfl
      | releaseLock =>
          exact h.quiet hverified heffect.2.1 rfl (.inl rfl) fun _ => rfl
      | _ => exact h.quiet hverified heffect.2 rfl (.inl rfl) fun _ => rfl

theorem pipeRun_generationInv (hrun : Run (PipeStep params interface) pipeInit ls w)
    (hbound : handshakes ls < 2147483648) : GenerationInv ls w := by
  refine hrun.history (I := fun ls w => handshakes ls < 2147483648 → GenerationInv ls w)
    (fun _ => generationInv_init) (fun {ls w ev w'} _ ih hstep hbound => ?_) hbound
  have hbefore : handshakes ls < 2147483648 := by
    rw [handshakes_append] at hbound
    omega
  exact (ih hbefore).step hstep hbound

/-- `|Connected|` counts the handshakes and only grows; `Connected` is positive
while the last connection is established; no generation is disconnected twice;
and a thread disconnects the generation of its own copy, while it is the
current one. -/
theorem connection_generations (hrun : Run (PipeStep params interface) pipeInit ls w)
    (hbound : handshakes ls < 2147483648) :
    w.shared.connected.toInt.natAbs = handshakes ls ∧
      (∀ pre post w₀, ls = pre ++ post → Run (PipeStep params interface) pipeInit pre w₀ →
        w₀.shared.connected.toInt.natAbs ≤ w.shared.connected.toInt.natAbs) ∧
      (0 < w.shared.connected ↔ Established ls) ∧
      (∀ c, teardowns c ls ≤ 1) ∧
      (∀ pre post c, ls = pre ++ .act (.disconnect c) true :: post →
        c.toInt = (handshakes pre : Int) ∧ Established pre) ∧
      ∀ t ∈ w.threads, ∀ c, t.prog.next = some (.disconnect c) → c = t.account.copy := by
  have h := pipeRun_generationInv hrun hbound
  refine ⟨h.counted, fun pre post w₀ heq hrun₀ => ?_, h.established, h.once, h.own,
    fun t ht c hnext => ?_⟩
  · subst heq
    rw [handshakes_append] at hbound
    rw [h.counted, (pipeRun_generationInv hrun₀ (by omega)).counted, handshakes_append]
    omega
  · exact ((h.verified.safe t ht).next hnext).2.1

/-! ## A run -/

theorem pipePlays_run {ms : List (Choice × Threads.Move (PipeCaller params interface))}
    (h : Threads.plays connectRules (fun c s a => a.exec s c) (fun _ _ _ => true) [] pipeInit ms =
      some (ls, w)) : Run (PipeStep params interface) pipeInit ls w :=
  RunWhen.run (C := fun _ _ _ => True)
    (Threads.plays_run (fun c _ _ _ _ h => ⟨c, h⟩) (fun _ _ _ _ => trivial) .nil h)

def openMove : Threads.Move (PipeCaller .zero ⟨true, true, true, true⟩) :=
  .enter _ (.entry .clientOpen)

def callMove : Threads.Move (PipeCaller .zero ⟨true, true, true, true⟩) :=
  .enter _ (.call none true (some []))

/-- A client opens the pipe. A call completes the handshake, fails to read and
disconnects it. -/
def connectAndFail :
    List (Choice × Threads.Move (PipeCaller .zero ⟨true, true, true, true⟩)) :=
  let ok : Choice := .ends errorSuccess
  [(ok, openMove), (ok, .turn 0), (ok, .turn 0), (ok, callMove),
    -- up to the lock
    (ok, .turn 0), (ok, .turn 0), (ok, .turn 0), (ok, .turn 0),
    -- the connect section
    (ok, .turn 0), (ok, .turn 0), (ok, .turn 0),
    (.ends errorNoData, .turn 0), (ok, .turn 0)]

theorem connection_generations_connectAndFail :
    ∃ ls w, Run (PipeStep .zero ⟨true, true, true, true⟩) pipeInit ls w ∧
      handshakes ls = 1 ∧
      teardowns 1 ls = 1 ∧ w.shared.connected.toInt.natAbs = handshakes ls := by
  have hfinal : (Threads.plays connectRules (fun c s a => a.exec s c) (fun _ _ _ => true)
      [] pipeInit connectAndFail).map
      (fun x => (handshakes x.1, teardowns 1 x.1)) = some (1, 1) := by rfl
  obtain ⟨⟨ls, w⟩, hplays, hfinal⟩ := Option.map_eq_some_iff.mp hfinal
  rw [Prod.mk.injEq] at hfinal
  obtain ⟨hone, hdown⟩ := hfinal
  have hrun := pipePlays_run hplays
  have hbound : handshakes ls < 2147483648 := by
    rw [show handshakes ls = 1 from hone]
    decide
  exact ⟨ls, w, hrun, hone, hdown, (connection_generations hrun hbound).1⟩

end Winspd.Proofs
