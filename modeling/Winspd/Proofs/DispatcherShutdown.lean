import Winspd.Proofs.DispatcherSteps

/-!
# Shutdown of the dispatcher

Runs from a call of `SpdStorageUnitStartDispatcher` on, with any number of
threads of user code. `DispatcherShutdown` is what follows from the chain: how
many threads there are, who waits for whom, when the final flush comes, and
which error is kept.

The chain gives the order in which threads end: nobody has ended before all threads
behind it have. So when the first thread goes on from its wait it is the last one
that is left, and its final flush comes after every other call of an operation. What
user code sees is the first thread only, and waiting for it is waiting for all.

The error is written with one compare and exchange. What is kept is the error of
the first who failed in the order of the history, and not in that of the chain.
-/

namespace Winspd.Proofs

open Winspd.Lib Winspd.Sys Winspd.Shared

abbrev DispatcherWorld :=
  Threads DispatcherAction DispatcherAction.Answer DispatcherUnit ChainAccount

abbrev DispatcherStep (cacheSupported : Bool) (interface : Interface) (n : UInt32) :
    DispatcherWorld → DispatcherEvent → DispatcherWorld → Prop :=
  Threads.Step (chainRules cacheSupported interface n) DispatcherAction.Exec
    (DispatcherEntry cacheSupported interface)

/-- A thread starts the dispatcher with `n` threads. -/
def dispatcherStart (n : UInt32) : DispatcherWorld :=
  ⟨.init, [⟨do let _ ← spdStorageUnitStartDispatcher n, .starting⟩]⟩

variable {cacheSupported : Bool} {interface : Interface} {n : UInt32}
  {ls : List DispatcherEvent} {ev : DispatcherEvent} {s s' : DispatcherUnit}
  {gs gs' : List ChainAccount} {L : Nat → ThreadLife} {w w' : DispatcherWorld} {t : Nat}

/-! ## The error and the threads -/

def errorMark : DispatcherEvent → Option UInt32
  | .act (.exchangeError error) _ => some error
  | _ => none

def recorded (ls : List DispatcherEvent) : List UInt32 := ls.filterMap errorMark

def created (ls : List DispatcherEvent) : List Nat := ls.filterMap creationMark

/-- What the history says without looking at the threads. -/
structure DispatcherLog (cacheSupported : Bool) (interface : Interface)
    (ls : List DispatcherEvent) (s : DispatcherUnit) : Prop where
  error : s.error = (recorded ls).headD 0
  recorded : ∀ error ∈ recorded ls, error ≠ 0
  created : created ls = List.range s.next
  flushes : ∀ t, 0 < tally threadMark ls (.flushed, t) →
    cacheSupported = true ∧ interface.flush = true

namespace DispatcherLog

theorem init : DispatcherLog cacheSupported interface [] .init :=
  ⟨rfl, fun _ h => absurd h List.not_mem_nil, rfl, fun _ h => absurd h (Nat.lt_irrefl 0)⟩

theorem quiet (h : DispatcherLog cacheSupported interface ls s) (herror : s'.error = s.error)
    (hnext : s'.next = s.next) (herr : errorMark ev = none) (hcreation : creationMark ev = none)
    (hflush : ∀ t, threadMark ev = some (.flushed, t) →
      cacheSupported = true ∧ interface.flush = true) :
    DispatcherLog cacheSupported interface (ls ++ [ev]) s' where
  error := by
    rw [Proofs.recorded, List.filterMap_append, List.filterMap_cons, herr, List.filterMap_nil,
      List.append_nil, herror]
    exact h.error
  recorded := by
    rw [Proofs.recorded, List.filterMap_append, List.filterMap_cons, herr, List.filterMap_nil,
      List.append_nil]
    exact h.recorded
  created := by
    rw [Proofs.created, List.filterMap_append, List.filterMap_cons, hcreation, List.filterMap_nil,
      List.append_nil, hnext]
    exact h.created
  flushes t ht := by
    rw [tally_snoc] at ht
    by_cases hev : threadMark ev = some (.flushed, t)
    · exact hflush t hev
    · rw [if_neg hev, Nat.add_zero] at ht
      exact h.flushes t ht

theorem exchangeError {error : UInt32} (h : DispatcherLog cacheSupported interface ls s)
    (hne : error ≠ 0) :
    DispatcherLog cacheSupported interface (ls ++ [.act (.exchangeError error) ()])
      { s with error := if s.error = 0 then error else s.error } := by
  have hrecorded : Proofs.recorded (ls ++ [.act (.exchangeError error) ()]) =
      Proofs.recorded ls ++ [error] := by
    rw [Proofs.recorded, List.filterMap_append]
    rfl
  have hcreated : Proofs.created (ls ++ [.act (.exchangeError error) ()]) = Proofs.created ls := by
    rw [Proofs.created, List.filterMap_append]
    exact List.append_nil _
  refine ⟨?_, ?_, hcreated.trans h.created, fun t ht => ?_⟩
  · rw [hrecorded, h.error]
    have hall := h.recorded
    cases hlog : Proofs.recorded ls with
    | nil => rfl
    | cons e es =>
        rw [hlog] at hall
        have he : (e :: es).headD 0 ≠ 0 := hall e List.mem_cons_self
        exact if_neg he
  · rw [hrecorded]
    intro e he
    rcases List.mem_append.mp he with he | he
    · exact h.recorded e he
    · rw [List.mem_singleton.mp he]
      exact hne
  · rw [tally_snoc, if_neg nofun, Nat.add_zero] at ht
    exact h.flushes t ht

theorem newThread (h : DispatcherLog cacheSupported interface ls s) (herror : s'.error = s.error)
    (hnext : s'.next = s.next + 1) (herr : errorMark ev = none)
    (hcreation : creationMark ev = some s.next) (hmark : threadMark ev = none) :
    DispatcherLog cacheSupported interface (ls ++ [ev]) s' := by
  have hrecorded : Proofs.recorded (ls ++ [ev]) = Proofs.recorded ls := by
    rw [Proofs.recorded, List.filterMap_append, List.filterMap_cons, herr, List.filterMap_nil,
      List.append_nil]
    rfl
  refine ⟨?_, ?_, ?_, fun t ht => ?_⟩
  · rw [hrecorded, herror]
    exact h.error
  · rw [hrecorded]
    exact h.recorded
  · rw [Proofs.created, List.filterMap_append, List.filterMap_cons, hcreation, List.filterMap_nil,
      hnext, List.range_succ, ← h.created]
    rfl
  · rw [tally_snoc, hmark, if_neg nofun, Nat.add_zero] at ht
    exact h.flushes t ht

theorem exec {g : ChainAccount} {a : DispatcherAction} {r : a.Answer}
    (h : DispatcherLog cacheSupported interface ls s) (hmay : g.May cacheSupported interface n a)
    (hexec : a.Exec s r s') : DispatcherLog cacheSupported interface (ls ++ [.act a r]) s' := by
  have heffect := exec_dispatcherEffect hexec
  cases a with
  | wait => exact absurd heffect id
  | exchangeError error =>
      obtain rfl := heffect
      exact h.exchangeError hmay.1
  | createFirstThread | createThread =>
      cases r with
      | ok thread =>
          obtain ⟨rfl, rfl⟩ := heffect
          exact h.newThread rfl rfl rfl rfl rfl
      | error error =>
          obtain rfl := heffect
          exact h.quiet rfl rfl rfl rfl nofun
  | finalFlush self =>
      obtain ⟨-, hflushes⟩ : g = .thread self .first ∧ _ := hmay
      obtain rfl := heffect
      exact h.quiet rfl rfl rfl rfl fun _ _ => hflushes
  | readThreadCount | readThreadId | waitThread =>
      obtain ⟨rfl, -⟩ := heffect
      exact h.quiet rfl rfl rfl rfl nofun
  | resumeThread thread =>
      obtain rfl | ⟨-, rfl⟩ : s' = s ∨ _ := heffect
      · exact h.quiet rfl rfl rfl rfl nofun
      · exact h.quiet rfl rfl rfl rfl nofun
  | begin =>
      obtain ⟨-, rfl⟩ := heffect
      exact h.quiet rfl rfl rfl rfl nofun
  | bufferAlloc self =>
      cases r with
      | none =>
          obtain rfl := heffect
          exact h.quiet rfl rfl rfl rfl nofun
      | some dataBuffer =>
          obtain ⟨-, rfl⟩ := heffect
          exact h.quiet rfl rfl rfl rfl nofun
  | transact self response dataBuffer =>
      obtain ⟨q, -, -, rfl⟩ | ⟨-, rfl⟩ : (∃ q, _ ∧ _ ∧ s' = _) ∨ _ := heffect
      · exact h.quiet rfl rfl rfl rfl nofun
      · exact h.quiet rfl rfl rfl rfl nofun
  | takePending =>
      obtain ⟨index, -, rfl⟩ := heffect
      exact h.quiet rfl rfl rfl rfl nofun
  | shutdown self =>
      obtain rfl := heffect
      cases self <;> exact h.quiet rfl rfl rfl rfl nofun
  | _ =>
      obtain rfl := heffect
      exact h.quiet rfl rfl rfl rfl nofun

end DispatcherLog

/-! ## Runs -/

structure DispatcherInv (cacheSupported : Bool) (interface : Interface) (n : UInt32)
    (ls : List DispatcherEvent) (s : DispatcherUnit) (gs : List ChainAccount) : Prop where
  chain : ∃ L, ChainInv n ls s gs L
  log : DispatcherLog cacheSupported interface ls s

namespace DispatcherInv

theorem init : DispatcherInv cacheSupported interface n [] .init [.starting] where
  chain := ⟨fun _ => .unborn, {
    facts := {
      unborn := fun t => iff_of_true rfl (Nat.zero_le t)
      status := fun _ => rfl
      threadId := fun h => absurd h (Nat.lt_irrefl 0)
      earlier := fun t ht => absurd ht (Nat.not_lt_zero _)
      last := nofun
      waits := fun _ t' _ ht' => absurd ht' (Nat.not_lt_zero t')
      flush := nofun }
    names := List.nodup_cons.mpr ⟨List.not_mem_nil, .nil⟩
    agrees := List.forall_mem_singleton.mpr rfl
    present := nofun
    marks := fun _ m => by cases m <;> rfl
    points := fun _ _ h => absurd h (Nat.lt_irrefl 0) }⟩
  log := .init

theorem perm (hperm : gs.Perm gs') (h : DispatcherInv cacheSupported interface n ls s gs) :
    DispatcherInv cacheSupported interface n ls s gs' where
  chain := by
    obtain ⟨L, hL⟩ := h.chain
    exact ⟨L, hL.perm hperm⟩
  log := h.log

theorem enter (h : DispatcherInv cacheSupported interface n ls s gs) :
    DispatcherInv cacheSupported interface n (ls ++ [.enter]) s (.user :: gs) where
  chain := by
    obtain ⟨L, hL⟩ := h.chain
    have hcons : ChainInv n ls s (.user :: gs) L := {
      hL with
      names := hL.names
      agrees := List.forall_mem_cons.mpr ⟨trivial, hL.agrees⟩
      present := fun t stage hl => List.mem_cons_of_mem _ (hL.present t stage hl) }
    exact ⟨L, hcons.quiet rfl rfl rfl rfl rfl nofun⟩
  log := h.log.quiet rfl rfl rfl rfl nofun

theorem leave {g : ChainAccount} (hg : g.Outside)
    (h : DispatcherInv cacheSupported interface n ls s (g :: gs)) :
    DispatcherInv cacheSupported interface n (ls ++ [.leave]) s gs where
  chain := by
    obtain ⟨L, hL⟩ := h.chain
    have hquiet : ChainInv n (ls ++ [.leave]) s (g :: gs) L :=
      hL.quiet rfl rfl rfl rfl rfl nofun
    refine ⟨L, { hquiet with
      names := hquiet.names.sublist ((List.sublist_cons_self g gs).filterMap _)
      agrees := fun k hk => hquiet.agrees k (List.mem_cons_of_mem _ hk)
      present := fun t stage hl => ?_ }⟩
    rcases List.mem_cons.mp (hquiet.present t stage hl) with hk | hk
    · subst hk
      exact absurd hg id
    · exact hk
  log := h.log.quiet rfl rfl rfl rfl nofun

end DispatcherInv

theorem dispatcherStep_verified (hn : n ≠ 0)
    (h : Threads.Verified (chainRules cacheSupported interface n)
      (DispatcherInv cacheSupported interface n ls) w)
    (hstep : DispatcherStep cacheSupported interface n w ev w') :
    Threads.Verified (chainRules cacheSupported interface n)
      (DispatcherInv cacheSupported interface n (ls ++ [ev])) w' := by
  refine Threads.Verified.step_to (C := fun _ _ => True) (fun hp h => h.perm hp)
    (fun hp h => h.perm hp) (fun hev h => ?_) (fun hev hg h => ?_) dispatcherEntry_safe
    (fun hev _ _ hmay h hexec => ?_) h trivial hstep
  · subst hev
    exact h.enter
  · subst hev
    exact h.leave hg
  · subst hev
    obtain ⟨L, hL⟩ := h.chain
    obtain ⟨hans, hchain⟩ := hL.exec hn hmay hexec
    exact ⟨⟨hchain, h.log.exec hmay hexec⟩, hans⟩

theorem dispatcherRun_verified (hn : n ≠ 0)
    (hrun : Run (DispatcherStep cacheSupported interface n) (dispatcherStart n) ls w) :
    Threads.Verified (chainRules cacheSupported interface n)
      (DispatcherInv cacheSupported interface n ls) w := by
  refine hrun.history (I := fun ls w => Threads.Verified (chainRules cacheSupported interface n)
      (DispatcherInv cacheSupported interface n ls) w) ⟨.init, fun t ht => ?_⟩
    fun _ ih hstep => dispatcherStep_verified hn ih hstep
  rw [List.mem_singleton.mp ht]
  exact (spdStorageUnitStartDispatcher_safe hn).bind fun _ _ hg => hg

/-! ## After the final flush -/

/-- Who is left then is the first thread, on its way out. -/
theorem ChainInv.flushed_alone (h : ChainInv n ls s gs L)
    (hflushed : 0 < tally threadMark ls (.flushed, t)) :
    t = 0 ∧ (L 0).Over ∧ 0 < s.next ∧ ∀ t' stage, L t' = .alive stage →
    stage = .flushed := by
  rw [h.marks] at hflushed
  have hflushing : (L t).Flushing ∧ (L t).Over ∧ L t ≠ .unborn ∧
      ∀ stage, L t = .alive stage → stage = .flushed := by
    revert hflushed
    cases L t with
    | alive stage => cases stage <;> simp [ThreadLife.marked, ThreadLife.Flushing, ThreadLife.Over]
    | ended flushed =>
        cases flushed <;> simp [ThreadLife.marked, ThreadLife.Flushing, ThreadLife.Over]
    | _ => simp [ThreadLife.marked]
  obtain ⟨hflushing, hover, hborn, hstage⟩ := hflushing
  obtain rfl := h.facts.flush t hflushing
  refine ⟨rfl, hover, h.facts.born hborn, fun t' stage hl => ?_⟩
  rcases Nat.eq_zero_or_pos t' with rfl | hpos
  · exact hstage stage hl
  · have halive : L t' ≠ .unborn := by
      intro hborn
      cases hl.symm.trans hborn
    have hended := h.facts.waits 0 t' hpos (h.facts.born halive) hover
    rw [hl] at hended
    exact absurd hended id

/-- A call of an operation for a request. -/
def isOperation : DispatcherEvent → Bool
  | .act (.operation ..) _ => true
  | _ => false

/-- No request is served and no thread created after the final flush. -/
theorem final_flush (hn : n ≠ 0)
    (hrun : Run (DispatcherStep cacheSupported interface n) (dispatcherStart n) ls w) :
    ∀ pre post t r, ls = pre ++ .act (.finalFlush t) r :: post →
      ∀ ev ∈ post, isOperation ev = false ∧ creationMark ev = none := by
  refine hrun.history
    (I := fun ls _ => ∀ pre post t r, ls = pre ++ .act (.finalFlush t) r :: post →
    ∀ ev ∈ post, isOperation ev = false ∧ creationMark ev = none) ?_ ?_
  · intro pre post t r heq
    cases pre <;> cases heq
  · intro ls w ev w' hrun ih hstep pre post t r heq ev' hev'
    rcases List.eq_nil_or_concat post with rfl | ⟨post', last, rfl⟩
    · exact absurd hev' List.not_mem_nil
    rw [List.concat_eq_append, ← List.cons_append, ← List.append_assoc] at heq
    obtain ⟨rfl, hlast⟩ := List.append_inj' heq rfl
    obtain rfl : ev = last := List.head_eq_of_cons_eq hlast
    rw [List.concat_eq_append] at hev'
    rcases List.mem_append.mp hev' with hev' | hev'
    · exact ih pre post' t r rfl ev' hev'
    · obtain rfl := List.mem_singleton.mp hev'
      have hflushed :
          0 < tally threadMark (pre ++ .act (.finalFlush t) r :: post') (.flushed, t) := by
        rw [tally_append, ← List.singleton_append, tally_append]
        have hone : tally threadMark [.act (.finalFlush t) r] (.flushed, t) = 1 := by
          simp [tally, threadMark]
        omega
      cases ev' with
      | enter | leave => exact ⟨rfl, rfl⟩
      | act a r =>
          obtain ⟨g, gs, hinv, hmay, hexec, -⟩ := (dispatcherRun_verified hn hrun).acting
            (fun hp h => h.perm hp) hstep
          obtain ⟨L, hL⟩ := hinv.chain
          obtain ⟨-, -, hpos, hstage⟩ := hL.flushed_alone hflushed
          cases a with
          | operation self =>
              obtain ⟨child, rfl⟩ : ∃ child, g = .thread self (.running child) := hmay
              cases hstage _ _ hL.life
          | createThread self =>
              obtain rfl : g = .thread self .creating := hmay
              cases hstage _ _ hL.life
          | createFirstThread =>
              obtain rfl : g = .counted := hmay
              have hzero := (hL.agrees _ List.mem_cons_self).1
              omega
          | _ => exact ⟨rfl, rfl⟩

/-! ## What follows -/

/-- When all of this is so in every state, a thread has ended before another
when it has ended whenever the other has. -/
structure DispatcherShutdown (cacheSupported : Bool) (interface : Interface) (n : UInt32)
    (ls : List DispatcherEvent) (w : DispatcherWorld) : Prop where
  /-- Threads are numbered in the order they are created, and there are no more
  than `n`. -/
  created : created ls = List.range (created ls).length ∧ (created ls).length ≤ n.toNat
  begun : ∀ t, tally threadMark ls (.begun, t) ≤ 1 ∧
    (0 < tally threadMark ls (.begun, t) → t ∈ Proofs.created ls)
  /-- Without a failure there are `n`, once all of them have come to their
  loops, or have ended. -/
  all : ¬ Failed ls → Proofs.created ls ≠ [] →
    (∀ t ∈ Proofs.created ls,
      (∃ p, 0 < tally pointMark ls (p, t)) ∨ 0 < tally threadMark ls (.ended, t)) →
    (Proofs.created ls).length = n.toNat ∧
      ∀ t ∈ Proofs.created ls, tally threadMark ls (.begun, t) = 1
  /-- Who has left its loop has shut the unit down, or is about to. -/
  left : ∀ t, 0 < tally pointMark ls (.left, t) → tally threadMark ls (.shut, t) = 1 ∨
    ∃ th ∈ w.threads, (∃ child, th.account = .thread t (.leaving child)) ∧
      ((∃ error, th.prog.next = some (.exchangeError error)) ∨
        th.prog.next = some (.shutdown (some t)))
  /-- Nobody ends before that. -/
  shut : ∀ t, tally threadMark ls (.ended, t) ≤ tally threadMark ls (.shut, t) ∧
    tally threadMark ls (.shut, t) ≤ 1
  /-- The first thread ends last. -/
  first : 0 < tally threadMark ls (.ended, 0) →
    ∀ t ∈ Proofs.created ls, tally threadMark ls (.ended, t) = 1
  flush : ∀ t, tally threadMark ls (.flushed, t) ≤ 1 ∧
    (0 < tally threadMark ls (.flushed, t) →
      t = 0 ∧ cacheSupported = true ∧ interface.flush = true)
  /-- Before the final flush all other threads have ended, and after it no
  operation is called. -/
  last : ∀ pre post t, ls = pre ++ .act (.finalFlush t) () :: post →
    (∀ t' ∈ Proofs.created ls, t' ≠ t → tally threadMark pre (.ended, t') = 1) ∧
      ∀ ev ∈ post, isOperation ev = false
  /-- The first error is kept. -/
  error : w.shared.error = (recorded ls).headD 0 ∧ ∀ error ∈ recorded ls, error ≠ 0

namespace ThreadLife

variable {l : ThreadLife}

theorem marked_le {m : ThreadMark} : l.marked m ≤ 1 := by
  cases l with
  | alive stage => cases stage <;> cases m <;> simp [marked]
  | ended flushed => cases flushed <;> cases m <;> simp [marked]
  | _ => simp [marked]

theorem ended_le_shut : l.marked .ended ≤ l.marked .shut := by
  cases l with
  | alive stage => cases stage <;> simp [marked]
  | _ => simp [marked]

theorem marked_of_ended (h : l.Ended) : l.marked .ended = 1 := by
  cases l <;> first | rfl | exact absurd h id

theorem ended_of_marked (h : 0 < l.marked .ended) : l.Ended := by
  cases l with
  | ended => trivial
  | _ => exact absurd h (Nat.lt_irrefl 0)

theorem begun_of_ended (h : l.Ended) : l.marked .begun = 1 ∧ l.Past := by
  cases l with
  | ended => exact ⟨rfl, trivial⟩
  | _ => exact absurd h id

theorem begun_of_at {p : ThreadPoint} (h : l.At p) : l.marked .begun = 1 ∧ l.Past := by
  cases l with
  | alive stage => cases stage <;> first | exact ⟨rfl, trivial⟩ | exact absurd h id
  | ended => exact ⟨rfl, trivial⟩
  | _ => exact absurd h id

theorem shut_of_left (h : l.At .left) :
    l.marked .shut = 1 ∨ ∃ child, l = .alive (.leaving child) := by
  cases l with
  | alive stage =>
      cases stage with
      | leaving child => exact .inr ⟨child, rfl⟩
      | shut | waited | first | flushed => exact .inl rfl
      | running => cases h
      | _ => exact absurd h id
  | ended => exact .inl rfl
  | _ => exact absurd h id

end ThreadLife

theorem leaving_next {p : DispatcherProg Unit} {child : Option Nat}
    (h : (chainRules cacheSupported interface n).Safe (fun _ => ChainAccount.Outside)
      (.thread t (.leaving child)) p) :
    (∃ error, p.next = some (.exchangeError error)) ∨ p.next = some (.shutdown (some t)) := by
  cases p with
  | ret x => exact absurd h id
  | act a k =>
      have hmay : ChainAccount.May cacheSupported interface n (.thread t (.leaving child)) a := h.1
      cases a with
      | exchangeError error => exact .inl ⟨error, rfl⟩
      | shutdown self =>
          cases self with
          | none => exact absurd hmay id
          | some self =>
              obtain ⟨c, heq⟩ := hmay
              cases heq
              exact .inr rfl
      | readThreadCount | waitThread | closeHandle | storeThreadCount | bufferFree | transact
      | operation | wait | finalFlush | endThread =>
          simp [ChainAccount.May, ChainAccount.Outside, ChainAccount.Over] at hmay
      | bufferAlloc | createThread | readThreadId | createFirstThread | begin => cases hmay
      | _ => exact absurd hmay id

theorem ended_before_flush {pre : List DispatcherEvent} {r : Unit} (hn : n ≠ 0)
    (hrun : Run (DispatcherStep cacheSupported interface n) (dispatcherStart n)
      (pre ++ [.act (.finalFlush t) r]) w) :
    ∀ t' ∈ created pre, t' ≠ t → tally threadMark pre (.ended, t') = 1 := by
  obtain ⟨⟨L, h⟩, hlog⟩ := (dispatcherRun_verified hn hrun).inv
  intro t' ht' hne
  have hflushed : 0 < tally threadMark (pre ++ [.act (.finalFlush t) r]) (.flushed, t) := by
    have hmark : threadMark (.act (.finalFlush t) r) = some (.flushed, t) := rfl
    rw [tally_snoc, if_pos hmark]
    omega
  obtain ⟨rfl, hover, -, -⟩ := h.flushed_alone hflushed
  have hborn : t' < w.shared.next := by
    have hcreated := hlog.created
    rw [created, List.filterMap_append] at hcreated
    rw [← List.mem_range, ← hcreated]
    exact List.mem_append_left _ ht'
  have hended := h.marks t' .ended
  rw [tally_snoc, if_neg nofun, Nat.add_zero] at hended
  rw [hended]
  exact ThreadLife.marked_of_ended (h.facts.waits 0 t' (Nat.pos_of_ne_zero hne) hborn hover)

/-- The dispatcher comes up and goes down in order, whichever thread fails. -/
theorem dispatcher_shutdown (hn : n ≠ 0)
    (hrun : Run (DispatcherStep cacheSupported interface n) (dispatcherStart n) ls w) :
    DispatcherShutdown cacheSupported interface n ls w := by
  have hverified := dispatcherRun_verified hn hrun
  obtain ⟨⟨L, h⟩, hlog⟩ := hverified.inv
  have hmem : ∀ t, t ∈ Proofs.created ls ↔ t < w.shared.next := fun t => by
    rw [hlog.created, List.mem_range]
  have hlength : (Proofs.created ls).length = w.shared.next := by
    rw [hlog.created, List.length_range]
  constructor
  case created =>
    refine ⟨hlength.symm ▸ hlog.created, ?_⟩
    rw [hlength]
    rcases Nat.eq_zero_or_pos w.shared.next with hzero | hpos
    · omega
    · have hle := (h.facts.last (w.shared.next - 1) (by omega)).le
      omega
  case begun =>
    intro t
    rw [h.marks]
    refine ⟨ThreadLife.marked_le, fun hbegun => (hmem t).mpr (h.facts.born fun hl => ?_)⟩
    rw [hl] at hbegun
    exact absurd hbegun (Nat.lt_irrefl 0)
  case all =>
    intro hsucceeded hne hall
    have hpos : 0 < w.shared.next := by
      rw [← hlength]
      exact List.length_pos_iff.mpr hne
    have hpast : ∀ t ∈ Proofs.created ls, (L t).marked .begun = 1 ∧ (L t).Past :=
      fun t ht => by
      rcases hall t ht with ⟨p, hp⟩ | hended
      · exact ThreadLife.begun_of_at (h.points t p hp)
      · rw [h.marks] at hended
        exact ThreadLife.begun_of_ended (ThreadLife.ended_of_marked hended)
    refine ⟨?_, fun t ht => ?_⟩
    · have hlast := (hpast (w.shared.next - 1) ((hmem _).mpr (by omega))).2
      have heq := ((h.facts.last (w.shared.next - 1) (by omega)).eq hlast).resolve_right hsucceeded
      omega
    · rw [h.marks]
      exact (hpast t ht).1
  case left =>
    intro t hleft
    rw [h.marks]
    refine (ThreadLife.shut_of_left (h.points t .left hleft)).imp_right fun ⟨child, hl⟩ => ?_
    obtain ⟨th, hth, haccount⟩ := List.mem_map.mp (h.present t _ hl)
    have hsafe := hverified.safe th hth
    rw [haccount] at hsafe
    exact ⟨th, hth, ⟨child, haccount⟩, leaving_next hsafe⟩
  case shut =>
    intro t
    rw [h.marks, h.marks]
    exact ⟨ThreadLife.ended_le_shut, ThreadLife.marked_le⟩
  case first =>
    intro hended t ht
    rw [h.marks] at hended ⊢
    have hzero := ThreadLife.ended_of_marked hended
    rcases Nat.eq_zero_or_pos t with rfl | hpos
    · exact ThreadLife.marked_of_ended hzero
    · exact ThreadLife.marked_of_ended
        (h.facts.waits 0 t hpos ((hmem t).mp ht) (.of_ended hzero))
  case flush =>
    intro t
    refine ⟨?_, fun hflushed => ⟨(h.flushed_alone hflushed).1, hlog.flushes t hflushed⟩⟩
    rw [h.marks]
    exact ThreadLife.marked_le
  case last =>
    intro pre post t heq
    have hafter := final_flush hn hrun pre post t () heq
    refine ⟨fun t' ht' hne => ?_, fun ev hev => (hafter ev hev).1⟩
    have hnone : post.filterMap creationMark = [] :=
      List.filterMap_eq_nil_iff.mpr fun ev hev => (hafter ev hev).2
    subst heq
    rw [List.append_cons] at hrun
    obtain ⟨w₁, hrun, -⟩ := hrun.split
    refine ended_before_flush hn hrun t' ?_ hne
    rw [Proofs.created, List.filterMap_append, List.filterMap_cons] at ht'
    rcases List.mem_append.mp ht' with ht' | ht'
    · exact ht'
    · rw [hnone] at ht'
      exact absurd ht' List.not_mem_nil
  case error => exact ⟨hlog.error, hlog.recorded⟩

/-! ## A run -/

theorem dispatcherPlays_run
    {ms : List (DispatcherChoice × Threads.Move (DispatcherEntry cacheSupported interface))}
    (h : Threads.plays (chainRules cacheSupported interface n) (fun c s a => a.exec s c)
      (fun _ _ _ => true) [] (dispatcherStart n) ms = some (ls, w)) :
    Run (DispatcherStep cacheSupported interface n) (dispatcherStart n) ls w :=
  RunWhen.run (C := fun _ _ _ => True)
    (Threads.plays_run (fun c _ _ _ _ h => ⟨c, h⟩) (fun _ _ _ _ => trivial) .nil h)

abbrev DispatcherMoves :=
  List (DispatcherChoice × Threads.Move (DispatcherEntry true ⟨true, true, true, true⟩))

/-- The thread at a position takes `k` steps. -/
def threadTurns (c : DispatcherChoice) (i k : Nat) : DispatcherMoves :=
  List.replicate k (c, .turn i)

/-- A dispatcher thread comes, and gets a data buffer. -/
def comes (thread dataBuffer : Nat) : DispatcherMoves :=
  [(.ends 0, .enter _ (.dispatcher 1)), (.starts thread, .turn 0), (.allocates dataBuffer, .turn 0)]

/-- The dispatcher is started with two threads. The second one's first transact
call fails, and then that of the first. -/
def startAndStop : DispatcherMoves :=
  threadTurns (.ends 0) 0 5 ++
    -- the first thread, up to its loop
    comes 0 16 ++ threadTurns (.ends 0) 0 4 ++
    -- the second thread, to its end
    comes 1 32 ++ threadTurns (.ends 0) 0 1 ++ threadTurns (.ends 1) 0 1 ++ threadTurns
      (.ends 0) 0 6 ++
    -- the first thread, to its end
    threadTurns (.ends 1) 0 1 ++ threadTurns (.ends 0) 0 9

theorem dispatcher_shutdown_startAndStop :
    ∃ ls w, Run (DispatcherStep true ⟨true, true, true, true⟩ 2) (dispatcherStart 2) ls w ∧
      tally threadMark ls (.flushed, 0) = 1 ∧ w.threads.length = 0 ∧
      DispatcherShutdown true ⟨true, true, true, true⟩ 2 ls w := by
  have hfinal : (Threads.plays (chainRules true ⟨true, true, true, true⟩ 2)
      (fun c s a => a.exec s c) (fun _ _ _ => true) [] (dispatcherStart 2) startAndStop).map
      (fun x => (tally threadMark x.1 (.flushed, 0), x.2.threads.length)) = some (1, 0) := by rfl
  obtain ⟨⟨ls, w⟩, hplays, hfinal⟩ := Option.map_eq_some_iff.mp hfinal
  rw [Prod.mk.injEq] at hfinal
  have hrun := dispatcherPlays_run hplays
  exact ⟨ls, w, hrun, hfinal.1, hfinal.2, dispatcher_shutdown (by decide) hrun⟩

end Winspd.Proofs
