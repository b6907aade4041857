import Winspd.Proofs.DispatcherChain

/-!
# Steps of dispatcher threads

Every action keeps the invariant of `Proofs.DispatcherChain`: one lemma for each
kind of action, and `ChainInv.exec` for all of them.

Most actions change the life of the thread that makes them and nothing else
(`ChainInv.move`): what has to be shown is that the thread's place in the chain
stays, and the mark that the action leaves in the history, if it leaves one. Three
kinds are different. A thread that creates the next one adds a life at the end of
the chain. A wait gives its thread what the one behind it knows: that everybody
from there on has ended. And the thread of user code that starts the dispatcher
adds the first life, when there is none yet.

The count is the one thing that threads hand on through memory. It is read, taken
and stored by the last thread of the chain only, so that it never changes under
the hands of a thread that is at work on it.
-/

namespace Winspd.Proofs

open Winspd.Lib Winspd.Sys Winspd.Shared

namespace ChainInv

variable {n : UInt32} {ls : List DispatcherEvent} {s s' : DispatcherUnit}
  {g g' : ChainAccount} {gs gs' : List ChainAccount} {L L' : Nat → ThreadLife} {t : Nat}
  {ev : DispatcherEvent} {stage : ChainStage}

theorem life (h : ChainInv n ls s (.thread t stage :: gs) L) : L t = .alive stage :=
  h.agrees _ List.mem_cons_self

theorem born (h : ChainInv n ls s (.thread t stage :: gs) L) : t < s.next :=
  h.facts.born (by rw [h.life]; nofun)

theorem move (stage' : ChainStage) (m : Option ThreadMark)
    (h : ChainInv n ls s (.thread t stage :: gs) L)
    (hsame : s'.next = s.next ∧ s'.threadId = s.threadId ∧ s'.status = s.status)
    (hcount : s'.threadCount = s.threadCount ∨ ¬ (ThreadLife.alive stage).Passed (t + 1))
    (hpassed : (ThreadLife.alive stage).Passed (t + 1) →
      (ThreadLife.alive stage').Passed (t + 1))
    (hcounted : (ThreadLife.alive stage).Counted n s.threadCount t (Failed ls) →
      (ThreadLife.alive stage').Counted n s'.threadCount t (Failed (ls ++ [ev])))
    (hover : (ThreadLife.alive stage').Over → (ThreadLife.alive stage).Over ∨
      ∀ t', t < t' → t' < s.next → (L t').Ended)
    (hflush : (ThreadLife.alive stage').Flushing → t = 0)
    (hmark : threadMark ev = m.map fun m => (m, t))
    (hmarked : ∀ i, (ThreadLife.alive stage').marked i =
      (ThreadLife.alive stage).marked i + if m = some i then 1 else 0)
    (hpoint : ∀ p t', pointMark ev = some (p, t') → t' = t ∧ (ThreadLife.alive stage').At p)
    (hat : ∀ p, (ThreadLife.alive stage).At p → (ThreadLife.alive stage').At p) :
    ChainInv n (ls ++ [ev]) s' (.thread t stage' :: gs)
      (Function.update L t (.alive stage')) := by
  have hl := h.life
  obtain ⟨hnext, hid, hstatus⟩ := hsame
  have hself : Function.update L t (.alive stage') t = .alive stage' := Function.update_self ..
  rw [← hl] at hcount hpassed hcounted hover hmarked hat
  refine h.step m
    (h.facts.update (.alive stage') h.born nofun (fun hf => hf.snoc) hnext hid ?_ ?_ hcount hpassed
    hcounted ?_ hover hflush) h.born (.inr ⟨stage, rfl⟩) (.inl ⟨stage', rfl, hself⟩)
    (fun t' hne => .inl (Function.update_of_ne hne ..)) hmark ?_ ?_ ?_
  · rw [hstatus, h.facts.status t, hl]
    rfl
  · exact fun _ _ => by rw [hstatus]
  · rw [hl]
    exact id
  · rwa [hself]
  · rwa [hself]
  · rwa [hself]

theorem none_after (h : ChainInv n ls s (.thread t stage :: gs) L)
    (hnot : ¬ (ThreadLife.alive stage).Passed (t + 1)) :
    ∀ t', t < t' → t' < s.next → (L t').Ended := by
  rw [← h.life] at hnot
  have hlast := h.facts.isLast h.born hnot
  intro t' hlt ht'
  omega

theorem bufferAlloc {dataBuffer : Option Nat} (h : ChainInv n ls s (.thread t .begun :: gs) L)
    (hsame : s'.next = s.next ∧ s'.threadId = s.threadId ∧ s'.status = s.status)
    (hcount : s'.threadCount = s.threadCount) :
    ∃ L', ChainInv n (ls ++ [.act (.bufferAlloc t) dataBuffer]) s'
      (.thread t (if dataBuffer.isSome then .counting else .leaving none) :: gs) L' := by
  cases dataBuffer with
  | some dataBuffer =>
      exact ⟨_, h.move .counting none hsame (.inl hcount) nofun
        (fun hc => hcount ▸ hc) nofun nofun
        rfl (fun i => by cases i <;> rfl) nofun nofun⟩
  | none =>
      refine ⟨_, h.move (.leaving none) none hsame (.inl hcount) nofun (fun hc => ?_) nofun nofun
        rfl (fun i => by cases i <;> rfl) (fun p t' hp => ?_) nofun⟩
      · exact ⟨hc.le, .inr (.of_mark rfl)⟩
      · cases hp
        exact ⟨rfl, trivial⟩

theorem readThreadCount (h : ChainInv n ls s (.thread t .counting :: gs) L) :
    ∃ L', ChainInv n (ls ++ [.act .readThreadCount s.threadCount]) s
      (.thread t (if 1 < s.threadCount then .taking else .running none) :: gs) L' := by
  by_cases hcount : 1 < s.threadCount
  · rw [if_pos hcount]
    refine ⟨_, h.move .taking none ⟨rfl, rfl, rfl⟩ (.inl rfl) nofun (fun hc => ?_) nofun nofun
      rfl (fun i => by cases i <;> rfl) nofun nofun⟩
    exact ⟨hc.1, UInt32.lt_iff_toNat_lt.mp hcount⟩
  · rw [if_neg hcount]
    refine ⟨_, h.move (.running none) none ⟨rfl, rfl, rfl⟩ (.inl rfl) nofun
      (fun hc => ?_) nofun
      nofun rfl (fun i => by cases i <;> rfl) nofun nofun⟩
    obtain ⟨hn, hpos⟩ : n.toNat = s.threadCount.toNat + t ∧ 1 ≤ s.threadCount.toNat := hc
    have hone : ¬ 1 < s.threadCount.toNat := fun hlt => hcount (UInt32.lt_iff_toNat_lt.mpr hlt)
    exact ⟨by omega, .inl (by omega)⟩

theorem takeThreadCount (h : ChainInv n ls s (.thread t .taking :: gs) L) :
    ∃ L', ChainInv n (ls ++ [.act .readThreadCount s.threadCount]) s
      (.thread t (.storing s.threadCount) :: gs) L' :=
  ⟨_, h.move (.storing s.threadCount) none ⟨rfl, rfl, rfl⟩ (.inl rfl) nofun
    (fun hc => ⟨hc.1, hc.2, rfl⟩) nofun nofun rfl (fun i => by cases i <;> rfl) nofun nofun⟩

theorem storeThreadCount {c : UInt32} (h : ChainInv n ls s (.thread t (.storing c) :: gs) L) :
    ∃ L', ChainInv n (ls ++ [.act (.storeThreadCount (c - 1)) ()]) { s with threadCount := c - 1 }
      (.thread t .creating :: gs) L' := by
  refine ⟨_, h.move .creating none ⟨rfl, rfl, rfl⟩ (.inr nofun) nofun (fun hc => ?_) nofun
    nofun rfl (fun i => by cases i <;> rfl) nofun nofun⟩
  obtain ⟨hn, hpos, rfl⟩ : n.toNat = s.threadCount.toNat + t ∧ 1 < s.threadCount.toNat ∧
    c = s.threadCount := hc
  have hle : (1 : UInt32) ≤ s.threadCount := UInt32.le_iff_toNat_le.mpr (Nat.le_of_lt hpos)
  have hsub : (s.threadCount - 1).toNat = s.threadCount.toNat - 1 :=
    UInt32.toNat_sub_of_le _ _ hle
  show n.toNat = (s.threadCount - 1).toNat + t + 1 ∧ 1 ≤ (s.threadCount - 1).toNat
  omega

theorem createThread (h : ChainInv n ls s (.thread t .creating :: gs) L) :
    ∃ L', ChainInv n (ls ++ [.act (.createThread t) (.ok s.next)]) (s.newThread .ready)
      (.thread t (.running (some s.next)) :: gs) L' := by
  have hl := h.life
  have hlast : t + 1 = s.next := h.facts.isLast h.born (by rw [hl]; exact id)
  have hne : t ≠ s.next := Nat.ne_of_lt h.born
  let L' := Function.update (Function.update L t (.alive (.running (some s.next)))) s.next .ready
  have hself : L' t = .alive (.running (some s.next)) := by
    show Function.update _ s.next _ t = _
    rw [Function.update_of_ne hne, Function.update_self]
  have hnew : L' s.next = .ready := Function.update_self ..
  have hothers : ∀ t', t' ≠ t → t' ≠ s.next → L' t' = L t' := fun t' hne hne' => by
    show Function.update _ s.next _ t' = _
    rw [Function.update_of_ne hne', Function.update_of_ne hne]
  have hbefore : ∀ t', t' ≠ t → t' < s.next → L' t' = L t' := fun t' hne hlt =>
    hothers t' hne (Nat.ne_of_lt hlt)
  refine ⟨L', h.step none ⟨fun t' => ?_, fun t' => ?_, fun _ => h.facts.threadId (by omega),
    fun t' ht' => ?_, fun t' ht' => ?_, fun t₁ t₂ hlt ht₂ hover =>
      ?_, fun t' hflush => ?_⟩ h.born
    (.inr ⟨_, rfl⟩) (.inl ⟨_, rfl, hself⟩) (fun t' hne => ?_) rfl (fun i => ?_) nofun
    fun p hp => ?_⟩
  · show _ ↔ s.next + 1 ≤ t'
    by_cases heq : t' = t
    · subst heq
      rw [hself]
      exact iff_of_false nofun (by omega)
    · by_cases heq' : t' = s.next
      · subst heq'
        rw [hnew]
        exact iff_of_false nofun (by omega)
      · rw [hothers t' heq heq', h.facts.unborn]
        omega
  · show Function.update s.status s.next .ready t' = _
    by_cases heq' : t' = s.next
    · subst heq'
      rw [hnew, Function.update_self]
      rfl
    · rw [Function.update_of_ne heq', h.facts.status]
      by_cases heq : t' = t
      · subst heq
        rw [hself, hl]
        rfl
      · rw [hothers t' heq heq']
  · have ht' : t' < s.next := Nat.lt_of_succ_lt_succ ht'
    by_cases heq : t' = t
    · subst heq
      rw [hself]
      exact hlast.symm
    · rw [hbefore t' heq ht']
      exact h.facts.earlier t' (by omega)
  · obtain rfl : t' = s.next := Nat.succ.inj ht'
    rw [hnew]
    have hcounted := h.facts.last t hlast
    rw [hl] at hcounted
    obtain ⟨hn, hpos⟩ : n.toNat = s.threadCount.toNat + t + 1 ∧ 1 ≤ s.threadCount.toNat :=
      hcounted
    exact ⟨by show n.toNat = s.threadCount.toNat + s.next; omega, hpos⟩
  · -- everyone before the creator still has somebody to wait for
    have ht₂ : t₂ < s.next + 1 := ht₂
    have hne₁ : t₁ ≠ t := fun heq => by rw [heq, hself] at hover; exact hover
    have hlt₁ : t₁ < t := by omega
    rw [hbefore t₁ hne₁ (by omega)] at hover
    have hended := h.facts.waits t₁ t hlt₁ h.born hover
    rw [hl] at hended
    exact absurd hended id
  · by_cases heq : t' = t
    · subst heq
      rw [hself] at hflush
      exact absurd hflush id
    · by_cases heq' : t' = s.next
      · subst heq'
        rw [hnew] at hflush
        exact absurd hflush id
      · rw [hothers t' heq heq'] at hflush
        exact h.facts.flush t' hflush
  · by_cases heq' : t' = s.next
    · subst heq'
      refine .inr ⟨?_, ?_⟩
      · rw [(h.facts.unborn _).mpr (Nat.le_refl _)]
        trivial
      · rw [hnew]
        trivial
    · exact .inl (hothers t' hne heq')
  · rw [hself, hl]
    cases i <;> rfl
  · rw [hl] at hp
    exact absurd hp id

theorem createThread_failed {error : UInt32} (h : ChainInv n ls s (.thread t .creating :: gs) L) :
    ∃ L', ChainInv n (ls ++ [.act (.createThread t) (.error error)]) s
      (.thread t (.leaving none) :: gs) L' := by
  refine ⟨_, h.move (.leaving none) none ⟨rfl, rfl, rfl⟩ (.inl rfl) nofun (fun hc => ?_) nofun
    nofun rfl (fun i => by cases i <;> rfl) (fun p t' hp => ?_) nofun⟩
  · exact ⟨hc.le, .inr (.of_mark rfl)⟩
  · cases hp
    exact ⟨rfl, trivial⟩

theorem transact_failed {child : Option Nat} {response : Option Response} {dataBuffer : Nat}
    {r : UInt32 × Option Request} (h : ChainInv n ls s (.thread t (.running child) :: gs) L)
    (hsame : s'.next = s.next ∧ s'.threadId = s.threadId ∧ s'.status = s.status)
    (hcount : s'.threadCount = s.threadCount) :
    ∃ L', ChainInv n (ls ++ [.act (.transact t response dataBuffer) r]) s'
      (.thread t (.leaving child) :: gs) L' := by
  have hcounted : (ThreadLife.alive (.running child)).Counted n s.threadCount t (Failed ls) →
      (ThreadLife.alive (.leaving child)).Counted n s'.threadCount t
        (Failed (ls ++ [.act (.transact t response dataBuffer) r])) := by
    cases child with
    | none => exact fun hc => ⟨hc.1, hc.2.imp_right fun hf => hf.snoc⟩
    | some child => exact id
  refine ⟨_, h.move (.leaving child) none hsame (.inl hcount) ?_ hcounted nofun nofun rfl
    (fun i => by cases i <;> rfl) (fun p t' hp => ?_) fun _ _ => trivial⟩
  · cases child <;> exact id
  · have hself : t' = t := by
      simp only [pointMark] at hp
      split at hp <;> cases hp <;> rfl
    exact ⟨hself, trivial⟩

theorem shutdown {child : Option Nat} (h : ChainInv n ls s (.thread t (.leaving child) :: gs) L) :
    ∃ L', ChainInv n (ls ++ [.act (.shutdown (some t)) ()]) s (.closed t child :: gs) L' := by
  cases child with
  | none =>
      refine ⟨_, h.move .waited (some .shut) ⟨rfl, rfl, rfl⟩ (.inl rfl) (fun _ => trivial)
        (fun hc => ⟨hc.1, hc.2.imp_right fun hf => hf.snoc⟩)
        (fun _ => .inr (h.none_after id)) nofun
        rfl (fun i => by cases i <;> rfl) nofun fun _ _ => trivial⟩
  | some child =>
      refine ⟨_, h.move (.shut child) (some .shut) ⟨rfl, rfl, rfl⟩ (.inl rfl) id
        id nofun nofun
        rfl (fun i => by cases i <;> rfl) nofun fun _ _ => trivial⟩

/-- The thread that was created has ended, and with it everyone after it. -/
theorem waitThread {child : Nat} (h : ChainInv n ls s (.thread t (.shut child) :: gs) L)
    (hended : s.status child = .ended) :
    ∃ L', ChainInv n (ls ++ [.act (.waitThread (some child)) ()]) s
      (.thread t .waited :: gs) L' := by
  have hlt : t + 1 < s.next := by
    by_contra hle
    have hcounted := h.facts.last t (by have hborn := h.born; omega)
    rw [h.life] at hcounted
    exact hcounted
  have hpassed := h.facts.earlier t hlt
  rw [h.life] at hpassed
  obtain rfl : child = t + 1 := hpassed
  have hnext : (L (t + 1)).Ended := by
    rw [h.facts.status] at hended
    revert hended
    cases L (t + 1) <;> simp [ThreadLife.status, ThreadLife.Ended]
  refine ⟨_, h.move .waited none ⟨rfl, rfl, rfl⟩ (.inl rfl) (fun _ => trivial)
    (fun hc => absurd hc id)
    (fun _ => .inr fun t' hlt' ht' => ?_) nofun rfl (fun i => by cases i <;> rfl) nofun
    fun _ _ => trivial⟩
  rcases Nat.eq_or_lt_of_le hlt' with heq | hlt'
  · rwa [← heq]
  · exact h.facts.waits (t + 1) t' hlt' ht' (.of_ended hnext)

theorem readThreadId (h : ChainInv n ls s (.thread t .waited :: gs) L) :
    ∃ L', ChainInv n (ls ++ [.act (.readThreadId t) s.threadId]) s
      (.thread t (if s.threadId = some t then .first else .waited) :: gs) L' := by
  have hid := h.facts.threadId (by have hborn := h.born; omega)
  by_cases heq : s.threadId = some t
  · rw [if_pos heq]
    have hzero : t = 0 := by
      rw [hid] at heq
      exact (Option.some.inj heq).symm
    exact ⟨_, h.move .first none ⟨rfl, rfl, rfl⟩ (.inl rfl) id
      (fun hc => ⟨hc.1, hc.2.imp_right fun hf => hf.snoc⟩) .inl (fun _ => hzero) rfl
      (fun i => by cases i <;> rfl) nofun fun _ => id⟩
  · rw [if_neg heq]
    exact ⟨L, h.quiet rfl rfl rfl rfl rfl nofun⟩

theorem finalFlush (h : ChainInv n ls s (.thread t .first :: gs) L) :
    ∃ L', ChainInv n (ls ++ [.act (.finalFlush t) ()]) s (.thread t .flushed :: gs) L' := by
  have hzero : t = 0 := h.facts.flush t (by rw [h.life]; trivial)
  exact ⟨_, h.move .flushed (some .flushed) ⟨rfl, rfl, rfl⟩ (.inl rfl) id
    (fun hc => ⟨hc.1, hc.2.imp_right fun hf => hf.snoc⟩) .inl (fun _ => hzero) rfl
    (fun i => by cases i <;> rfl) nofun fun _ => id⟩

theorem endThread (flushed : Bool) (h : ChainInv n ls s (.thread t stage :: gs) L)
    (hover : (ThreadLife.alive stage).Over)
    (hflushed : flushed = true → (ThreadLife.alive stage).Flushing)
    (hmarked : ∀ i, (ThreadLife.ended flushed).marked i =
      (ThreadLife.alive stage).marked i + if some ThreadMark.ended = some i then 1 else 0) :
    ∃ L', ChainInv n (ls ++ [.act (.endThread t) ()]) (s.setStatus t .ended)
      (.user :: gs) L' := by
  have hl := h.life
  have hself : Function.update L t (.ended flushed) t = .ended flushed := Function.update_self ..
  refine ⟨_, h.step (some .ended) (h.facts.update (.ended flushed) h.born nofun
    (fun hf => hf.snoc) rfl rfl ?_ ?_
    (.inl rfl) (fun _ => trivial) (fun hc => ?_) ?_ (fun _ => ?_) (fun hflush => ?_)) h.born
    (.inr ⟨stage, rfl⟩) (.inr ⟨rfl, ?_⟩)
    (fun t' hne => .inl (Function.update_of_ne hne ..)) rfl ?_
    nofun ?_⟩
  · exact Function.update_self ..
  · exact fun t' hne => Function.update_of_ne hne ..
  · exact ⟨hc.le, (hc.eq (by rw [hl]; exact hover.past)).imp_right fun hf => hf.snoc⟩
  · rw [hl]
    exact id
  · rw [hl]
    exact .inl hover
  · cases flushed with
    | true => exact h.facts.flush t (by rw [hl]; exact hflushed rfl)
    | false => exact absurd hflush id
  · rw [hself]
    exact nofun
  · rw [hself, hl]
    exact hmarked
  · rw [hself]
    exact fun _ _ => trivial

theorem begin (h : ChainInv n ls s (.user :: gs) L) (hready : s.status t = .ready) :
    ∃ L', ChainInv n (ls ++ [.act .begin t]) (s.setStatus t .running)
      (.thread t .begun :: gs) L' := by
  have hl : L t = .ready := by
    rw [h.facts.status] at hready
    revert hready
    cases L t <;> simp [ThreadLife.status]
  have hborn : t < s.next := h.facts.born (by rw [hl]; nofun)
  have hself : Function.update L t (.alive .begun) t = .alive .begun := Function.update_self ..
  refine ⟨_, h.step (some .begun) (h.facts.update (.alive .begun) hborn nofun
    (fun hf => hf.snoc) rfl rfl ?_ ?_
    (.inl rfl) ?_ ?_ ?_ nofun nofun) hborn (.inl ⟨rfl, ?_⟩) (.inl ⟨_, rfl, hself⟩)
    (fun t' hne => .inl (Function.update_of_ne hne ..)) rfl ?_ nofun ?_⟩
  · exact Function.update_self ..
  · exact fun t' hne => Function.update_of_ne hne ..
  · rw [hl]
    exact nofun
  · rw [hl]
    exact id
  · rw [hl]
    exact id
  · rw [hl]
    exact nofun
  · rw [hself, hl]
    exact fun i => by cases i <;> rfl
  · rw [hl]
    exact nofun

theorem alone (h : ChainInv n ls s (g :: gs) L) (hg : g.name = some none) :
    ∀ k ∈ gs, k.Outside → k = .user := by
  intro k hk hout
  have hnodup := h.names
  rw [List.filterMap_cons, hg] at hnodup
  have hnot := (List.nodup_cons.mp hnodup).1
  cases k with
  | user => rfl
  | starting | counted => exact (hnot (List.mem_filterMap.mpr ⟨_, hk, rfl⟩)).elim
  | thread => exact absurd hout id

theorem storeFirstCount (h : ChainInv n ls s (.starting :: gs) L) :
    ChainInv n (ls ++ [.act (.storeThreadCount n) ()]) { s with threadCount := n }
      (.counted :: gs) L := by
  have hzero : s.next = 0 := h.agrees _ List.mem_cons_self
  refine h.outside { h.facts with last := fun t ht => ?_ } trivial (.inr rfl) ⟨hzero, rfl⟩
    (fun k hk hout => ?_) (fun t => .inl rfl) rfl rfl
  · have ht : t + 1 = s.next := ht
    omega
  · rw [h.alone rfl k hk hout]
    trivial

theorem createFirstThread (hn : n ≠ 0) (h : ChainInv n ls s (.counted :: gs) L) :
    ∃ L', ChainInv n (ls ++ [.act .createFirstThread (.ok s.next)])
      { s.newThread .suspended with thread := some s.next, threadId := some s.next }
      (.user :: gs) L' := by
  obtain ⟨hzero, hcount⟩ : s.next = 0 ∧ s.threadCount = n := h.agrees _ List.mem_cons_self
  have hunborn : ∀ t, L t = .unborn := fun t => (h.facts.unborn t).mpr (by omega)
  have hothers : ∀ t, t ≠ 0 → Function.update L 0 .suspended t = .unborn := fun t hne => by
    rw [Function.update_of_ne hne, hunborn]
  have hself : Function.update L 0 .suspended 0 = .suspended := Function.update_self ..
  have hfacts : ChainFacts n (Failed (ls ++ [.act .createFirstThread (.ok s.next)]))
      { s.newThread .suspended with thread := some s.next, threadId := some s.next }
      (Function.update L 0 .suspended) := by
    refine ⟨fun t => ?_, fun t => ?_, fun _ => congrArg some hzero, fun t ht => ?_,
      fun t ht => ?_, fun t t' hlt ht' => ?_, fun t hflush => ?_⟩
    · show _ ↔ s.next + 1 ≤ t
      by_cases heq : t = 0
      · subst heq
        rw [hself]
        exact iff_of_false nofun (by omega)
      · rw [hothers t heq]
        exact iff_of_true rfl (by omega)
    · show Function.update s.status s.next .suspended t = _
      rw [hzero]
      by_cases heq : t = 0
      · subst heq
        rw [hself, Function.update_self]
        rfl
      · rw [hothers t heq, Function.update_of_ne heq, h.facts.status, hunborn]
    · have ht : t + 1 < s.next + 1 := ht
      omega
    · obtain rfl : t = s.next := Nat.succ.inj ht
      rw [hzero, hself]
      refine ⟨by show n.toNat = s.threadCount.toNat + 0; rw [hcount]; rfl, ?_⟩
      show 1 ≤ s.threadCount.toNat
      rw [hcount]
      exact Nat.one_le_iff_ne_zero.mpr fun h => hn (UInt32.toNat_inj.mp h)
    · have ht' : t' < s.next + 1 := ht'
      omega
    · by_contra hne
      rw [hothers t hne] at hflush
      exact hflush
  refine ⟨_, h.outside hfacts trivial (.inl rfl) trivial (fun k hk hout => ?_)
    (fun t => ?_) rfl rfl⟩
  · rw [h.alone rfl k hk hout]
    trivial
  · by_cases heq : t = 0
    · subst heq
      exact .inr ⟨by rw [hunborn]; trivial, by rw [hself]; trivial⟩
    · exact .inl (by rw [hothers t heq, hunborn])

theorem createFirstThread_failed {error : UInt32} (h : ChainInv n ls s (.counted :: gs) L) :
    ChainInv n (ls ++ [.act .createFirstThread (.error error)]) { s with thread := none }
      (.user :: gs) L := by
  refine h.outside (h.facts.frame (fun hf => hf.snoc) rfl rfl rfl rfl) trivial (.inl rfl) trivial
    (fun k hk hout => ?_) (fun t => .inl rfl) rfl rfl
  rw [h.alone rfl k hk hout]
  trivial

theorem resumeThread {count : UInt32} (h : ChainInv n ls s (g :: gs) L) (hg : g.Outside)
    (hsuspended : s.status t = .suspended) :
    ∃ L', ChainInv n (ls ++ [.act (.resumeThread t) count]) (s.setStatus t .ready)
      (g :: gs) L' := by
  have hl : L t = .suspended := by
    rw [h.facts.status] at hsuspended
    revert hsuspended
    cases L t <;> simp [ThreadLife.status]
  have hborn : t < s.next := h.facts.born (by rw [hl]; nofun)
  have hself : Function.update L t .ready t = .ready := Function.update_self ..
  refine ⟨_, h.outside (h.facts.update .ready hborn nofun (fun hf => hf.snoc) rfl rfl ?_ ?_
    (.inl rfl) ?_ ?_ ?_ nofun nofun) hg (.inr rfl) ?_ (fun k hk hout => ?_) (fun t' =>
      ?_) rfl rfl⟩
  · exact Function.update_self ..
  · exact fun t' hne => Function.update_of_ne hne ..
  · rw [hl]
    exact nofun
  · rw [hl]
    exact id
  · rw [hl]
    exact id
  · rcases h.started hborn List.mem_cons_self with rfl | ⟨t', stage, rfl⟩
    · trivial
    · exact absurd hg id
  · rcases h.started hborn (List.mem_cons_of_mem _ hk) with rfl | ⟨t', stage, rfl⟩
    · trivial
    · exact absurd hout id
  · by_cases heq : t' = t
    · subst heq
      exact .inr ⟨by rw [hl]; trivial, by rw [hself]; trivial⟩
    · exact .inl (Function.update_of_ne heq ..)

theorem exec {cacheSupported : Bool} {interface : Interface} {a : DispatcherAction} {r : a.Answer}
    (hn : n ≠ 0) (h : ChainInv n ls s (g :: gs) L) (hmay : g.May cacheSupported interface n a)
    (hexec : a.Exec s r s') :
    ChainAccount.Answers a r ∧
      ∃ L', ChainInv n (ls ++ [.act a r]) s' (ChainAccount.track a r g :: gs) L' := by
  have heffect := exec_dispatcherEffect hexec
  cases a with
  | wait => exact absurd heffect id
  | readThread | processAffinityMask | getLastError | sendResponse | closeHandle =>
      obtain rfl := heffect
      exact ⟨trivial, L, h.quiet rfl rfl rfl rfl rfl nofun⟩
  | storeThread | exchangeError | bufferFree =>
      obtain rfl := heffect
      exact ⟨trivial, L, h.quiet rfl rfl rfl rfl rfl nofun⟩
  | takePending =>
      obtain ⟨index, -, rfl⟩ := heffect
      exact ⟨trivial, L, h.quiet rfl rfl rfl rfl rfl nofun⟩
  | readThreadCount =>
      obtain ⟨self, rfl | rfl⟩ :
          ∃ self, g = .thread self .counting ∨ g = .thread self .taking :=
        hmay
      · obtain ⟨rfl, rfl⟩ := heffect
        exact ⟨trivial, h.readThreadCount⟩
      · obtain ⟨rfl, rfl⟩ := heffect
        exact ⟨trivial, h.takeThreadCount⟩
  | storeThreadCount count =>
      obtain rfl : s' = _ := heffect
      obtain ⟨rfl, rfl⟩ | ⟨self, c, rfl, rfl⟩ : g = .starting ∧ count = n ∨
        ∃ self c, g = .thread self (.storing c) ∧ count = c - 1 := hmay
      · exact ⟨trivial, L, h.storeFirstCount⟩
      · exact ⟨trivial, h.storeThreadCount⟩
  | createFirstThread =>
      obtain rfl : g = .counted := hmay
      cases r with
      | ok thread =>
          obtain ⟨rfl, rfl⟩ := heffect
          exact ⟨trivial, h.createFirstThread hn⟩
      | error error =>
          obtain rfl := heffect
          exact ⟨trivial, L, h.createFirstThread_failed⟩
  | resumeThread thread =>
      obtain rfl | ⟨hsuspended, rfl⟩ : s' = s ∨ _ := heffect
      · exact ⟨trivial, L, h.quiet rfl rfl rfl rfl rfl nofun⟩
      · exact ⟨trivial, h.resumeThread hmay hsuspended⟩
  | waitThread handle =>
      obtain ⟨rfl, hended⟩ := heffect
      obtain hout | ⟨self, child, rfl, rfl⟩ : g.Outside ∨
        ∃ self child, g = .thread self (.shut child) ∧ handle = some child := hmay
      · have htrack : ChainAccount.track (.waitThread handle) r g = g := by
          cases g with
          | thread => exact absurd hout id
          | _ => rfl
        rw [htrack]
        exact ⟨trivial, L, h.quiet rfl rfl rfl rfl rfl nofun⟩
      · exact ⟨trivial, h.waitThread (hended child rfl)⟩
  | begin =>
      obtain rfl : g = .user := hmay
      obtain ⟨hready, rfl⟩ := heffect
      exact ⟨trivial, h.begin hready⟩
  | bufferAlloc self =>
      obtain rfl : g = .thread self .begun := hmay
      cases r with
      | none =>
          obtain rfl := heffect
          exact ⟨trivial, h.bufferAlloc ⟨rfl, rfl, rfl⟩ rfl⟩
      | some dataBuffer =>
          obtain ⟨-, rfl⟩ := heffect
          exact ⟨trivial, h.bufferAlloc ⟨rfl, rfl, rfl⟩ rfl⟩
  | createThread self =>
      obtain rfl : g = .thread self .creating := hmay
      cases r with
      | ok thread =>
          obtain ⟨rfl, rfl⟩ := heffect
          exact ⟨trivial, h.createThread⟩
      | error error =>
          obtain rfl := heffect
          exact ⟨trivial, h.createThread_failed⟩
  | transact self response dataBuffer =>
      obtain ⟨child, rfl⟩ : ∃ child, g = .thread self (.running child) := hmay
      obtain ⟨error, req⟩ := r
      have hsame : (s'.next = s.next ∧ s'.threadId = s.threadId ∧ s'.status = s.status) ∧
          s'.threadCount = s.threadCount := by
        obtain ⟨q, -, -, rfl⟩ | ⟨-, rfl⟩ :
            (∃ q, error = 0 ∧ _ ∧ s' = _) ∨ _ := heffect
        · exact ⟨⟨rfl, rfl, rfl⟩, rfl⟩
        · exact ⟨⟨rfl, rfl, rfl⟩, rfl⟩
      obtain ⟨hsame, hcount⟩ := hsame
      refine ⟨trivial, ?_⟩
      show ∃ L', ChainInv n _ s' (.thread self (if error = 0 then _ else _) :: gs) L'
      by_cases he : error = 0
      · rw [if_pos he]
        refine ⟨L, h.quiet hsame.1 hsame.2.2 hsame.2.1 hcount rfl fun p t hp => ?_⟩
        rw [pointMark, if_pos he] at hp
        cases hp
        rw [h.life]
        rfl
      · rw [if_neg he]
        exact h.transact_failed hsame hcount
  | operation self call request status dataBuffer =>
      obtain rfl : s' = _ := heffect
      exact ⟨trivial, L, h.quiet rfl rfl rfl rfl rfl nofun⟩
  | shutdown self =>
      obtain rfl := heffect
      cases self with
      | none =>
          have hout : g.Outside := hmay
          have htrack : ChainAccount.track (.shutdown none) r g = g := by
            cases g with
            | thread => exact absurd hout id
            | _ => rfl
          rw [htrack]
          exact ⟨trivial, L, h.quiet rfl rfl rfl rfl rfl nofun⟩
      | some self =>
          obtain ⟨child, rfl⟩ : ∃ child, g = .thread self (.leaving child) := hmay
          exact ⟨trivial, h.shutdown⟩
  | readThreadId self =>
      obtain rfl : g = .thread self .waited := hmay
      obtain ⟨rfl, rfl⟩ := heffect
      exact ⟨trivial, h.readThreadId⟩
  | finalFlush self =>
      obtain ⟨rfl, -, -⟩ : g = .thread self .first ∧ _ ∧ _ := hmay
      obtain rfl := heffect
      exact ⟨trivial, h.finalFlush⟩
  | endThread self =>
      obtain rfl : s' = _ := heffect
      obtain rfl | rfl | rfl : g.Over self := hmay
      · exact ⟨trivial, h.endThread false trivial nofun fun i => by cases i <;> rfl⟩
      · exact ⟨trivial, h.endThread false trivial nofun fun i => by cases i <;> rfl⟩
      · exact ⟨trivial, h.endThread true trivial (fun _ => trivial) fun i => by
          cases i <;> rfl⟩

end ChainInv

end Winspd.Proofs
