import Winspd.Proofs.DispatcherThreads

/-!
# The chain of dispatcher threads

Threads are created one by another. `ThreadLife` is what a thread goes through;
`ChainFacts` is about the lives of all threads. Each of them but the last has
created the next one, and the last is the only one that works on the count.
Who has nothing left to wait for knows that everyone after it has ended: the
thread it has created has, and this one has waited in its turn.

An account says of its thread what its life says. So an action of a thread
changes one life, `ChainFacts.update`, or adds one.
-/

namespace Winspd.Proofs

open Winspd.Lib Winspd.Sys Winspd.Shared

/-! ## Lives -/

inductive ThreadLife
  | unborn
  | suspended
  | ready
  | alive (stage : ChainStage)
  /-- Has it made the final flush? -/
  | ended (flushed : Bool)

namespace ThreadLife

def status : ThreadLife → ThreadStatus
  | .unborn => .none
  | .suspended => .suspended
  | .ready => .ready
  | .alive _ => .running
  | .ended _ => .ended

/-- It is past the creation of the next thread, and this is the one. -/
def Passed (child : Nat) : ThreadLife → Prop
  | .alive (.running (some c)) | .alive (.leaving (some c)) | .alive (.shut c) => c = child
  | .alive .waited | .alive .first | .alive .flushed | .ended _ => True
  | _ => False

/-- It has no thread to create any more. -/
def Past : ThreadLife → Prop
  | .alive (.running _) | .alive (.leaving _) | .alive (.shut _) => True
  | .alive .waited | .alive .first | .alive .flushed | .ended _ => True
  | _ => False

def Over : ThreadLife → Prop
  | .alive .waited | .alive .first | .alive .flushed | .ended _ => True
  | _ => False

/-- It makes the final flush, or has made it. -/
def Flushing : ThreadLife → Prop
  | .alive .first | .alive .flushed | .ended true => True
  | _ => False

def Ended : ThreadLife → Prop
  | .ended _ => True
  | _ => False

/-- What the last thread, which has number `t`, knows about the count, when `n`
threads were asked for. -/
def Counted (n count : UInt32) (t : Nat) (failed : Prop) : ThreadLife → Prop
  | .suspended | .ready | .alive .begun | .alive .counting =>
      n.toNat = count.toNat + t ∧ 1 ≤ count.toNat
  | .alive .taking => n.toNat = count.toNat + t ∧ 1 < count.toNat
  | .alive (.storing c) => n.toNat = count.toNat + t ∧ 1 < count.toNat ∧ c = count
  | .alive .creating => n.toNat = count.toNat + t + 1 ∧ 1 ≤ count.toNat
  | .alive (.running none) | .alive (.leaving none) | .alive .waited | .alive .first
  | .alive .flushed | .ended _ => t + 1 ≤ n.toNat ∧ (t + 1 = n.toNat ∨ failed)
  | _ => False

variable {l : ThreadLife} {n count : UInt32} {t child : Nat} {failed failed' : Prop}

theorem Counted.mono (h : l.Counted n count t failed) (hfailed : failed → failed') :
    l.Counted n count t failed' := by
  cases l with
  | alive stage =>
      cases stage with
      | running c | leaving c =>
          cases c with
          | none => exact ⟨h.1, h.2.imp_right hfailed⟩
          | some c => exact h
      | waited | first | flushed => exact ⟨h.1, h.2.imp_right hfailed⟩
      | _ => exact h
  | ended => exact ⟨h.1, h.2.imp_right hfailed⟩
  | _ => exact h

theorem Counted.le (h : l.Counted n count t failed) : t + 1 ≤ n.toNat := by
  cases l with
  | alive stage =>
      cases stage with
      | running c | leaving c =>
          cases c with
          | none => exact h.1
          | some c => exact absurd h id
      | waited | first | flushed => exact h.1
      | shut => exact absurd h id
      | begun | counting | taking | storing | creating =>
          have hn := h.1
          have hcount : 1 ≤ count.toNat := by
            first | exact h.2 | exact Nat.le_of_lt h.2 | exact Nat.le_of_lt h.2.1
          omega
  | suspended | ready =>
      obtain ⟨hn, hcount⟩ := h
      omega
  | ended => exact h.1
  | unborn => exact absurd h id

theorem Counted.eq (h : l.Counted n count t failed) (hpast : l.Past) :
    t + 1 = n.toNat ∨ failed := by
  cases l with
  | alive stage =>
      cases stage with
      | running c | leaving c =>
          cases c with
          | none => exact h.2
          | some c => exact absurd h id
      | waited | first | flushed => exact h.2
      | shut => exact absurd h id
      | _ => exact absurd hpast id
  | ended => exact h.2
  | _ => exact absurd hpast id

theorem Over.past (h : l.Over) : l.Past := by
  cases l with
  | alive stage => cases stage <;> trivial
  | ended => trivial
  | _ => exact absurd h id

theorem Over.of_ended (h : l.Ended) : l.Over := by
  cases l <;> trivial

end ThreadLife

/-! ## All lives -/

/-- `failed`: was there a thread that could not allocate its data buffer or
create the next one? -/
structure ChainFacts (n : UInt32) (failed : Prop) (s : DispatcherUnit) (L : Nat → ThreadLife) :
    Prop where
  unborn : ∀ t, L t = .unborn ↔ s.next ≤ t
  status : ∀ t, s.status t = (L t).status
  threadId : 0 < s.next → s.threadId = some 0
  earlier : ∀ t, t + 1 < s.next → (L t).Passed (t + 1)
  last : ∀ t, t + 1 = s.next → (L t).Counted n s.threadCount t failed
  waits : ∀ t t', t < t' → t' < s.next → (L t).Over → (L t').Ended
  flush : ∀ t, (L t).Flushing → t = 0

namespace ChainFacts

variable {n : UInt32} {failed failed' : Prop} {s s' : DispatcherUnit} {L : Nat → ThreadLife}
  {t : Nat}

theorem born (h : ChainFacts n failed s L) (ht : L t ≠ .unborn) : t < s.next := by
  rw [ne_eq, h.unborn] at ht
  omega

/-- A thread that has not created the next one is the last. -/
theorem isLast (h : ChainFacts n failed s L) (ht : t < s.next) (hl : ¬ (L t).Passed (t + 1)) :
    t + 1 = s.next := by
  by_contra hne
  exact hl (h.earlier t (by omega))

theorem frame (h : ChainFacts n failed s L) (hfailed : failed → failed')
    (hnext : s'.next = s.next) (hstatus : s'.status = s.status) (hid : s'.threadId = s.threadId)
    (hcount : s'.threadCount = s.threadCount) : ChainFacts n failed' s' L where
  unborn t := hnext ▸ h.unborn t
  status t := hstatus ▸ h.status t
  threadId hpos := hid ▸ h.threadId (hnext ▸ hpos)
  earlier t ht := h.earlier t (hnext ▸ ht)
  last t ht := hcount ▸ (h.last t (hnext ▸ ht)).mono hfailed
  waits t t' hlt ht' := h.waits t t' hlt (hnext ▸ ht')
  flush := h.flush

theorem update (l' : ThreadLife) (h : ChainFacts n failed s L) (ht : t < s.next)
    (hborn : l' ≠ .unborn)
    (hfailed : failed → failed') (hnext : s'.next = s.next) (hid : s'.threadId = s.threadId)
    (hstatus : s'.status t = l'.status) (hothers : ∀ t', t' ≠ t → s'.status t' = s.status t')
    (hcount : s'.threadCount = s.threadCount ∨ ¬ (L t).Passed (t + 1))
    (hpassed : (L t).Passed (t + 1) → l'.Passed (t + 1))
    (hcounted : (L t).Counted n s.threadCount t failed →
      l'.Counted n s'.threadCount t failed')
    (hended : ¬ (L t).Ended)
    (hover : l'.Over → (L t).Over ∨ ∀ t', t < t' → t' < s.next → (L t').Ended)
    (hflush : l'.Flushing → t = 0) :
    ChainFacts n failed' s' (Function.update L t l') := by
  refine ⟨fun t' => ?_, fun t' => ?_, fun hpos => ?_, fun t' ht' => ?_, fun t' ht' => ?_,
    fun t₁ t₂ hlt ht₂ hover₁ => ?_, fun t' hflushing => ?_⟩
  · by_cases heq : t' = t
    · subst heq
      rw [Function.update_self, hnext]
      exact iff_of_false hborn (Nat.not_le.mpr ht)
    · rw [Function.update_of_ne heq, hnext]
      exact h.unborn t'
  · by_cases heq : t' = t
    · subst heq
      rw [Function.update_self, hstatus]
    · rw [Function.update_of_ne heq, hothers t' heq]
      exact h.status t'
  · rw [hid]
    exact h.threadId (hnext ▸ hpos)
  · rw [hnext] at ht'
    by_cases heq : t' = t
    · subst heq
      rw [Function.update_self]
      exact hpassed (h.earlier t' ht')
    · rw [Function.update_of_ne heq]
      exact h.earlier t' ht'
  · rw [hnext] at ht'
    by_cases heq : t' = t
    · subst heq
      rw [Function.update_self]
      exact hcounted (h.last t' ht')
    · rw [Function.update_of_ne heq]
      -- only the last thread stores a count
      have hsame : s'.threadCount = s.threadCount := hcount.resolve_right fun hnot =>
        heq (by have hlast := h.isLast ht hnot; omega)
      rw [hsame]
      exact (h.last t' ht').mono hfailed
  · rw [hnext] at ht₂
    by_cases heq₁ : t₁ = t
    · subst heq₁
      rw [Function.update_self] at hover₁
      rw [Function.update_of_ne (Nat.ne_of_gt hlt)]
      rcases hover hover₁ with hwas | hall
      · exact h.waits t₁ t₂ hlt ht₂ hwas
      · exact hall t₂ hlt ht₂
    · rw [Function.update_of_ne heq₁] at hover₁
      have hended₂ := h.waits t₁ t₂ hlt ht₂ hover₁
      by_cases heq₂ : t₂ = t
      · subst heq₂
        exact absurd hended₂ hended
      · rwa [Function.update_of_ne heq₂]
  · by_cases heq : t' = t
    · subst heq
      rw [Function.update_self] at hflushing
      exact hflush hflushing
    · rw [Function.update_of_ne heq] at hflushing
      exact h.flush t' hflushing

end ChainFacts

/-! ## What has happened to a thread -/

inductive ThreadMark
  | begun
  | shut
  | flushed
  | ended
  deriving DecidableEq, Repr

def threadMark : DispatcherEvent → Option (ThreadMark × Nat)
  | .act .begin self => some (.begun, self)
  | .act (.shutdown (some self)) _ => some (.shut, self)
  | .act (.finalFlush self) _ => some (.flushed, self)
  | .act (.endThread self) _ => some (.ended, self)
  | _ => none

inductive ThreadPoint
  /-- A transact call that succeeded. -/
  | looping
  /-- An error that ends its loop, or keeps it from there. -/
  | left
  deriving DecidableEq, Repr

def pointMark : DispatcherEvent → Option (ThreadPoint × Nat)
  | .act (.transact self ..) (error, _) =>
      if error = 0 then some (.looping, self) else some (.left, self)
  | .act (.bufferAlloc self) none => some (.left, self)
  | .act (.createThread self) (.error _) => some (.left, self)
  | _ => none

def creationMark : DispatcherEvent → Option Nat
  | .act .createFirstThread (.ok thread) => some thread
  | .act (.createThread _) (.ok thread) => some thread
  | _ => none

/-- An allocation of a data buffer or a creation fails. -/
def failureMark : DispatcherEvent → Option Unit
  | .act (.bufferAlloc _) none => some ()
  | .act .createFirstThread (.error _) => some ()
  | .act (.createThread _) (.error _) => some ()
  | _ => none

def Failed (ls : List DispatcherEvent) : Prop := 0 < tally failureMark ls ()

theorem Failed.snoc {ls : List DispatcherEvent} {ev : DispatcherEvent} (h : Failed ls) :
    Failed (ls ++ [ev]) := by
  unfold Failed at h ⊢
  rw [tally_snoc]
  omega

theorem Failed.of_mark {ls : List DispatcherEvent} {ev : DispatcherEvent}
    (h : failureMark ev = some ()) : Failed (ls ++ [ev]) := by
  unfold Failed
  rw [tally_snoc, if_pos h]
  omega

def ThreadLife.marked : ThreadLife → ThreadMark → Nat
  | .alive _, .begun | .ended _, .begun => 1
  | .alive (.shut _), .shut | .alive .waited, .shut | .alive .first, .shut
  | .alive .flushed, .shut | .ended _, .shut => 1
  | .alive .flushed, .flushed | .ended true, .flushed => 1
  | .ended _, .ended => 1
  | _, _ => 0

def ThreadLife.At (p : ThreadPoint) : ThreadLife → Prop
  | .alive (.running _) => p = .looping
  | .alive (.leaving _) | .alive (.shut _) => True
  | .alive .waited | .alive .first | .alive .flushed | .ended _ => True
  | _ => False

def ThreadLife.Unstarted : ThreadLife → Prop
  | .unborn | .suspended | .ready => True
  | _ => False

/-! ## The invariant -/

namespace ChainAccount

/-- One thread has this number, and one starts the dispatcher. -/
def name : ChainAccount → Option (Option Nat)
  | .user => none
  | .starting | .counted => some none
  | .thread self _ => some (some self)

def Agrees (n : UInt32) (s : DispatcherUnit) (L : Nat → ThreadLife) : ChainAccount → Prop
  | .user => True
  | .starting => s.next = 0
  | .counted => s.next = 0 ∧ s.threadCount = n
  | .thread self stage => L self = .alive stage

end ChainAccount

/-- `n` threads were asked for, and the lives are `L`. -/
structure ChainInv (n : UInt32) (ls : List DispatcherEvent) (s : DispatcherUnit)
    (gs : List ChainAccount) (L : Nat → ThreadLife) : Prop where
  facts : ChainFacts n (Failed ls) s L
  names : (gs.filterMap ChainAccount.name).Nodup
  agrees : ∀ g ∈ gs, g.Agrees n s L
  present : ∀ t stage, L t = .alive stage → .thread t stage ∈ gs
  marks : ∀ t m, tally threadMark ls (m, t) = (L t).marked m
  points : ∀ t p, 0 < tally pointMark ls (p, t) → (L t).At p

namespace ChainInv

variable {n : UInt32} {ls : List DispatcherEvent} {s s' : DispatcherUnit}
  {g g' : ChainAccount} {gs gs' : List ChainAccount} {L L' : Nat → ThreadLife} {t : Nat}
  {ev : DispatcherEvent} {stage : ChainStage} {l' : ThreadLife}

theorem perm (hperm : gs.Perm gs') (h : ChainInv n ls s gs L) : ChainInv n ls s gs' L where
  facts := h.facts
  names := (hperm.filterMap _).nodup_iff.mp h.names
  agrees g hg := h.agrees g (hperm.mem_iff.mpr hg)
  present t stage hl := hperm.mem_iff.mp (h.present t stage hl)
  marks := h.marks
  points := h.points

theorem other (h : ChainInv n ls s (.thread t stage :: gs) L) {stage' : ChainStage} :
    .thread t stage' ∉ gs := by
  intro hmem
  have hnodup : (some t :: gs.filterMap ChainAccount.name).Nodup := h.names
  exact (List.nodup_cons.mp hnodup).1 (List.mem_filterMap.mpr ⟨_, hmem, rfl⟩)

theorem started (h : ChainInv n ls s gs L) (ht : t < s.next) (hg : g ∈ gs) :
    g = .user ∨ ∃ t stage, g = .thread t stage := by
  have hagrees := h.agrees g hg
  cases g with
  | user => exact .inl rfl
  | starting =>
      have hzero : s.next = 0 := hagrees
      omega
  | counted =>
      have hzero : s.next = 0 := hagrees.1
      omega
  | thread t stage => exact .inr ⟨t, stage, rfl⟩

/-- No life changes but of threads that have not begun. -/
def Same (L L' : Nat → ThreadLife) (t : Nat) : Prop :=
  L' t = L t ∨ (L t).Unstarted ∧ (L' t).Unstarted

theorem Same.alive (h : Same L L' t) : L' t = .alive stage ↔ L t = .alive stage := by
  rcases h with h | ⟨h, h'⟩
  · rw [h]
  · constructor <;> intro hl
    · rw [hl] at h'
      exact absurd h' id
    · rw [hl] at h
      exact absurd h id

theorem Same.marked {m : ThreadMark} (h : Same L L' t) : (L' t).marked m = (L t).marked m := by
  rcases h with h | ⟨h, h'⟩
  · rw [h]
  · revert h h'
    cases L t <;> cases L' t <;> cases m <;> simp [ThreadLife.Unstarted, ThreadLife.marked]

theorem Same.at {p : ThreadPoint} (h : Same L L' t) (hp : (L t).At p) : (L' t).At p := by
  rcases h with h | ⟨h, h'⟩
  · rwa [h]
  · revert h hp
    cases L t <;> simp [ThreadLife.Unstarted, ThreadLife.At]

/-- A thread takes a step, and its life changes with its account. -/
theorem step (m : Option ThreadMark) (h : ChainInv n ls s (g :: gs) L)
    (hfacts : ChainFacts n (Failed (ls ++ [ev])) s' L') (ht : t < s.next)
    (hg : g = .user ∧ (∀ stage, L t ≠ .alive stage) ∨ ∃ stage, g = .thread t stage)
    (hg' : (∃ stage, g' = .thread t stage ∧ L' t = .alive stage) ∨
      g' = .user ∧ ∀ stage, L' t ≠ .alive stage)
    (hsame : ∀ t', t' ≠ t → Same L L' t')
    (hmark : threadMark ev = m.map fun m => (m, t))
    (hmarked : ∀ i, (L' t).marked i = (L t).marked i + if m = some i then 1 else 0)
    (hpoint : ∀ p t', pointMark ev = some (p, t') → t' = t ∧ (L' t).At p)
    (hat : ∀ p, (L t).At p → (L' t).At p) : ChainInv n (ls ++ [ev]) s' (g' :: gs) L' := by
  have hothers : ∀ stage, .thread t stage ∉ gs := by
    intro stage hmem
    rcases hg with ⟨-, hdead⟩ | ⟨stage, rfl⟩
    · exact hdead stage (h.agrees _ (List.mem_cons_of_mem _ hmem))
    · exact h.other hmem
  refine ⟨hfacts, ?_, List.forall_mem_cons.mpr ⟨?_, fun k hk => ?_⟩, fun t' stage hl => ?_,
    fun t' i => ?_, fun t' p hp => ?_⟩
  · have hnodup : (gs.filterMap ChainAccount.name).Nodup :=
      h.names.sublist ((List.sublist_cons_self g gs).filterMap _)
    rcases hg' with ⟨stage, rfl, -⟩ | ⟨rfl, -⟩
    · refine List.nodup_cons.mpr ⟨fun hmem => ?_, hnodup⟩
      obtain ⟨k, hk, hname⟩ := List.mem_filterMap.mp hmem
      cases k with
      | thread t' stage' =>
          cases hname
          exact hothers stage' hk
      | _ => cases hname
    · exact hnodup
  · rcases hg' with ⟨stage, rfl, hl⟩ | ⟨rfl, -⟩
    · exact hl
    · trivial
  · rcases h.started ht (List.mem_cons_of_mem _ hk) with rfl | ⟨t', stage, rfl⟩
    · trivial
    · have hne : t' ≠ t := fun heq => hothers stage (heq ▸ hk)
      exact (hsame t' hne).alive.mpr (h.agrees _ (List.mem_cons_of_mem _ hk))
  · by_cases heq : t' = t
    · subst heq
      rcases hg' with ⟨stage', rfl, hl'⟩ | ⟨-, hdead⟩
      · rw [hl'] at hl
        cases hl
        exact List.mem_cons_self
      · exact absurd hl (hdead stage)
    · have hmem := h.present t' stage ((hsame t' heq).alive.mp hl)
      rcases List.mem_cons.mp hmem with hk | hk
      · rcases hg with ⟨rfl, -⟩ | ⟨stage', rfl⟩
        · cases hk
        · cases hk
          exact absurd rfl heq
      · exact List.mem_cons_of_mem _ hk
  · rw [tally_snoc, h.marks t' i, hmark]
    by_cases heq : t' = t
    · subst heq
      rw [hmarked i]
      cases m with
      | none => rfl
      | some m => simp
    · rw [(hsame t' heq).marked]
      cases m with
      | none => rfl
      | some m => simp [Ne.symm heq]
  · rw [tally_snoc] at hp
    by_cases hev : pointMark ev = some (p, t')
    · obtain ⟨rfl, hp⟩ := hpoint p t' hev
      exact hp
    · rw [if_neg hev, Nat.add_zero] at hp
      by_cases heq : t' = t
      · subst heq
        exact hat p (h.points t' p hp)
      · exact (hsame t' heq).at (h.points t' p hp)

theorem outside (h : ChainInv n ls s (g :: gs) L)
    (hfacts : ChainFacts n (Failed (ls ++ [ev])) s' L') (hg : g.Outside)
    (hname : g'.name = none ∨ g'.name = g.name) (hagrees : g'.Agrees n s' L')
    (hothers : ∀ k ∈ gs, k.Outside → k.Agrees n s' L')
    (hsame : ∀ t, Same L L' t) (hmark : threadMark ev = none) (hpoint : pointMark ev = none) :
    ChainInv n (ls ++ [ev]) s' (g' :: gs) L' := by
  refine ⟨hfacts, ?_, List.forall_mem_cons.mpr ⟨hagrees, fun k hk => ?_⟩,
    fun t' stage hl => ?_,
    fun t' i => ?_, fun t' p hp => ?_⟩
  · have hnodup := h.names
    rw [List.filterMap_cons] at hnodup ⊢
    rcases hname with hname | hname
    · rw [hname]
      exact h.names.sublist ((List.sublist_cons_self g gs).filterMap _)
    · rwa [hname]
  · cases k with
    | thread t' stage => exact (hsame t').alive.mpr (h.agrees _ (List.mem_cons_of_mem _ hk))
    | _ => exact hothers _ hk trivial
  · have hmem := h.present t' stage ((hsame t').alive.mp hl)
    rcases List.mem_cons.mp hmem with hk | hk
    · subst hk
      exact absurd hg id
    · exact List.mem_cons_of_mem _ hk
  · rw [tally_snoc, h.marks t' i, hmark, if_neg nofun, Nat.add_zero, (hsame t').marked]
  · rw [tally_snoc, hpoint, if_neg nofun, Nat.add_zero] at hp
    exact (hsame t').at (h.points t' p hp)

theorem quiet (h : ChainInv n ls s (g :: gs) L) (hnext : s'.next = s.next)
    (hstatus : s'.status = s.status) (hid : s'.threadId = s.threadId)
    (hcount : s'.threadCount = s.threadCount) (hmark : threadMark ev = none)
    (hpoint : ∀ p t, pointMark ev = some (p, t) → (L t).At p) :
    ChainInv n (ls ++ [ev]) s' (g :: gs) L where
  facts := h.facts.frame (fun hfailed => hfailed.snoc) hnext hstatus hid hcount
  names := h.names
  agrees k hk := by
    have hagrees := h.agrees k hk
    cases k with
    | user => trivial
    | starting => exact hnext.trans hagrees
    | counted => exact ⟨hnext.trans hagrees.1, hcount.trans hagrees.2⟩
    | thread t stage => exact hagrees
  present := h.present
  marks t i := by rw [tally_snoc, h.marks t i, hmark, if_neg nofun, Nat.add_zero]
  points t p hp := by
    rw [tally_snoc] at hp
    by_cases hev : pointMark ev = some (p, t)
    · exact hpoint p t hev
    · rw [if_neg hev, Nat.add_zero] at hp
      exact h.points t p hp

end ChainInv

end Winspd.Proofs
