import Mathlib.Data.List.Basic

/-!
# Lifetimes of memory blocks

A history of allocations and frees. What it says of one block is whether the
block is allocated at its end: `lifetime b es`. It says nothing, `none`, when
the block is allocated while it is allocated or freed while it is not, so that
a block that is not allocated at the end of a history has been freed exactly
once for every time it was allocated.

What is allocated at the end of a history is a list (`Owns`). A `ResourceLog`
numbers what is allocated, so that it is not mistaken for what had its place
before, and `ResourceLog.Holds` is what is allocated by it.
-/

namespace Winspd.Lib

inductive MemoryEvent (β : Type*)
  | alloc (b : β)
  | free (b : β)
  deriving DecidableEq, Repr

variable {β : Type*} [DecidableEq β] {b c : β} {es es' : List (MemoryEvent β)} {a : Bool}

/-- Whether block `b` is allocated after an event. -/
def MemoryEvent.next (b : β) (a : Bool) : MemoryEvent β → Option Bool
  | .alloc c => if c = b then (if a then none else some true) else some a
  | .free c => if c = b then (if a then some false else none) else some a

/-- Whether block `b` is allocated after a history. -/
def lifetime (b : β) (es : List (MemoryEvent β)) : Option Bool :=
  es.foldlM (MemoryEvent.next b) false

theorem lifetime_append (h : lifetime b es = some a) :
    lifetime b (es ++ es') = es'.foldlM (MemoryEvent.next b) a := by
  rw [lifetime, List.foldlM_append, ← lifetime, h]
  rfl

theorem lifetime_alloc (h : lifetime b es = some false) :
    lifetime b (es ++ [.alloc b]) = some true := by
  rw [lifetime_append h]
  show (if b = b then _ else _) >>= _ = _
  rw [if_pos rfl]
  rfl

theorem lifetime_free (h : lifetime b es = some true) :
    lifetime b (es ++ [.free b]) = some false := by
  rw [lifetime_append h]
  show (if b = b then _ else _) >>= _ = _
  rw [if_pos rfl]
  rfl

theorem lifetime_other (h : ∀ e ∈ es', e ≠ .alloc b ∧ e ≠ .free b) :
    lifetime b (es ++ es') = lifetime b es := by
  rw [lifetime, List.foldlM_append, ← lifetime]
  cases lifetime b es with
  | none => rfl
  | some a =>
      show es'.foldlM (MemoryEvent.next b) a = some a
      induction es' with
      | nil => rfl
      | cons e es' ih =>
          obtain ⟨halloc, hfree⟩ := h e List.mem_cons_self
          have hnext : MemoryEvent.next b a e = some a := by
            cases e with
            | alloc c => exact if_neg fun heq => halloc (congrArg _ heq)
            | free c => exact if_neg fun heq => hfree (congrArg _ heq)
          rw [List.foldlM_cons, hnext]
          exact ih fun e he => h e (List.mem_cons_of_mem _ he)

/-- Every allocation of the history has been freed once, and nothing else has
been freed. -/
def AllFreed (es : List (MemoryEvent β)) : Prop := ∀ b, lifetime b es = some false

theorem lifetime_none (h : lifetime b es = none) : lifetime b (es ++ es') = none := by
  rw [lifetime, List.foldlM_append, ← lifetime, h]
  rfl

theorem lifetime_free_unallocated (h : lifetime b es = some false) :
    lifetime b (es ++ [.free b]) = none := by
  rw [lifetime_append h]
  show (if b = b then _ else _) >>= _ = _
  rw [if_pos rfl]
  rfl

/-! ## What is allocated -/

/-- The blocks that are allocated after a history are these. -/
structure Owns (es : List (MemoryEvent β)) (bs : List β) : Prop where
  nodup : bs.Nodup
  lifetime : ∀ b, lifetime b es = some (decide (b ∈ bs))

variable {bs cs : List β}

theorem owns_nil_iff : Owns es [] ↔ AllFreed es := by
  constructor
  · intro h b
    simpa using h.lifetime b
  · intro h
    exact ⟨.nil, fun b => by simpa using h b⟩

theorem Owns.start : Owns ([] : List (MemoryEvent β)) [] := owns_nil_iff.mpr fun _ => rfl

theorem Owns.perm (h : Owns es bs) (hperm : bs.Perm cs) : Owns es cs := by
  refine ⟨hperm.nodup_iff.mp h.nodup, fun b => ?_⟩
  rw [h.lifetime b]
  simp [hperm.mem_iff]

theorem Owns.alloc (h : Owns es bs) (hb : b ∉ bs) : Owns (es ++ [.alloc b]) (b :: bs) := by
  refine ⟨List.nodup_cons.mpr ⟨hb, h.nodup⟩, fun c => ?_⟩
  by_cases hc : c = b
  · subst hc
    have hnot : Winspd.Lib.lifetime c es = some false := by simpa [hb] using h.lifetime c
    rw [lifetime_alloc hnot]
    simp
  · rw [lifetime_other (by simpa using Ne.symm hc), h.lifetime c]
    simp [hc]

theorem Owns.free (h : Owns es (b :: bs)) : Owns (es ++ [.free b]) bs := by
  obtain ⟨hb, hnodup⟩ := List.nodup_cons.mp h.nodup
  refine ⟨hnodup, fun c => ?_⟩
  by_cases hc : c = b
  · subst hc
    have hone : Winspd.Lib.lifetime c es = some true := by simpa using h.lifetime c
    rw [lifetime_free hone]
    simp [hb]
  · rw [lifetime_other (by simpa using Ne.symm hc), h.lifetime c]
    simp [hc]

/-- Who frees what is not allocated leaves a history that says nothing. -/
theorem Owns.free_unowned (h : Owns es bs) (hb : b ∉ bs) :
    Winspd.Lib.lifetime b (es ++ .free b :: es') = none := by
  have hnot : Winspd.Lib.lifetime b es = some false := by simpa [hb] using h.lifetime b
  have hnone : Winspd.Lib.lifetime b (es ++ [.free b] ++ es') = none :=
    lifetime_none (lifetime_free_unallocated hnot)
  rwa [List.append_assoc] at hnone

/-! ## Numbered resources -/

/-- How many resources there have been, and which were acquired and released. -/
structure ResourceLog where
  next : Nat
  events : List (MemoryEvent Nat)

namespace ResourceLog

def empty : ResourceLog := ⟨0, []⟩

def acquire (log : ResourceLog) : ResourceLog × Nat :=
  (⟨log.next + 1, log.events ++ [.alloc log.next]⟩, log.next)

def release (log : ResourceLog) (r : Nat) : ResourceLog :=
  { log with events := log.events ++ [.free r] }

/-- These resources are held, and no others. -/
structure Holds (log : ResourceLog) (rs : List Nat) : Prop where
  owns : Owns log.events rs
  old : ∀ r ∈ rs, r < log.next

namespace Holds

variable {log : ResourceLog} {r : Nat} {rs rs' : List Nat}

theorem empty : ResourceLog.empty.Holds [] := ⟨.start, fun _ h => absurd h List.not_mem_nil⟩

theorem perm (h : log.Holds rs) (hperm : rs.Perm rs') : log.Holds rs' :=
  ⟨h.owns.perm hperm, fun r hr => h.old r (hperm.mem_iff.mpr hr)⟩

theorem fresh (h : log.Holds rs) : log.next ∉ rs := by
  intro hmem
  have hold := h.old _ hmem
  omega

theorem acquire (h : log.Holds rs) : log.acquire.1.Holds (log.acquire.2 :: rs) := by
  constructor
  · exact h.owns.alloc h.fresh
  · intro r hr
    show r < log.next + 1
    rcases List.mem_cons.mp hr with rfl | hr
    · exact Nat.lt_succ_self _
    · have hold := h.old _ hr
      omega

theorem release (h : log.Holds (r :: rs)) : (log.release r).Holds rs :=
  ⟨h.owns.free, fun r' hr' => h.old r' (List.mem_cons_of_mem _ hr')⟩

end Holds

end ResourceLog

end Winspd.Lib
