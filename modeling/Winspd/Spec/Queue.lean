import Winspd.Sys.Ioq

/-!
# What the I/O queue is for

The queue, without its links, its hash table and its addresses: two lists of
SRBs, the ones that wait to be handed to user mode and the ones user mode has,
the token that wakes a waiter, and whether the queue was stopped. An SRB is
known by the address of its extension, which is also the hint user mode answers
with; `Item` keeps the pair.

Each operation is stated the way one would say it: post at the tail, start
moves the first pending item to the tail of the processed ones, an answer takes
its item out and either puts it back in front or completes it, a cancel takes
its item out wherever it is, and a reset completes everything. `IoqRefine`
proves that `ioq.c` computes these.
-/

namespace Winspd.Spec

open Winspd.Sys

/-- An accepted SRB and its extension. -/
structure Item where
  ext : Addr
  srb : Addr
  deriving DecidableEq, Repr

structure Queue where
  stopped : Bool
  event : Bool
  pending : List Item
  process : List Item
  deriving DecidableEq, Repr

namespace Queue

def empty : Queue := ⟨false, false, [], []⟩

/-- The items the queue has: accepted and not yet completed. -/
def items (q : Queue) : List Item := q.pending ++ q.process

/-- The processed item with extension `e`. -/
def lookup (q : Queue) (e : Addr) : Option Item := q.process.find? (·.ext = e)

def post (q : Queue) (i : Item) : Queue × NtStatus :=
  if q.stopped then (q, .cancelled)
  else ({ q with pending := q.pending ++ [i], event := true }, .success)

def cancel (q : Queue) (i : Item) : Queue × List IoqCall × NtStatus :=
  if q.stopped then (q, [], .unsuccessful)
  else
    ({ q with pending := q.pending.erase i, process := q.process.erase i },
      [.srbComplete i.srb srbStatusAborted], .success)

def reset (q : Queue) (stop : Bool) : Queue × List IoqCall :=
  if q.stopped then (q, [])
  else (⟨stop, q.event || stop, [], []⟩, q.items.map fun i => .srbComplete i.srb
    srbStatusAborted)

variable {ω : Type}

def start (q : Queue) (prepare : Addr → Addr → ω → Option ω) (w : ω) :
    Option (Queue × ω × List IoqCall × NtStatus) :=
  if q.stopped then some ({ q with event := true }, w, [], .cancelled)
  else
    match q.pending with
    | [] => some (q, w, [], .unsuccessful)
    | i :: rest => do
        let w ← prepare i.ext i.srb w
        some
          ({ q with
              event := q.event || !rest.isEmpty
              pending := rest
              process := q.process ++ [i] },
            w, [.prepare i.ext i.srb], .success)

def finish (q : Queue) (complete : Addr → Addr → ω → Option (UInt8 × ω)) (w : ω)
    (hint : UInt64) : Option (Queue × ω × List IoqCall) :=
  if q.stopped then some (q, w, [])
  else
    match q.lookup hint with
    | none => some (q, w, [])
    | some i => do
        let (status, w) ← complete i.ext i.srb w
        let q := { q with process := q.process.erase i }
        if status = srbStatusPending then
          some ({ q with pending := i :: q.pending, event := true }, w,
            [.complete i.ext i.srb status])
        else
          some (q, w, [.complete i.ext i.srb status, .srbComplete i.srb status])

/-! ## What a step can do -/

variable {q q' : Queue} {w w' : ω} {calls : List IoqCall}

theorem post_of_running {i : Item} (hst : q.stopped = false) :
    q.post i = ({ q with pending := q.pending ++ [i], event := true }, .success) :=
  if_neg (by simp [hst])

/-- The three ways a start ends: a stopped queue, nothing pending, or the
first pending item handed out. -/
theorem start_cases {prepare : Addr → Addr → ω → Option ω} {status : NtStatus}
    (h : q.start prepare w = some (q', w', calls, status)) :
    (q.stopped = true ∧ q' = { q with event := true } ∧ w' = w ∧ calls = [] ∧
        status = .cancelled) ∨
      (q.stopped = false ∧ q.pending = [] ∧ q' = q ∧ w' = w ∧ calls = [] ∧
        status = .unsuccessful) ∨
      ∃ i rest, q.stopped = false ∧ q.pending = i :: rest ∧
        prepare i.ext i.srb w = some w' ∧
        q' = { q with
          event := q.event || !rest.isEmpty, pending := rest, process := q.process ++ [i] } ∧
        calls = [.prepare i.ext i.srb] ∧ status = .success := by
  unfold start at h
  split at h
  · next hst =>
      cases h
      exact .inl ⟨hst, rfl, rfl, rfl, rfl⟩
  · next hst =>
      rw [Bool.not_eq_true] at hst
      split at h
      · next hp =>
          cases h
          exact .inr (.inl ⟨hst, hp, rfl, rfl, rfl, rfl⟩)
      · next i rest hp =>
          simp only [Option.bind_eq_bind, Option.bind_eq_some_iff] at h
          obtain ⟨w₁, hw, h⟩ := h
          cases h
          exact .inr (.inr ⟨i, rest, hst, hp, hw, rfl, rfl, rfl⟩)

/-- The three ways an answer ends: nothing there, another chunk, or a
completion. -/
theorem finish_cases {complete : Addr → Addr → ω → Option (UInt8 × ω)} {hint : UInt64}
    (h : q.finish complete w hint = some (q', w', calls)) :
    (((q.stopped = true ∨ q.lookup hint = none)) ∧ q' = q ∧ w' = w ∧ calls = []) ∨
      ∃ i status, q.stopped = false ∧ q.lookup hint = some i ∧
        complete i.ext i.srb w = some (status, w') ∧
        ((status = srbStatusPending ∧
            q' = { q with
              event := true, pending := i :: q.pending, process := q.process.erase i } ∧
            calls = [.complete i.ext i.srb status]) ∨
          (status ≠ srbStatusPending ∧ q' = { q with process := q.process.erase i } ∧
            calls = [.complete i.ext i.srb status, .srbComplete i.srb status])) := by
  unfold finish at h
  split at h
  · next hst =>
      cases h
      exact .inl ⟨.inl hst, rfl, rfl, rfl⟩
  · next hst =>
      rw [Bool.not_eq_true] at hst
      split at h
      · next hl =>
          cases h
          exact .inl ⟨.inr hl, rfl, rfl, rfl⟩
      · next i hl =>
          simp only [Option.bind_eq_bind, Option.bind_eq_some_iff] at h
          obtain ⟨⟨status, w₁⟩, hw, h⟩ := h
          split at h
          · next hpend =>
              cases h
              exact .inr ⟨i, status, hst, hl, hw, .inl ⟨hpend, rfl, rfl⟩⟩
          · next hpend =>
              cases h
              exact .inr ⟨i, status, hst, hl, hw, .inr ⟨hpend, rfl, rfl⟩⟩

theorem finish_of_lookup {complete : Addr → Addr → ω → Option (UInt8 × ω)} {hint : UInt64}
    {i : Item} {status : UInt8} (hl : q.lookup hint = some i) (hst : q.stopped = false)
    (hc : complete i.ext i.srb w = some (status, w')) (hne : status ≠ srbStatusPending) :
    q.finish complete w hint = some ({ q with process := q.process.erase i }, w',
      [.complete i.ext i.srb status, .srbComplete i.srb status]) := by
  rw [finish, if_neg (by simp [hst])]
  simp only [hl, hc, Option.bind_eq_bind, Option.bind_some, if_neg hne]

end Queue

end Winspd.Spec
