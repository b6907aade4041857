import Mathlib.Data.List.Count
import Mathlib.Order.WellFounded
import Mathlib.Data.Set.Basic
import Mathlib.Logic.Function.Basic

/-!
# Reader-writer locks, and threads that wait

A reader-writer lock is what each of its users holds. It is granted exclusive
to one user when nobody holds it, and shared when nobody holds it exclusive;
`Excludes` is what this buys. `Balanced` compares a history of the lock with its
state: a user that does not hold the lock has released it as often as it has
acquired it.

Who waits for whom is a relation between users that the system using the lock
defines. `Deadlocked` is a set of users each waiting for one of the set. There
is none when the relation leads down some rank.
-/

namespace Winspd.Lib

inductive LockMode
  | shared
  | exclusive
  deriving DecidableEq, Repr

abbrev RwLock (ι : Type*) := ι → Option LockMode

inductive LockEvent (ι : Type*)
  | acquire (t : ι) (mode : LockMode)
  | release (t : ι)
  deriving DecidableEq

namespace RwLock

variable {ι : Type*} {lock lock' : RwLock ι} {mode : LockMode} {t u : ι}

def free : RwLock ι := fun _ => none

def Grants (lock : RwLock ι) : LockMode → Prop
  | .shared => ∀ u, lock u ≠ some .exclusive
  | .exclusive => ∀ u, lock u = none

def Excludes (lock : RwLock ι) : Prop :=
  ∀ t u, lock t = some .exclusive → lock u ≠ none → u = t

theorem excludes_free : (free : RwLock ι).Excludes := fun _ _ h => by cases h

variable [DecidableEq ι]

def acquire (lock : RwLock ι) (t : ι) (mode : LockMode) : RwLock ι :=
  Function.update lock t (some mode)

def release (lock : RwLock ι) (t : ι) : RwLock ι := Function.update lock t none

theorem Excludes.acquire (h : lock.Excludes) (ht : lock t = none) (hgrants : lock.Grants mode) :
    (lock.acquire t mode).Excludes := by
  intro x y hx hy
  unfold RwLock.acquire at hx hy
  by_cases hxt : x = t
  · subst hxt
    rw [Function.update_self, Option.some.injEq] at hx
    subst hx
    by_contra hne
    rw [Function.update_of_ne hne] at hy
    exact hy (hgrants y)
  · rw [Function.update_of_ne hxt] at hx
    by_cases hyt : y = t
    · cases mode with
      | shared => exact absurd hx (hgrants x)
      | exclusive =>
          rw [hgrants x] at hx
          cases hx
    · rw [Function.update_of_ne hyt] at hy
      exact h x y hx hy

theorem Excludes.release (h : lock.Excludes) : (lock.release t).Excludes := by
  intro x y hx hy
  unfold RwLock.release at hx hy
  have hxt : x ≠ t := by
    intro hxt
    rw [hxt, Function.update_self] at hx
    cases hx
  have hyt : y ≠ t := by
    intro hyt
    rw [hyt, Function.update_self] at hy
    exact hy rfl
  rw [Function.update_of_ne hxt] at hx
  rw [Function.update_of_ne hyt] at hy
  exact h x y hx hy

/-! ## Histories of a lock -/

/-- One event of the lock: it is acquired by who does not hold it and released
by who does. -/
def Step (lock : RwLock ι) : LockEvent ι → RwLock ι → Prop
  | .acquire t mode, lock' => lock t = none ∧ lock.Grants mode ∧ lock' = lock.acquire t mode
  | .release t, lock' => lock t ≠ none ∧ lock' = lock.release t

/-- How often a user has acquired the lock. -/
def acquired (t : ι) (es : List (LockEvent ι)) : Nat :=
  es.count (.acquire t .shared) + es.count (.acquire t .exclusive)

def released (t : ι) (es : List (LockEvent ι)) : Nat := es.count (.release t)

/-- Every acquisition but the one that is being held has been released. -/
def Balanced (es : List (LockEvent ι)) (lock : RwLock ι) : Prop :=
  ∀ t, acquired t es = released t es + if lock t = none then 0 else 1

theorem balanced_free : Balanced [] (free : RwLock ι) := fun _ => rfl

theorem Balanced.step {es : List (LockEvent ι)} {e : LockEvent ι} (h : Balanced es lock)
    (hstep : lock.Step e lock') : Balanced (es ++ [e]) lock' := by
  intro u
  have hu := h u
  unfold acquired released at hu ⊢
  simp only [List.count_append, List.count_singleton]
  cases e with
  | acquire t mode =>
      obtain ⟨ht, -, rfl⟩ := hstep
      unfold RwLock.acquire
      by_cases hut : u = t
      · subst hut
        rw [if_pos ht] at hu
        cases mode <;> simp <;> omega
      · have htu : t ≠ u := Ne.symm hut
        simp only [Function.update_of_ne hut]
        cases mode <;> simp [htu] <;> omega
  | release t =>
      obtain ⟨ht, rfl⟩ := hstep
      unfold RwLock.release
      by_cases hut : u = t
      · subst hut
        rw [if_neg ht] at hu
        simp
        omega
      · have htu : t ≠ u := Ne.symm hut
        simp only [Function.update_of_ne hut]
        simp [htu]
        omega

end RwLock

/-! ## Waiting -/

variable {ι : Type*} {waits : ι → ι → Prop}

/-- A set of users each waiting for one of the set. -/
def Deadlocked (waits : ι → ι → Prop) (S : Set ι) : Prop :=
  S.Nonempty ∧ ∀ t ∈ S, ∃ u ∈ S, waits t u

/-- Nobody is deadlocked if one only waits for users of lower rank. -/
theorem not_deadlocked_of_rank (rank : ι → Nat) (h : ∀ t u, waits t u → rank u < rank t)
    (S : Set ι) : ¬ Deadlocked waits S := by
  rintro ⟨hne, hall⟩
  obtain ⟨t, ht, hmin⟩ := (measure rank).wf.has_min S hne
  obtain ⟨u, hu, hwaits⟩ := hall t ht
  exact hmin u hu (h t u hwaits)

end Winspd.Lib
