import Winspd.Lib.Threads

/-!
# A call among threads

What a call returns is of no interest to the threads of `Lib.Threads`, which all
return nothing. A `Call` is one of them with what it still has to return in
view, and the others. Its steps are the steps of that thread and those of the
others, and they are steps of all threads together (`Call.Step.threads`), so
what is verified for the threads holds all along a call (`Call.run_verified`).
-/

namespace Winspd.Lib

variable {A : Type} {R : A → Type} {S G α : Type}

/-- A thread that is to return an `α`, and the others. -/
structure Call (A : Type) (R : A → Type) (S G α : Type) where
  shared : S
  prog : Prog A R α
  account : G
  others : List (Thread A R G)

namespace Call

/-- All threads. What the call returns is dropped. -/
def world (c : Call A R S G α) : Threads A R S G :=
  ⟨c.shared, ⟨c.prog >>= fun _ => pure (), c.account⟩ :: c.others⟩

inductive Step (L : Rules A R G) (exec : S → (a : A) → R a → S → Prop)
    (entry : Prog A R Unit → Prop) :
    Call A R S G α → ThreadEvent A R → Call A R S G α → Prop
  | own {s s' : S} {a : A} {k : R a → Prog A R α} {g : G} {r : R a} {ts : List (Thread A R G)} :
      exec s a r s' → Step L exec entry ⟨s, .act a k, g, ts⟩ (.act a r)
        ⟨s', k r, L.track a r g, ts⟩
  | other {s s' : S} {p : Prog A R α} {g : G} {ts ts' : List (Thread A R G)}
      {ev : ThreadEvent A R} :
      Threads.Step L exec entry ⟨s, ts⟩ ev ⟨s', ts'⟩ →
        Step L exec entry ⟨s, p, g, ts⟩ ev ⟨s', p, g, ts'⟩

variable {L : Rules A R G} {exec : S → (a : A) → R a → S → Prop}
  {entry : Prog A R Unit → Prop} {c c' : Call A R S G α} {ev : ThreadEvent A R}

/-- A step of a call is one of all threads, but for their order. -/
theorem Step.threads (h : Step L exec entry c ev c') :
    ∃ w', Threads.Step L exec entry c.world ev w' ∧ w'.shared = c'.shared ∧
      w'.threads.Perm c'.world.threads := by
  cases h with
  | own hexec => exact ⟨_, Threads.step_head hexec, rfl, .refl _⟩
  | @other s s' p g ts ts' ev hstep =>
      cases hstep with
      | enter hp => exact ⟨_, .enter hp, rfl, .swap _ _ _⟩
      | @act s s' us vs a k g' r hexec =>
          have hact : Threads.Step L exec entry
              ⟨s, (⟨p >>= fun _ => pure (), g⟩ :: us) ++ ⟨.act a k, g'⟩ :: vs⟩
              (.act a r)
              ⟨s', (⟨p >>= fun _ => pure (), g⟩ :: us) ++
                ⟨k r, L.track a r g'⟩ :: vs⟩ :=
            .act hexec
          exact ⟨_, hact, rfl, .refl _⟩
      | @leave s us vs g' =>
          have hleave : Threads.Step L exec entry
              ⟨s, (⟨p >>= fun _ => pure (), g⟩ :: us) ++ ⟨.ret (), g'⟩ :: vs⟩ .leave
              ⟨s, (⟨p >>= fun _ => pure (), g⟩ :: us) ++ vs⟩ := .leave
          exact ⟨_, hleave, rfl, .refl _⟩

/-- What every step of the threads keeps verified stays so during a call. -/
theorem run_verified {I : List (ThreadEvent A R) → S → List G → Prop}
    {ls ls' : List (ThreadEvent A R)}
    (hperm : ∀ {ls s gs gs'}, List.Perm gs gs' → I ls s gs → I ls s gs')
    (hstep : ∀ {ls w ev w'}, Threads.Verified L (I ls) w → Threads.Step L exec entry w ev w' →
      Threads.Verified L (I (ls ++ [ev])) w')
    (h : Threads.Verified L (I ls) c.world) (hrun : Run (Step L exec entry) c ls' c') :
    Threads.Verified L (I (ls ++ ls')) c'.world := by
  induction hrun with
  | nil =>
      rw [List.append_nil]
      exact h
  | @snoc ls' ev c' c'' hr hlast ih =>
      obtain ⟨w', hthreads, hshared, hsame⟩ := hlast.threads
      have hw' := hstep ih hthreads
      rw [← List.append_assoc]
      refine ⟨?_, fun t ht => hw'.safe t (hsame.mem_iff.mpr ht)⟩
      have hinv := hperm (hsame.map Thread.account) hw'.inv
      rw [hshared] at hinv
      exact hinv

theorem run_alone {run : S → (a : A) → Option (S × R a)} {s s' : S} {p : Prog A R α} {x : α}
    {g : G} {ts : List (Thread A R G)}
    (hrun : ∀ s a s' r, run s a = some (s', r) → exec s a r s')
    (h : p.alone run s = some (s', x)) :
    ∃ ls g', Run (Step L exec entry) ⟨s, p, g, ts⟩ ls ⟨s', .ret x, g', ts⟩ := by
  induction p generalizing s g with
  | ret y =>
      cases h
      exact ⟨[], g, .nil⟩
  | act a k ih =>
      obtain ⟨⟨s₁, r⟩, hact, hrest⟩ := Option.bind_eq_some_iff.mp h
      obtain ⟨ls, g', hr⟩ := ih r (g := L.track a r g) hrest
      exact ⟨_, g', .cons (.own (hrun s a s₁ r hact)) hr⟩

end Call

end Winspd.Lib
