import Mathlib.Data.List.Induction

/-!
# Runs of a labelled step relation

A system is a relation `step s l s'`: from `s`, the label `l` can lead to
`s'`. A run is a finite sequence of steps, kept as the list of its labels in
the order they happened. Everything a development says about "every sequence
of operations" or "every interleaving" is a statement about `Run`.

The rules are the two inductions such statements need. `Run.inv` is for a
property of states. `Run.history` is for a property of the history and the
state together, which is what "was done before", "exactly once" and "in this
order" are; its step case gets the label, so it can also carry a condition on
the labels. `Run.split` and `Run.append` take a run apart at a step and put
two runs together. `LastIs` is what the last event of a kind said.
-/

namespace Winspd.Lib

variable {σ ℓ : Type*} {step : σ → ℓ → σ → Prop} {s₀ s s' : σ}
  {ls ls' : List ℓ} {l : ℓ}

/-- `Run step s₀ ls s`: the steps labelled `ls`, in that order, lead from `s₀`
to `s`. -/
inductive Run (step : σ → ℓ → σ → Prop) (s₀ : σ) : List ℓ → σ → Prop
  | nil : Run step s₀ [] s₀
  | snoc {ls : List ℓ} {l : ℓ} {s s' : σ} :
      Run step s₀ ls s → step s l s' → Run step s₀ (ls ++ [l]) s'

/-- A property of history and state that holds of the empty history and that
every step keeps holds along every run. -/
theorem Run.history {I : List ℓ → σ → Prop} (hr : Run step s₀ ls s)
    (h₀ : I [] s₀)
    (hs : ∀ {ls s l s'}, Run step s₀ ls s → I ls s → step s l s' →
      I (ls ++ [l]) s') : I ls s := by
  induction hr with
  | nil => exact h₀
  | snoc hr hstep ih => exact hs hr ih hstep

/-- A property of states that every step keeps holds along every run. -/
theorem Run.inv {I : σ → Prop} (hr : Run step s₀ ls s) (h₀ : I s₀)
    (hs : ∀ {s l s'}, I s → step s l s' → I s') : I s :=
  hr.history (I := fun _ s => I s) h₀ fun _ hi hstep => hs hi hstep

theorem Run.single (h : step s l s') : Run step s [l] s' := by
  rw [← List.nil_append [l]]
  exact .snoc .nil h

theorem Run.mono {step' : σ → ℓ → σ → Prop} (hr : Run step s₀ ls s)
    (h : ∀ {s l s'}, step s l s' → step' s l s') : Run step' s₀ ls s := by
  induction hr with
  | nil => exact .nil
  | snoc _ hstep ih => exact .snoc ih (h hstep)

theorem Run.append (hr : Run step s₀ ls s) (hr' : Run step s ls' s') :
    Run step s₀ (ls ++ ls') s' := by
  induction hr' with
  | nil => rwa [List.append_nil]
  | snoc _ hstep ih =>
      rw [← List.append_assoc]
      exact .snoc ih hstep

theorem Run.cons (h : step s₀ l s) (hr : Run step s ls s') :
    Run step s₀ (l :: ls) s' := (Run.single h).append hr

theorem Run.nil_iff : Run step s₀ [] s ↔ s = s₀ := by
  constructor
  · intro h
    generalize hls : ([] : List ℓ) = ls at h
    cases h with
    | nil => rfl
    | snoc _ _ => simp at hls
  · rintro rfl
    exact .nil

theorem Run.snoc_iff :
    Run step s₀ (ls ++ [l]) s' ↔ ∃ s, Run step s₀ ls s ∧ step s l s' := by
  constructor
  · intro h
    generalize hls : ls ++ [l] = ls' at h
    cases h with
    | nil => simp at hls
    | snoc hr hstep =>
        obtain ⟨rfl, hl⟩ := List.append_inj' hls rfl
        obtain rfl : l = _ := List.head_eq_of_cons_eq hl
        exact ⟨_, hr, hstep⟩
  · rintro ⟨s, hr, hstep⟩
    exact .snoc hr hstep

theorem Run.split (hr : Run step s₀ (ls ++ ls') s') :
    ∃ s, Run step s₀ ls s ∧ Run step s ls' s' := by
  induction ls' using List.reverseRecOn generalizing s' with
  | nil => exact ⟨s', by rwa [List.append_nil] at hr, .nil⟩
  | append_singleton init l ih =>
      rw [← List.append_assoc, Run.snoc_iff] at hr
      obtain ⟨t, hr, hstep⟩ := hr
      obtain ⟨s, h₁, h₂⟩ := ih hr
      exact ⟨s, h₁, .snoc h₂ hstep⟩

theorem Run.cons_iff : Run step s₀ (l :: ls) s' ↔
    ∃ s, step s₀ l s ∧ Run step s ls s' := by
  constructor
  · intro hr
    obtain ⟨s, hfirst, hrest⟩ := Run.split (show Run step s₀ ([l] ++ ls) s' from hr)
    obtain ⟨t, ht, hstep⟩ := Run.snoc_iff.mp (show Run step s₀ ([] ++ [l]) s from hfirst)
    rw [Run.nil_iff] at ht
    subst ht
    exact ⟨s, hstep, hrest⟩
  · rintro ⟨s, hstep, hrest⟩
    exact .cons hstep hrest

/-- A run whose steps meet a condition, which can be about the history before
the step. -/
inductive RunWhen (step : σ → ℓ → σ → Prop) (C : List ℓ → σ → ℓ → Prop)
    (s₀ : σ) :
    List ℓ → σ → Prop
  | nil : RunWhen step C s₀ [] s₀
  | snoc {ls : List ℓ} {l : ℓ} {s s' : σ} :
      RunWhen step C s₀ ls s → step s l s' → C ls s l → RunWhen step C s₀ (ls ++ [l]) s'

theorem RunWhen.run {C : List ℓ → σ → ℓ → Prop} (hr : RunWhen step C s₀ ls s) :
    Run step s₀ ls s := by
  induction hr with
  | nil => exact .nil
  | snoc _ hstep _ ih => exact .snoc ih hstep

/-- A condition that is not about the history is part of the step. -/
theorem RunWhen.steps {C : σ → ℓ → Prop} (hr : RunWhen step (fun _ => C) s₀ ls s) :
    Run (fun s l s' => step s l s' ∧ C s l) s₀ ls s := by
  induction hr with
  | nil => exact .nil
  | snoc _ hstep hC ih => exact .snoc ih ⟨hstep, hC⟩

theorem RunWhen.part {D : σ → ℓ → Prop} {C : List ℓ → σ → ℓ → Prop}
    (hr : RunWhen step (fun ls s l => D s l ∧ C ls s l) s₀ ls s) :
    RunWhen (fun s l s' => step s l s' ∧ D s l) C s₀ ls s := by
  induction hr with
  | nil => exact .nil
  | snoc _ hstep hC ih => exact .snoc ih ⟨hstep, hC.1⟩ hC.2

theorem RunWhen.history {C : List ℓ → σ → ℓ → Prop} {I : List ℓ → σ → Prop}
    (hr : RunWhen step C s₀ ls s) (h₀ : I [] s₀)
    (hs : ∀ {ls s l s'}, I ls s → step s l s' → C ls s l → I (ls ++ [l]) s') : I ls s := by
  induction hr with
  | nil => exact h₀
  | snoc _ hstep hC ih => exact hs ih hstep hC

theorem snoc_eq_middle {pre post : List ℓ} {l l' : ℓ} (h : ls ++ [l] = pre ++ l' :: post) :
    pre = ls ∧ l' = l ∨ ∃ post', ls = pre ++ l' :: post' := by
  induction post using List.reverseRecOn with
  | nil =>
      obtain ⟨rfl, hl⟩ := List.append_inj' h rfl
      exact .inl ⟨rfl, (List.head_eq_of_cons_eq hl).symm⟩
  | append_singleton post l'' _ =>
      rw [← List.cons_append, ← List.append_assoc] at h
      exact .inr ⟨post, (List.append_inj' h rfl).1⟩

variable {α : Type*} {P : ℓ → Option α} {a b : α}

/-! ## Counting events -/

/-- How often `P` says `a` about a history. -/
def tally [DecidableEq α] (P : ℓ → Option α) (ls : List ℓ) (a : α) : Nat :=
  (ls.filterMap P).count a

theorem tally_append [DecidableEq α] : tally P (ls ++ ls') a = tally P ls a + tally P ls' a := by
  unfold tally
  rw [List.filterMap_append, List.count_append]

theorem tally_cons [DecidableEq α] :
    tally P (l :: ls) a = tally P ls a + if P l = some a then 1 else 0 := by
  unfold tally
  cases h : P l with
  | none => simp [h]
  | some x => simp [h, List.count_cons]

theorem tally_snoc [DecidableEq α] :
    tally P (ls ++ [l]) a = tally P ls a + if P l = some a then 1 else 0 := by
  rw [tally_append, tally_cons]
  simp [tally]

theorem tally_pos_iff [DecidableEq α] : 0 < tally P ls a ↔ ∃ l ∈ ls, P l = some a := by
  unfold tally
  rw [List.count_pos_iff, List.mem_filterMap]

theorem tally_perm [DecidableEq α] (h : ls.Perm ls') : tally P ls a = tally P ls' a :=
  (h.filterMap P).count_eq a

/-! ## The last event of a kind -/

/-- The last event of the history that `P` says something about, and it says
`a`. -/
def LastIs (P : ℓ → Option α) (ls : List ℓ) (a : α) : Prop :=
  ∃ pre l post, ls = pre ++ l :: post ∧ P l = some a ∧ ∀ l' ∈ post, P l' = none

theorem LastIs.last (h : P l = some a) : LastIs P (ls ++ [l]) a :=
  ⟨ls, l, [], rfl, h, fun _ hl => absurd hl List.not_mem_nil⟩

theorem LastIs.keep (hlast : LastIs P ls a) (h : P l = none) : LastIs P (ls ++ [l]) a := by
  obtain ⟨pre, l₀, post, rfl, hl₀, hpost⟩ := hlast
  refine ⟨pre, l₀, post ++ [l], by simp, hl₀, fun l' hl' => ?_⟩
  rcases List.mem_append.mp hl' with hl' | hl'
  · exact hpost l' hl'
  · rw [List.mem_singleton.mp hl', h]

theorem lastIs_iff : LastIs P ls a ↔ (ls.filterMap P).getLast? = some a := by
  constructor
  · rintro ⟨pre, l, post, rfl, hl, hpost⟩
    have hnil : post.filterMap P = [] := List.filterMap_eq_nil_iff.mpr hpost
    rw [List.filterMap_append, List.filterMap_cons, hl, hnil]
    exact List.getLast?_concat
  · intro h
    induction ls using List.reverseRecOn with
    | nil => cases h
    | append_singleton ls l ih =>
        rw [List.filterMap_append] at h
        cases hl : P l with
        | none =>
            rw [List.filterMap_cons, hl, List.filterMap_nil, List.append_nil] at h
            exact (ih h).keep hl
        | some b =>
            rw [List.filterMap_cons, hl, List.filterMap_nil, List.getLast?_concat] at h
            cases h
            exact .last hl

theorem lastIs_snoc_none (h : P l = none) : LastIs P (ls ++ [l]) a ↔ LastIs P ls a := by
  rw [lastIs_iff, lastIs_iff, List.filterMap_append, List.filterMap_cons, h, List.filterMap_nil,
    List.append_nil]

theorem lastIs_snoc_some (h : P l = some b) : LastIs P (ls ++ [l]) a ↔ b = a := by
  rw [lastIs_iff, List.filterMap_append, List.filterMap_cons, h, List.filterMap_nil,
    List.getLast?_concat, Option.some_inj]

theorem LastIs.unique (ha : LastIs P ls a) (hb : LastIs P ls b) : a = b := by
  rw [lastIs_iff] at ha hb
  exact Option.some.inj (ha.symm.trans hb)

/-- The last event of the history that `P` says something about is the one at
position `n`, and it says `a`. -/
def LastAt (P : ℓ → Option α) (ls : List ℓ) (n : Nat) (a : α) : Prop :=
  ∃ pre l post, ls = pre ++ l :: post ∧ pre.length = n ∧ P l = some a ∧
    ∀ l' ∈ post, P l' = none

variable {n m : Nat}

theorem LastAt.lastIs (h : LastAt P ls n a) : LastIs P ls a := by
  obtain ⟨pre, l, post, hls, -, hl, hpost⟩ := h
  exact ⟨pre, l, post, hls, hl, hpost⟩

theorem LastAt.last (h : P l = some a) : LastAt P (ls ++ [l]) ls.length a :=
  ⟨ls, l, [], rfl, rfl, h, fun _ hl => absurd hl List.not_mem_nil⟩

theorem LastAt.keep (hlast : LastAt P ls n a) (h : P l = none) : LastAt P (ls ++ [l]) n a := by
  obtain ⟨pre, l₀, post, rfl, hn, hl₀, hpost⟩ := hlast
  refine ⟨pre, l₀, post ++ [l], by simp, hn, hl₀, fun l' hl' => ?_⟩
  rcases List.mem_append.mp hl' with hl' | hl'
  · exact hpost l' hl'
  · rw [List.mem_singleton.mp hl', h]

theorem LastAt.lt_length (h : LastAt P ls n a) : n < ls.length := by
  obtain ⟨pre, l, post, rfl, rfl, -, -⟩ := h
  rw [List.length_append, List.length_cons]
  omega

theorem LastAt.unique (ha : LastAt P ls n a) (hb : LastAt P ls m b) : n = m ∧ a = b := by
  refine ⟨?_, ha.lastIs.unique hb.lastIs⟩
  obtain ⟨pre, l, post, hls, rfl, hl, hpost⟩ := ha
  obtain ⟨pre', l', post', hls', rfl, hl', hpost'⟩ := hb
  rw [hls] at hls'
  rcases List.append_eq_append_iff.mp hls' with ⟨as, rfl, htail⟩ | ⟨as, rfl, htail⟩
  · cases as with
    | nil => rw [List.append_nil]
    | cons x as =>
        obtain ⟨rfl, rfl⟩ := List.cons.inj htail
        rw [hpost l' (by simp)] at hl'
        cases hl'
  · cases as with
    | nil => rw [List.append_nil]
    | cons x as =>
        obtain ⟨rfl, rfl⟩ := List.cons.inj htail
        rw [hpost' l (by simp)] at hl
        cases hl

end Winspd.Lib
