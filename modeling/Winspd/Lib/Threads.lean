import Mathlib.Data.List.Perm.Basic
import Winspd.Lib.Run

/-!
# Threads over a shared state

A program makes actions, one after the other, and goes on with what they
answer. A thread runs a program; threads come at any time, any of them takes
the next step, and a thread leaves when its program has returned. An action is
atomic. Between two actions of a thread the others may make any of theirs.

Every thread has an account of what it holds. Actions change it (`track`), and
neither a program nor an action can see it.

The rule is the usual one. `Safe` is about one program: it only makes actions
its account allows, whatever they answer, and returns with its account settled.
`Verified` is about the whole: an invariant of the state and of all accounts
together, and every thread safe. `Verified.step` has one hypothesis for an
action, which does not know what program makes it. `Leads` is the other side: some
execution of a program comes to a state.
-/

namespace Winspd.Lib

/-- A program: `R a` is what action `a` answers. -/
inductive Prog (A : Type) (R : A → Type) (α : Type)
  | ret (x : α)
  | act (a : A) (k : R a → Prog A R α)

variable {A : Type} {R : A → Type} {S G α β : Type}

namespace Prog

def bind (f : α → Prog A R β) : Prog A R α → Prog A R β
  | .ret x => f x
  | .act a k => .act a fun r => bind f (k r)

instance : Monad (Prog A R) where
  pure := .ret
  bind p f := p.bind f

def perform (a : A) : Prog A R (R a) := .act a .ret

def next : Prog A R α → Option A
  | .ret _ => none
  | .act a _ => some a

/-- What a program does when nothing comes between its actions; `run` computes
what an action does. -/
def alone (run : S → (a : A) → Option (S × R a)) : S → Prog A R α → Option (S × α)
  | s, .ret x => some (s, x)
  | s, .act a k => (run s a).bind fun r => alone run r.1 (k r.2)

theorem pure_eq (x : α) : (pure x : Prog A R α) = .ret x := rfl

theorem ret_bind (x : α) (f : α → Prog A R β) : (.ret x : Prog A R α) >>= f = f x := rfl

theorem act_bind (a : A) (k : R a → Prog A R α) (f : α → Prog A R β) :
    .act a k >>= f = .act a fun r => k r >>= f := rfl

theorem bind_assoc {γ : Type} (p : Prog A R α) (f : α → Prog A R β) (g : β → Prog A R γ) :
    p >>= f >>= g = p >>= fun x => f x >>= g := by
  induction p with
  | ret x => rfl
  | act a k ih => exact congrArg (Prog.act a) (funext ih)

theorem alone_bind {run : S → (a : A) → Option (S × R a)} {s : S} {p : Prog A R α}
    {f : α → Prog A R β} :
    (p >>= f).alone run s = (p.alone run s).bind fun x => (f x.2).alone run x.1 := by
  induction p generalizing s with
  | ret x => rfl
  | act a k ih =>
      show ((run s a).bind fun r => (k r.2 >>= f).alone run r.1) = _
      rw [alone, Option.bind_assoc]
      exact congrArg _ (funext fun r => ih r.2)

theorem alone_perform {run : S → (a : A) → Option (S × R a)} {s : S} {a : A} :
    (perform a).alone run s = run s a := by
  show ((run s a).bind fun r => some (r.1, r.2)) = _
  exact Option.bind_fun_some (run s a)

end Prog

/-! ## One program -/

/-- What a thread may do and is told, by its account. -/
structure Rules (A : Type) (R : A → Type) (G : Type) where
  /-- The account of a new thread. -/
  start : G
  track : (a : A) → R a → G → G
  May : G → A → Prop
  Answers : G → (a : A) → R a → Prop
  /-- With this account a thread may leave. -/
  Settled : G → Prop

namespace Rules

variable {L : Rules A R G} {P Q : α → G → Prop} {g : G} {p : Prog A R α}

/-- From account `g` the program makes allowed actions only, and returns with
`Q`. -/
def Safe (L : Rules A R G) (Q : α → G → Prop) : G → Prog A R α → Prop
  | g, .ret x => Q x g
  | g, .act a k => L.May g a ∧ ∀ r, L.Answers g a r → L.Safe Q (L.track a r g) (k r)

theorem Safe.mono (h : L.Safe P g p) (hPQ : ∀ x g, P x g → Q x g) : L.Safe Q g p := by
  induction p generalizing g with
  | ret x => exact hPQ x g h
  | act a k ih => exact ⟨h.1, fun r hr => ih r (h.2 r hr)⟩

theorem Safe.bind {Q : β → G → Prop} {f : α → Prog A R β} (h : L.Safe P g p)
    (hf : ∀ x g, P x g → L.Safe Q g (f x)) : L.Safe Q g (p >>= f) := by
  induction p generalizing g with
  | ret x => exact hf x g h
  | act a k ih => exact ⟨h.1, fun r hr => ih r (h.2 r hr)⟩

theorem Safe.of_bind {Q : β → G → Prop} {f : α → Prog A R β} (h : L.Safe Q g (p >>= f)) :
    L.Safe (fun x g => L.Safe Q g (f x)) g p := by
  induction p generalizing g with
  | ret x => exact h
  | act a k ih => exact ⟨h.1, fun r hr => ih r (h.2 r hr)⟩

theorem Safe.perform_bind {Q : β → G → Prop} {a : A} {f : R a → Prog A R β}
    (hmay : L.May g a) (h : ∀ r, L.Answers g a r → L.Safe Q (L.track a r g) (f r)) :
    L.Safe Q g (Prog.perform a >>= f) := ⟨hmay, h⟩

theorem Safe.next {a : A} (h : L.Safe Q g p) (ha : p.next = some a) : L.May g a := by
  cases p with
  | ret x => cases ha
  | act a' k =>
      cases ha
      exact h.1

end Rules

/-- A program that may make the actions of one kind. -/
def kindRules (X : A → Prop) : Rules A R Unit where
  start := ()
  track _ _ _ := ()
  May _ := X
  Answers _ _ _ := True
  Settled _ := True

abbrev Prog.Only (X : A → Prop) (p : Prog A R α) : Prop :=
  (kindRules X).Safe (fun _ _ => True) () p

theorem Prog.Only.bind {X : A → Prop} {p : Prog A R α} {f : α → Prog A R β} (h : p.Only X)
    (hf : ∀ x, (f x).Only X) : (p >>= f).Only X := Rules.Safe.bind h fun x _ _ => hf x

theorem Prog.Only.perform {X : A → Prop} {a : A} (h : X a) :
    (perform a : Prog A R (R a)).Only X := ⟨h, fun _ _ => trivial⟩

/-- Whatever its actions answer, it returns with `Q`. -/
abbrev Prog.Returns (Q : α → Prop) (p : Prog A R α) : Prop :=
  (kindRules fun _ => True).Safe (fun x _ => Q x) () p

section Returns

variable {P Q : α → Prop} {p : Prog A R α}

theorem Prog.Returns.pure {x : α} (h : Q x) : (pure x : Prog A R α).Returns Q := h

theorem Prog.Returns.bind {Q : β → Prop} {f : α → Prog A R β} (h : p.Returns P)
    (hf : ∀ x, P x → (f x).Returns Q) : (p >>= f).Returns Q :=
  Rules.Safe.bind h fun x _ hx => hf x hx

theorem Prog.Returns.any_bind {Q : β → Prop} {f : α → Prog A R β}
    (hf : ∀ x, (f x).Returns Q) :
    (p >>= f).Returns Q := by
  induction p with
  | ret x => exact hf x
  | act a k ih => exact ⟨trivial, fun r _ => ih r⟩

end Returns

theorem Rules.Safe.of_only {L : Rules A R G} {X : A → Prop} {I : G → Prop}
    {p : Prog A R α} {g : G}
    (h : p.Only X)
    (hX : ∀ a g, X a → I g → L.May g a ∧ ∀ r, L.Answers g a r → I (L.track a r g))
    (hg : I g) : L.Safe (fun _ => I) g p := by
  induction p generalizing g with
  | ret x => exact hg
  | act a k ih =>
      obtain ⟨hmay, hkeeps⟩ := hX a g h.1 hg
      exact ⟨hmay, fun r hr => ih r (h.2 r trivial) (hkeeps r hr)⟩

/-- What is safe by two rules is safe by both. The second one has no accounts. -/
def Rules.and (L : Rules A R G) (L' : Rules A R Unit) : Rules A R G where
  start := L.start
  track := L.track
  May g a := L.May g a ∧ L'.May () a
  Answers g a r := L.Answers g a r ∧ L'.Answers () a r
  Settled := L.Settled

theorem Rules.Safe.and {L : Rules A R G} {L' : Rules A R Unit} {P : α → G → Prop}
    {Q : α → Unit → Prop} {p : Prog A R α} {g : G} (h : L.Safe P g p) (h' : L'.Safe Q () p) :
    (L.and L').Safe (fun x g => P x g ∧ Q x ()) g p := by
  induction p generalizing g with
  | ret x => exact ⟨h, h'⟩
  | act a k ih => exact ⟨⟨h.1, h'.1⟩, fun r hr => ih r (h.2 r hr.1) (h'.2 r hr.2)⟩

/-- An execution of a program, when nothing comes between its actions. -/
inductive Prog.Runs (exec : S → (a : A) → R a → S → Prop) :
    S → Prog A R α → α → S → Prop
  | ret {s : S} {x : α} : Runs exec s (.ret x) x s
  | act {s s' s'' : S} {a : A} {k : R a → Prog A R α} {r : R a} {x : α} (h : exec s a r s')
      (hk : Runs exec s' (k r) x s'') : Runs exec s (.act a k) x s''

/-- What the account says of the state, it says in the end. -/
theorem Rules.Safe.runs {L : Rules A R G} {Q : α → G → Prop} {I : S → G → Prop}
    {exec : S → (a : A) → R a → S → Prop} {p : Prog A R α} {s s' : S} {g : G} {x : α}
    (hexec : ∀ {s g a r s'}, I s g → L.May g a → exec s a r s' →
      L.Answers g a r ∧ I s' (L.track a r g))
    (h : L.Safe Q g p) (hrun : p.Runs exec s x s') (hI : I s g) : ∃ g', I s' g' ∧ Q x g' := by
  induction hrun generalizing g with
  | ret => exact ⟨g, hI, h⟩
  | act hact _ ih =>
      obtain ⟨hanswers, hI'⟩ := hexec hI h.1 hact
      exact ih (h.2 _ hanswers) hI'

/-- What a program does alone, when `run` computes its actions. -/
theorem Prog.runs_of_alone {run : S → (a : A) → Option (S × R a)}
    {exec : S → (a : A) → R a → S → Prop} {s s' : S} {p : Prog A R α} {x : α}
    (hrun : ∀ {s a s' r}, run s a = some (s', r) → exec s a r s')
    (h : p.alone run s = some (s', x)) : p.Runs exec s x s' := by
  induction p generalizing s with
  | ret x =>
      cases h
      exact .ret
  | act a k ih =>
      obtain ⟨⟨t, r⟩, hr, h⟩ := Option.bind_eq_some_iff.mp h
      exact .act (hrun hr) (ih r h)

/-! ## Programs of a part -/

/-- A program of a part of a system, with its actions as actions of the system. -/
def Prog.embed {B : Type} {R' : B → Type} (f : A → B) (answer : ∀ a, R' (f a) → R a) :
    Prog A R α → Prog B R' α
  | .ret x => .ret x
  | .act a k => .act (f a) fun r => (k (answer a r)).embed f answer

/-- What is safe in the part is safe in the system, if the account in the part is what
the system makes of it. -/
theorem Rules.Safe.embed {B : Type} {R' : B → Type} {G' : Type} {L : Rules A R G}
    {L' : Rules B R' G'} {f : A → B} {answer : ∀ a, R' (f a) → R a} {φ : G → G'}
    {Q : α → G → Prop} {p : Prog A R α} {g : G}
    (hmay : ∀ g a, L.May g a → L'.May (φ g) (f a))
    (hanswers : ∀ g a r, L'.Answers (φ g) (f a) r → L.Answers g a (answer a r))
    (htrack : ∀ g a r, L'.track (f a) r (φ g) = φ (L.track a (answer a r) g))
    (h : L.Safe Q g p) :
      L'.Safe (fun x g' => ∃ g, g' = φ g ∧ Q x g) (φ g) (p.embed f answer) := by
  induction p generalizing g with
  | ret x => exact ⟨g, rfl, h⟩
  | act a k ih =>
      refine ⟨hmay g a h.1, fun r hr => ?_⟩
      rw [htrack]
      exact ih (answer a r) (h.2 _ (hanswers g a r hr))

/-- There is an execution of the program that comes to `F`, or returns with `Q`.
Between its actions others may make a step. -/
inductive Prog.Leads (exec : S → (a : A) → R a → S → Prop) (others : S → S → Prop)
    (F : S → Prop)
    (Q : α → S → Prop) : S → Prog A R α → Prop
  | stop {s : S} {p : Prog A R α} (h : F s) : Leads exec others F Q s p
  | others {s s' : S} {p : Prog A R α} (h : others s s') (hp : Leads exec others F Q s' p) :
      Leads exec others F Q s p
  | ret {s : S} {x : α} (h : Q x s) : Leads exec others F Q s (.ret x)
  | act {s s' : S} {a : A} {k : R a → Prog A R α} {r : R a} (h : exec s a r s')
      (hk : Leads exec others F Q s' (k r)) : Leads exec others F Q s (.act a k)

section Leads

variable {exec : S → (a : A) → R a → S → Prop} {others : S → S → Prop} {F : S → Prop}
  {P : α → S → Prop} {s s' : S} {p : Prog A R α}

theorem Prog.Leads.bind {Q : β → S → Prop} {f : α → Prog A R β}
    (h : p.Leads exec others F P s)
    (hf : ∀ x s, P x s → (f x).Leads exec others F Q s) :
    (p >>= f).Leads exec others F Q s := by
  induction h with
  | stop h => exact .stop h
  | others h _ ih => exact .others h ih
  | ret h => exact hf _ _ h
  | act h _ ih => exact .act h ih

theorem Prog.Leads.perform {a : A} {Q : R a → S → Prop} {r : R a} (h : exec s a r s')
    (hr : Q r s') : (Prog.perform a : Prog A R (R a)).Leads exec others F Q s := .act h (.ret hr)

theorem Prog.Leads.perform_bind {Q : β → S → Prop} {a : A} {r : R a} {f : R a → Prog A R β}
    (h : exec s a r s') (hf : (f r).Leads exec others F Q s') :
    (Prog.perform a >>= f).Leads exec others F Q s := .act h hf

end Leads

/-! ## All threads -/

structure Thread (A : Type) (R : A → Type) (G : Type) where
  prog : Prog A R Unit
  account : G

structure Threads (A : Type) (R : A → Type) (S G : Type) where
  shared : S
  threads : List (Thread A R G)

inductive ThreadEvent (A : Type) (R : A → Type)
  | enter
  | act (a : A) (r : R a)
  | leave

/-- A step of one of the threads. `exec s a r s'` says that in state `s` action
`a` can answer `r` and leave state `s'`. -/
inductive Threads.Step (L : Rules A R G) (exec : S → (a : A) → R a → S → Prop)
    (entry : Prog A R Unit → Prop) :
    Threads A R S G → ThreadEvent A R → Threads A R S G → Prop
  | enter {s : S} {ts : List (Thread A R G)} {p : Prog A R Unit} :
      entry p → Step L exec entry ⟨s, ts⟩ .enter ⟨s, ⟨p, L.start⟩ :: ts⟩
  | act {s s' : S} {us vs : List (Thread A R G)} {a : A} {k : R a → Prog A R Unit} {g : G}
      {r : R a} :
      exec s a r s' → Step L exec entry ⟨s, us ++ ⟨.act a k, g⟩ :: vs⟩ (.act a r)
        ⟨s', us ++ ⟨k r, L.track a r g⟩ :: vs⟩
  | leave {s : S} {us vs : List (Thread A R G)} {g : G} :
      Step L exec entry ⟨s, us ++ ⟨.ret (), g⟩ :: vs⟩ .leave ⟨s, us ++ vs⟩

namespace Threads

variable {L : Rules A R G} {exec : S → (a : A) → R a → S → Prop}
  {entry : Prog A R Unit → Prop} {I : S → List G → Prop}
  {w w' : Threads A R S G} {ev : ThreadEvent A R}

def accounts (w : Threads A R S G) : List G := w.threads.map Thread.account

/-- The invariant holds, and every thread is safe. -/
structure Verified (L : Rules A R G) (I : S → List G → Prop) (w : Threads A R S G) : Prop where
  inv : I w.shared w.accounts
  safe : ∀ t ∈ w.threads, L.Safe (fun _ => L.Settled) t.account t.prog

theorem mem_middle {us vs : List α} {t x : α} (h : x ∈ us ++ vs) : x ∈ us ++ t :: vs := by
  rw [List.mem_append] at h ⊢
  exact h.imp id (List.mem_cons_of_mem t)

/-- The account of the thread that takes the step can be put first. -/
theorem accounts_middle {us vs : List (Thread A R G)} {t : Thread A R G} :
    ((us ++ t :: vs).map Thread.account).Perm (t.account :: (us ++ vs).map Thread.account) :=
  List.Perm.map Thread.account List.perm_middle

/-- A step takes one invariant to another, which may be about the history with
this event. `hact` is about an action, the account of who makes it, and the
other threads; `C` is what is asked of the step. -/
theorem Verified.step_to {I' : S → List G → Prop}
    {C : Threads A R S G → ThreadEvent A R → Prop}
    (hperm : ∀ {s gs gs'}, List.Perm gs gs' → I s gs → I s gs')
    (hperm' : ∀ {s gs gs'}, List.Perm gs gs' → I' s gs → I' s gs')
    (henter : ∀ {s gs}, ev = .enter → I s gs → I' s (L.start :: gs))
    (hleave : ∀ {s g gs}, ev = .leave → L.Settled g → I s (g :: gs) → I' s gs)
    (hentry : ∀ {p}, entry p → L.Safe (fun _ => L.Settled) L.start p)
    (hact : ∀ {s us vs a k g r s'}, ev = .act a r →
      (∀ t ∈ us ++ vs, L.Safe (fun _ => L.Settled) t.account t.prog) →
      C ⟨s, us ++ ⟨.act a k, g⟩ :: vs⟩ (.act a r) → L.May g a →
      I s (g :: (us ++ vs).map Thread.account) → exec s a r s' →
      I' s' (L.track a r g :: (us ++ vs).map Thread.account) ∧ L.Answers g a r)
    (hw : Verified L I w) (hC : C w ev) (hstep : Step L exec entry w ev w') :
    Verified L I' w' := by
  cases hstep with
  | enter hp =>
      refine ⟨henter rfl hw.inv, fun t ht => ?_⟩
      rcases List.mem_cons.mp ht with rfl | ht
      · exact hentry hp
      · exact hw.safe t ht
  | @act s s' us vs a k g r hexec =>
      have hsafe := hw.safe ⟨.act a k, g⟩ (by simp)
      have hothers : ∀ t ∈ us ++ vs, L.Safe (fun _ => L.Settled) t.account t.prog :=
        fun t ht => hw.safe t (mem_middle ht)
      obtain ⟨hinv, hans⟩ := hact rfl hothers hC hsafe.1 (hperm accounts_middle hw.inv) hexec
      refine ⟨hperm' accounts_middle.symm hinv, fun t ht => ?_⟩
      rw [List.mem_append, List.mem_cons] at ht
      rcases ht with ht | rfl | ht
      · exact hothers t (List.mem_append_left _ ht)
      · exact hsafe.2 r hans
      · exact hothers t (List.mem_append_right _ ht)
  | @leave s us vs g =>
      have hsettled : L.Settled g := hw.safe ⟨.ret (), g⟩ (by simp)
      exact ⟨hleave rfl hsettled (hperm accounts_middle hw.inv),
        fun t ht => hw.safe t (mem_middle ht)⟩

theorem Verified.step {C : Threads A R S G → ThreadEvent A R → Prop}
    (hperm : ∀ {s gs gs'}, List.Perm gs gs' → I s gs → I s gs')
    (henter : ∀ {s gs}, I s gs → I s (L.start :: gs))
    (hleave : ∀ {s g gs}, L.Settled g → I s (g :: gs) → I s gs)
    (hentry : ∀ {p}, entry p → L.Safe (fun _ => L.Settled) L.start p)
    (hact : ∀ {s us vs a k g r s'},
      (∀ t ∈ us ++ vs, L.Safe (fun _ => L.Settled) t.account t.prog) →
      C ⟨s, us ++ ⟨.act a k, g⟩ :: vs⟩ (.act a r) → L.May g a →
      I s (g :: (us ++ vs).map Thread.account) → exec s a r s' →
      I s' (L.track a r g :: (us ++ vs).map Thread.account) ∧ L.Answers g a r)
    (hw : Verified L I w) (hC : C w ev) (hstep : Step L exec entry w ev w') :
    Verified L I w' :=
  Verified.step_to (I := I) (C := C) (fun hp h => hperm hp h) (fun hp h => hperm hp h)
    (fun _ h => henter h) (fun _ hg h => hleave hg h) hentry
    (fun _ hothers hC hmay h hexec => hact hothers hC hmay h hexec) hw hC hstep

theorem Verified.acting {a : A} {r : R a}
    (hperm : ∀ {s gs gs'}, List.Perm gs gs' → I s gs → I s gs')
    (hw : Verified L I w) (hstep : Step L exec entry w (.act a r) w') :
    ∃ g gs, I w.shared (g :: gs) ∧ L.May g a ∧ exec w.shared a r w'.shared ∧
      List.Perm w'.accounts (L.track a r g :: gs) := by
  cases hstep with
  | @act s s' us vs a k g r hexec =>
      have hsafe := hw.safe ⟨.act a k, g⟩ (by simp)
      exact ⟨g, _, hperm accounts_middle hw.inv, hsafe.1, hexec, accounts_middle⟩

theorem step_of_mem {t : Thread A R G} {a : A} {r : R a} {s' : S} (ht : t ∈ w.threads)
    (hnext : t.prog.next = some a) (hexec : exec w.shared a r s') :
    ∃ w', Step L exec entry w (.act a r) w' ∧ w'.shared = s' ∧
      L.track a r t.account ∈ w'.accounts := by
  obtain ⟨s, ts⟩ := w
  obtain ⟨us, vs, rfl⟩ := List.append_of_mem ht
  obtain ⟨p, g⟩ := t
  cases p with
  | ret x => cases hnext
  | act a' k =>
      cases hnext
      exact ⟨_, .act hexec, rfl, List.mem_map.mpr ⟨⟨k r, L.track a r g⟩, by simp, rfl⟩⟩

theorem step_head {s s' : S} {a : A} {k : R a → Prog A R Unit} {g : G} {r : R a}
    {ts : List (Thread A R G)} (hexec : exec s a r s') :
    Step L exec entry ⟨s, ⟨.act a k, g⟩ :: ts⟩
      (.act a r) ⟨s', ⟨k r, L.track a r g⟩ :: ts⟩ := by
  have hstep : Step L exec entry ⟨s, [] ++ ⟨.act a k, g⟩ :: ts⟩ (.act a r)
      ⟨s', [] ++ ⟨k r, L.track a r g⟩ :: ts⟩ := .act hexec
  exact hstep

/-! ## Schedules -/

/-- One move of a schedule: a program comes in, or the thread at a position
takes its step. -/
inductive Move (entry : Prog A R Unit → Prop)
  | enter (p : Prog A R Unit) (h : entry p)
  | turn (i : Nat)

/-- A move, when `run` computes what an action does. -/
def move (L : Rules A R G) (run : S → (a : A) → Option (S × R a)) (w : Threads A R S G) :
    Move entry → Option (ThreadEvent A R × Threads A R S G)
  | .enter p _ => some (.enter, ⟨w.shared, ⟨p, L.start⟩ :: w.threads⟩)
  | .turn i =>
      match w.threads[i]? with
      | none => none
      | some ⟨.ret _, _⟩ => some (.leave, ⟨w.shared, w.threads.eraseIdx i⟩)
      | some ⟨.act a k, g⟩ =>
          (run w.shared a).map fun x =>
            (.act a x.2, ⟨x.1, w.threads.set i ⟨k x.2, L.track a x.2 g⟩⟩)

/-- A move is a step, with an action `run` makes. -/
theorem move_step {run : S → (a : A) → Option (S × R a)} {good : (a : A) → R a → Prop}
    {m : Move entry}
    (hrun : ∀ s a s' r, run s a = some (s', r) → exec s a r s' ∧ good a r)
    (h : move L run w m = some (ev, w')) :
    Step L exec entry w ev w' ∧ ∀ a r, ev = .act a r → good a r := by
  obtain ⟨s, ts⟩ := w
  cases m with
  | enter p hp =>
      cases h
      exact ⟨.enter hp, fun _ _ h => by cases h⟩
  | turn i =>
      simp only [move] at h
      split at h
      · cases h
      · next x g hi =>
          cases h
          obtain ⟨hlt, hget⟩ := List.getElem?_eq_some_iff.mp hi
          have hsplit : ts = ts.take i ++ ⟨.ret x, g⟩ :: ts.drop (i + 1) := by
            rw [← hget, ← List.drop_eq_getElem_cons hlt, List.take_append_drop]
          refine ⟨?_, fun _ _ h => by cases h⟩
          rw [List.eraseIdx_eq_take_drop_succ]
          conv => enter [4]; rw [hsplit]
          exact .leave
      · next a k g hi =>
          rw [Option.map_eq_some_iff] at h
          obtain ⟨⟨s', r⟩, hr, heq⟩ := h
          cases heq
          obtain ⟨hlt, hget⟩ := List.getElem?_eq_some_iff.mp hi
          have hsplit : ts = ts.take i ++ ⟨.act a k, g⟩ :: ts.drop (i + 1) := by
            rw [← hget, ← List.drop_eq_getElem_cons hlt, List.take_append_drop]
          obtain ⟨hexec, hgood⟩ := hrun s a s' r hr
          refine ⟨?_, fun _ _ h => ?_⟩
          · rw [List.set_eq_take_append_cons_drop, if_pos hlt]
            conv => enter [4]; rw [hsplit]
            exact .act hexec
          · cases h
            exact hgood

def moves (L : Rules A R G) (run : S → (a : A) → Option (S × R a)) :
    Threads A R S G → List (Move entry) → Option (List (ThreadEvent A R) × Threads A R S G)
  | w, [] => some ([], w)
  | w, m :: ms => do
      let (ev, w) ← move L run w m
      let (evs, w) ← moves L run w ms
      some (ev :: evs, w)

theorem moves_run {run : S → (a : A) → Option (S × R a)} {good : (a : A) → R a → Prop}
    {ms : List (Move entry)} {ls : List (ThreadEvent A R)}
    (hrun : ∀ s a s' r, run s a = some (s', r) → exec s a r s' ∧ good a r)
    (h : moves L run w ms = some (ls, w')) :
    Run (fun w ev w' => Step L exec entry w ev w' ∧ ∀ a r, ev = .act a r → good a r)
      w ls w' := by
  induction ms generalizing w ls with
  | nil =>
      cases h
      exact .nil
  | cons m ms ih =>
      simp only [moves, Option.bind_eq_bind, Option.bind_eq_some_iff] at h
      obtain ⟨⟨ev, w₁⟩, hmove, ⟨evs, w₂⟩, hmoves, heq⟩ := h
      cases heq
      exact .cons (move_step hrun hmove) (ih hmoves)

/-- The moves of a schedule that says, with every move, what the environment
decides. `ls` is the history before, and it stops at a step that is not `ok`. -/
def plays {C : Type} (L : Rules A R G) (run : C → S → (a : A) → Option (S × R a))
    (ok : List (ThreadEvent A R) → Threads A R S G → ThreadEvent A R → Bool) :
    List (ThreadEvent A R) → Threads A R S G → List (C × Move entry) →
      Option (List (ThreadEvent A R) × Threads A R S G)
  | ls, w, [] => some (ls, w)
  | ls, w, (c, m) :: ms => do
      let (ev, w') ← move L (run c) w m
      if ok ls w ev then plays L run ok (ls ++ [ev]) w' ms else none

theorem plays_run {C : Type} {run : C → S → (a : A) → Option (S × R a)}
    {ok : List (ThreadEvent A R) → Threads A R S G → ThreadEvent A R → Bool}
    {P : List (ThreadEvent A R) → Threads A R S G → ThreadEvent A R → Prop}
    {w₀ : Threads A R S G} {ms : List (C × Move entry)} {ls ls' : List (ThreadEvent A R)}
    (hrun : ∀ c s a s' r, run c s a = some (s', r) → exec s a r s')
    (hok : ∀ ls w ev, ok ls w ev = true → P ls w ev)
    (hr : RunWhen (Step L exec entry) P w₀ ls w) (h : plays L run ok ls w ms = some (ls', w')) :
    RunWhen (Step L exec entry) P w₀ ls' w' := by
  induction ms generalizing w ls with
  | nil =>
      cases h
      exact hr
  | cons m ms ih =>
      obtain ⟨c, m⟩ := m
      simp only [plays, Option.bind_eq_bind, Option.bind_eq_some_iff] at h
      obtain ⟨⟨ev, w₁⟩, hmove, h⟩ := h
      dsimp only at h
      split at h
      · next hev =>
          let good : (a : A) → R a → Prop := fun _ _ => True
          have hrun' : ∀ s a s' r, run c s a = some (s', r) → exec s a r s' ∧ good a r :=
            fun s a s' r h => ⟨hrun c s a s' r h, trivial⟩
          exact ih (.snoc hr (move_step hrun' hmove).1 (hok _ _ _ hev)) h
      · cases h

end Threads

end Winspd.Lib
