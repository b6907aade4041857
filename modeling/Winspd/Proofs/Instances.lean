import Winspd.Proofs.InstanceActions

/-!
# The life of a service instance

An instance is created with two references: that of its creator, and that of
the wait that was registered, which the callback inherits. `Life` is what an
instance goes through, and what can be said of it at each point: who holds it,
what its count is, whether it is in the list, and what has happened to it.

The lock keeps the list, the names and the event in step. The count is not kept
by the lock: the last reference is dropped outside of it. Until the thread that
dropped it has unlinked it an instance is in the list with a count of zero, and
everyone inside the lock can find it.

`AllLive` gives every instance its life, and `ListInv` is what the lock protects. An
action changes the life of one instance at most, `AllLive.step`, and the list at
most when its thread is inside. So the two are shown one after the other: the lives
need the list only to know that an instance is in it once, and the list needs the
lives to know that an instance is new when it is inserted, and is in the list when
it is removed.
-/

namespace Winspd.Proofs

open Winspd.Lib Winspd.Shared Winspd.Launcher

abbrev LauncherThreads :=
  Threads InstanceAction InstanceAction.Answer LauncherState InstanceAccount

abbrev LauncherStep : LauncherThreads → LauncherEvent → LauncherThreads → Prop :=
  Threads.Step instanceRules InstanceAction.Exec LauncherEntry

def launcherInit : LauncherThreads := ⟨.init, []⟩

/-! ## What has happened to an instance -/

inductive InstanceMark
  | inserted
  | removed
  | released
  | freed
  deriving DecidableEq, Repr

def instanceMark : LauncherEvent → Option (InstanceMark × Nat)
  | .act (.insertTail id) _ => some (.inserted, id)
  | .act (.removeEntry id) _ => some (.removed, id)
  | .act (.decrement id) _ => some (.released, id)
  | .act (.memFree id) _ => some (.freed, id)
  | _ => none

def marks (ls : List LauncherEvent) (m : InstanceMark) (id : Nat) : Nat :=
  tally instanceMark ls (m, id)

/-- How many threads hold an instance that has come so far. -/
def holders (gs : List InstanceAccount) (k : HoldKind) (id : Nat) : Nat :=
  tally InstanceAccount.hold gs (k, id)

variable {ls : List LauncherEvent} {s s' : LauncherState} {g g' : InstanceAccount}
  {gs gs' : List InstanceAccount} {a : InstanceAction} {r : a.Answer} {id : Nat}
  {ev : LauncherEvent} {w w' : LauncherThreads}

theorem marks_snoc {m : InstanceMark} : marks (ls ++ [ev]) m id =
    marks ls m id + if instanceMark ev = some (m, id) then 1 else 0 := tally_snoc

theorem holders_cons {k : HoldKind} : holders (g :: gs) k id =
    holders gs k id + if g.hold = some (k, id) then 1 else 0 := tally_cons

/-! ## A life -/

inductive Life
  | unborn
  | building
  /-- Is it not in the list yet, is its callback to come, and how many threads
  have a reference? -/
  | live (started waiting : Bool) (refs : Nat)
  /-- The count is zero. -/
  | dying
  | unlinked
  /-- Was it ever in the list? -/
  | freed (listed : Bool)

namespace Life

def references : Life → Nat
  | .live started waiting refs => started.toNat + waiting.toNat + refs
  | _ => 0

def holds : Life → HoldKind → Nat
  | .building, .building => 1
  | .live started _ _, .started => started.toNat
  | .live _ _ refs, .ref => refs
  | .dying, .last => 1
  | .unlinked, .gone => 1
  | _, _ => 0

def refCount : Life → Option Int32
  | .unborn | .freed _ => none
  | .building => some 2
  | .live started waiting refs => some (Int32.ofNat (references (.live started waiting refs)))
  | .dying | .unlinked => some 0

def waiting : Life → Bool
  | .live _ waiting _ => waiting
  | _ => false

def listed : Life → Bool
  | .live started _ _ => !started
  | .dying => true
  | _ => false

def marked : Life → InstanceMark → Nat
  | .live started _ _, .inserted => (!started).toNat
  | .dying, .inserted | .unlinked, .inserted => 1
  | .freed listed, .inserted => listed.toNat
  | .unlinked, .removed => 1
  | .freed listed, .removed => listed.toNat
  | .live started waiting refs, .released => 2 - references (.live started waiting refs)
  | .dying, .released | .unlinked, .released => 2
  | .freed listed, .released => 2 * listed.toNat
  | .freed _, .freed => 1
  | _, _ => 0

def Ok : Life → Prop
  | .live started waiting refs =>
      1 ≤ references (.live started waiting refs) ∧
      references (.live started waiting refs) ≤ 2
  | _ => True

end Life

/-- An instance is at this point of its life. -/
structure Lives (ls : List LauncherEvent) (s : LauncherState) (gs : List InstanceAccount) (id : Nat)
    (l : Life) : Prop where
  holders : ∀ k, holders gs k id = l.holds k
  refCount : (s.memory id).map SvcInstance.refCount = l.refCount
  waiting : s.waiting id = l.waiting
  listed : id ∈ s.list ↔ l.listed = true
  marks : ∀ m, marks ls m id = l.marked m
  ok : l.Ok

namespace Lives

variable {l l' : Life}

theorem perm (hperm : gs.Perm gs') (h : Lives ls s gs id l) : Lives ls s gs' id l :=
  ⟨fun k => (tally_perm hperm).symm.trans (h.holders k), h.refCount, h.waiting, h.listed,
    h.marks, h.ok⟩

theorem frame (h : Lives ls s (g :: gs) id l)
    (hhold : ∀ k, g'.hold = some (k, id) ↔ g.hold = some (k, id))
    (hmemory : (s'.memory id).map SvcInstance.refCount = (s.memory id).map SvcInstance.refCount)
    (hwaiting : s'.waiting id = s.waiting id) (hlist : id ∈ s'.list ↔ id ∈ s.list)
    (hmark : ∀ m, instanceMark ev ≠ some (m, id)) : Lives (ls ++ [ev]) s' (g' :: gs) id l := by
  refine ⟨fun k => ?_, hmemory.trans h.refCount, hwaiting.trans h.waiting, hlist.trans h.listed,
    fun m => ?_, h.ok⟩
  · rw [← h.holders k, holders_cons, holders_cons]
    simp only [hhold]
  · rw [← h.marks m, marks_snoc, if_neg (hmark m), Nat.add_zero]

theorem holds_pos {k : HoldKind} (h : Lives ls s gs id l) (hmem : g ∈ gs)
    (hg : g.hold = some (k, id)) : 0 < l.holds k := by
  rw [← h.holders k]
  exact tally_pos_iff.mpr ⟨g, hmem, hg⟩

end Lives

/-! ## Steps of a life -/

/-- Every instance is at a point of its life, and the next one is unborn. -/
def AllLive (ls : List LauncherEvent) (s : LauncherState) (gs : List InstanceAccount) : Prop :=
  ∀ id, ∃ l, Lives ls s gs id l ∧ (s.next ≤ id → l = .unborn)

namespace AllLive

theorem frame (h : AllLive ls s (g :: gs)) (hhold : g'.hold = g.hold)
    (hmemory : ∀ id, (s'.memory id).map SvcInstance.refCount =
      (s.memory id).map SvcInstance.refCount)
    (hwaiting : s'.waiting = s.waiting) (hlist : s'.list = s.list) (hnext : s'.next = s.next)
    (hmark : instanceMark ev = none) : AllLive (ls ++ [ev]) s' (g' :: gs) := by
  intro id
  obtain ⟨l, hl, hunborn⟩ := h id
  refine ⟨l, hl.frame (fun k => by rw [hhold]) (hmemory id) (by rw [hwaiting]) (by rw [hlist])
    (fun m hm => ?_), by rwa [hnext]⟩
  rw [hmark] at hm
  cases hm

/-- Something happens to the one instance that the thread holds, before or
after: its life goes from `l` to `l'`. -/
theorem step {l : Life} (l' : Life) (k k' : Option HoldKind) (m : Option InstanceMark)
    (h : AllLive ls s (g :: gs)) (hl : Lives ls s (g :: gs) id l)
    (hg : g.hold = k.map fun k => (k, id)) (hg' : g'.hold = k'.map fun k => (k, id))
    (hhold : ∀ i, l'.holds i + (if k = some i then 1 else 0) =
      l.holds i + if k' = some i then 1 else 0)
    (hmark : instanceMark ev = m.map fun m => (m, id))
    (hmarks : ∀ i, l'.marked i = l.marked i + if m = some i then 1 else 0)
    (href : (s'.memory id).map SvcInstance.refCount = l'.refCount)
    (hwaiting : s'.waiting id = l'.waiting) (hlisted : id ∈ s'.list ↔ l'.listed = true)
    (hok : l'.Ok) (hborn : id < s'.next)
    (hmemory' : ∀ id', id' ≠ id → s'.memory id' = s.memory id')
    (hwaiting' : ∀ id', id' ≠ id → s'.waiting id' = s.waiting id')
    (hlist' : ∀ id', id' ≠ id → (id' ∈ s'.list ↔ id' ∈ s.list))
    (hnext : s.next ≤ s'.next) :
    AllLive (ls ++ [ev]) s' (g' :: gs) := by
  have hof : ∀ {β : Type} {x : Option β} {i id'}, x.map (fun i => (i, id)) = some (i, id') ↔
      x = some i ∧ id' = id := by
    intro β x i id'
    cases x with
    | none => simp
    | some y => simp [eq_comm]
  intro id'
  by_cases heq : id' = id
  · subst heq
    refine ⟨l', ⟨fun i => ?_, href, hwaiting, hlisted, fun i => ?_, hok⟩,
      fun hle => absurd hborn (Nat.not_lt.mpr hle)⟩
    · have hi := hl.holders i
      have hmove := hhold i
      rw [holders_cons, hg] at hi
      rw [holders_cons, hg']
      simp only [hof, and_true] at hi ⊢
      omega
    · rw [marks_snoc, hl.marks i, hmarks i, hmark]
      simp only [hof, and_true]
  · obtain ⟨l', hl', hunborn⟩ := h id'
    refine ⟨l', hl'.frame (fun k => ?_) (by rw [hmemory' id' heq]) (hwaiting' id' heq)
      (hlist' id' heq) (fun m hm => ?_), fun hle => hunborn (Nat.le_trans hnext hle)⟩
    · rw [hg, hg', hof, hof]
      exact iff_of_false (fun hk => heq hk.2) fun hk => heq hk.2
    · rw [hmark, hof] at hm
      exact heq hm.2

theorem holding {k : HoldKind} (h : AllLive ls s gs) (hmem : g ∈ gs)
    (hg : g.hold = some (k, id)) :
    ∃ l, Lives ls s gs id l ∧ 0 < l.holds k ∧ id < s.next := by
  obtain ⟨l, hl, hunborn⟩ := h id
  have hpos := hl.holds_pos hmem hg
  refine ⟨l, hl, hpos, Nat.lt_of_not_le fun hle => ?_⟩
  rw [hunborn hle] at hpos
  exact absurd hpos (Nat.lt_irrefl 0)

theorem waits (h : AllLive ls s gs) (hwaiting : s.waiting id = true) :
    ∃ l, Lives ls s gs id l ∧ l.waiting = true ∧ id < s.next := by
  obtain ⟨l, hl, hunborn⟩ := h id
  have hwaits := hl.waiting.symm.trans hwaiting
  refine ⟨l, hl, hwaits, Nat.lt_of_not_le fun hle => ?_⟩
  rw [hunborn hle] at hwaits
  cases hwaits

end AllLive

namespace Life

variable {l : Life}

theorem of_building (h : 0 < l.holds .building) : l = .building := by
  cases l <;> first | rfl | exact absurd h (Nat.lt_irrefl 0)

theorem of_started (h : 0 < l.holds .started) : ∃ waiting refs, l = .live true waiting refs := by
  cases l with
  | live started waiting refs =>
      cases started with
      | false => exact absurd h (Nat.lt_irrefl 0)
      | true => exact ⟨waiting, refs, rfl⟩
  | _ => exact absurd h (Nat.lt_irrefl 0)

theorem of_ref (h : 0 < l.holds .ref) :
    ∃ started waiting refs, l = .live started waiting (refs + 1) := by
  cases l with
  | live started waiting refs =>
      cases refs with
      | zero => exact absurd h (Nat.lt_irrefl 0)
      | succ refs => exact ⟨started, waiting, refs, rfl⟩
  | _ => exact absurd h (Nat.lt_irrefl 0)

theorem of_last (h : 0 < l.holds .last) : l = .dying := by
  cases l <;> first | rfl | exact absurd h (Nat.lt_irrefl 0)

theorem of_gone (h : 0 < l.holds .gone) : l = .unlinked := by
  cases l <;> first | rfl | exact absurd h (Nat.lt_irrefl 0)

theorem of_waiting (h : l.waiting = true) : ∃ started refs, l = .live started true refs := by
  cases l with
  | live started waiting refs =>
      cases waiting with
      | false => cases h
      | true => exact ⟨started, refs, rfl⟩
  | _ => cases h

end Life

/-- A write to one instance that leaves its key alone leaves all keys alone. -/
theorem writes_key (h : Writes s s' id) (id' : Nat) :
    (s'.memory id').map instanceKey = (s.memory id').map instanceKey := by
  obtain ⟨x, y, hx, hkey, rfl⟩ := h
  by_cases heq : id' = id
  · subst heq
    show (Function.update s.memory id' (some y) id').map instanceKey = _
    rw [Function.update_self, hx, Option.map_some, Option.map_some, hkey]
  · show (Function.update s.memory id (some y) id').map instanceKey = _
    rw [Function.update_of_ne heq]

theorem refCount_of_key {x y : Option SvcInstance}
    (h : y.map instanceKey = x.map instanceKey) :
    y.map SvcInstance.refCount = x.map SvcInstance.refCount := by
  have hfst := congrArg (Option.map Prod.fst) h
  rwa [Option.map_map, Option.map_map] at hfst

theorem allLive_decrement (h : AllLive ls s (.outside (some (.ref, id)) :: gs)) {x : SvcInstance}
    (hx : s.memory id = some x) :
    AllLive (ls ++ [.act (.decrement id) (x.refCount - 1)])
      { s with
        memory := Function.update s.memory id (some { x with refCount := x.refCount - 1 }) }
      (.outside (if x.refCount - 1 = 0 then some (.last, id) else none) :: gs) := by
  obtain ⟨l, hl, hpos, hborn⟩ := h.holding (k := .ref) List.mem_cons_self rfl
  obtain ⟨started, waiting, refs, rfl⟩ := Life.of_ref hpos
  have hcount : x.refCount = Int32.ofNat (Life.references (.live started waiting (refs + 1))) := by
    have href := hl.refCount
    rw [hx] at href
    exact Option.some.inj href
  have hdrop : Life.references (.live started waiting (refs + 1)) =
      Life.references (.live started waiting refs) + 1 := rfl
  have hok : 1 ≤ Life.references (.live started waiting (refs + 1)) ∧
      Life.references (.live started waiting (refs + 1)) ≤ 2 := hl.ok
  -- another reference is left, or none
  obtain hone | htwo : Life.references (.live started waiting refs) = 1 ∨
      Life.references (.live started waiting refs) = 0 := by omega
  · have hleft : x.refCount - 1 = 1 := by
      rw [hcount, hdrop, hone]
      decide
    rw [hleft, if_neg (by decide)]
    refine h.step (.live started waiting refs) (some .ref) none (some .released) hl rfl rfl
      (fun i => by cases i <;> simp [Life.holds]) rfl
      (fun i => by cases i <;> simp [Life.marked, hdrop, hone]) ?_ hl.waiting hl.listed ?_ hborn
      (fun id' hne => Function.update_of_ne hne _ _) (fun _ _ => rfl) (fun _ _ => Iff.rfl)
      (Nat.le_refl _)
    · simp only [Function.update_self, Option.map_some, Life.refCount, hone]
      rfl
    · rw [Life.Ok, hone]
      exact ⟨by decide, by decide⟩
  · have hlast : x.refCount - 1 = 0 := by
      rw [hcount, hdrop, htwo]
      decide
    obtain ⟨rfl, rfl, rfl⟩ : started = false ∧ waiting = false ∧ refs = 0 := by
      revert htwo
      cases started <;> cases waiting <;> simp [Life.references]
    rw [hlast, if_pos rfl]
    refine h.step .dying (some .ref) (some .last) (some .released) hl rfl rfl
      (fun i => by cases i <;> rfl) rfl (fun i => by cases i <;> rfl) ?_ hl.waiting hl.listed
      trivial hborn (fun id' hne => Function.update_of_ne hne _ _) (fun _ _ => rfl)
      (fun _ _ => Iff.rfl) (Nat.le_refl _)
    simp only [Function.update_self, Option.map_some]
    rfl

theorem allLive_exec (h : AllLive ls s (g :: gs)) (hnodup : s.list.Nodup) (hmay : g.May a)
    (hexec : a.Exec s r s') :
    AllLive (ls ++ [.act a r]) s' (InstanceAccount.track a r g :: gs) := by
  have heffect := exec_instanceEffect hexec
  cases a with
  | memAlloc className instanceName =>
      obtain rfl : g = .within (some (className, instanceName)) [] := hmay
      cases r with
      | none =>
          obtain rfl := heffect
          exact h.frame rfl (fun _ => rfl) rfl rfl rfl rfl
      | some id =>
          obtain ⟨rfl, x, hx, rfl⟩ := heffect
          obtain ⟨l, hl, hunborn⟩ := h s.next
          obtain rfl := hunborn (Nat.le_refl _)
          have hcount : (Function.update s.memory s.next (some x) s.next).map SvcInstance.refCount =
              some 2 := by
            rw [Function.update_self]
            exact congrArg _ (congrArg Prod.fst hx)
          exact h.step .building none (some .building) none hl rfl rfl (fun i => by cases i <;> rfl)
            rfl (fun i => by cases i <;> rfl) hcount hl.waiting hl.listed trivial
            (Nat.lt_succ_self _) (fun id' hne => Function.update_of_ne hne _ _) (fun _ _ => rfl)
            (fun _ _ => Iff.rfl) (Nat.le_succ _)
  | registerWait id =>
      have hg : g.hold = some (.building, id) := hmay
      obtain ⟨l, hl, hpos, hborn⟩ := h.holding List.mem_cons_self hg
      obtain rfl := Life.of_building hpos
      obtain rfl : s' = _ := heffect
      by_cases he : r = errorSuccess
      · have htrack : InstanceAccount.track (.registerWait id) r g =
            { g with hold := some (.started, id) } := if_pos he
        rw [if_pos he, htrack]
        exact h.step (.live true true 0) (some .building) (some .started) none hl hg rfl
          (fun i => by cases i <;> rfl) rfl (fun i => by cases i <;> rfl) hl.refCount
          (Function.update_self ..) hl.listed ⟨by decide, by decide⟩ hborn (fun _ _ => rfl)
          (fun id' hne => Function.update_of_ne hne _ _) (fun _ _ => Iff.rfl) (Nat.le_refl _)
      · have htrack : InstanceAccount.track (.registerWait id) r g = g := if_neg he
        rw [if_neg he, htrack]
        exact h.frame rfl (fun _ => rfl) rfl rfl rfl rfl
  | insertTail id =>
      obtain ⟨-, -, hg⟩ : g.inside = true ∧ g.owes = none ∧ g.hold = some (.started, id) :=
        hmay
      obtain ⟨l, hl, hpos, hborn⟩ := h.holding List.mem_cons_self hg
      obtain ⟨waiting, refs, rfl⟩ := Life.of_started hpos
      obtain rfl : s' = _ := heffect
      have hsame : Life.references (.live false waiting (refs + 1)) =
          Life.references (.live true waiting refs) := by
        simp only [Life.references, Bool.toNat_true, Bool.toNat_false]
        omega
      refine h.step (.live false waiting (refs + 1)) (some .started) (some .ref) (some .inserted) hl
        hg rfl (fun i => by cases i <;> simp [Life.holds]) rfl
        (fun i => by cases i <;> simp [Life.marked, hsame]) ?_ hl.waiting (by simp [Life.listed])
        ?_ hborn (fun _ _ => rfl) (fun _ _ => rfl) (fun id' hne => by simp [hne]) (Nat.le_refl _)
      · rw [Life.refCount, hsame]
        exact hl.refCount
      · rw [Life.Ok, hsame]
        exact hl.ok
  | decrement id =>
      obtain rfl : g = .outside (some (.ref, id)) := hmay
      obtain ⟨x, hx, rfl, rfl⟩ := heffect
      exact allLive_decrement h hx
  | removeEntry id =>
      obtain rfl : g = ⟨true, none, none, [], some (.last, id)⟩ := hmay
      obtain ⟨l, hl, hpos, hborn⟩ := h.holding (k := .last) List.mem_cons_self rfl
      obtain rfl := Life.of_last hpos
      obtain ⟨rfl, -⟩ := heffect
      exact h.step .unlinked (some .last) (some .gone) (some .removed) hl rfl rfl
        (fun i => by cases i <;> rfl) rfl (fun i => by cases i <;> rfl) hl.refCount hl.waiting
        (by simp [hnodup.mem_erase_iff, Life.listed]) trivial hborn (fun _ _ => rfl)
        (fun _ _ => rfl) (fun id' hne => List.mem_erase_of_ne hne) (Nat.le_refl _)
  | memFree id =>
      obtain rfl : s' = _ := heffect
      have hmay : g.hold = some (.gone, id) ∨ g.hold = some (.building, id) := hmay
      rcases hmay with hg | hg
      · obtain ⟨l, hl, hpos, hborn⟩ := h.holding List.mem_cons_self hg
        obtain rfl := Life.of_gone hpos
        exact h.step (.freed true) (some .gone) none (some .freed) hl hg rfl
          (fun i => by cases i <;> rfl) rfl (fun i => by cases i <;> rfl)
          (by simp [Life.refCount]) hl.waiting hl.listed trivial hborn
          (fun id' hne => Function.update_of_ne hne _ _) (fun _ _ => rfl) (fun _ _ => Iff.rfl)
          (Nat.le_refl _)
      · obtain ⟨l, hl, hpos, hborn⟩ := h.holding List.mem_cons_self hg
        obtain rfl := Life.of_building hpos
        exact h.step (.freed false) (some .building) none (some .freed) hl hg rfl
          (fun i => by cases i <;> rfl) rfl (fun i => by cases i <;> rfl)
          (by simp [Life.refCount]) hl.waiting hl.listed trivial hborn
          (fun id' hne => Function.update_of_ne hne _ _) (fun _ _ => rfl) (fun _ _ => Iff.rfl)
          (Nat.le_refl _)
  | terminated =>
      obtain rfl : g = .outside none := hmay
      obtain ⟨hwaiting, rfl⟩ := heffect
      obtain ⟨l, hl, hwaits, hborn⟩ := h.waits hwaiting
      obtain ⟨started, refs, rfl⟩ := Life.of_waiting hwaits
      have hsame : Life.references (.live started false (refs + 1)) =
          Life.references (.live started true refs) := by
        simp only [Life.references, Bool.toNat_true, Bool.toNat_false]
        omega
      refine h.step (.live started false (refs + 1)) none (some .ref) none hl rfl rfl
        (fun i => by cases i <;> simp [Life.holds]) rfl
        (fun i => by cases i <;> simp [Life.marked, hsame]) ?_ (Function.update_self ..) hl.listed
        ?_ hborn (fun _ _ => rfl) (fun id' hne => Function.update_of_ne hne _ _)
        (fun _ _ => Iff.rfl) (Nat.le_refl _)
      · rw [Life.refCount, hsame]
        exact hl.refCount
      · rw [Life.Ok, hsame]
        exact hl.ok
  | enterLock =>
      obtain ⟨-, rfl⟩ := heffect
      exact h.frame rfl (fun _ => rfl) rfl rfl rfl rfl
  | leaveLock | resetEvent | setEvent | configure | waitEvent =>
      obtain rfl := heffect
      exact h.frame rfl (fun _ => rfl) rfl rfl rfl rfl
  | lookup | entries =>
      obtain ⟨rfl, -⟩ := heffect
      exact h.frame rfl (fun _ => rfl) rfl rfl rfl rfl
  | replaceArguments | createProcess | read | accessCheck | kill | setPersistent | deletePersistent
  | closeHandles =>
      have hkey := writes_key heffect
      obtain ⟨x, y, -, -, rfl⟩ := heffect
      exact h.frame rfl (fun id' => refCount_of_key (hkey id')) rfl rfl rfl rfl

/-! ## What the lock protects -/

/-- The names of what is in memory, as far as it is there. -/
def NamesKept (s s' : LauncherState) (id : Nat) : Prop :=
  ∀ x' ∈ s'.memory id, ∃ x ∈ s.memory id,
    x.className = x'.className ∧ x.instanceName = x'.instanceName

theorem NamesKept.rfl : NamesKept s s id := fun x hx => ⟨x, hx, Eq.refl _, Eq.refl _⟩

theorem namesKept_update {x y : SvcInstance} {id' : Nat} (hx : s.memory id = some x)
    (hclass : x.className = y.className) (hinstance : x.instanceName = y.instanceName) :
    NamesKept s { s with memory := Function.update s.memory id (some y) } id' := by
  intro x' hx'
  by_cases heq : id' = id
  · subst heq
    simp only [Function.update_self, Option.mem_def, Option.some.injEq] at hx'
    subst hx'
    exact ⟨x, hx, hclass, hinstance⟩
  · simp only [Function.update_of_ne heq] at hx'
    exact ⟨x', hx', Eq.refl _, Eq.refl _⟩

theorem Writes.namesKept {id' : Nat} (h : Writes s s' id) : NamesKept s s' id' := by
  obtain ⟨x, y, hx, hkey, rfl⟩ := h
  obtain ⟨-, hclass, hinstance⟩ := Prod.ext_iff.mp hkey |>.imp_right Prod.ext_iff.mp
  exact namesKept_update hx hclass.symm hinstance.symm

/-- What an account says is so. -/
structure InstanceAccount.Knows (s : LauncherState) (g : InstanceAccount) : Prop where
  out : g.inside = false → g = .outside g.hold ∧
    ∀ id, g.hold ≠ some (.building, id) ∧ g.hold ≠ some (.started, id)
  building : ∀ id, g.hold = some (.building, id) ∨ g.hold = some (.started, id) →
    ∀ x ∈ s.memory id, g.checked = some (x.className, x.instanceName)
  checked : ∀ n ∈ g.checked, ∀ id ∈ s.list, ∀ x ∈ s.memory id, ¬ x.Named n.1 n.2
  found : ∀ id ∈ g.found, id ∈ s.list
  owes : ∀ b ∈ g.owes, s.list.isEmpty = b

namespace InstanceAccount

theorem knows_outside {hold : Option (HoldKind × Nat)}
    (h : ∀ id, hold ≠ some (.building, id) ∧ hold ≠ some (.started, id)) :
    Knows s (.outside hold) where
  out _ := ⟨rfl, h⟩
  building id hid := absurd hid (not_or.mpr (h id))
  checked n hn := by cases hn
  found id hid := absurd hid List.not_mem_nil
  owes b hb := by cases hb

theorem knows_inside {hold : Option (HoldKind × Nat)}
    (h : ∀ id, hold ≠ some (.building, id) ∧ hold ≠ some (.started, id)) :
    Knows s ⟨true, none, none, [], hold⟩ where
  out hout := by cases hout
  building id hid := absurd hid (not_or.mpr (h id))
  checked n hn := by cases hn
  found id hid := absurd hid List.not_mem_nil
  owes b hb := by cases hb

theorem Knows.inside_of_owes {b : Bool} (h : g.Knows s) (howes : g.owes = some b) :
    g.inside = true := by
  by_contra hout
  rw [(h.out (Bool.eq_false_iff.mpr hout)).1] at howes
  cases howes

theorem Knows.of_out (h : g.Knows s) (hout : g.inside = false) : g.Knows s' := by
  obtain ⟨heq, hhold⟩ := h.out hout
  rw [heq]
  exact knows_outside hhold

theorem Knows.frame (h : g.Knows s) (hlist : s'.list = s.list)
    (hnames : ∀ id, NamesKept s s' id) :
    g.Knows s' where
  out := h.out
  building id hid x' hx' := by
    obtain ⟨x, hx, hclass, hinstance⟩ := hnames id x' hx'
    rw [← hclass, ← hinstance]
    exact h.building id hid x hx
  checked n hn id hid x' hx' := by
    obtain ⟨x, hx, hclass, hinstance⟩ := hnames id x' hx'
    rw [SvcInstance.Named, ← hclass, ← hinstance]
    exact h.checked n hn id (hlist ▸ hid) x hx
  found id hid := hlist ▸ h.found id hid
  owes b hb := hlist ▸ h.owes b hb

end InstanceAccount

/-- No two instances of the list have one name. -/
def NamesDiffer (s : LauncherState) (id id' : Nat) : Prop :=
  ∀ x ∈ s.memory id, ∀ x' ∈ s.memory id', ¬ x.Named x'.className x'.instanceName

structure ListInv (s : LauncherState) (gs : List InstanceAccount) : Prop where
  one : (gs.countP fun g => g.inside) = if s.locked then 1 else 0
  knows : ∀ g ∈ gs, g.Knows s
  event : (∀ g ∈ gs, g.owes = none) → s.event = s.list.isEmpty
  nodup : s.list.Nodup
  names : s.list.Pairwise (NamesDiffer s)

namespace ListInv

theorem init : ListInv .init [] :=
  ⟨rfl, fun _ h => absurd h List.not_mem_nil, fun _ => rfl, .nil, .nil⟩

theorem perm (hperm : gs.Perm gs') (h : ListInv s gs) : ListInv s gs' :=
  ⟨(hperm.countP_eq _).symm.trans h.one, fun g hg => h.knows g (hperm.mem_iff.mpr hg),
    fun howes => h.event fun g hg => howes g (hperm.mem_iff.mp hg), h.nodup, h.names⟩

theorem cons_outside : ListInv s (.outside none :: gs) ↔ ListInv s gs := by
  have hcount : (InstanceAccount.outside none :: gs).countP (fun g => g.inside) =
      gs.countP fun g => g.inside := List.countP_cons_of_neg (by decide)
  constructor
  · intro h
    refine ⟨hcount ▸ h.one, fun g hg => h.knows g (List.mem_cons_of_mem _ hg), fun howes => ?_,
      h.nodup, h.names⟩
    refine h.event fun g hg => ?_
    rcases List.mem_cons.mp hg with rfl | hg
    · rfl
    · exact howes g hg
  · intro h
    refine ⟨hcount ▸ h.one, fun g hg => ?_,
      fun howes => h.event fun g hg => howes g (List.mem_cons_of_mem _ hg), h.nodup, h.names⟩
    rcases List.mem_cons.mp hg with rfl | hg
    · exact InstanceAccount.knows_outside fun _ => ⟨nofun, nofun⟩
    · exact h.knows g hg

theorem alone (h : ListInv s (g :: gs)) (hg : g.inside = true) :
    s.locked = true ∧ ∀ h ∈ gs, h.inside = false := by
  have hone := h.one
  rw [List.countP_cons, if_pos hg] at hone
  split at hone
  · next hlocked =>
      refine ⟨hlocked, fun h hh => ?_⟩
      have hzero : gs.countP (fun g => g.inside) = 0 := by omega
      exact Bool.eq_false_iff.mpr (List.countP_eq_zero.mp hzero h hh)
  · omega

theorem frame (h : ListInv s (g :: gs)) (hlocked : s'.locked = s.locked)
    (hevent : s'.event = s.event) (hlist : s'.list = s.list)
    (hnames : ∀ id ∈ s.list, NamesKept s s' id) (hinside : g'.inside = g.inside)
    (howes : g'.owes = g.owes) (hknows : g'.Knows s') (hothers : ∀ h ∈ gs, h.Knows s') :
    ListInv s' (g' :: gs) := by
  refine ⟨?_, List.forall_mem_cons.mpr ⟨hknows, hothers⟩, fun hall => ?_,
    hlist ▸ h.nodup, ?_⟩
  · have hone := h.one
    rw [List.countP_cons] at hone ⊢
    rw [hinside, hlocked]
    exact hone
  · rw [hevent, hlist]
    refine h.event
      (List.forall_mem_cons.mpr ⟨?_, fun k hk => hall k (List.mem_cons_of_mem _ hk)⟩)
    rw [← howes]
    exact hall g' List.mem_cons_self
  · rw [hlist]
    refine h.names.imp_of_mem fun hid hid' hdiffer x hx x' hx' => ?_
    obtain ⟨y, hy, hclass, hinstance⟩ := hnames _ hid x hx
    obtain ⟨y', hy', hclass', hinstance'⟩ := hnames _ hid' x' hx'
    rw [SvcInstance.Named, ← hclass, ← hinstance, ← hclass', ← hinstance']
    exact hdiffer y hy y' hy'

theorem frame_names (h : ListInv s (g :: gs)) (hlocked : s'.locked = s.locked)
    (hevent : s'.event = s.event) (hlist : s'.list = s.list) (hnames : ∀ id, NamesKept s s' id)
    (hinside : g'.inside = g.inside) (howes : g'.owes = g.owes) (hknows : g'.Knows s') :
    ListInv s' (g' :: gs) :=
  h.frame hlocked hevent hlist (fun id _ => hnames id) hinside howes hknows fun k hk =>
    (h.knows k (List.mem_cons_of_mem _ hk)).frame hlist hnames

theorem frame_inside (h : ListInv s (g :: gs)) (hg : g.inside = true) (hg' : g'.inside = true)
    (hlocked : s'.locked = s.locked) (hknows : g'.Knows s')
    (hevent : g'.owes = none → s'.event = s'.list.isEmpty) (hnodup : s'.list.Nodup)
    (hnames : s'.list.Pairwise (NamesDiffer s')) : ListInv s' (g' :: gs) := by
  obtain ⟨-, hout⟩ := h.alone hg
  refine ⟨?_, List.forall_mem_cons.mpr ⟨hknows, fun k hk => ?_⟩,
    fun hall => hevent (hall g' List.mem_cons_self), hnodup, hnames⟩
  · have hone := h.one
    rw [List.countP_cons] at hone ⊢
    rw [hg', hlocked, ← hone, hg]
  · exact (h.knows k (List.mem_cons_of_mem _ hk)).of_out (hout k hk)

theorem enterLock (h : ListInv s (g :: gs)) (hg : g = .outside g.hold)
    (hlocked : s.locked = false) :
    ListInv { s with locked := true } ({ g with inside := true } :: gs) := by
  have hout : g.inside = false := by rw [hg]; rfl
  have hknows := h.knows g List.mem_cons_self
  refine ⟨?_, List.forall_mem_cons.mpr ⟨?_, fun k hk => ?_⟩, fun hall => ?_,
    h.nodup, h.names⟩
  · have hone := h.one
    rw [hlocked, List.countP_cons_of_neg (by rw [hout]; exact Bool.false_ne_true)] at hone
    rw [List.countP_cons_of_pos rfl, hone]
    rfl
  · rw [hg]
    exact InstanceAccount.knows_inside (hknows.out hout).2
  · exact (h.knows k (List.mem_cons_of_mem _ hk)).frame rfl fun _ => .rfl
  · exact h.event (List.forall_mem_cons.mpr
      ⟨by rw [hg]; rfl, fun k hk => hall k (List.mem_cons_of_mem _ hk)⟩)

theorem leaveLock (h : ListInv s (g :: gs)) (hg : g.inside = true) (howes : g.owes = none)
    (hhold : ∀ id, g.hold ≠ some (.building, id) ∧ g.hold ≠ some (.started, id)) :
    ListInv { s with locked := false } (.outside g.hold :: gs) := by
  obtain ⟨hlocked, hout⟩ := h.alone hg
  refine ⟨?_, List.forall_mem_cons.mpr ⟨InstanceAccount.knows_outside hhold, fun k hk => ?_⟩,
    fun hall => ?_, h.nodup, h.names⟩
  · have hzero : gs.countP (fun g => g.inside) = 0 := List.countP_eq_zero.mpr fun k hk => by
      rw [hout k hk]
      exact Bool.false_ne_true
    rw [List.countP_cons_of_neg (by exact Bool.false_ne_true), hzero]
    rfl
  · exact (h.knows k (List.mem_cons_of_mem _ hk)).of_out (hout k hk)
  · exact h.event (List.forall_mem_cons.mpr
      ⟨howes, fun k hk => hall k (List.mem_cons_of_mem _ hk)⟩)

theorem pay {signaled : Bool} (h : ListInv s (g :: gs)) (howes : g.owes = some signaled) :
    ListInv { s with event := signaled } ({ g with owes := none } :: gs) := by
  have hknows := h.knows g List.mem_cons_self
  have hinside := hknows.inside_of_owes howes
  exact h.frame_inside hinside hinside rfl
    ⟨fun hout => absurd hinside (Bool.eq_false_iff.mp hout), hknows.building, hknows.checked,
      hknows.found, nofun⟩
    (fun _ => (hknows.owes signaled howes).symm) h.nodup h.names

/-- The new instance is not in the list, so the names of those that are stay. -/
theorem memAlloc {className instanceName : WString}
    {r : InstanceAction.Answer (.memAlloc className instanceName)} (h : ListInv s (g :: gs))
    (hlive : AllLive ls s (g :: gs))
    (hmay : g.May (.memAlloc className instanceName))
    (hexec : InstanceAction.Exec s (.memAlloc className instanceName) r s') :
    ListInv s' (InstanceAccount.track (.memAlloc className instanceName) r g :: gs) := by
  have heffect := exec_instanceEffect hexec
  have hknows := h.knows g List.mem_cons_self
  obtain rfl : g = .within (some (className, instanceName)) [] := hmay
  cases r with
  | none =>
      obtain rfl := heffect
      exact h
  | some id =>
      obtain ⟨rfl, x, hx, rfl⟩ := heffect
      obtain ⟨hclass, hinstance⟩ := Prod.ext_iff.mp (congrArg Prod.snd hx)
      have hnew : ∀ id ∈ s.list, id ≠ s.next := by
        obtain ⟨l, hl, hunborn⟩ := hlive s.next
        rintro id hid rfl
        have hlisted := hl.listed.mp hid
        rw [hunborn (Nat.le_refl _)] at hlisted
        cases hlisted
      have hkept : ∀ id ∈ s.list, NamesKept s
          { s with memory := Function.update s.memory s.next (some x), next := s.next + 1 }
          id := by
        intro id hid x' hx'
        simp only [Function.update_of_ne (hnew id hid)] at hx'
        exact ⟨x', hx', rfl, rfl⟩
      refine h.frame rfl rfl rfl hkept rfl rfl ⟨nofun, fun id hid x' hx' => ?_,
        fun n hn id hid x' hx' => ?_, nofun, nofun⟩ fun k hk => ?_
      · obtain ⟨⟨⟩⟩ | ⟨⟨⟩⟩ := hid
        simp only [Function.update_self, Option.mem_def, Option.some.injEq] at hx'
        subst hx'
        exact congrArg some (Prod.ext hclass.symm hinstance.symm)
      · simp only [Function.update_of_ne (hnew id hid)] at hx'
        exact hknows.checked n hn id hid x' hx'
      · exact (h.knows k (List.mem_cons_of_mem _ hk)).of_out ((h.alone rfl).2 k hk)

theorem registerWait {r : InstanceAction.Answer (.registerWait id)} (h : ListInv s (g :: gs))
    (hmay : g.May (.registerWait id)) (hexec : InstanceAction.Exec s (.registerWait id) r s') :
    ListInv s' (InstanceAccount.track (.registerWait id) r g :: gs) := by
  have heffect := exec_instanceEffect hexec
  have hknows := h.knows g List.mem_cons_self
  have hg : g.hold = some (.building, id) := hmay
  have hchecked := hknows.building id (.inl hg)
  have hinside : g.inside = true := by
    by_contra hout
    exact ((hknows.out (Bool.eq_false_iff.mpr hout)).2 id).1 hg
  obtain rfl : s' = _ := heffect
  by_cases he : r = errorSuccess
  · have htrack : InstanceAccount.track (.registerWait id) r g =
        { g with hold := some (.started, id) } := if_pos he
    rw [if_pos he, htrack]
    refine h.frame_names rfl rfl rfl (fun _ => .rfl) rfl rfl ⟨fun hout => ?_,
      fun id' hid' => ?_, hknows.checked, hknows.found, hknows.owes⟩
    · exact absurd hinside (Bool.eq_false_iff.mp hout)
    · obtain ⟨⟨⟩⟩ | ⟨⟨⟩⟩ := hid'
      exact hchecked
  · have htrack : InstanceAccount.track (.registerWait id) r g = g := if_neg he
    rw [if_neg he, htrack]
    exact h

/-- What was looked up and not found is inserted, so no name is in the list twice. -/
theorem insertTail {r : InstanceAction.Answer (.insertTail id)} (h : ListInv s (g :: gs))
    (hlive : AllLive ls s (g :: gs))
    (hmay : g.May (.insertTail id)) (hexec : InstanceAction.Exec s (.insertTail id) r s') :
    ListInv s' (InstanceAccount.track (.insertTail id) r g :: gs) := by
  have heffect := exec_instanceEffect hexec
  have hknows := h.knows g List.mem_cons_self
  obtain ⟨hinside, -, hg⟩ :
      g.inside = true ∧ g.owes = none ∧ g.hold = some (.started, id) :=
    hmay
  obtain rfl := heffect
  obtain ⟨l, hl, hpos, -⟩ := hlive.holding List.mem_cons_self hg
  obtain ⟨waiting, refs, rfl⟩ := Life.of_started hpos
  have hnew : id ∉ s.list := fun hid => by cases hl.listed.mp hid
  refine h.frame_inside hinside hinside rfl ⟨fun hout => ?_, nofun, nofun, fun id' hid' => ?_,
    fun b hb => ?_⟩ nofun ?_ ?_
  · exact absurd hinside (Bool.eq_false_iff.mp hout)
  · exact List.mem_append_left _ (hknows.found id' hid')
  · cases hb
    exact List.isEmpty_eq_false_iff.mpr (by simp)
  · exact List.nodup_append.mpr ⟨h.nodup, List.nodup_cons.mpr ⟨List.not_mem_nil, .nil⟩,
      fun a ha b hb heq => hnew (List.mem_singleton.mp hb ▸ heq ▸ ha)⟩
  · refine List.pairwise_append.mpr ⟨h.names, List.pairwise_singleton ..,
      fun id' hid' b hb => ?_⟩
    obtain rfl := List.mem_singleton.mp hb
    intro x hx x' hx'
    exact hknows.checked _ (hknows.building b (.inr hg) x' hx') id' hid' x hx

/-- The last reference is gone, so the instance is in the list and the event is not set. -/
theorem removeEntry {r : InstanceAction.Answer (.removeEntry id)} (h : ListInv s (g :: gs))
    (hlive : AllLive ls s (g :: gs))
    (hmay : g.May (.removeEntry id)) (hexec : InstanceAction.Exec s (.removeEntry id) r s') :
    ListInv s' (InstanceAccount.track (.removeEntry id) r g :: gs) := by
  have heffect := exec_instanceEffect hexec
  have hknows := h.knows g List.mem_cons_self
  obtain rfl : g = ⟨true, none, none, [], some (.last, id)⟩ := hmay
  obtain ⟨rfl, rfl⟩ := heffect
  obtain ⟨l, hl, hpos, -⟩ := hlive.holding (k := .last) List.mem_cons_self rfl
  obtain rfl := Life.of_last hpos
  obtain ⟨-, hout⟩ := h.alone rfl
  have hfull : s.event = false := by
    have howes : ∀ k ∈ ⟨true, none, none, [], some (.last, id)⟩ :: gs, k.owes = none :=
      List.forall_mem_cons.mpr ⟨rfl, fun k hk => by
        rw [((h.knows k (List.mem_cons_of_mem _ hk)).out (hout k hk)).1]
        rfl⟩
    rw [h.event howes, List.isEmpty_eq_false_iff]
    exact List.ne_nil_of_mem (hl.listed.mpr rfl)
  refine h.frame_inside rfl rfl rfl ⟨nofun, ?_, nofun, nofun, fun b hb => ?_⟩ (fun howes => ?_)
    (h.nodup.erase id) (h.names.sublist List.erase_sublist)
  · rintro id' (hid' | hid') <;> cases hid'
  · simp only [InstanceAccount.track] at hb
    split at hb
    · next hempty =>
        cases hb
        exact hempty
    · cases hb
  · simp only [InstanceAccount.track] at howes
    split at howes
    · cases howes
    · next hempty => exact hfull.trans (Bool.eq_false_iff.mpr hempty).symm

theorem memFree {r : InstanceAction.Answer (.memFree id)} (h : ListInv s (g :: gs))
    (hexec : InstanceAction.Exec s (.memFree id) r s') :
    ListInv s' (InstanceAccount.track (.memFree id) r g :: gs) := by
  have heffect := exec_instanceEffect hexec
  have hknows := h.knows g List.mem_cons_self
  obtain rfl : s' = _ := heffect
  have hkept : ∀ id', NamesKept s { s with memory := Function.update s.memory id none } id' := by
    intro id' x' hx'
    by_cases heq : id' = id
    · subst heq
      simp at hx'
    · simp only [Function.update_of_ne heq] at hx'
      exact ⟨x', hx', rfl, rfl⟩
  have hframe : InstanceAccount.Knows { s with memory := Function.update s.memory id none } g :=
    hknows.frame rfl hkept
  refine h.frame_names rfl rfl rfl hkept rfl rfl
    ⟨fun hout => ⟨?_, fun _ => ⟨nofun, nofun⟩⟩, ?_, hframe.checked, hframe.found,
      hframe.owes⟩
  · rw [(hknows.out hout).1]
    rfl
  · rintro id' (hid' | hid') <;> cases hid'

theorem exec (h : ListInv s (g :: gs)) (hlive : AllLive ls s (g :: gs)) (hmay : g.May a)
    (hexec : a.Exec s r s') : ListInv s' (InstanceAccount.track a r g :: gs) := by
  have heffect := exec_instanceEffect hexec
  have hknows := h.knows g List.mem_cons_self
  cases a with
  | enterLock =>
      obtain ⟨hlocked, rfl⟩ := heffect
      exact h.enterLock hmay hlocked
  | leaveLock =>
      obtain ⟨hg, howes, hhold⟩ : g.inside = true ∧ g.owes = none ∧
        ∀ id, g.hold ≠ some (.building, id) ∧ g.hold ≠ some (.started, id) := hmay
      obtain rfl := heffect
      have htrack : InstanceAccount.track .leaveLock r g = .outside g.hold := by
        simp [InstanceAccount.track, InstanceAccount.outside, howes]
      rw [htrack]
      exact h.leaveLock hg howes hhold
  | lookup className instanceName allowPidLookup =>
      obtain rfl : g = .within none [] := hmay
      obtain ⟨rfl, hfound, hmissing⟩ := heffect
      refine h.frame_names rfl rfl rfl (fun _ => .rfl) rfl rfl ⟨nofun, nofun, fun n hn => ?_,
        fun id hid => hfound id (Option.mem_toList.mp hid), nofun⟩
      simp only [InstanceAccount.track] at hn
      split at hn
      · next hnone =>
          cases hn
          exact hmissing hnone.1 hnone.2
      · cases hn
  | entries =>
      obtain rfl : g = .within none [] := hmay
      obtain ⟨rfl, rfl⟩ := heffect
      exact h.frame_names rfl rfl rfl (fun _ => .rfl) rfl rfl
        ⟨nofun, nofun, nofun, fun _ hid => hid, nofun⟩
  | memAlloc className instanceName => exact h.memAlloc hlive hmay hexec
  | registerWait id => exact h.registerWait hmay hexec
  | insertTail id => exact h.insertTail hlive hmay hexec
  | resetEvent =>
      obtain rfl := heffect
      exact h.pay hmay
  | setEvent =>
      obtain rfl := heffect
      exact h.pay hmay
  | decrement id =>
      obtain rfl : g = .outside (some (.ref, id)) := hmay
      obtain ⟨x, hx, rfl, rfl⟩ := heffect
      refine h.frame_names rfl rfl rfl (fun _ => namesKept_update hx rfl rfl) rfl rfl ?_
      refine InstanceAccount.knows_outside fun id' => ?_
      split <;> exact ⟨nofun, nofun⟩
  | removeEntry id => exact h.removeEntry hlive hmay hexec
  | memFree id => exact h.memFree hexec
  | terminated =>
      obtain rfl : g = .outside none := hmay
      obtain ⟨-, rfl⟩ := heffect
      exact h.frame_names rfl rfl rfl (fun _ => .rfl) rfl rfl
        (InstanceAccount.knows_outside fun _ => ⟨nofun, nofun⟩)
  | configure | waitEvent =>
      obtain rfl := heffect
      exact h
  | replaceArguments | createProcess | read | accessCheck | kill | setPersistent | deletePersistent
  | closeHandles =>
      have hkept : ∀ id, NamesKept s s' id := fun id => Writes.namesKept heffect
      obtain ⟨x, y, -, -, rfl⟩ := heffect
      exact h.frame_names rfl rfl rfl hkept rfl rfl (hknows.frame rfl hkept)

end ListInv

end Winspd.Proofs
