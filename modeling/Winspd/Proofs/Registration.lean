import Winspd.Shellex.Mount

/-!
# Registration and its undoing

An entry list stands for removals: in each section the values in front of the
first key that is created, and the tree of that key (`removals`). This is what
`RegDeleteEntries` removes, if the keys that are opened are there
(`regDeleteLoop_removes`). What `RegAddEntries` adds before it fails or ends is at,
below or above what is removed (`regAddLoop_grown`).

So the registry is as it was before, if and only if the keys are removed too that
had to be created above the first key of a section (`regEntries_undone`). A name
of one key has none above it.
-/

namespace Winspd.Proofs

open Winspd.Lib Winspd.Shared Winspd.Shellex

variable {κ ν : Type} {x : RegNames κ ν} {t₀ t : Registry κ ν} {rs : List (Removal κ ν)}
  {s : RegLoop κ ν} {key : List κ} {created : Bool} {name : List UInt16} {es : List RegEntry}
  {failure : Option RegFailure} {failures : Nat → Option RegFailure} {i : Nat}

/-! ## Entry lists -/

/-- Sections that open keys that are there, then create keys that are not, and set
values that are not there; from a place in a section on. -/
inductive Fresh (x : RegNames κ ν) (t₀ : Registry κ ν) :
    List κ → Bool → List RegEntry → Prop
  | nil {key : List κ} {created : Bool} : Fresh x t₀ key created []
  | ends {key : List κ} {created : Bool} {type : UInt32} {es : List RegEntry}
      (h : Fresh x t₀ [] false es) : Fresh x t₀ key created (⟨none, type, none⟩ :: es)
  | opens {key : List κ} {name : List UInt16} {es : List RegEntry}
      (hkey : t₀.keys (key ++ x.keyPath name) = true)
      (h : Fresh x t₀ (key ++ x.keyPath name) false es) :
      Fresh x t₀ key false (⟨some name, 0, none⟩ :: es)
  | creates {key : List κ} {created : Bool} {name : List UInt16} {type : UInt32}
      {es : List RegEntry} (htype : type ≠ 0) (hkey : t₀.keys (key ++ x.keyPath name) = false)
      (h : Fresh x t₀ (key ++ x.keyPath name) true es) :
      Fresh x t₀ key created (⟨some name, type, none⟩ :: es)
  | sets {key : List κ} {created : Bool} {name : Option (List UInt16)} {type : UInt32}
      {value : List UInt8} {es : List RegEntry}
      (hvalue : t₀.values key (x.valueName name) = none) (h : Fresh x t₀ key created es) :
      Fresh x t₀ key created (⟨name, type, some value⟩ :: es)

/-- What the list stands for, from a place in a section on. -/
def removals (x : RegNames κ ν) : List κ → Bool → List RegEntry → List (Removal κ ν)
  | _, _, [] => []
  | key, created, e :: es =>
      match e.name, e.value with
      | none, none => removals x [] false es
      | some name, none =>
          let key := key ++ x.keyPath name
          if e.type = 0 then removals x key created es
          else if created then removals x key true es
          else .tree key :: removals x key true es
      | name, some _ =>
          if created then removals x key true es
          else .value key (x.valueName name) :: removals x key false es

theorem removals_creates {type : UInt32} (htype : type ≠ 0) :
    removals x key created (⟨some name, type, none⟩ :: es) =
      (if created then [] else [.tree (key ++ x.keyPath name)]) ++
        removals x (key ++ x.keyPath name) true es := by
  rw [removals]
  dsimp only
  rw [if_neg htype]
  cases created <;> rfl

theorem removals_sets {name : Option (List UInt16)} {type : UInt32} {value : List UInt8} :
    removals x key created (⟨name, type, some value⟩ :: es) =
      (if created then [] else [.value key (x.valueName name)]) ++ removals x key created es := by
  rw [removals.eq_def]
  cases name <;> cases created <;> rfl

theorem mem_unless {α : Type} {a r : α} {l : List α}
    (h : r ∈ (if created then [] else [a]) ++ l) : created = false ∧ r = a ∨ r ∈ l := by
  rcases List.mem_append.mp h with hmem | hmem
  · cases created with
    | true => cases hmem
    | false => exact .inl ⟨rfl, List.mem_singleton.mp hmem⟩
  · exact .inr hmem

theorem Fresh.new (h : Fresh x t₀ key created es) :
    ∀ r ∈ removals x key created es, KeyTree.New t₀ r := by
  induction h with
  | nil => exact fun r hmem => absurd hmem List.not_mem_nil
  | ends h ih => exact ih
  | opens hkey h ih => exact ih
  | creates htype hkey h ih =>
      rw [removals_creates htype]
      intro r hmem
      rcases mem_unless hmem with ⟨-, rfl⟩ | hmem
      · exact hkey
      · exact ih r hmem
  | sets hvalue h ih =>
      rw [removals_sets]
      intro r hmem
      rcases mem_unless hmem with ⟨-, rfl⟩ | hmem
      · exact hvalue
      · exact ih r hmem

/-! ## Names of one key -/

/-- A name in the list that a key is created by. -/
def CreatesBy (entries : List RegEntry) (name : List UInt16) : Prop :=
  ∃ type, type ≠ 0 ∧ ⟨some name, type, none⟩ ∈ entries

/-- With names of one key, the first key of a section is below one that is there. -/
theorem Fresh.below_of_single (h : Fresh x t key created es)
    (hsingle : ∀ name, CreatesBy es name → (x.keyPath name).length = 1)
    (hkey : created = false → t.keys key = true) {p : List κ}
    (hmem : .tree p ∈ removals x key created es) :
    ∃ base c, p = base ++ [c] ∧ t.keys base = true := by
  have hrest : ∀ {e : RegEntry} {es}, (∀ name, CreatesBy (e :: es) name →
      (x.keyPath name).length = 1) → ∀ name, CreatesBy es name →
        (x.keyPath name).length = 1 := by
    rintro e es h name ⟨type, htype, hmem⟩
    exact h name ⟨type, htype, List.mem_cons_of_mem _ hmem⟩
  induction h with
  | nil => cases hmem
  | ends h ih => exact ih (hrest hsingle) (fun _ => t.root) hmem
  | opens hopen h ih => exact ih (hrest hsingle) (fun _ => hopen) hmem
  | @creates key created name type es htype hnew h ih =>
      rw [removals_creates htype] at hmem
      rcases mem_unless hmem with ⟨hfirst, heq⟩ | hmem
      · cases heq
        obtain ⟨c, hc⟩ := List.length_eq_one_iff.mp
          (hsingle name ⟨type, htype, List.mem_cons_self⟩)
        exact ⟨key, c, by rw [hc], hkey hfirst⟩
      · exact ih (hrest hsingle) (fun h => (by cases h)) hmem
  | sets hvalue h ih =>
      rw [removals_sets] at hmem
      rcases mem_unless hmem with ⟨-, heq⟩ | hmem
      · cases heq
      · exact ih (hrest hsingle) hkey hmem

theorem covered_of_single (hfresh : Fresh x t [] false es)
    (hsingle : ∀ name, CreatesBy es name → (x.keyPath name).length = 1) :
    KeyTree.Covered t (removals x [] false es) := by
  intro p hmem q hq hnot
  obtain ⟨base, c, rfl, hbase⟩ := hfresh.below_of_single hsingle (fun _ => t.root) hmem
  rcases List.prefix_concat_iff.mp hq with rfl | hq
  · exact ⟨_, hmem, List.prefix_refl _⟩
  · exact absurd (t.closed hq hbase) (by rw [hnot]; decide)

/-! ## What is added -/

variable [DecidableEq κ] [DecidableEq ν]

theorem regAddEntry_opens :
    (regAddEntry x failure s ⟨some name, 0, none⟩).registry = s.registry ∧
      ((regAddEntry x failure s ⟨some name, 0, none⟩).error = errorSuccess →
        (regAddEntry x failure s ⟨some name, 0, none⟩).key = s.key ++ x.keyPath name) := by
  unfold regAddEntry regOpenKeyEx
  dsimp only
  rw [if_pos rfl]
  cases failure with
  | some f => exact ⟨rfl, fun h => absurd h f.fails⟩
  | none =>
      dsimp only
      by_cases hkey : s.registry.keys (s.key ++ x.keyPath name) = true
      · rw [if_pos hkey]
        exact ⟨rfl, fun _ => rfl⟩
      · rw [if_neg hkey]
        have hne : errorFileNotFound ≠ errorSuccess := by decide
        exact ⟨rfl, fun h => absurd h hne⟩

theorem regAddEntry_creates {type : UInt32} (htype : type ≠ 0) :
    ∃ p, p <+: s.key ++ x.keyPath name ∧
      (regAddEntry x failure s ⟨some name, type, none⟩).registry = s.registry.insert p ∧
      ((regAddEntry x failure s ⟨some name, type, none⟩).error = errorSuccess →
        p = s.key ++ x.keyPath name ∧
          (regAddEntry x failure s ⟨some name, type, none⟩).key = s.key ++ x.keyPath name) := by
  unfold regAddEntry
  dsimp only
  rw [if_neg htype]
  cases failure with
  | some f => exact ⟨_, List.take_prefix _ _, rfl, fun h => absurd h f.fails⟩
  | none => exact ⟨_, List.prefix_refl _, rfl, fun _ => ⟨rfl, rfl⟩⟩

theorem regAddEntry_sets {name : Option (List UInt16)} {type : UInt32} {value : List UInt8} :
    ((regAddEntry x failure s ⟨name, type, some value⟩).registry = s.registry ∨
      (regAddEntry x failure s ⟨name, type, some value⟩).registry =
        s.registry.setValue s.key (x.valueName name) (type, value)) ∧
      (regAddEntry x failure s ⟨name, type, some value⟩).key = s.key := by
  unfold regAddEntry
  cases name <;> cases failure
  · exact ⟨.inr rfl, rfl⟩
  · exact ⟨.inl rfl, rfl⟩
  · exact ⟨.inr rfl, rfl⟩
  · exact ⟨.inl rfl, rfl⟩

theorem regAddLoop_cons_grown {e : RegEntry}
    (hstep : KeyTree.Grown t₀ rs (regAddEntry x (failures i) s e).registry)
    (hrest : (regAddEntry x (failures i) s e).error = errorSuccess → KeyTree.Grown t₀ rs
      (regAddLoop x failures (i + 1) (regAddEntry x (failures i) s e) es).registry) :
    KeyTree.Grown t₀ rs (regAddLoop x failures i s (e :: es)).registry := by
  unfold regAddLoop
  dsimp only
  split
  · exact hstep
  · next hok => exact hrest (not_not.mp hok)

/-- Whatever fails, what is added is at, below or above what the list stands for. -/
theorem regAddLoop_grown (hfresh : Fresh x t₀ key created es)
    (hremovals : ∀ r ∈ removals x key created es, r ∈ rs)
    (hcreated : created = true → t₀.keys key = false ∧ ∃ p, .tree p ∈ rs ∧ p <+: key)
    (hkey : s.key = key) (hgrown : KeyTree.Grown t₀ rs s.registry) :
    KeyTree.Grown t₀ rs (regAddLoop x failures i s es).registry := by
  induction hfresh generalizing s i with
  | nil => exact hgrown
  | ends h ih =>
      refine regAddLoop_cons_grown hgrown fun _ => ?_
      exact ih hremovals (fun h => (by cases h)) rfl hgrown
  | @opens key name es hopen h ih =>
      obtain ⟨hsame, hnext⟩ := @regAddEntry_opens _ _ x s name (failures i) _ _
      have hgrown' := hgrown
      rw [← hsame] at hgrown'
      refine regAddLoop_cons_grown hgrown' fun hok => ?_
      exact ih hremovals (fun h => (by cases h)) ((hnext hok).trans (by rw [hkey])) hgrown'
  | @creates key created name type es htype hnew h ih =>
      rw [removals_creates htype] at hremovals
      -- the first key of a section is removed, or one that has been created before it
      have htree : ∃ p, .tree p ∈ rs ∧ p <+: key ++ x.keyPath name := by
        cases created with
        | true =>
            obtain ⟨-, p, hmem, hp⟩ := hcreated rfl
            exact ⟨p, hmem, hp.trans (List.prefix_append _ _)⟩
        | false => exact ⟨_, hremovals _ List.mem_cons_self, List.prefix_refl _⟩
      obtain ⟨p, hp, hsame, hnext⟩ := @regAddEntry_creates _ _ x s name
        (failures i) _ _ type htype
      rw [hkey] at hp hnext
      have hgrown' : KeyTree.Grown t₀ rs
          (regAddEntry x (failures i) s ⟨some name, type, none⟩).registry := by
        rw [hsame]
        obtain ⟨p', hmem, hp'⟩ := htree
        exact hgrown.insert ⟨p', hmem, List.prefix_or_prefix_of_prefix hp' hp⟩
      refine regAddLoop_cons_grown hgrown' fun hok => ?_
      exact ih (fun r hmem => hremovals r (List.mem_append_right _ hmem))
        (fun _ => ⟨hnew, htree⟩)
        (hnext hok).2 hgrown'
  | @sets key created name type value es hvalue h ih =>
      rw [removals_sets] at hremovals
      obtain ⟨hsame, hnext⟩ := @regAddEntry_sets _ _ x s (failures i) _ _ name type value
      have hgrown' : KeyTree.Grown t₀ rs
          (regAddEntry x (failures i) s ⟨name, type, some value⟩).registry := by
        rcases hsame with hsame | hsame
        · rw [hsame]
          exact hgrown
        · rw [hsame, hkey]
          refine hgrown.setValue ?_
          cases created with
          | true => exact .inl (hcreated rfl).1
          | false => exact .inr (hremovals _ List.mem_cons_self)
      refine regAddLoop_cons_grown hgrown' fun _ => ?_
      exact ih (fun r hmem => hremovals r (List.mem_append_right _ hmem)) hcreated
        (hnext.trans hkey) hgrown'

theorem regAddLoop_ok {e : RegEntry} {s' : RegLoop κ ν} (hstep : regAddEntry x none s e = s')
    (hok : s'.error = errorSuccess) :
    regAddLoop x (fun _ => none) i s (e :: es) = regAddLoop x (fun _ => none) (i + 1) s' es := by
  subst hstep
  exact if_neg (not_not.mpr hok)

theorem regAddLoop_all (hfresh : Fresh x t₀ key created es) (hkey : s.key = key)
    (herror : s.error = errorSuccess)
    (hkeeps : ∀ q, t₀.keys q = true → s.registry.keys q = true) :
    (regAddLoop x (fun _ => none) i s es).error = errorSuccess ∧
      (∀ q, s.registry.keys q = true →
        (regAddLoop x (fun _ => none) i s es).registry.keys q = true) ∧
      ∀ p, .tree p ∈ removals x key created es →
        (regAddLoop x (fun _ => none) i s es).registry.keys p = true := by
  induction hfresh generalizing s i with
  | nil => exact ⟨herror, fun _ => id, fun p hmem => absurd hmem List.not_mem_nil⟩
  | @ends key created type es h ih =>
      have hstep : regAddEntry x none s ⟨none, type, none⟩ = { s with entryKey := none } := rfl
      rw [regAddLoop_ok hstep herror]
      exact ih rfl herror hkeeps
  | @opens key name es hopen h ih =>
      subst hkey
      have hstep : regAddEntry x none s ⟨some name, 0, none⟩ =
          { s with entryKey := some (s.key ++ x.keyPath name) } := by
        unfold regAddEntry regOpenKeyEx
        dsimp only
        rw [if_pos rfl, if_pos (hkeeps _ hopen)]
      rw [regAddLoop_ok hstep herror]
      exact ih rfl herror hkeeps
  | @creates key created name type es htype hnew h ih =>
      subst hkey
      obtain ⟨s', hstep, hregistry, hkey', herror'⟩ : ∃ s' : RegLoop κ ν,
          regAddEntry x none s ⟨some name, type, none⟩ = s' ∧
            s'.registry = s.registry.insert (s.key ++ x.keyPath name) ∧
            s'.key = s.key ++ x.keyPath name ∧ s'.error = errorSuccess := by
        unfold regAddEntry
        dsimp only
        rw [if_neg htype]
        exact ⟨_, rfl, rfl, rfl, herror⟩
      have hinsert : ∀ {q}, s.registry.keys q = true → s'.registry.keys q = true := by
        intro q hq
        rw [hregistry]
        exact KeyTree.keys_insert.mpr (.inl hq)
      rw [regAddLoop_ok hstep herror', removals_creates htype]
      obtain ⟨hok, hmore, htrees⟩ :=
        @ih s' (i + 1) hkey' herror' fun q hq => hinsert (hkeeps q hq)
      refine ⟨hok, fun q hq => hmore q (hinsert hq), fun p hmem => ?_⟩
      rcases mem_unless hmem with ⟨-, heq⟩ | hmem
      · cases heq
        refine hmore _ ?_
        rw [hregistry]
        exact KeyTree.keys_insert.mpr (.inr (List.prefix_refl _))
      · exact htrees p hmem
  | @sets key created name type value es hvalue h ih =>
      subst hkey
      have hstep : regAddEntry x none s ⟨name, type, some value⟩ =
          { s with
            registry := s.registry.setValue s.key (x.valueName name) (type, value) } := by
        unfold regAddEntry
        cases name <;> rfl
      rw [regAddLoop_ok hstep herror, removals_sets]
      obtain ⟨hok, hmore, htrees⟩ := @ih { s with
            registry := s.registry.setValue s.key (x.valueName name) (type, value) } (i + 1) rfl
        herror hkeeps
      refine ⟨hok, hmore, fun p hmem => ?_⟩
      rcases mem_unless hmem with ⟨-, heq⟩ | hmem
      · cases heq
      · exact htrees p hmem

/-! ## What is deleted -/

theorem regDeleteLoop_ok {e : RegEntry} {s' : RegLoop κ ν} (hstep : regDeleteEntry x s e = s')
    (hok : s'.error = errorSuccess) : regDeleteLoop x s (e :: es) = regDeleteLoop x s' es := by
  subst hstep
  exact if_neg (not_not.mpr hok)

theorem regDeleteEntry_tree {type : UInt32} (htype : type ≠ 0) (hskip : s.skip = false)
    (herror : s.error = errorSuccess) :
    ∃ s' : RegLoop κ ν, regDeleteEntry x s ⟨some name, type, none⟩ = s' ∧
      s'.registry = s.registry.remove (s.key ++ x.keyPath name) ∧ s'.skip = true ∧
      s'.error = errorSuccess := by
  unfold regDeleteEntry regDeleteTree
  dsimp only
  rw [hskip, if_neg Bool.false_ne_true, if_neg htype]
  by_cases hkey : s.registry.keys (s.key ++ x.keyPath name) = true
  · rw [if_pos hkey]
    exact ⟨_, rfl, rfl, rfl, herror⟩
  · rw [if_neg hkey, KeyTree.remove_of_not (Bool.eq_false_iff.mpr hkey)]
    exact ⟨_, rfl, rfl, rfl, herror⟩

theorem regDeleteEntry_value {name : Option (List UInt16)} {type : UInt32} {value : List UInt8}
    (hskip : s.skip = false) (herror : s.error = errorSuccess) :
    ∃ s' : RegLoop κ ν, regDeleteEntry x s ⟨name, type, some value⟩ = s' ∧
      s'.registry = s.registry.eraseValue s.key (x.valueName name) ∧ s'.skip = false ∧
      s'.key = s.key ∧ s'.error = errorSuccess := by
  have hentry : regDeleteEntry x s ⟨name, type, some value⟩ =
      { s with registry := s.registry.eraseValue s.key (x.valueName name) } := by
    unfold regDeleteEntry regDeleteValue
    cases hvalue : s.registry.values s.key (x.valueName name) with
    | none =>
        rw [KeyTree.eraseValue_of_none hvalue]
        cases name <;> simp [hskip, hvalue]
    | some value =>
        cases name <;> simp [hskip, hvalue]
  exact ⟨_, hentry, rfl, hskip, rfl, herror⟩

theorem regDeleteLoop_removes (hfresh : Fresh x t₀ key created es) (hskip : s.skip = created)
    (hkey : created = false → s.key = key) (herror : s.error = errorSuccess)
    (hkeeps : ∀ q, t₀.keys q = true → s.registry.keys q = true) :
    (regDeleteLoop x s es).error = errorSuccess ∧
      (regDeleteLoop x s es).registry = s.registry.withoutAll (removals x key created es) := by
  induction hfresh generalizing s with
  | nil => exact ⟨herror, rfl⟩
  | @ends key created type es h ih =>
      have hstep : regDeleteEntry x s ⟨none, type, none⟩ =
          { s with entryKey := none, skip := false } := rfl
      rw [regDeleteLoop_ok hstep herror]
      exact @ih { s with entryKey := none, skip := false } rfl (fun _ => rfl) herror hkeeps
  | @opens key name es hopen h ih =>
      obtain rfl := hkey rfl
      have hstep : regDeleteEntry x s ⟨some name, 0, none⟩ =
          { s with entryKey := some (s.key ++ x.keyPath name) } := by
        unfold regDeleteEntry regOpenKeyEx
        dsimp only
        rw [hskip, if_neg Bool.false_ne_true, if_pos rfl, if_pos (hkeeps _ hopen)]
      rw [regDeleteLoop_ok hstep herror]
      exact @ih { s with entryKey := some (s.key ++ x.keyPath name) } hskip (fun _ => rfl) herror
        hkeeps
  | @creates key created name type es htype hnew h ih =>
      rw [removals_creates htype]
      cases created with
      | true =>
          have hstep : regDeleteEntry x s ⟨some name, type, none⟩ = s := by
            unfold regDeleteEntry
            dsimp only
            rw [if_pos hskip]
          rw [regDeleteLoop_ok hstep herror]
          exact ih hskip (fun h => (by cases h)) herror hkeeps
      | false =>
          obtain rfl := hkey rfl
          obtain ⟨s', hstep, hregistry, hskip', herror'⟩ :=
            @regDeleteEntry_tree _ _ x s name _ _ type htype hskip herror
          rw [regDeleteLoop_ok hstep herror']
          obtain ⟨hok, hall⟩ := ih hskip' (fun h => (by cases h)) herror' fun q hq => by
            rw [hregistry]
            exact KeyTree.without_keeps (show KeyTree.New t₀ (.tree _) from hnew) hkeeps hq
          refine ⟨hok, ?_⟩
          rw [hall, hregistry]
          rfl
  | @sets key created name type value es hvalue h ih =>
      rw [removals_sets]
      cases created with
      | true =>
          have hstep : regDeleteEntry x s ⟨name, type, some value⟩ = s := by
            unfold regDeleteEntry
            cases name <;> exact if_pos hskip
          rw [regDeleteLoop_ok hstep herror]
          exact ih hskip (fun h => (by cases h)) herror hkeeps
      | false =>
          obtain rfl := hkey rfl
          obtain ⟨s', hstep, hregistry, hskip', hkey', herror'⟩ :=
            @regDeleteEntry_value _ _ x s _ _ name type value hskip herror
          rw [regDeleteLoop_ok hstep herror']
          obtain ⟨hok, hall⟩ := ih hskip' (fun _ => hkey') herror' fun q hq => by
            rw [hregistry]
            exact hkeeps q hq
          refine ⟨hok, ?_⟩
          rw [hall, hregistry]
          rfl

/-! ## Undoing -/

/-- Whatever of the list has been added, by a call that fails or one that does not,
it is deleted, and the registry is what it was before. Deleting once more changes
nothing. -/
structure Undoes (x : RegNames κ ν) (entries : List RegEntry) (t : Registry κ ν) : Prop where
  deletes : ∀ failures,
    (regDeleteEntries x entries (regAddEntries x failures entries t).registry).error = errorSuccess
  undone : ∀ failures,
    (regDeleteEntries x entries (regAddEntries x failures entries t).registry).registry = t
  again : ∀ failures t',
    (regDeleteEntries x entries (regAddEntries x failures entries t).registry).registry = t' →
      (regDeleteEntries x entries t').error = errorSuccess ∧
        (regDeleteEntries x entries t').registry = t'

theorem regAddEntries_grown (hfresh : Fresh x t [] false es) :
    KeyTree.Grown t (removals x [] false es) (regAddEntries x failures es t).registry :=
  regAddLoop_grown hfresh (fun _ => id) (fun h => (by cases h)) rfl .refl

theorem regDeleteEntries_removes (hfresh : Fresh x t₀ [] false es)
    (hkeeps : ∀ q, t₀.keys q = true → t.keys q = true) :
    (regDeleteEntries x es t).error = errorSuccess ∧
      (regDeleteEntries x es t).registry = t.withoutAll (removals x [] false es) :=
  regDeleteLoop_removes hfresh rfl (fun _ => rfl) rfl hkeeps

theorem regDeleteEntries_again (hfresh : Fresh x t [] false es) {t' : Registry κ ν}
    (h : (regDeleteEntries x es (regAddEntries x failures es t).registry).registry = t') :
    (regDeleteEntries x es t').error = errorSuccess ∧
      (regDeleteEntries x es t').registry = t' := by
  have hgrown := @regAddEntries_grown _ _ x t es failures _ _ hfresh
  rw [(regDeleteEntries_removes hfresh hgrown.keeps).2] at h
  subst h
  have hkeeps : ∀ q, t.keys q = true → (((regAddEntries x failures es t).registry).withoutAll
      (removals x [] false es)).keys q = true := by
    intro q hq
    rw [KeyTree.keys_withoutAll]
    exact ⟨hgrown.keeps q hq, fun _ p hmem => KeyTree.not_below (hfresh.new _ hmem) hq⟩
  obtain ⟨hok, hall⟩ := regDeleteEntries_removes hfresh hkeeps
  exact ⟨hok, hall.trans KeyTree.withoutAll_withoutAll⟩

theorem undoes_of_covered (hfresh : Fresh x t [] false es)
    (h : KeyTree.Covered t (removals x [] false es)) : Undoes x es t := by
  refine ⟨fun failures => ?_, fun failures => ?_,
    fun failures t' => regDeleteEntries_again hfresh⟩
  · exact (regDeleteEntries_removes hfresh (regAddEntries_grown hfresh).keeps).1
  · rw [(regDeleteEntries_removes hfresh (regAddEntries_grown hfresh).keeps).2]
    exact (regAddEntries_grown hfresh).restored hfresh.new h

theorem Undoes.covered (h : Undoes x es t) (hfresh : Fresh x t [] false es) :
    KeyTree.Covered t (removals x [] false es) := by
  have hundone := h.undone fun _ => none
  rw [(regDeleteEntries_removes hfresh (regAddEntries_grown hfresh).keeps).2] at hundone
  have hall := @regAddLoop_all _ _ x t (.start t) [] false es 0 _ _ hfresh rfl rfl fun _ => id
  exact KeyTree.covered_of_restored hall.2.2 hundone

/-! ## The shell extension -/

section
variable {r : Registry (List UInt16) (List UInt16)} {defaultIcon guidStr : List UInt16}

/-- `SOFTWARE\Classes`. -/
def classesKey : List (List UInt16) := windowsNames.keyPath (wide "SOFTWARE\\Classes")

/-- The entries of `MountCommand` make a key that is not there. -/
theorem mountEntries_fresh (hclasses : r.keys classesKey = true)
    (hprogid : r.keys (classesKey ++ windowsNames.keyPath (wide "WinSpd.DiskFile")) = false) :
    Fresh windowsNames r [] false (mountEntries defaultIcon guidStr) := by
  have hbelow : ∀ {p} q, r.keys p = false → r.keys (p ++ q) = false :=
    fun q h => KeyTree.keys_below h (List.prefix_append _ q)
  have hshell := hbelow (windowsNames.keyPath (wide "shell")) hprogid
  have hopen := hbelow (windowsNames.keyPath (wide "open")) hshell
  have hcommand := hbelow (windowsNames.keyPath (wide "command")) hopen
  have hicon := hbelow (windowsNames.keyPath (wide "DefaultIcon")) hprogid
  refine .opens hclasses (.creates (by decide) hprogid (.sets (r.valued _ hprogid) ?_))
  refine .creates (by decide) hshell (.creates (by decide) hopen ?_)
  refine .sets (r.valued _ hopen) (.sets (r.valued _ hopen) ?_)
  refine .creates (by decide) hcommand (.sets (r.valued _ hcommand) (.ends ?_))
  refine .opens hclasses (.creates (by decide) hprogid (.creates (by decide) hicon ?_))
  exact .sets (r.valued _ hicon) .nil

theorem mountEntries_single {name : List UInt16}
    (h : CreatesBy (mountEntries defaultIcon guidStr) name) :
    (windowsNames.keyPath name).length = 1 := by
  obtain ⟨type, htype, hmem⟩ := h
  simp only [mountEntries, List.mem_cons, RegEntry.mk.injEq, Option.some.injEq, reduceCtorEq,
    false_and, and_false, or_false, false_or, and_true, List.not_mem_nil] at hmem
  -- the keys that are opened have no type
  rcases hmem with ⟨-, rfl⟩ | ⟨rfl, -⟩ | ⟨rfl, -⟩ | ⟨rfl, -⟩ | ⟨rfl, -⟩ | ⟨-,
    rfl⟩ | ⟨rfl, -⟩ |
    ⟨rfl, -⟩
  all_goals first | decide | exact absurd rfl htype

/-- What `MountCommand::Register` adds, it deletes. -/
theorem mountEntries_undone (hclasses : r.keys classesKey = true)
    (hprogid : r.keys (classesKey ++ windowsNames.keyPath (wide "WinSpd.DiskFile")) = false) :
    Undoes windowsNames (mountEntries defaultIcon guidStr) r :=
  undoes_of_covered (mountEntries_fresh hclasses hprogid)
    (covered_of_single (mountEntries_fresh hclasses hprogid) fun _ => mountEntries_single)

/-- What `EjectContextMenu::Register` adds, it deletes. -/
theorem ejectEntries_undone
    (hclasses : r.keys classesKey = true)
    (hdrive : r.keys (classesKey ++ windowsNames.keyPath (wide "Drive")) = true)
    (hhandlers : r.keys (classesKey ++ windowsNames.keyPath (wide "Drive") ++
      windowsNames.keyPath (wide "shellex\\ContextMenuHandlers")) = true)
    (hverb : r.keys (classesKey ++ windowsNames.keyPath (wide "Drive") ++
      windowsNames.keyPath (wide "shellex\\ContextMenuHandlers") ++
        windowsNames.keyPath (wide "WinSpd.Eject")) = false) :
    Undoes windowsNames (ejectEntries guidStr) r := by
  have hfresh : Fresh windowsNames r [] false (ejectEntries guidStr) :=
    .opens hclasses (.opens hdrive (.opens hhandlers
      (.creates (by decide) hverb (.sets (r.valued _ hverb) .nil))))
  refine undoes_of_covered hfresh (covered_of_single hfresh ?_)
  rintro name ⟨type, htype, hmem⟩
  simp only [ejectEntries, List.mem_cons, RegEntry.mk.injEq, Option.some.injEq, reduceCtorEq,
    and_false, or_false, and_true, List.not_mem_nil] at hmem
  rcases hmem with ⟨-, rfl⟩ | ⟨-, rfl⟩ | ⟨-, rfl⟩ | ⟨rfl, -⟩
  all_goals first | decide | exact absurd rfl htype

end

/-! ## When it is undone -/

/-- Deleting undoes adding if and only if what has to be created above the first key
of a section is at or below the first key of a section. -/
theorem regEntries_undone (x : RegNames κ ν) (entries : List RegEntry) (t : Registry κ ν)
    (hfresh : Fresh x t [] false entries) :
    Undoes x entries t ↔ KeyTree.Covered t (removals x [] false entries) :=
  ⟨fun h => h.covered hfresh, undoes_of_covered hfresh⟩

/-- A registry of one key, and the entries of `MountCommand`. -/
theorem regEntries_undone_mount :
    Undoes windowsNames (mountEntries (wide "a.dll,1") (wide "\x7b0\x7d"))
      (KeyTree.leaf.insert classesKey) := by
  have hfresh : Fresh windowsNames (KeyTree.leaf.insert classesKey) [] false
      (mountEntries (wide "a.dll,1") (wide "\x7b0\x7d")) :=
    mountEntries_fresh (by decide) (by decide)
  exact (regEntries_undone _ _ _ hfresh).mpr
    (covered_of_single hfresh fun _ => mountEntries_single)

/-- `A\B`, where there is no `A`: it is created, and not deleted. -/
theorem regEntries_undone_path :
    Fresh windowsNames .leaf [] false [⟨some (wide "A\\B"), 1, none⟩] ∧
      ¬ Undoes windowsNames [⟨some (wide "A\\B"), 1, none⟩] .leaf := by
  refine ⟨.creates (by decide) (by decide) .nil, fun h => ?_⟩
  have hleft : (regDeleteEntries windowsNames [⟨some (wide "A\\B"), 1, none⟩]
      (regAddEntries windowsNames (fun _ => none) [⟨some (wide "A\\B"), 1, none⟩]
        .leaf).registry).registry.keys [wide "a"] = true := by decide
  rw [h.undone] at hleft
  exact absurd hleft (by decide)

end Winspd.Proofs
