import Winspd.Lib.Calls
import Winspd.Proofs.InstanceRun
import Winspd.Proofs.LaunchReply

/-!
# The list of instances

`SvcInstanceGetNameList` reads the names under the lock. The lock keeps the list
and the names as they are (`listedNames_kept`), so what is read at several
moments is what there is at any of them, and what comes of the call is the names
from the front, as far as there is room (`takenNames`). This is all of them
exactly when all of them fit.

Where they do not fit the loop stops, and the launcher replies a success with
the names it has.
-/

namespace Winspd.Proofs

open Winspd.Lib Winspd.Shared Winspd.Launcher

/-! ## The names in the list -/

/-- The instances of a list, with their names. -/
abbrev ListedNames := List (Nat × WString × WString)

/-- The instances that are listed, with the names they have. -/
def listedNames (s : LauncherState) : Option ListedNames :=
  s.list.mapM fun id => (s.memory id).map fun x => (id, x.className, x.instanceName)

def nameChars (names : WString × WString) : List UInt16 :=
  names.1.terminated ++ names.2.terminated

def allNames (listed : ListedNames) : List UInt16 := listed.flatMap fun e => nameChars e.2

/-- The names from the front that there is room for. -/
def takenNames : Nat → ListedNames → List UInt16
  | _, [] => []
  | room, e :: rest =>
      if room < (nameChars e.2).length then []
      else nameChars e.2 ++ takenNames (room - (nameChars e.2).length) rest

theorem length_takenNames {room : Nat} {listed : ListedNames} :
    (takenNames room listed).length ≤ room := by
  induction listed generalizing room with
  | nil => exact Nat.zero_le _
  | cons e rest ih =>
      rw [takenNames]
      split
      · exact Nat.zero_le _
      · have hrest := @ih (room - (nameChars e.2).length)
        rw [List.length_append]
        omega

/-- All of them are taken exactly when there is room for all of them. -/
theorem takenNames_eq_iff {room : Nat} {listed : ListedNames} :
    takenNames room listed = allNames listed ↔ (allNames listed).length ≤ room := by
  constructor
  · intro h
    rw [← h]
    exact length_takenNames
  · intro h
    induction listed generalizing room with
    | nil => rfl
    | cons e rest ih =>
        have hall : allNames (e :: rest) = nameChars e.2 ++ allNames rest := rfl
        rw [hall, List.length_append] at h
        have hroom : ¬ room < (nameChars e.2).length := by omega
        rw [takenNames, if_neg hroom, hall, ih (by omega)]

section Kept

variable {α β : Type} {f f' : α → Option β} {xs : List α} {ys : List β}

theorem mapM_forall₂ (h : xs.mapM f = some ys) :
    List.Forall₂ (fun x y => f x = some y) xs ys := by
  induction xs generalizing ys with
  | nil =>
      cases h
      exact .nil
  | cons x xs ih =>
      rw [List.mapM_cons, Option.bind_eq_bind, Option.bind_eq_some_iff] at h
      obtain ⟨y, hy, h⟩ := h
      rw [Option.bind_eq_bind, Option.bind_eq_some_iff] at h
      obtain ⟨rest, hrest, h⟩ := h
      cases h
      exact .cons hy (ih hrest)

theorem forall₂_mapM (h : List.Forall₂ (fun x y => f x = some y) xs ys) :
    xs.mapM f = some ys := by
  induction h with
  | nil => rfl
  | cons hx _ ih =>
      rw [List.mapM_cons, hx, ih]
      rfl

end Kept

variable {s s' : LauncherState} {listed : ListedNames} {g g' : InstanceAccount}
  {gs gs' : List InstanceAccount} {ls ls' : List LauncherEvent} {a : InstanceAction}
  {r : a.Answer} {id : Nat}

theorem listedNames_list (h : listedNames s = some listed) : s.list = listed.map Prod.fst := by
  replace h := mapM_forall₂ h
  generalize s.list = list at h
  induction h with
  | nil => rfl
  | cons hx _ ih =>
      obtain ⟨x, -, rfl⟩ := Option.map_eq_some_iff.mp hx
      rw [ih]
      rfl

theorem listedNames_memory (h : listedNames s = some listed) {e : Nat × WString × WString}
    (he : e ∈ listed) : ∃ x, s.memory e.1 = some x ∧ (x.className, x.instanceName) = e.2 := by
  replace h := mapM_forall₂ h
  generalize s.list = list at h
  induction h with
  | nil => cases he
  | cons hx _ ih =>
      rcases List.mem_cons.mp he with rfl | he
      · obtain ⟨x, hmem, rfl⟩ := Option.map_eq_some_iff.mp hx
        exact ⟨x, hmem, rfl⟩
      · exact ih he

/-- While the instances of the list are there, and it stays as it is, so do the
names. -/
theorem listedNames_kept (h : listedNames s = some listed) (hlist : s'.list = s.list)
    (hnames : ∀ id ∈ s.list, NamesKept s s' id)
    (hthere : ∀ id ∈ s'.list, (s'.memory id).isSome = true) : listedNames s' = some listed := by
  replace h := mapM_forall₂ h
  unfold listedNames
  rw [hlist] at hthere ⊢
  refine forall₂_mapM ?_
  generalize s.list = list at h hnames hthere
  induction h with
  | nil => exact .nil
  | @cons id e list rest hx _ ih =>
      obtain ⟨x, hmem, rfl⟩ := Option.map_eq_some_iff.mp hx
      obtain ⟨x', hx'⟩ := Option.isSome_iff_exists.mp (hthere id (by simp))
      obtain ⟨x₁, hx₁, hclass, hinstance⟩ := hnames id (by simp) x' hx'
      have hx₁ : s.memory id = some x₁ := hx₁
      rw [hmem, Option.some.injEq] at hx₁
      subst hx₁
      refine .cons ?_ (ih (fun id' hid' => hnames id' (by simp [hid']))
        fun id' hid' => hthere id' (by simp [hid']))
      rw [hx', Option.map_some, ← hclass, ← hinstance]

theorem listed_of_names (h : listedNames s = some listed) : ∃ xs, s.listed = some xs := by
  replace h := mapM_forall₂ h
  unfold LauncherState.listed
  generalize s.list = list at h
  induction h with
  | nil => exact ⟨[], rfl⟩
  | @cons id e list rest hx _ ih =>
      obtain ⟨x, hmem, -⟩ := Option.map_eq_some_iff.mp hx
      obtain ⟨xs, hxs⟩ := ih
      exact ⟨(id, x) :: xs, by rw [List.mapM_cons, hmem, hxs]; rfl⟩

theorem LauncherInv.listedNames (h : LauncherInv ls s gs) :
    ∃ listed, listedNames s = some listed := by
  have hthere : ∀ id ∈ s.list, (s.memory id).isSome = true := fun id => h.listed
  unfold Proofs.listedNames
  generalize s.list = list at hthere
  induction list with
  | nil => exact ⟨[], rfl⟩
  | cons id list ih =>
      obtain ⟨x, hx⟩ := Option.isSome_iff_exists.mp (hthere id (by simp))
      obtain ⟨rest, hrest⟩ := ih fun id' hid' => hthere id' (by simp [hid'])
      exact ⟨(id, x.className, x.instanceName) :: rest, by rw [List.mapM_cons, hx, hrest]; rfl⟩

/-! ## What the others can do -/

/-- Whoever is outside the lock leaves the list alone, and the names. -/
theorem outside_keeps (hout : g.inside = false) (hlocked : s.locked = true) (hknows : g.Knows s)
    (hmay : g.May a) (hexec : a.Exec s r s') :
    s'.list = s.list ∧ ∀ id, NamesKept s s' id := by
  have heffect := exec_instanceEffect hexec
  have hnotWithin : ∀ checked found, g ≠ .within checked found := by
    rintro checked found rfl
    cases hout
  cases a with
  | enterLock =>
      rw [heffect.1] at hlocked
      cases hlocked
  | leaveLock =>
      obtain ⟨hin, -⟩ : g.inside = true ∧ _ := hmay
      rw [hout] at hin
      cases hin
  | lookup className instanceName allowPidLookup => exact absurd hmay (hnotWithin _ _)
  | entries => exact absurd hmay (hnotWithin _ _)
  | memAlloc className instanceName => exact absurd hmay (hnotWithin _ _)
  | insertTail id =>
      obtain ⟨hin, -⟩ : g.inside = true ∧ _ := hmay
      rw [hout] at hin
      cases hin
  | removeEntry id =>
      obtain rfl : g = ⟨true, none, none, [], some (.last, id)⟩ := hmay
      cases hout
  | configure | waitEvent =>
      obtain rfl := heffect
      exact ⟨rfl, fun _ => .rfl⟩
  | registerWait id =>
      obtain rfl := heffect
      constructor
      · split <;> rfl
      · intro id' x' hx'
        refine ⟨x', ?_, rfl, rfl⟩
        split at hx' <;> exact hx'
  | resetEvent | setEvent =>
      obtain rfl := heffect
      exact ⟨rfl, fun _ => .rfl⟩
  | decrement id =>
      obtain ⟨x, hx, -, rfl⟩ := heffect
      exact ⟨rfl, fun id' => namesKept_update hx rfl rfl⟩
  | memFree id =>
      obtain rfl := heffect
      refine ⟨rfl, fun id' x' hx' => ⟨x', ?_, rfl, rfl⟩⟩
      have hx' : Function.update s.memory id none id' = some x' := hx'
      by_cases hid : id' = id
      · subst hid
        simp at hx'
      · rwa [Function.update_of_ne hid] at hx'
  | terminated =>
      obtain ⟨-, rfl⟩ := heffect
      exact ⟨rfl, fun _ => .rfl⟩
  | replaceArguments | createProcess | read | accessCheck | kill | setPersistent
  | deletePersistent | closeHandles =>
      have hwrites : Writes s s' _ := heffect
      refine ⟨?_, fun _ => hwrites.namesKept⟩
      obtain ⟨x, y, -, -, rfl⟩ := hwrites
      rfl

/-- The threads of the launcher with one of them among the others. -/
abbrev LauncherCall := Call InstanceAction InstanceAction.Answer LauncherState InstanceAccount

abbrev LauncherCallStep {α : Type} : LauncherCall α → LauncherEvent →
    LauncherCall α → Prop :=
  Call.Step instanceRules InstanceAction.Exec LauncherEntry

theorem listedNames_others {α : Type} {p : LauncherProg α}
    {ts ts' : List (Thread InstanceAction InstanceAction.Answer InstanceAccount)}
    {ev : LauncherEvent}
    (hv : Threads.Verified instanceRules (LauncherInv ls)
      ⟨s, ⟨p >>= fun _ => pure (), g⟩ :: ts⟩)
    (hv' : LauncherInv ls' s' gs') (hin : g.inside = true) (h : listedNames s = some listed)
    (hstep : LauncherStep ⟨s, ts⟩ ev ⟨s', ts'⟩) : listedNames s' = some listed := by
  cases hstep with
  | enter => exact h
  | leave => exact h
  | @act s s' us vs a k g' r hexec =>
      have hmem : (⟨.act a k, g'⟩ : Thread _ _ _) ∈
          (⟨p >>= fun _ => pure (), g⟩ : Thread _ _ _) :: (us ++ ⟨.act a k, g'⟩ :: vs) := by
        simp
      have hsafe := hv.safe _ hmem
      have hlist := hv.inv.list
      obtain ⟨hlocked, hout⟩ := hlist.alone hin
      have hg' : g' ∈ (us ++ ⟨.act a k, g'⟩ :: vs).map Thread.account := by simp
      have hknows := hlist.knows g' (List.mem_cons_of_mem _ hg')
      obtain ⟨hsame, hnames⟩ := outside_keeps (hout g' hg') hlocked hknows hsafe.1 hexec
      exact listedNames_kept h hsame (fun id _ => hnames id) fun id => hv'.listed

/-! ## The call -/

/-- What a list of names tells whoever reads it, and keeps it so. -/
def ListedNames.Answers (listed : ListedNames) : (a : InstanceAction) → a.Answer → Prop
  | .entries, entries => entries = listed.map Prod.fst
  | .read id, x => ∀ e ∈ listed, e.1 = id → (x.className, x.instanceName) = e.2
  | _, _ => True

/-- Who only reads the list, and the instances of it. -/
def readingRules : Rules InstanceAction InstanceAction.Answer ListedNames where
  start := []
  track _ _ listed := listed
  May _ a := a = .entries ∨ ∃ id, a = .read id
  Answers := ListedNames.Answers
  Settled _ := True

theorem svcNameList_reads {room : Nat} {rest : ListedNames} (h : ∀ e ∈ rest, e ∈ listed) :
    readingRules.Safe (fun names _ => names = takenNames room rest) listed
      (svcNameList room (rest.map Prod.fst)) := by
  induction rest generalizing room with
  | nil => exact rfl
  | cons e rest ih =>
      refine .perform_bind (.inr ⟨e.1, rfl⟩) fun x hx => ?_
      have hnames : (x.className, x.instanceName) = e.2 := hx e (h e (by simp)) rfl
      have hchars : x.className.terminated ++ x.instanceName.terminated = nameChars e.2 := by
        rw [← hnames]
        rfl
      dsimp only
      rw [hchars, takenNames]
      split
      · exact rfl
      · refine (ih fun e' he' => h e' (by simp [he'])).bind fun more _ hmore => ?_
        subst hmore
        exact rfl

def readNames (room : Nat) : LauncherProg (List UInt16) :=
  launcherAction .entries >>= svcNameList room

theorem readNames_reads {room : Nat} :
    readingRules.Safe (fun names _ => names = takenNames room listed) listed (readNames room) := by
  refine .perform_bind (.inl rfl) fun entries hentries => ?_
  have hentries : entries = listed.map Prod.fst := hentries
  rw [hentries]
  exact svcNameList_reads fun e he => he

theorem reads_exec (h : listedNames s = some listed) (hmay : readingRules.May listed a)
    (hexec : a.Exec s r s') :
    listedNames s' = some listed ∧ readingRules.Answers listed a r := by
  have hsame := exec_instanceEffect hexec
  rcases hmay with rfl | ⟨id, rfl⟩
  · obtain ⟨rfl, rfl⟩ := hsame
    exact ⟨h, listedNames_list h⟩
  · obtain ⟨c, hexec⟩ := hexec
    obtain ⟨x, hx, heq⟩ := Option.map_eq_some_iff.mp hexec
    cases heq
    rw [Function.update_eq_self_iff.mpr hx.symm]
    refine ⟨h, fun e he hid => ?_⟩
    obtain ⟨x', hx', hnames⟩ := listedNames_memory h he
    rw [hid, hx, Option.some.injEq] at hx'
    rw [hx']
    exact hnames

variable {mem : Nat → UInt8}

/-- How many characters there is room for behind the `$`. -/
def nameRoom : Nat := (spdLaunchPipeBufferSize - 1) / 2

def finishNames (mem : Nat → UInt8) (names : List UInt16) :
    LauncherProg ((Nat → UInt8) × Nat) :=
  .act .leaveLock fun _ => .ret (encode mem (.ok names))

theorem svcPipeTransactAnswer_getNameList : svcPipeTransactAnswer mem .getNameList =
    .act .enterLock fun _ => readNames nameRoom >>= finishNames mem := by
  rw [svcPipeTransactAnswer, svcInstanceGetNameList, Prog.bind_assoc]
  refine congrArg (Prog.act InstanceAction.enterLock) (funext fun _ => ?_)
  show (launcherAction .entries >>= fun entries => _) >>= _ = _
  rw [readNames, Prog.bind_assoc, Prog.bind_assoc]
  refine congrArg (Prog.act InstanceAction.entries) (funext fun entries => ?_)
  exact Prog.bind_assoc _ _ _

/-- How far the call has come that finds `listed` under the lock. -/
inductive Listing (mem : Nat → UInt8) (listed : ListedNames) :
    LauncherCall ((Nat → UInt8) × Nat) → Prop
  | inside {s : LauncherState} {p : LauncherProg (List UInt16)} {g : InstanceAccount}
      {ts : List (Thread InstanceAction InstanceAction.Answer InstanceAccount)}
      (hin : g.inside = true) (hlisted : listedNames s = some listed)
      (hreads : readingRules.Safe (fun names _ => names = takenNames nameRoom listed) listed p) :
      Listing mem listed ⟨s, p >>= finishNames mem, g, ts⟩
  | done {s : LauncherState} {g : InstanceAccount}
      {ts : List (Thread InstanceAction InstanceAction.Answer InstanceAccount)}
      (hout : g.inside = false) :
      Listing mem listed ⟨s, .ret (encode mem (.ok (takenNames nameRoom listed))), g, ts⟩

variable {c c' c₁ : LauncherCall ((Nat → UInt8) × Nat)} {ev : LauncherEvent}

/-- All of them, with the call among them, are verified. -/
abbrev CallVerified (ls : List LauncherEvent) (c : LauncherCall ((Nat → UInt8) × Nat)) : Prop :=
  Threads.Verified instanceRules (LauncherInv ls) c.world

theorem Listing.step (h : Listing mem listed c) (hv : CallVerified ls c)
    (hv' : CallVerified ls' c') (hstep : LauncherCallStep c ev c') : Listing mem listed c' := by
  cases h with
  | @inside s p g ts hin hlisted hreads =>
      cases p with
      | ret names =>
          have hnames : names = takenNames nameRoom listed := hreads
          rw [Prog.ret_bind, finishNames] at hstep
          cases hstep with
          | own hexec =>
              subst hnames
              exact .done rfl
          | other hstep =>
              exact .inside hin (listedNames_others hv hv'.inv hin hlisted hstep) hreads
      | act a k =>
          rw [Prog.act_bind] at hstep
          cases hstep with
          | own hexec =>
              obtain ⟨hlisted', hanswers⟩ := reads_exec hlisted hreads.1 hexec
              refine .inside ?_ hlisted' (hreads.2 _ hanswers)
              rcases hreads.1 with rfl | ⟨id, rfl⟩
              · exact hin
              · exact hin
          | other hstep =>
              exact .inside hin (listedNames_others hv hv'.inv hin hlisted hstep) hreads
  | done hout =>
      cases hstep with
      | other hstep => exact .done hout

theorem callRun_verified (hv : CallVerified ls c) (hrun : Run LauncherCallStep c ls' c') :
    CallVerified (ls ++ ls') c' :=
  Call.run_verified (I := LauncherInv) (fun hp h => h.perm hp) launcherStep_verified hv hrun

theorem Listing.run (h : Listing mem listed c) (hv : CallVerified ls c)
    (hrun : Run LauncherCallStep c ls' c') : Listing mem listed c' :=
  hrun.history (I := fun _ c' => Listing mem listed c') h fun hr ih hstep =>
    ih.step (callRun_verified hv hr) (callRun_verified hv (.snoc hr hstep)) hstep

theorem Listing.reply {reply : (Nat → UInt8) × Nat} (h : Listing mem listed c)
    (hret : c.prog = .ret reply) : reply = encode mem (.ok (takenNames nameRoom listed)) := by
  cases h with
  | @inside s p g ts hin hlisted hreads =>
      cases p with
      | ret names => cases hret
      | act a k => cases hret
  | done hout =>
      cases hret
      rfl

/-- A request for the list, by a thread of its own, when the launcher has come to
`w`. -/
def listCall (mem : Nat → UInt8) (w : LauncherThreads) :
    LauncherCall ((Nat → UInt8) × Nat) :=
  ⟨w.shared, svcPipeTransactAnswer mem .getNameList, .outside none, w.threads⟩

variable {w : LauncherThreads}

theorem listCall_verified (mem : Nat → UInt8)
    (h : Threads.Verified instanceRules (LauncherInv ls) w) :
    CallVerified ls (listCall mem w) := by
  have hsafe : Settles (svcPipeTransactAnswer mem .getNameList >>= fun _ =>
      (pure () : LauncherProg Unit)) := by
    have hcall : Settles (svcPipeTransactAnswer mem .getNameList) :=
      svcInstanceGetNameList_safe.bind fun _ _ hg => hg
    exact hcall.bind fun _ _ hg => hg
  refine ⟨LauncherInv.cons_outside.mpr h.inv, fun t ht => ?_⟩
  rcases List.mem_cons.mp ht with rfl | ht
  · exact hsafe
  · exact h.safe t ht

/-- The call is on its way to the lock, or has been inside. -/
inductive Begun (mem : Nat → UInt8) : LauncherCall ((Nat → UInt8) × Nat) → Prop
  | entering {s : LauncherState} {g : InstanceAccount}
      {ts : List (Thread InstanceAction InstanceAction.Answer InstanceAccount)}
      (hout : g.inside = false) : Begun mem ⟨s, svcPipeTransactAnswer mem .getNameList, g, ts⟩
  | listing {c : LauncherCall ((Nat → UInt8) × Nat)} {listed : ListedNames}
      (h : Listing mem listed c) : Begun mem c

theorem Begun.step (h : Begun mem c) (hv : CallVerified ls c) (hv' : CallVerified ls' c')
    (hstep : LauncherCallStep c ev c') : Begun mem c' := by
  cases h with
  | @entering s g ts hout =>
      rw [svcPipeTransactAnswer_getNameList] at hstep
      cases hstep with
      | own hexec =>
          obtain ⟨listed, hlisted⟩ := hv'.inv.listedNames
          exact .listing (.inside rfl hlisted readNames_reads)
      | other hstep =>
          rw [← svcPipeTransactAnswer_getNameList]
          exact .entering hout
  | listing h => exact .listing (h.step hv hv' hstep)

theorem Begun.run (h : Begun mem c) (hv : CallVerified ls c)
    (hrun : Run LauncherCallStep c ls' c') : Begun mem c' :=
  hrun.history (I := fun _ c' => Begun mem c') h fun hr ih hstep =>
    ih.step (callRun_verified hv hr) (callRun_verified hv (.snoc hr hstep)) hstep

/-- Inside the lock the list is what the call is to come to. -/
theorem Begun.inside (h : Begun mem c) (hin : c.account.inside = true) :
    ∃ listed, listedNames c.shared = some listed ∧ Listing mem listed c := by
  cases h with
  | entering hout =>
      rw [hout] at hin
      cases hin
  | @listing c listed h =>
      cases h with
      | inside hin hlisted hreads => exact ⟨listed, hlisted, .inside hin hlisted hreads⟩
      | done hout =>
          rw [hout] at hin
          cases hin

/-! ## The list is complete, or it is not -/

/-- A moment of a run from `c₀` to `c'` at which the call is inside the lock. -/
def InsideDuring (c₀ : LauncherCall ((Nat → UInt8) × Nat)) (ls : List LauncherEvent)
    (c' c : LauncherCall ((Nat → UInt8) × Nat)) : Prop :=
  ∃ ls₁ ls₂, ls = ls₁ ++ ls₂ ∧ Run LauncherCallStep c₀ ls₁ c ∧
    Run LauncherCallStep c ls₂ c' ∧
    c.account.inside = true

theorem first_step (hprog : c.prog = svcPipeTransactAnswer mem .getNameList)
    (hstep : LauncherCallStep c ev c') :
    c'.prog = svcPipeTransactAnswer mem .getNameList ∨ c'.account.inside = true := by
  obtain ⟨s, p, g, ts⟩ := c
  have hprog : p = svcPipeTransactAnswer mem .getNameList := hprog
  rw [hprog, svcPipeTransactAnswer_getNameList] at hstep
  cases hstep with
  | own hexec => exact .inr rfl
  | other hstep => exact .inl svcPipeTransactAnswer_getNameList.symm

theorem exists_insideDuring {c₀ : LauncherCall ((Nat → UInt8) × Nat)}
    (hbegun : c₀.prog = svcPipeTransactAnswer mem .getNameList)
    (hrun : Run LauncherCallStep c₀ ls c') :
    c'.prog = svcPipeTransactAnswer mem .getNameList ∨ ∃ c, InsideDuring c₀ ls c' c := by
  refine hrun.history (I := fun ls c' => c'.prog = svcPipeTransactAnswer mem .getNameList ∨
    ∃ c, InsideDuring c₀ ls c' c) (.inl hbegun) fun {ls c l c'} hr ih hstep => ?_
  rcases ih with hprog | ⟨c₁, ls₁, ls₂, rfl, hr₁, hr₂, hin⟩
  · rcases first_step hprog hstep with hprog' | hin
    · exact .inl hprog'
    · exact .inr ⟨c', ls ++ [l], [], by simp, .snoc hr hstep, .nil, hin⟩
  · exact .inr ⟨c₁, ls₁, ls₂ ++ [l], by simp, hr₁, .snoc hr₂ hstep, hin⟩

/-- A reply to a request for the list: a success with all names, or, when there is
no room for them, a failure. -/
def ListReplied (listed : ListedNames) (bytes : List UInt8) : Prop :=
  bytes = wcharBytes (spdLaunchCmdSuccess :: allNames listed) ∨
    nameRoom < (allNames listed).length ∧
      ∃ chars, bytes = wcharBytes (spdLaunchCmdFailure :: chars)

theorem listReplied_iff : ListReplied listed
    (replyBytes (encode mem (.ok (takenNames nameRoom listed)))) ↔
      (allNames listed).length ≤ nameRoom := by
  have hfits : OutcomeFits (.ok (takenNames nameRoom listed)) := by
    have hlen := @length_takenNames nameRoom listed
    show (takenNames nameRoom listed).length * 2 ≤ spdLaunchPipeBufferSize - 1
    rw [nameRoom] at hlen ⊢
    omega
  rw [replyBytes_encode hfits, replyChars, ← takenNames_eq_iff]
  constructor
  · rintro (hall | ⟨-, chars, hfailure⟩)
    · have hchars := congrArg wideChars hall
      rw [wideChars_wcharBytes, wideChars_wcharBytes, List.cons.injEq] at hchars
      exact hchars.2
    · have hchars := congrArg wideChars hfailure
      rw [wideChars_wcharBytes, wideChars_wcharBytes, List.cons.injEq] at hchars
      exact absurd hchars.1 (by decide)
  · intro hall
    exact .inl (by rw [hall])

/-- A request for the list among anything the other threads of the launcher do.
While it is inside the lock, the list is what it is, and the reply is one to this
list exactly when all of it fits. -/
theorem name_list {reply : (Nat → UInt8) × Nat} (hrun : Run LauncherStep launcherInit ls w)
    (hcall : Run LauncherCallStep (listCall mem w) ls' c') (hret : c'.prog = .ret reply) :
    (∃ c, InsideDuring (listCall mem w) ls' c' c) ∧
      ∀ c, InsideDuring (listCall mem w) ls' c' c → c.shared.locked = true ∧
        ∃ listed, listedNames c.shared = some listed ∧
          (ListReplied listed (replyBytes reply) ↔ (allNames listed).length ≤ nameRoom) := by
  have hv := listCall_verified mem (launcherRun_verified hrun)
  constructor
  · rcases exists_insideDuring rfl hcall with hprog | hinside
    · rw [hret, svcPipeTransactAnswer_getNameList] at hprog
      cases hprog
    · exact hinside
  · rintro c ⟨ls₁, ls₂, rfl, hr₁, hr₂, hin⟩
    have hv₁ := callRun_verified hv hr₁
    have hbegun : Begun mem (listCall mem w) := .entering rfl
    obtain ⟨listed, hlisted, hlisting⟩ := (hbegun.run hv hr₁).inside hin
    refine ⟨(hv₁.inv.list.alone hin).1, listed, hlisted, ?_⟩
    rw [(hlisting.run hv₁ hr₂).reply hret]
    exact listReplied_iff

/-! ## Calls that nobody disturbs -/

def quietly (s : LauncherState) (a : InstanceAction) : Option (LauncherState × a.Answer) :=
  a.exec s (.ends errorSuccess)

theorem svcNameList_quietly {room : Nat} {ids : List Nat}
    (h : ∀ id ∈ ids, (s.memory id).isSome = true) :
    ∃ names, (svcNameList room ids).alone quietly s = some (s, names) := by
  induction ids generalizing room with
  | nil => exact ⟨[], rfl⟩
  | cons id ids ih =>
      obtain ⟨x, hx⟩ := Option.isSome_iff_exists.mp (h id (by simp))
      have hread : quietly s (.read id) = some (s, x) := by
        show s.access id _ = _
        rw [LauncherState.access, hx, Option.map_some]
        rw [Function.update_eq_self_iff.mpr hx.symm]
      rw [svcNameList, Prog.alone_bind, Prog.alone_perform, hread]
      dsimp only [Option.bind_some]
      split
      · exact ⟨[], rfl⟩
      · obtain ⟨names, hnames⟩ :=
          @ih (room - (x.className.terminated ++ x.instanceName.terminated).length)
            fun id' hid' => h id' (by simp [hid'])
        rw [Prog.alone_bind, hnames]
        exact ⟨_, rfl⟩

theorem listCall_returns (mem : Nat → UInt8) (hlocked : w.shared.locked = false)
    (hlisted : listedNames w.shared = some listed) :
    ∃ ls c' c reply, Run LauncherCallStep (listCall mem w) ls c' ∧ c'.prog = .ret reply ∧
      InsideDuring (listCall mem w) ls c' c ∧ listedNames c.shared = some listed := by
  have hthere : ∀ id ∈ w.shared.list, (w.shared.memory id).isSome = true := by
    intro id hid
    rw [listedNames_list hlisted, List.mem_map] at hid
    obtain ⟨e, he, rfl⟩ := hid
    obtain ⟨x, hx, -⟩ := listedNames_memory hlisted he
    rw [hx, Option.isSome_some]
  have henter : InstanceAction.Exec w.shared .enterLock () { w.shared with locked := true } :=
    ⟨.ends errorSuccess, by simp [InstanceAction.exec, hlocked]⟩
  have hfirst : LauncherCallStep (listCall mem w) (.act .enterLock ())
      ⟨{ w.shared with locked := true }, readNames nameRoom >>= finishNames mem,
        { InstanceAccount.outside none with inside := true }, w.threads⟩ := by
    rw [listCall, svcPipeTransactAnswer_getNameList]
    exact .own henter
  obtain ⟨names, hnames⟩ : ∃ names, (svcNameList nameRoom w.shared.list).alone quietly
      { w.shared with locked := true } = some ({ w.shared with locked := true }, names) :=
    svcNameList_quietly hthere
  have hentries : quietly { w.shared with locked := true } .entries =
      some ({ w.shared with locked := true }, w.shared.list) := by
    obtain ⟨xs, hxs⟩ := listed_of_names (s := { w.shared with locked := true }) hlisted
    show (LauncherState.listed _).map _ = _
    rw [hxs]
    rfl
  have halone : (readNames nameRoom >>= finishNames mem).alone quietly
      { w.shared with locked := true } =
        some ({ w.shared with locked := false }, encode mem (.ok names)) := by
    rw [Prog.alone_bind, readNames, Prog.alone_bind, Prog.alone_perform, hentries]
    dsimp only [Option.bind_some]
    rw [hnames]
    rfl
  obtain ⟨ls, g', hr⟩ : ∃ ls g', Run LauncherCallStep
      ⟨{ w.shared with locked := true }, readNames nameRoom >>= finishNames mem,
        { InstanceAccount.outside none with inside := true }, w.threads⟩ ls
      ⟨{ w.shared with locked := false }, .ret (encode mem (.ok names)), g', w.threads⟩ :=
    Call.run_alone (fun s a s' r h => ⟨_, h⟩) halone
  exact ⟨_, _, _, _, .cons hfirst hr, rfl, ⟨[_], ls, rfl, .single hfirst, hr, rfl⟩, hlisted⟩

/-- An instance of a class is started, by a thread that has released it. -/
def startOne (className instanceName : WString) :
    List (Launcher.Choice × Threads.Move LauncherEntry) :=
  let ok : Launcher.Choice := .ends errorSuccess
  [(ok, .enter _ (.start className instanceName)), (ok, .turn 0), (ok, .turn 0), (ok, .turn 0),
    (ok, .turn 0), (.replaces .empty, .turn 0), (.creates 4, .turn 0), (ok, .turn 0), (ok, .turn 0),
    (ok, .turn 0), (ok, .turn 0), (ok, .turn 0), (ok, .turn 0)]

def letterClass (c : UInt16) (h : c ≠ 0) : WString := ⟨[c], by simpa using Ne.symm h⟩

def longName (n : Nat) (c : UInt16) (h : c ≠ 0) : WString :=
  ⟨List.replicate n c, fun hmem => h (List.eq_of_mem_replicate hmem).symm⟩

/-- Two instances, with names of `n` letters. -/
def startTwo (n : Nat) : List (Launcher.Choice × Threads.Move LauncherEntry) :=
  startOne (letterClass 0x61 (by decide)) (longName n 0x62 (by decide)) ++
    startOne (letterClass 0x63 (by decide)) (longName n 0x64 (by decide))

theorem startTwo_run (n : Nat) : ∃ ls w, Run LauncherStep launcherInit ls w ∧
    w.shared.locked = false ∧ listedNames w.shared =
      some [(0, letterClass 0x61 (by decide), longName n 0x62 (by decide)),
        (1, letterClass 0x63 (by decide), longName n 0x64 (by decide))] := by
  have hfinal : (Threads.plays instanceRules (fun c s a => a.exec s c) (fun _ _ _ => true) []
      launcherInit (startTwo n)).map (fun x => (x.2.shared.locked, listedNames x.2.shared)) =
      some (false, some [(0, letterClass 0x61 (by decide), longName n 0x62 (by decide)),
        (1, letterClass 0x63 (by decide), longName n 0x64 (by decide))]) := by rfl
  obtain ⟨⟨ls, w⟩, hplays, hfinal⟩ := Option.map_eq_some_iff.mp hfinal
  rw [Prod.mk.injEq] at hfinal
  exact ⟨ls, w, launcherPlays_run hplays, hfinal⟩

/-- The names of `startTwo`, and their NULs. -/
theorem length_allNames_two (n : Nat) :
    (allNames [(0, letterClass 0x61 (by decide), longName n 0x62 (by decide)),
      (1, letterClass 0x63 (by decide), longName n 0x64 (by decide))]).length = 2 * n + 6 := by
  simp [allNames, nameChars, WString.terminated, letterClass, longName]
  omega

theorem name_list_short :
    ∃ w ls' c' reply c listed, Run LauncherCallStep (listCall (fun _ => 0) w) ls' c' ∧
      c'.prog = .ret reply ∧ InsideDuring (listCall (fun _ => 0) w) ls' c' c ∧
      listedNames c.shared = some listed ∧ listed.length = 2 ∧
      ListReplied listed (replyBytes reply) := by
  obtain ⟨ls, w, hrun, hlocked, hlisted⟩ := startTwo_run 1
  obtain ⟨ls', c', c, reply, hcall, hret, hinside, hlisted'⟩ :=
    listCall_returns (fun _ => 0) hlocked hlisted
  obtain ⟨-, listed, heq, hreplied⟩ := (name_list hrun hcall hret).2 c hinside
  rw [hlisted', Option.some.injEq] at heq
  subst heq
  refine ⟨w, ls', c', reply, c, _, hcall, hret, hinside, hlisted', rfl, hreplied.mpr ?_⟩
  rw [length_allNames_two]
  decide

theorem name_list_long :
    ¬∀ (mem : Nat → UInt8) (ls ls' : List LauncherEvent) (w : LauncherThreads)
      (c c' : LauncherCall ((Nat → UInt8) × Nat)) (reply : (Nat → UInt8) × Nat)
      (listed : ListedNames), Run LauncherStep launcherInit ls w →
      Run LauncherCallStep (listCall mem w) ls' c' → c'.prog = .ret reply →
      InsideDuring (listCall mem w) ls' c' c → listedNames c.shared = some listed →
      ListReplied listed (replyBytes reply) := by
  intro hall
  obtain ⟨ls, w, hrun, hlocked, hlisted⟩ := startTwo_run 1100
  obtain ⟨ls', c', c, reply, hcall, hret, ⟨ls₁, ls₂, rfl, hr₁, hr₂, hin⟩,
      hlisted'⟩ :=
    listCall_returns (fun _ => 0) hlocked hlisted
  have hreplied :=
    hall _ ls _ w c c' reply _ hrun hcall hret ⟨ls₁, ls₂, rfl, hr₁, hr₂, hin⟩ hlisted'
  have hv := listCall_verified (fun _ => 0) (launcherRun_verified hrun)
  have hbegun : Begun (fun _ => 0) (listCall (fun _ => 0) w) := .entering rfl
  obtain ⟨listed, heq, hlisting⟩ := (hbegun.run hv hr₁).inside hin
  rw [hlisted', Option.some.injEq] at heq
  subst heq
  rw [(hlisting.run (callRun_verified hv hr₁) hr₂).reply hret, listReplied_iff,
    length_allNames_two] at hreplied
  exact absurd hreplied (by decide)

end Winspd.Proofs
