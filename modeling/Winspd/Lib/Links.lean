import Mathlib.Data.List.Induction
import Mathlib.Logic.Function.Basic

/-!
# Circular doubly linked lists

The list the Windows kernel calls `LIST_ENTRY`: every entry has a forward and
a backward link, a list is named by a head entry that is not a member, and an
empty list is a head linked to itself. The links of all entries are one pair
of functions, so two lists share one store and a broken operation on one can
damage the other; a null link is `none`.

The operations are the ones of the kernel headers, with the checks those
headers make: following a null link and finding a neighbour that does not link
back both stop the machine, which is `none` here.

`Ring L h xs` says that the list with head `h` has exactly the members `xs`,
in that order, and is well linked. The rules say what each operation does to
the ring it is used on, and that a ring it does not touch stays
(`Ring.congr`): the store after an operation differs from the one before only
at the entries `SameOff` leaves out.
-/

namespace Winspd.Lib

/-- The links of every entry of every list. -/
structure Links (ε : Type*) where
  flink : ε → Option ε
  blink : ε → Option ε

namespace Links

variable {ε : Type*} [DecidableEq ε]

def setFlink (L : Links ε) (e : ε) (x : Option ε) : Links ε :=
  { L with flink := Function.update L.flink e x }

def setBlink (L : Links ε) (e : ε) (x : Option ε) : Links ε :=
  { L with blink := Function.update L.blink e x }

/-- `InitializeListHead`. -/
def initializeListHead (L : Links ε) (h : ε) : Links ε :=
  (L.setFlink h (some h)).setBlink h (some h)

/-- `InsertTailList`. -/
def insertTailList (L : Links ε) (h e : ε) : Option (Links ε) := do
  let prev ← L.blink h
  if L.flink prev ≠ some h then none
  else
    some ((((L.setFlink e (some h)).setBlink e (some prev)).setFlink prev (some e)).setBlink
      h (some e))

/-- `InsertHeadList`. -/
def insertHeadList (L : Links ε) (h e : ε) : Option (Links ε) := do
  let next ← L.flink h
  if L.blink next ≠ some h then none
  else
    some ((((L.setFlink e (some next)).setBlink e (some h)).setBlink next (some e)).setFlink
      h (some e))

/-- `RemoveEntryList`: the answer is whether the list is empty now. -/
def removeEntryList (L : Links ε) (e : ε) : Option (Links ε × Bool) := do
  let next ← L.flink e
  let prev ← L.blink e
  if L.blink next ≠ some e ∨ L.flink prev ≠ some e then none
  else some ((L.setFlink prev (some next)).setBlink next (some prev), decide (prev = next))

/-- The entries that `InsertTailList` reads or writes. -/
def insertTailTouched (L : Links ε) (h e : ε) : Option (List ε) := do
  let prev ← L.blink h
  some [h, prev, e]

/-- Those of `InsertHeadList`. -/
def insertHeadTouched (L : Links ε) (h e : ε) : Option (List ε) := do
  let next ← L.flink h
  some [h, next, e]

/-- Those of `RemoveEntryList`. -/
def removeTouched (L : Links ε) (e : ε) : Option (List ε) := do
  let next ← L.flink e
  let prev ← L.blink e
  some [e, next, prev]

/-- The members met on the way from `e` to the head along the forward links.
The fuel bounds their number; a walk that outlasts it never ends. -/
def walk (L : Links ε) (h : ε) : Nat → ε → Option (List ε)
  | 0, _ => none
  | fuel + 1, e =>
      if e = h then some []
      else do
        let next ← L.flink e
        let rest ← L.walk h fuel next
        some (e :: rest)

end Links

open Links

variable {ε : Type*} {L L' : Links ε} {a b c e h p n : ε} {xs ys : List ε}

/-! ## Paths -/

/-- The entries `xs`, in that order, lead from `a` to `b`, both ways. -/
def Path (L : Links ε) : ε → List ε → ε → Prop
  | a, [], b => L.flink a = some b ∧ L.blink b = some a
  | a, x :: xs, b => (L.flink a = some x ∧ L.blink x = some a) ∧ Path L x xs b

theorem path_nil : Path L a [] b ↔ L.flink a = some b ∧ L.blink b = some a := Iff.rfl

theorem path_cons {x : ε} :
    Path L a (x :: xs) b ↔ (L.flink a = some x ∧ L.blink x = some a) ∧ Path L x xs b :=
  Iff.rfl

theorem path_append {x : ε} :
    Path L a (xs ++ x :: ys) b ↔ Path L a xs x ∧ Path L x ys b := by
  induction xs generalizing a with
  | nil => rfl
  | cons y xs ih =>
      rw [List.cons_append, path_cons, path_cons, ih]
      exact and_assoc.symm

/-- A path reads the forward links of all its entries but the last and the
backward links of all but the first. -/
theorem Path.congr (hp : Path L a xs b) (hf : ∀ x ∈ a :: xs, L'.flink x = L.flink x)
    (hb : ∀ x ∈ xs ++ [b], L'.blink x = L.blink x) : Path L' a xs b := by
  induction xs generalizing a with
  | nil =>
      rw [path_nil] at hp ⊢
      exact ⟨(hf a (by simp)).trans hp.1, (hb b (by simp)).trans hp.2⟩
  | cons x xs ih =>
      rw [path_cons] at hp ⊢
      refine ⟨⟨(hf a (by simp)).trans hp.1.1, (hb x (by simp)).trans hp.1.2⟩, ih hp.2 ?_ ?_⟩
      · exact fun y hy => hf y (List.mem_cons_of_mem _ hy)
      · exact fun y hy => hb y (List.mem_cons_of_mem _ hy)

/-- The last step of a path: its last entry links to the end, and giving that
entry another end moves the path's end there. -/
theorem Path.last (hp : Path L a xs b) :
    ∃ p, p ∈ a :: xs ∧ L.flink p = some b ∧ L.blink b = some p ∧
      ∀ {L' : Links ε} {c}, L'.flink p = some c → L'.blink c = some p →
        (∀ x ∈ a :: xs, x ≠ p → L'.flink x = L.flink x) →
        (∀ x ∈ xs, L'.blink x = L.blink x) → (a :: xs).Nodup → Path L' a xs c := by
  induction xs generalizing a with
  | nil => exact ⟨a, by simp, hp.1, hp.2, fun hf hb _ _ _ => ⟨hf, hb⟩⟩
  | cons x xs ih =>
      rw [path_cons] at hp
      obtain ⟨p, hmem, hf, hb, hmove⟩ := ih hp.2
      refine ⟨p, List.mem_cons_of_mem _ hmem, hf, hb, ?_⟩
      intro L' c hpc hcp hflink hblink hnd
      have hap : a ≠ p := fun hap => (List.nodup_cons.mp hnd).1 (hap ▸ hmem)
      rw [path_cons]
      refine ⟨⟨(hflink a (by simp) hap).trans hp.1.1, (hblink x (by simp)).trans hp.1.2⟩,
        ?_⟩
      refine hmove hpc hcp ?_ ?_ (List.nodup_cons.mp hnd).2
      · exact fun y hy hyp => hflink y (List.mem_cons_of_mem _ hy) hyp
      · exact fun y hy => hblink y (List.mem_cons_of_mem _ hy)

theorem Path.first (hp : Path L a xs b) :
    ∃ n, n ∈ xs ++ [b] ∧ L.flink a = some n ∧ L.blink n = some a ∧
      ∀ {L' : Links ε} {c}, L'.flink c = some n → L'.blink n = some c →
        (∀ x ∈ xs, L'.flink x = L.flink x) →
        (∀ x ∈ xs ++ [b], x ≠ n → L'.blink x = L.blink x) → (xs ++ [b]).Nodup →
        Path L' c xs b := by
  cases xs with
  | nil => exact ⟨b, by simp, hp.1, hp.2, fun hf hb _ _ _ => ⟨hf, hb⟩⟩
  | cons x xs =>
      rw [path_cons] at hp
      refine ⟨x, by simp, hp.1.1, hp.1.2, ?_⟩
      intro L' c hcx hxc hflink hblink hnd
      rw [path_cons]
      rw [List.cons_append] at hnd
      refine ⟨⟨hcx, hxc⟩, hp.2.congr hflink ?_⟩
      intro y hy
      have hyx : y ≠ x := fun hyx => (List.nodup_cons.mp hnd).1 (hyx ▸ hy)
      exact hblink y (List.mem_cons_of_mem _ hy) hyx

/-! ## Rings -/

/-- The list with head `h` has the members `xs`, in that order, each once. -/
structure Ring (L : Links ε) (h : ε) (xs : List ε) : Prop where
  path : Path L h xs h
  nodup : (h :: xs).Nodup

theorem Ring.head_notMem (hr : Ring L h xs) : h ∉ xs := (List.nodup_cons.mp hr.nodup).1

theorem Ring.members_nodup (hr : Ring L h xs) : xs.Nodup := (List.nodup_cons.mp hr.nodup).2

theorem Ring.append_head_nodup (hr : Ring L h xs) : (xs ++ [h]).Nodup :=
  List.nodup_append.mpr ⟨hr.members_nodup, by simp, by
    intro x hx y hy
    rw [List.mem_singleton] at hy
    subst hy
    exact fun hxy => hr.head_notMem (hxy ▸ hx)⟩

/-- The head's forward link is the first member, or the head itself. -/
theorem Ring.flink_head (hr : Ring L h xs) : L.flink h = some (xs.headD h) := by
  cases xs with
  | nil => exact hr.path.1
  | cons x xs => exact hr.path.1.1

/-- A list is empty exactly when its head is linked to itself. -/
theorem Ring.flink_head_eq_self (hr : Ring L h xs) : L.flink h = some h ↔ xs = [] := by
  rw [hr.flink_head]
  cases xs with
  | nil => simp
  | cons x xs =>
      simp only [List.headD_cons, Option.some.injEq, reduceCtorEq, iff_false]
      rintro rfl
      exact hr.head_notMem (by simp)

/-- A store that agrees at the head and the members has the same ring. -/
theorem Ring.congr (hr : Ring L h xs)
    (hL : ∀ x ∈ h :: xs, L'.flink x = L.flink x ∧ L'.blink x = L.blink x) : Ring L' h xs := by
  refine ⟨hr.path.congr (fun x hx => (hL x hx).1) ?_, hr.nodup⟩
  intro x hx
  rw [List.mem_append, List.mem_singleton] at hx
  rcases hx with hx | rfl
  · exact (hL x (List.mem_cons_of_mem _ hx)).2
  · exact (hL x (by simp)).2

/-- The neighbours of a member or of the head are in the ring too. -/
theorem Ring.flink_mem (hr : Ring L h xs) {x y : ε} (hx : x ∈ h :: xs)
    (hy : L.flink x = some y) : y ∈ h :: xs := by
  obtain ⟨hpath, -⟩ := hr
  rcases List.mem_cons.mp hx with rfl | hx
  · obtain ⟨n, hn, hf, -, -⟩ := hpath.first
    obtain rfl : n = y := Option.some.inj (hf.symm.trans hy)
    simpa [or_comm] using hn
  · obtain ⟨l, r, rfl⟩ := List.append_of_mem hx
    obtain ⟨n, hn, hf, -, -⟩ := (path_append.mp hpath).2.first
    obtain rfl : n = y := Option.some.inj (hf.symm.trans hy)
    rw [List.mem_append, List.mem_singleton] at hn
    rcases hn with hn | rfl
    · simp [hn]
    · simp

theorem Ring.blink_mem (hr : Ring L h xs) {x y : ε} (hx : x ∈ h :: xs)
    (hy : L.blink x = some y) : y ∈ h :: xs := by
  obtain ⟨hpath, -⟩ := hr
  rcases List.mem_cons.mp hx with rfl | hx
  · obtain ⟨p, hp, -, hb, -⟩ := hpath.last
    obtain rfl : p = y := Option.some.inj (hb.symm.trans hy)
    exact hp
  · obtain ⟨l, r, rfl⟩ := List.append_of_mem hx
    obtain ⟨p, hp, -, hb, -⟩ := (path_append.mp hpath).1.last
    obtain rfl : p = y := Option.some.inj (hb.symm.trans hy)
    rcases List.mem_cons.mp hp with rfl | hp
    · simp
    · simp [hp]

theorem Ring.insertTailTouched (hr : Ring L h xs) :
    ∃ ys, L.insertTailTouched h e = some ys ∧ ∀ y ∈ ys, y ∈ e :: h :: xs := by
  obtain ⟨p, hp, -, hb, -⟩ := hr.path.last
  refine ⟨[h, p, e], by simp [Links.insertTailTouched, hb], fun y hy => ?_⟩
  simp only [List.mem_cons, List.not_mem_nil, or_false] at hy
  rcases hy with rfl | rfl | rfl
  · simp
  · exact List.mem_cons_of_mem _ hp
  · exact List.mem_cons_self

theorem Ring.insertHeadTouched (hr : Ring L h xs) :
    ∃ ys, L.insertHeadTouched h e = some ys ∧ ∀ y ∈ ys, y ∈ e :: h :: xs := by
  obtain ⟨n, hn, hf, -, -⟩ := hr.path.first
  refine ⟨[h, n, e], by simp [Links.insertHeadTouched, hf], fun y hy => ?_⟩
  simp only [List.mem_cons, List.not_mem_nil, or_false] at hy
  rcases hy with rfl | rfl | rfl
  · simp
  · have hmem : y ∈ h :: xs := by simpa [or_comm] using hn
    exact List.mem_cons_of_mem _ hmem
  · exact List.mem_cons_self

/-! ## The operations on a ring -/

/-- The two stores agree at every entry outside `es`. -/
def SameOff (es : List ε) (L L' : Links ε) : Prop :=
  ∀ x, x ∉ es → L'.flink x = L.flink x ∧ L'.blink x = L.blink x

theorem Ring.of_sameOff {es : List ε} (hr : Ring L h xs) (hs : SameOff es L L')
    (hd : ∀ x ∈ h :: xs, x ∉ es) : Ring L' h xs :=
  hr.congr fun x hx => hs x (hd x hx)

variable [DecidableEq ε]

theorem ring_initializeListHead : Ring (L.initializeListHead h) h [] :=
  ⟨by simp [path_nil, initializeListHead, setFlink, setBlink], by simp⟩

theorem sameOff_initializeListHead : SameOff [h] L (L.initializeListHead h) := by
  intro x hx
  rw [List.mem_singleton] at hx
  simp [initializeListHead, setFlink, setBlink, hx]

theorem Ring.insertTailList (hr : Ring L h xs) (he : e ∉ h :: xs) :
    ∃ L', L.insertTailList h e = some L' ∧ Ring L' h (xs ++ [e]) ∧
      SameOff (e :: h :: xs) L L' := by
  obtain ⟨p, hp, hf, hb, hmove⟩ := hr.path.last
  have hep : e ≠ p := fun hep => he (hep ▸ hp)
  have heh : e ≠ h := fun heh => he (by simp [heh])
  simp only [Links.insertTailList, hb, hf, Option.bind_eq_bind, Option.bind_some, ne_eq,
    not_true_eq_false, if_false, Option.some.injEq, exists_eq_left']
  refine ⟨⟨path_append.mpr ⟨hmove ?_ ?_ ?_ ?_ hr.nodup, ?_⟩, ?_⟩, ?_⟩
  · simp [setFlink, setBlink]
  · simp [setFlink, setBlink, heh]
  · intro x hx hxp
    have hxe : x ≠ e := fun hxe => he (hxe ▸ hx)
    simp [setFlink, setBlink, hxp, hxe]
  · intro x hx
    have hxe : x ≠ e := fun hxe => he (by simp [← hxe, hx])
    have hxh : x ≠ h := fun hxh => hr.head_notMem (hxh ▸ hx)
    simp [setFlink, setBlink, hxe, hxh]
  · simp [path_nil, setFlink, setBlink, hep]
  · have hnd := hr.nodup
    simp only [List.mem_cons, not_or] at he
    simp only [List.nodup_cons, List.mem_append, List.mem_singleton, not_or] at hnd ⊢
    refine ⟨⟨hnd.1, Ne.symm heh⟩, List.nodup_append.mpr ⟨hnd.2, by simp, ?_⟩⟩
    intro x hx y hy
    rw [List.mem_singleton] at hy
    subst hy
    exact fun hxy => he.2 (hxy ▸ hx)
  · intro x hx
    simp only [List.mem_cons, not_or] at hx hp
    have hxp : x ≠ p := by rintro rfl; rcases hp with hp | hp <;> simp_all
    simp [setFlink, setBlink, hx.1, hx.2.1, hxp]

theorem Ring.insertHeadList (hr : Ring L h xs) (he : e ∉ h :: xs) :
    ∃ L', L.insertHeadList h e = some L' ∧ Ring L' h (e :: xs) ∧
      SameOff (e :: h :: xs) L L' := by
  obtain ⟨n, hn, hf, hb, hmove⟩ := hr.path.first
  have hn' : n ∈ h :: xs := by simpa [or_comm] using hn
  have hen : e ≠ n := fun hen => he (hen ▸ hn')
  have heh : e ≠ h := fun heh => he (by simp [heh])
  simp only [Links.insertHeadList, hb, hf, Option.bind_eq_bind, Option.bind_some, ne_eq,
    not_true_eq_false, if_false, Option.some.injEq, exists_eq_left']
  refine ⟨⟨path_cons.mpr ⟨?_, hmove ?_ ?_ ?_ ?_ hr.append_head_nodup⟩, ?_⟩, ?_⟩
  · simp [setFlink, setBlink, hen]
  · simp [setFlink, setBlink, heh]
  · simp [setFlink, setBlink]
  · intro x hx
    have hxe : x ≠ e := fun hxe => he (by simp [← hxe, hx])
    have hxh : x ≠ h := fun hxh => hr.head_notMem (hxh ▸ hx)
    simp [setFlink, setBlink, hxe, hxh]
  · intro x hx hxn
    have hxe : x ≠ e := fun hxe => he (by simpa [or_comm, hxe] using hx)
    simp [setFlink, setBlink, hxn, hxe]
  · have hnd := hr.nodup
    simp only [List.mem_cons, not_or] at he
    simp only [List.nodup_cons, List.mem_cons, not_or] at hnd ⊢
    exact ⟨⟨Ne.symm heh, hnd.1⟩, he.2, hnd.2⟩
  · intro x hx
    have hxn : x ≠ n := by rintro rfl; exact hx (List.mem_cons_of_mem _ hn')
    simp only [List.mem_cons, not_or] at hx
    simp [setFlink, setBlink, hx.1, hx.2.1, hxn]

/-- The neighbours of a member, and what the rest of the ring looks like from
them: the store that links `p` and `n` to each other has the ring without the
member. -/
theorem Ring.neighbours (hr : Ring L h (xs ++ e :: ys)) :
    ∃ p n, L.blink e = some p ∧ L.flink e = some n ∧ L.flink p = some e ∧
      L.blink n = some e ∧
      p ∈ h :: xs ∧ n ∈ ys ++ [h] ∧
      Path ((L.setFlink p (some n)).setBlink n (some p)) h (xs ++ ys) h := by
  obtain ⟨hpre, hpost⟩ := path_append.mp hr.path
  obtain ⟨p, hp, hpf, hpb, hmove⟩ := hpre.last
  obtain ⟨n, hn, hnf, hnb, -⟩ := hpost.first
  refine ⟨p, n, hpb, hnf, hpf, hnb, hp, hn, ?_⟩
  have hnd : (h :: xs).Nodup := hr.nodup.sublist (by simp)
  cases ys with
  | nil =>
      obtain rfl : h = n := Option.some.inj (hpost.1.symm.trans hnf)
      rw [List.append_nil]
      refine hmove (by simp [setFlink, setBlink]) (by simp [setFlink, setBlink]) ?_ ?_ hnd
      · intro x _ hxp
        simp [setFlink, setBlink, hxp]
      · intro x hx
        have hxh : x ≠ h := fun hxh => (List.nodup_cons.mp hnd).1 (hxh ▸ hx)
        simp [setFlink, setBlink, hxh]
  | cons y ys =>
      obtain rfl : y = n := Option.some.inj (hpost.1.1.symm.trans hnf)
      have hsub : (h :: (xs ++ y :: ys)).Nodup :=
        hr.nodup.sublist (by simp)
      obtain ⟨hh, hxy⟩ := List.nodup_cons.mp hsub
      obtain ⟨-, hyy, hdis⟩ := List.nodup_append.mp hxy
      refine path_append.mpr ⟨hmove (by simp [setFlink, setBlink]) (by simp [setFlink, setBlink])
        ?_ ?_ hnd, hpost.2.congr ?_ ?_⟩
      · intro x _ hxp
        simp [setFlink, setBlink, hxp]
      · intro x hx
        have hxy : x ≠ y := hdis x hx y (by simp)
        simp [setFlink, setBlink, hxy]
      · intro x hx
        have hxp : x ≠ p := by
          rintro rfl
          rcases List.mem_cons.mp hp with rfl | hp
          · exact hh (List.mem_append_right _ hx)
          · exact hdis x hp x hx rfl
        simp [setFlink, setBlink, hxp]
      · intro x hx
        have hxy : x ≠ y := by
          rintro rfl
          rcases List.mem_append.mp hx with hx | hx
          · exact (List.nodup_cons.mp hyy).1 hx
          · exact hh (by simp [← List.mem_singleton.mp hx])
        simp [setFlink, setBlink, hxy]

/-- The two neighbours of a member are one entry exactly when the member is
the only one, and then that entry is the head. -/
theorem Ring.neighbours_eq (hr : Ring L h (xs ++ e :: ys)) (hp : L.blink e = some p)
    (hn : L.flink e = some n) : p = n ↔ xs ++ ys = [] := by
  obtain ⟨p', n', hp', hn', -, -, hpm, hnm, -⟩ := hr.neighbours
  obtain rfl : p' = p := Option.some.inj (hp'.symm.trans hp)
  obtain rfl : n' = n := Option.some.inj (hn'.symm.trans hn)
  obtain ⟨hh, hxy⟩ := List.nodup_cons.mp hr.nodup
  obtain ⟨-, hey, hdis⟩ := List.nodup_append.mp hxy
  obtain ⟨hpre, hpost⟩ := path_append.mp hr.path
  constructor
  · rintro rfl
    have hph : p' = h := by
      rcases List.mem_cons.mp hpm with rfl | hpx
      · rfl
      · rcases List.mem_append.mp hnm with hny | hnh
        · exact absurd rfl (hdis p' hpx p' (List.mem_cons_of_mem _ hny))
        · exact List.mem_singleton.mp hnh
    subst hph
    rw [List.append_eq_nil_iff]
    constructor
    · cases xs with
      | nil => rfl
      | cons x xs =>
          obtain ⟨q, hq, -, hqb, -⟩ := hpre.2.last
          obtain rfl : q = p' := Option.some.inj (hqb.symm.trans hp)
          exact absurd (List.mem_append_left _ hq) hh
    · cases ys with
      | nil => rfl
      | cons y ys =>
          obtain rfl : y = p' := Option.some.inj (hpost.1.1.symm.trans hn)
          exact absurd (by simp) hh
  · intro hnil
    obtain ⟨rfl, rfl⟩ := List.append_eq_nil_iff.mp hnil
    rw [List.mem_singleton] at hpm
    rw [List.nil_append, List.mem_singleton] at hnm
    rw [hpm, hnm]

/-- Taking a member out: the answer is whether it was the only one. The entry
itself keeps the links it had. -/
theorem Ring.removeEntryList (hr : Ring L h (xs ++ e :: ys)) :
    ∃ L', L.removeEntryList e = some (L', decide (xs ++ ys = [])) ∧ Ring L' h (xs ++ ys) ∧
      SameOff (h :: (xs ++ ys)) L L' := by
  obtain ⟨p, n, hpb, hnf, hpf, hnb, hpm, hnm, hpath⟩ := hr.neighbours
  have hempty := hr.neighbours_eq hpb hnf
  simp only [Links.removeEntryList, hpb, hnf, hpf, hnb, Option.bind_eq_bind, Option.bind_some,
    ne_eq, not_true_eq_false, or_self, if_false, Option.some.injEq, Prod.mk.injEq,
    hempty, and_true, exists_eq_left']
  refine ⟨⟨hpath, hr.nodup.sublist (by simp)⟩, ?_⟩
  intro x hx
  simp only [List.mem_cons, List.mem_append, not_or] at hx
  have hxp : x ≠ p := by
    rintro rfl
    rcases List.mem_cons.mp hpm with hxh | hxx
    · exact hx.1 hxh
    · exact hx.2.1 hxx
  have hxn : x ≠ n := by
    rintro rfl
    rcases List.mem_append.mp hnm with hxy | hxh
    · exact hx.2.2 hxy
    · exact hx.1 (List.mem_singleton.mp hxh)
  simp [setFlink, setBlink, hxp, hxn]

theorem exists_removeTouched {r : Links ε × Bool} (h : L.removeEntryList e = some r) :
    ∃ ys, L.removeTouched e = some ys := by
  simp only [Links.removeEntryList, Option.bind_eq_bind, Option.bind_eq_some_iff] at h
  obtain ⟨n, hn, p, hp, -⟩ := h
  exact ⟨[e, n, p], by simp [Links.removeTouched, hn, hp]⟩

/-- Taking a member out touches the ring it is of and nothing else. -/
theorem Ring.removeTouched (hr : Ring L h xs) (he : e ∈ xs) :
    ∃ ys, L.removeTouched e = some ys ∧ ∀ y ∈ ys, y ∈ h :: xs := by
  obtain ⟨l, r, rfl⟩ := List.append_of_mem he
  obtain ⟨p, n, hb, hf, -, -, hp, hn, -⟩ := hr.neighbours
  refine ⟨[e, n, p], by simp [Links.removeTouched, hb, hf], fun y hy => ?_⟩
  simp only [List.mem_cons, List.not_mem_nil, or_false] at hy
  simp only [List.mem_cons, List.mem_append, List.not_mem_nil, or_false] at hp hn ⊢
  rcases hy with rfl | rfl | rfl <;> tauto

/-- Walking a path to its end meets its entries in order, also after the head
was linked to something else. -/
theorem Path.walk {fuel : Nat} {s : ε} (hp : Path L a xs h) (hh : h ∉ xs)
    (hL : ∀ x ∈ xs, L'.flink x = L.flink x) (hs : L.flink a = some s)
    (hfuel : xs.length < fuel) : L'.walk h fuel s = some xs := by
  induction xs generalizing a s fuel with
  | nil =>
      obtain ⟨fuel, rfl⟩ : ∃ m, fuel = m + 1 := ⟨fuel - 1, by omega⟩
      obtain rfl : h = s := Option.some.inj (hp.1.symm.trans hs)
      simp [Links.walk]
  | cons x xs ih =>
      rw [List.length_cons] at hfuel
      obtain ⟨fuel, rfl⟩ : ∃ m, fuel = m + 1 := ⟨fuel - 1, by omega⟩
      obtain rfl : x = s := Option.some.inj (hp.1.1.symm.trans hs)
      simp only [List.mem_cons, not_or] at hh
      obtain ⟨t, ht⟩ : ∃ t, L.flink x = some t := by
        cases xs with
        | nil => exact ⟨h, hp.2.1⟩
        | cons y ys => exact ⟨y, hp.2.1.1⟩
      have hrest := ih hp.2 hh.2 (fun y hy => hL y (List.mem_cons_of_mem _ hy)) ht
        (show xs.length < fuel by omega)
      rw [Links.walk, if_neg (Ne.symm hh.1), hL x (by simp), ht]
      simp [hrest]

/-- Taking out an entry of no ring, when the machine survives it, leaves every
ring as it was: its neighbours link to it, so they are of no ring either. -/
theorem Ring.removeEntryList_notMem {r : Bool} (hr : Ring L h xs) (he : e ∉ h :: xs)
    (hrem : L.removeEntryList e = some (L', r)) : Ring L' h xs := by
  simp only [Links.removeEntryList, Option.bind_eq_bind, Option.bind_eq_some_iff] at hrem
  obtain ⟨n, hn, p, hp, hrem⟩ := hrem
  split at hrem
  · cases hrem
  · next hlinks =>
      simp only [ne_eq, not_or, not_not] at hlinks
      simp only [Option.some.injEq, Prod.mk.injEq] at hrem
      obtain ⟨rfl, -⟩ := hrem
      refine hr.congr fun x hx => ?_
      have hxn : x ≠ n := by rintro rfl; exact he (hr.blink_mem hx hlinks.1)
      have hxp : x ≠ p := by rintro rfl; exact he (hr.flink_mem hx hlinks.2)
      simp [setFlink, setBlink, hxn, hxp]

end Winspd.Lib
