import Mathlib.Data.List.Nodup
import Mathlib.Data.List.Perm.Subperm
import Winspd.Spec.Queue

/-!
# `ioq.c` computes the queue

`Refines ioq q` says that the store `ioq` represents the queue `q`: the two
rings spell its two lists, the buckets hold its processed items, and the `Srb`
field of every extension in the queue names the item's SRB. Each operation of
`ioq.c`, run on a store that represents `q`, stops the machine exactly where
the operation of `Spec.Queue` does, makes the same calls, returns the same
status and leaves a store that represents the new queue.

The argument is in three parts. `Wf` is what the abstract operations keep by
themselves: no extension is in the queue twice, none is null, and a stopped
queue is empty. `TwoRings` is the pair of lists, and says what one list
operation does to both. `Buckets` is the hash table, seen as the set it holds.
The operations are then put together from these.
-/

namespace Winspd.Proofs

open Winspd.Lib Winspd.Sys Winspd.Spec

variable {ω α : Type} {q : Queue} {i : Item} {e : Addr}

/-! ## The queue's own invariant -/

/-- What every queue satisfies, whatever store represents it. -/
structure Wf (q : Queue) : Prop where
  nodup : (q.items.map Item.ext).Nodup
  ext_ne : ∀ i ∈ q.items, i.ext ≠ 0
  drained : q.stopped = true → q.items = []

theorem Wf.items_nodup (hw : Wf q) : q.items.Nodup := hw.nodup.of_map

theorem Wf.eq_of_ext {i j : Item} (hw : Wf q) (hi : i ∈ q.items) (hj : j ∈ q.items)
    (h : i.ext = j.ext) : i = j :=
  List.inj_on_of_nodup_map hw.nodup hi hj h

/-- Looking up an extension finds exactly the processed item that has it. -/
theorem Wf.lookup_eq_some (hw : Wf q) :
    q.lookup e = some i ↔ i ∈ q.process ∧ i.ext = e := by
  constructor
  · intro h
    exact ⟨List.mem_of_find?_eq_some h, by simpa using List.find?_some h⟩
  · rintro ⟨hi, rfl⟩
    cases hl : q.lookup i.ext with
    | none =>
        have hno := List.find?_eq_none.mp hl i hi
        simp at hno
    | some j =>
        have hj : j.ext = i.ext := by simpa using List.find?_some hl
        rw [hw.eq_of_ext (List.mem_append_right _ (List.mem_of_find?_eq_some hl))
          (List.mem_append_right _ hi) hj]

theorem lookup_eq_none : q.lookup e = none ↔ e ∉ q.process.map Item.ext := by
  simp [Queue.lookup]

/-- Distinct extensions that are not null are fewer than there are addresses. -/
theorem length_lt_addressSpace {es : List Addr} (hnd : es.Nodup) (hne : ∀ e ∈ es, e ≠ 0) :
    es.length < addressSpace := by
  have hnd' : ((0 :: es).map UInt64.toNat).Nodup := by
    refine List.Nodup.map (fun _ _ h => UInt64.toNat_inj.mp h) ?_
    exact List.nodup_cons.mpr ⟨fun h => hne 0 h rfl, hnd⟩
  have hsub : (0 :: es).map UInt64.toNat ⊆ List.range addressSpace := by
    intro n hn
    obtain ⟨e, -, rfl⟩ := List.mem_map.mp hn
    exact List.mem_range.mpr e.toNat_lt
  have hlen := (List.subperm_of_subset hnd' hsub).length_le
  rw [List.length_map, List.length_range, List.length_cons] at hlen
  omega

theorem Wf.items_length_lt (hw : Wf q) : q.items.length < addressSpace := by
  rw [← List.length_map Item.ext]
  refine length_lt_addressSpace hw.nodup fun e he => ?_
  obtain ⟨i, hi, rfl⟩ := List.mem_map.mp he
  exact hw.ext_ne i hi

/-- Taking an item out of a list of items is taking its extension out. -/
theorem Wf.map_erase (hw : Wf q) (hi : i ∈ q.items) {l : List Item} (hl : l ⊆ q.items) :
    (l.erase i).map Item.ext = (l.map Item.ext).erase i.ext := by
  induction l with
  | nil => rfl
  | cons j l ih =>
      have hl' := List.cons_subset.mp hl
      by_cases hji : j = i
      · subst hji
        rw [List.erase_cons_head, List.map_cons, List.erase_cons_head]
      · have hext : j.ext ≠ i.ext := fun h => hji (hw.eq_of_ext hl'.1 hi h)
        rw [List.erase_cons_tail (by simpa using hji), List.map_cons, List.map_cons,
          List.erase_cons_tail (by simpa using hext), ih hl'.2]

theorem Wf.of_subperm {q' : Queue} (hw : Wf q) (hs : q'.items.Subperm q.items)
    (hst : q'.stopped = q.stopped) : Wf q' where
  nodup := by
    obtain ⟨l, hperm, hsub⟩ := hs
    exact ((hperm.map Item.ext).nodup_iff).mp (hw.nodup.sublist (hsub.map Item.ext))
  ext_ne i hi := hw.ext_ne i (hs.subset hi)
  drained h := by
    have hnil := hw.drained (hst ▸ h)
    rw [hnil] at hs
    exact List.subperm_nil.mp hs

theorem Wf.post (hw : Wf q) (hfresh : i.ext ∉ q.items.map Item.ext) (hne : i.ext ≠ 0) :
    Wf (q.post i).1 := by
  unfold Queue.post
  split
  · exact hw
  · next hst =>
      refine ⟨?_, ?_, fun h => absurd h hst⟩
      · have hperm : (q.pending ++ [i] ++ q.process).Perm (i :: q.items) := by
          simp [Queue.items, List.perm_middle]
        refine ((hperm.map Item.ext).nodup_iff).mpr ?_
        exact List.nodup_cons.mpr ⟨hfresh, hw.nodup⟩
      · intro j hj
        simp only [Queue.items, List.mem_append, List.mem_singleton] at hj
        rcases hj with (hj | rfl) | hj
        · exact hw.ext_ne j (List.mem_append_left _ hj)
        · exact hne
        · exact hw.ext_ne j (List.mem_append_right _ hj)

theorem wf_nil {st ev : Bool} : Wf ⟨st, ev, [], []⟩ :=
  ⟨List.nodup_nil, by simp [Queue.items], fun _ => rfl⟩

theorem Wf.cancel (hw : Wf q) : Wf (q.cancel i).1 := by
  unfold Queue.cancel
  split
  · exact hw
  · refine hw.of_subperm (List.Sublist.subperm ?_) rfl
    exact List.Sublist.append List.erase_sublist List.erase_sublist

theorem Wf.move {rest : List Item} {ev : Bool} (hw : Wf q) (hp : q.pending = i :: rest) :
    Wf { q with event := ev, pending := rest, process := q.process ++ [i] } := by
  refine hw.of_subperm (List.Perm.subperm ?_) rfl
  simp only [Queue.items, hp, ← List.append_assoc]
  exact List.perm_append_singleton i (rest ++ q.process)

theorem Wf.repost {ev : Bool} (hw : Wf q) (hi : i ∈ q.process) :
    Wf { q with event := ev, pending := i :: q.pending, process := q.process.erase i } := by
  refine hw.of_subperm (List.Perm.subperm ?_) rfl
  refine List.perm_middle.symm.trans ?_
  exact (List.perm_cons_erase hi).symm.append_left q.pending

theorem Wf.leave (hw : Wf q) : Wf { q with process := q.process.erase i } := by
  refine hw.of_subperm (List.Sublist.subperm ?_) rfl
  exact List.Sublist.append (List.Sublist.refl _) List.erase_sublist

/-! ## The two lists

The links of both lists live in one store, so each operation on one of them
has to be shown to keep the other. The two are symmetric, and a rule about the
first list is also a rule about the second (`TwoRings.symm`). -/

/-- The lists with heads `h` and `h'` hold the extensions `xs` and `ys`, and no
extension is on both. -/
structure TwoRings (L : Links ListEntry) (h h' : ListEntry) (xs ys : List Addr) : Prop where
  first : Ring L h (xs.map .ext)
  second : Ring L h' (ys.map .ext)
  nodup : (xs ++ ys).Nodup
  heads_ne : h ≠ h'
  head : h.containingRecord = none
  head' : h'.containingRecord = none

section TwoRings

variable {L L' : Links ListEntry} {h h' : ListEntry} {xs ys l r : List Addr} {fuel : Nat}

theorem TwoRings.symm (ht : TwoRings L h h' xs ys) : TwoRings L h' h ys xs :=
  ⟨ht.second, ht.first, List.nodup_append_comm.mp ht.nodup, ht.heads_ne.symm, ht.head', ht.head⟩

theorem ext_ne_of_containingRecord (hh : h.containingRecord = none) : ListEntry.ext e ≠ h := by
  rintro rfl
  cases hh

/-- No entry of the second list is one of the first, nor its head, nor `e`. -/
theorem TwoRings.second_off (ht : TwoRings L h h' xs ys) (he : e ∉ ys) :
    ∀ x ∈ h' :: ys.map .ext, x ∉ .ext e :: h :: xs.map .ext := by
  intro x hx
  rcases List.mem_cons.mp hx with rfl | hx
  · have hne : ∀ y, ListEntry.ext y ≠ x := fun y => ext_ne_of_containingRecord ht.head'
    simp [ht.heads_ne.symm, hne, (hne e).symm]
  · obtain ⟨y, hy, rfl⟩ := List.mem_map.mp hx
    have hye : y ≠ e := fun hye => he (hye ▸ hy)
    have hyx : y ∉ xs := fun hyx => (List.nodup_append.mp ht.nodup).2.2 y hyx y hy rfl
    simp [hye, hyx, ext_ne_of_containingRecord ht.head]

theorem TwoRings.insertTailList (ht : TwoRings L h h' xs ys) (he : e ∉ xs ++ ys) :
    ∃ L', L.insertTailList h (.ext e) = some L' ∧ TwoRings L' h h' (xs ++ [e]) ys := by
  simp only [List.mem_append, not_or] at he
  obtain ⟨L', hL, hring, hoff⟩ := ht.first.insertTailList (e := .ext e)
    (by simp [he.1, ext_ne_of_containingRecord ht.head])
  refine ⟨L', hL, by simpa using hring, ht.second.of_sameOff hoff (ht.second_off he.2), ?_,
    ht.heads_ne, ht.head, ht.head'⟩
  have hperm : (xs ++ [e] ++ ys).Perm (e :: (xs ++ ys)) := by simp [List.perm_middle]
  exact hperm.nodup_iff.mpr (List.nodup_cons.mpr ⟨by simp [he.1, he.2], ht.nodup⟩)

theorem TwoRings.insertHeadList (ht : TwoRings L h h' xs ys) (he : e ∉ xs ++ ys) :
    ∃ L', L.insertHeadList h (.ext e) = some L' ∧ TwoRings L' h h' (e :: xs) ys := by
  simp only [List.mem_append, not_or] at he
  obtain ⟨L', hL, hring, hoff⟩ := ht.first.insertHeadList (e := .ext e)
    (by simp [he.1, ext_ne_of_containingRecord ht.head])
  exact ⟨L', hL, hring, ht.second.of_sameOff hoff (ht.second_off he.2),
    List.nodup_cons.mpr ⟨by simp [he.1, he.2], ht.nodup⟩, ht.heads_ne, ht.head, ht.head'⟩

theorem TwoRings.removeEntryList (ht : TwoRings L h h' (l ++ e :: r) ys) :
    ∃ L', L.removeEntryList (.ext e) = some (L', decide (l ++ r = [])) ∧
      TwoRings L' h h' (l ++ r) ys := by
  have hfirst := ht.first
  rw [List.map_append, List.map_cons] at hfirst
  obtain ⟨L', hL, hring, hoff⟩ := hfirst.removeEntryList
  have hsub : (l ++ r).Sublist (l ++ e :: r) :=
    (List.Sublist.refl l).append (List.sublist_cons_self e r)
  have hrest : TwoRings L h h' (l ++ e :: r) ys → e ∉ ys := fun ht hy =>
    (List.nodup_append.mp ht.nodup).2.2 e (by simp) e hy rfl
  refine ⟨L', ?_, by simpa using hring, ht.second.of_sameOff hoff fun x hx hmem => ?_,
    ht.nodup.sublist (hsub.append (List.Sublist.refl ys)), ht.heads_ne, ht.head, ht.head'⟩
  · rw [hL]
    simp [← List.map_append]
  · refine ht.second_off (hrest ht) x hx (List.mem_cons_of_mem _ ?_)
    simp only [List.mem_cons, List.map_append, List.mem_append, List.map_cons] at hmem ⊢
    tauto

theorem TwoRings.erase (ht : TwoRings L h h' xs ys) (he : e ∈ xs ++ ys) :
    ∃ L' b, L.removeEntryList (.ext e) = some (L', b) ∧
      TwoRings L' h h' (xs.erase e) (ys.erase e) := by
  have hdis := (List.nodup_append.mp ht.nodup).2.2
  rcases List.mem_append.mp he with hx | hy
  · obtain ⟨l, r, rfl, hl⟩ := List.eq_append_cons_of_mem hx
    obtain ⟨L', hL, ht'⟩ := ht.removeEntryList
    refine ⟨L', _, hL, ?_⟩
    rw [List.erase_of_not_mem fun hy => hdis e (by simp) e hy rfl,
      List.erase_append_right _ hl, List.erase_cons_head]
    exact ht'
  · obtain ⟨l, r, rfl, hl⟩ := List.eq_append_cons_of_mem hy
    obtain ⟨L', hL, ht'⟩ := ht.symm.removeEntryList
    refine ⟨L', _, hL, ?_⟩
    rw [List.erase_of_not_mem fun hx => hdis e hx e (by simp) rfl,
      List.erase_append_right _ hl, List.erase_cons_head]
    exact ht'.symm

/-- Walking either list from its first entry meets its extensions in order,
also in a store whose heads were linked to something else since. -/
theorem TwoRings.walk (ht : TwoRings L h h' xs ys)
    (hL : ∀ e, L'.flink (.ext e) = L.flink (.ext e)) (hfuel : xs.length < fuel) :
    ∃ s, L.flink h = some s ∧ L'.walk h fuel s = some (xs.map .ext) := by
  refine ⟨_, ht.first.flink_head, ht.first.path.walk ht.first.head_notMem ?_ ht.first.flink_head
    (by rwa [List.length_map])⟩
  intro x hx
  obtain ⟨y, -, rfl⟩ := List.mem_map.mp hx
  exact hL y

theorem mapM_containingRecord (xs : List Addr) :
    (xs.map ListEntry.ext).mapM ListEntry.containingRecord = some xs := by
  induction xs with
  | nil => rfl
  | cons x xs ih => simp [ListEntry.containingRecord, ih]

theorem TwoRings.initializeListHead (hne : h ≠ h') (hh : h.containingRecord = none)
    (hh' : h'.containingRecord = none) :
    TwoRings ((L.initializeListHead h).initializeListHead h') h h' [] [] := by
  refine ⟨ring_initializeListHead.of_sameOff sameOff_initializeListHead ?_,
    ring_initializeListHead, List.nodup_nil, hne, hh, hh'⟩
  simp [hne]

/-- An entry on neither list, taken out by a machine that survives it, was on
no list. -/
theorem TwoRings.removeEntryList_notMem {b : Bool} (ht : TwoRings L h h' xs ys)
    (he : e ∉ xs ++ ys) (hrem : L.removeEntryList (.ext e) = some (L', b)) :
    TwoRings L' h h' xs ys := by
  simp only [List.mem_append, not_or] at he
  refine ⟨ht.first.removeEntryList_notMem ?_ hrem, ht.second.removeEntryList_notMem ?_ hrem,
    ht.nodup, ht.heads_ne, ht.head, ht.head'⟩
  · simp [he.1, ext_ne_of_containingRecord ht.head]
  · simp [he.2, ext_ne_of_containingRecord ht.head']

theorem TwoRings.clear (ht : TwoRings L h h' xs ys) (he : e ∉ xs ++ ys) :
    TwoRings ((L.setFlink (.ext e) none).setBlink (.ext e) none) h h' xs ys := by
  simp only [List.mem_append, not_or] at he
  refine ⟨ht.first.congr ?_, ht.second.congr ?_, ht.nodup, ht.heads_ne, ht.head, ht.head'⟩
  · intro x hx
    have hxe : x ≠ .ext e := by
      rintro rfl
      simp [he.1, ext_ne_of_containingRecord ht.head] at hx
    simp [Links.setFlink, Links.setBlink, hxe]
  · intro x hx
    have hxe : x ≠ .ext e := by
      rintro rfl
      simp [he.2, ext_ne_of_containingRecord ht.head'] at hx
    simp [Links.setFlink, Links.setBlink, hxe]

end TwoRings

/-! ## The hash table -/

/-- The buckets hold exactly the extensions `es`, each in the bucket it hashes
to. -/
def Buckets (C : Chains UInt32 Addr) (hash : Addr → UInt32) (es : List Addr) : Prop :=
  ∃ xs, Table C 0 hash xs ∧ ∀ e, e ∈ xs (hash e) ↔ e ∈ es

section Buckets

variable {C : Chains UInt32 Addr} {hash : Addr → UInt32} {es : List Addr}

theorem buckets_empty {n : Addr → Addr} : Buckets ⟨fun _ => 0, n⟩ hash [] :=
  ⟨fun _ => [], table_empty, by simp⟩

theorem bucket_length_lt {xs : UInt32 → List Addr} (ht : Table C 0 hash xs) (b : UInt32) :
    (xs b).length < addressSpace :=
  length_lt_addressSpace (ht.nodup b) fun _ he => (ht.chain b).ne_null he

theorem Buckets.find_notMem (hb : Buckets C hash es) (he : e ∉ es) :
    C.find 0 e addressSpace (.head (hash e)) = some none := by
  obtain ⟨xs, ht, hmem⟩ := hb
  exact ht.find_notMem (fun h => he ((hmem e).mp h)) (bucket_length_lt ht _)

/-- An element is found, and writing its own pointer where it was found takes
it out. -/
theorem Buckets.unlink (hb : Buckets C hash es) (hnd : es.Nodup) (he : e ∈ es) :
    ∃ P, C.find 0 e addressSpace (.head (hash e)) = some (some P) ∧
      Buckets (C.write P (C.next e)) hash (es.erase e) := by
  obtain ⟨xs, ht, hmem⟩ := hb
  obtain ⟨P, hP, ht'⟩ := ht.unlink ((hmem e).mpr he) (bucket_length_lt ht _)
  refine ⟨P, hP, _, ht', fun x => ?_⟩
  by_cases hh : hash x = hash e
  · rw [hh, Function.update_self, (ht.nodup _).mem_erase_iff, hnd.mem_erase_iff, ← hh, hmem]
  · have hxe : x ≠ e := fun hxe => hh (by rw [hxe])
    rw [Function.update_of_ne hh, hmem, List.mem_erase_of_ne hxe]

theorem Buckets.push (hb : Buckets C hash es) (he : e ∉ es) (hne : e ≠ 0) :
    Buckets (C.push (hash e) e) hash (es ++ [e]) := by
  obtain ⟨xs, ht, hmem⟩ := hb
  refine ⟨_, ht.push (fun h => he ((hmem e).mp h)) hne, fun x => ?_⟩
  by_cases hh : hash x = hash e
  · rw [hh, Function.update_self, List.mem_cons, ← hh, hmem, List.mem_append,
      List.mem_singleton, or_comm]
  · have hxe : x ≠ e := fun hxe => hh (by rw [hxe])
    rw [Function.update_of_ne hh, hmem, List.mem_append, List.mem_singleton]
    simp [hxe]

/-- The pointer of an element the table does not hold is free. -/
theorem Buckets.write_next (hb : Buckets C hash es) (he : e ∉ es) (p : Addr) :
    Buckets (C.write (.next e) p) hash es := by
  obtain ⟨xs, ht, hmem⟩ := hb
  refine ⟨xs, ht.congr rfl fun x hx => ?_, hmem⟩
  have hxe : x ≠ e := fun hxe => he (hxe ▸ (hmem x).mp hx)
  simp [Chains.write, hxe]

/-- The search of a cancel, which takes the element out if it is there. -/
theorem Buckets.cancel (hb : Buckets C hash es) (hnd : es.Nodup) :
    ∃ found, C.find 0 e addressSpace (.head (hash e)) = some found ∧
      Buckets
        (match found with
          | some P => (C.write P (C.next e)).write (.next e) 0
          | none => C) hash (es.erase e) := by
  by_cases he : e ∈ es
  · obtain ⟨P, hP, hb'⟩ := hb.unlink hnd he
    exact ⟨some P, hP, hb'.write_next (fun h => (hnd.mem_erase_iff.mp h).1 rfl) 0⟩
  · exact ⟨none, hb.find_notMem he, by rwa [List.erase_of_not_mem he]⟩

end Buckets

/-! ## The refinement -/

/-- The store `ioq` represents the queue `q`. -/
structure Refines (ioq : SpdIoq) (q : Queue) : Prop where
  wf : Wf q
  stopped : ioq.stopped = q.stopped
  event : ioq.pendingEvent = q.event
  lists : TwoRings ioq.listEntry .pendingList .processList (q.pending.map Item.ext)
    (q.process.map Item.ext)
  buckets : Buckets ioq.processBuckets ioq.bucket (q.process.map Item.ext)
  srb : ∀ i ∈ q.items, ioq.srb i.ext = i.srb

/-- Both stop the machine, or both go on, to related states and with the same
calls and the same status. -/
def Agree (r : Option (SpdIoq × α)) (a : Option (Queue × α)) : Prop :=
  Option.Rel (fun x y => Refines x.1 y.1 ∧ x.2 = y.2) r a

theorem agree_some {ioq : SpdIoq} {x : α} (h : Refines ioq q) :
    Agree (some (ioq, x)) (some (q, x)) := .some ⟨h, rfl⟩

theorem Agree.of_some {a : Option (Queue × α)} {ioq : SpdIoq} {x : α}
    (h : Agree (some (ioq, x)) a) : ∃ q, a = some (q, x) ∧ Refines ioq q := by
  cases h with
  | some h =>
      obtain ⟨href, rfl⟩ := h
      exact ⟨_, rfl, href⟩

theorem Agree.exists_some {r : Option (SpdIoq × α)} {x : α} (h : Agree r (some (q, x))) :
    ∃ ioq, r = some (ioq, x) ∧ Refines ioq q := by
  cases h with
  | some h =>
      obtain ⟨href, rfl⟩ := h
      exact ⟨_, rfl, href⟩

def zeroedIoq : SpdIoq :=
  ⟨false, false, ⟨fun _ => none, fun _ => none⟩, 0, ⟨fun _ => 0, fun _ => 0⟩,
    fun _ => 0⟩

theorem spdIoqCreate_refines (mem : SpdIoq) : Refines (spdIoqCreate mem) .empty where
  wf := wf_nil
  stopped := rfl
  event := rfl
  lists := TwoRings.initializeListHead (by simp) rfl rfl
  buckets := buckets_empty
  srb _ hi := by cases hi

section Operations

variable {ioq : SpdIoq} (hr : Refines ioq q)

omit hr in
theorem ext_notMem_append (he : e ∉ q.items.map Item.ext) :
    e ∉ q.pending.map Item.ext ++ q.process.map Item.ext := by
  rwa [← List.map_append]

include hr

theorem Refines.wake : Refines ioq.wake { q with event := true } where
  wf := ⟨hr.wf.nodup, hr.wf.ext_ne, hr.wf.drained⟩
  stopped := hr.stopped
  event := spdQeventSetNoLock_eq _
  lists := hr.lists
  buckets := hr.buckets
  srb := hr.srb

theorem Refines.stop (hq : q.items = []) :
    Refines { ioq with stopped := true } { q with stopped := true } where
  wf := ⟨hr.wf.nodup, hr.wf.ext_ne, fun _ => hq⟩
  stopped := rfl
  event := hr.event
  lists := hr.lists
  buckets := hr.buckets
  srb := hr.srb

theorem Refines.wait : Refines { ioq with pendingEvent := false } { q with event := false } where
  wf := ⟨hr.wf.nodup, hr.wf.ext_ne, hr.wf.drained⟩
  stopped := hr.stopped
  event := rfl
  lists := hr.lists
  buckets := hr.buckets
  srb := hr.srb

theorem spdIoqPostSrb_agree (hfresh : i.ext ∉ q.items.map Item.ext) (hne : i.ext ≠ 0) :
    Agree (spdIoqPostSrb ioq i.srb i.ext) (some (q.post i)) := by
  have hwf := hr.wf.post hfresh hne
  unfold Queue.post at hwf ⊢
  by_cases hst : q.stopped = true
  · rw [if_pos hst, spdIoqPostSrb, if_pos (hr.stopped.trans hst)]
    exact agree_some hr
  · rw [if_neg hst] at hwf ⊢
    rw [spdIoqPostSrb, if_neg (hr.stopped ▸ hst), if_neg hne]
    obtain ⟨L', hL, hlists⟩ := hr.lists.insertTailList (ext_notMem_append hfresh)
    simp only [hL, Option.bind_eq_bind, Option.bind_some]
    have hr' : Refines { ioq with srb := Function.update ioq.srb i.ext i.srb, listEntry := L' }
        { q with pending := q.pending ++ [i] } := by
      refine ⟨⟨hwf.nodup, hwf.ext_ne, hwf.drained⟩, hr.stopped, hr.event, by
        simpa using hlists,
        hr.buckets, fun j hj => ?_⟩
      have hj' : j = i ∨ j ∈ q.items := by
        simp only [Queue.items, List.mem_append, List.mem_singleton] at hj ⊢
        tauto
      rcases hj' with rfl | hj
      · simp
      · have hji : j.ext ≠ i.ext := fun h => hfresh (h ▸ List.mem_map_of_mem hj)
        simp [hji, hr.srb j hj]
    exact agree_some hr'.wake

theorem spdIoqReset_agree (stop : Bool) :
    Agree (spdIoqReset ioq stop) (some (q.reset stop)) := by
  unfold Queue.reset
  by_cases hst : q.stopped = true
  · rw [if_pos hst, spdIoqReset, if_pos (hr.stopped.trans hst)]
    exact agree_some hr
  · rw [if_neg hst, spdIoqReset, if_neg (hr.stopped ▸ hst)]
    have hfuel := hr.wf.items_length_lt
    rw [Queue.items, List.length_append] at hfuel
    have hL : ∀ e, ((ioq.listEntry.initializeListHead .pendingList).initializeListHead
        .processList).flink (.ext e) = ioq.listEntry.flink (.ext e) := fun e => by
      simp [Links.initializeListHead, Links.setFlink, Links.setBlink]
    obtain ⟨s, hs, hpending⟩ := hr.lists.walk hL (show _ < addressSpace by simp; omega)
    obtain ⟨s', hs', hprocess⟩ := hr.lists.symm.walk hL (show _ < addressSpace by simp; omega)
    have hcalls : (q.items.map Item.ext).map (fun e => .srbComplete (ioq.srb e) srbStatusAborted) =
        q.items.map fun i => IoqCall.srbComplete i.srb srbStatusAborted := by
      rw [List.map_map]
      exact List.map_congr_left fun i hi => by simp [hr.srb i hi]
    simp only [hs, hs', hpending, hprocess, Option.bind_eq_bind, Option.bind_some,
      ← List.map_append, mapM_containingRecord]
    rw [← Queue.items, hcalls]
    have hr' : Refines
        { ioq with
          listEntry := (ioq.listEntry.initializeListHead .pendingList).initializeListHead
            .processList
          processBuckets := { ioq.processBuckets with head := fun _ => 0 } }
        { q with pending := [], process := [] } :=
      ⟨wf_nil, hr.stopped, hr.event, TwoRings.initializeListHead (by simp) rfl rfl,
        buckets_empty, fun i hi => by cases hi⟩
    cases stop with
    | false =>
        rw [Bool.or_false, if_neg Bool.false_ne_true]
        have hst' : q.stopped = false := by simpa using hst
        rw [← hst']
        exact agree_some hr'
    | true =>
        rw [Bool.or_true, if_pos rfl]
        exact agree_some (hr'.stop rfl).wake

theorem spdIoqCancelSrb_agree (hi : i ∈ q.items) :
    Agree (spdIoqCancelSrb ioq i.srb i.ext) (some (q.cancel i)) := by
  have hwf := hr.wf.cancel (i := i)
  unfold Queue.cancel at hwf ⊢
  by_cases hst : q.stopped = true
  · rw [if_pos hst, spdIoqCancelSrb, if_pos (hr.stopped.trans hst)]
    exact agree_some hr
  · rw [if_neg hst] at hwf ⊢
    rw [spdIoqCancelSrb, if_neg (hr.stopped ▸ hst)]
    obtain ⟨hnp, hnr, -⟩ := List.nodup_append.mp hr.lists.nodup
    obtain ⟨found, hfound, hbuckets⟩ := hr.buckets.cancel (e := i.ext) hnr
    obtain ⟨L', b, hL, hlists⟩ := hr.lists.erase (e := i.ext)
      (by rw [← List.map_append]; exact List.mem_map_of_mem hi)
    have hgone : i.ext ∉ (q.pending.map Item.ext).erase i.ext ++
        (q.process.map Item.ext).erase i.ext := by
      simp [hnp.mem_erase_iff, hnr.mem_erase_iff]
    have hlists' := hlists.clear hgone
    rw [← hr.wf.map_erase hi (List.subset_append_left q.pending q.process),
      ← hr.wf.map_erase hi (List.subset_append_right q.pending q.process)] at hlists' hgone
    rw [← hr.wf.map_erase hi (List.subset_append_right q.pending q.process)] at hbuckets
    simp only [hfound, hL, Option.bind_eq_bind, Option.bind_some]
    refine agree_some ⟨hwf, hr.stopped, hr.event, hlists', hbuckets, fun j hj => ?_⟩
    have hji : j.ext ≠ i.ext := fun h => by
      rw [← List.map_append, ← h] at hgone
      exact hgone (List.mem_map_of_mem hj)
    have hmem : j ∈ q.items :=
      (List.erase_sublist.append List.erase_sublist).subset hj
    exact (Function.update_of_ne hji _ _).trans (hr.srb j hmem)

/-- A cancel of an SRB the queue does not have, when the machine survives it,
changes nothing the queue represents. -/
theorem spdIoqCancelSrb_notMem {srb : Addr} {ioq' : SpdIoq} {x}
    (he : e ∉ q.items.map Item.ext) (h : spdIoqCancelSrb ioq srb e = some (ioq', x)) :
    Refines ioq' q := by
  by_cases hst : q.stopped = true
  · rw [spdIoqCancelSrb, if_pos (hr.stopped.trans hst)] at h
    cases h
    exact hr
  · rw [spdIoqCancelSrb, if_neg (hr.stopped ▸ hst)] at h
    have he' := ext_notMem_append he
    have hproc : e ∉ q.process.map Item.ext := fun h => he' (List.mem_append_right _ h)
    simp only [hr.buckets.find_notMem hproc, Option.bind_eq_bind, Option.bind_some,
      Option.bind_eq_some_iff] at h
    obtain ⟨⟨L', b⟩, hrem, h⟩ := h
    cases h
    refine ⟨hr.wf, hr.stopped, hr.event, (hr.lists.removeEntryList_notMem he' hrem).clear he',
      hr.buckets, fun j hj => ?_⟩
    have hje : j.ext ≠ e := fun h => he (h ▸ List.mem_map_of_mem hj)
    exact (Function.update_of_ne hje _ _).trans (hr.srb j hj)

theorem Refines.zeroExtension (he : e ∉ q.items.map Item.ext) :
    Refines (ioq.zeroExtension e) q where
  wf := hr.wf
  stopped := hr.stopped
  event := hr.event
  lists := hr.lists.clear (ext_notMem_append he)
  buckets := hr.buckets.write_next
    (fun h => ext_notMem_append he (List.mem_append_right _ h)) 0
  srb j hj := by
    have hje : j.ext ≠ e := fun h => he (h ▸ List.mem_map_of_mem hj)
    exact (Function.update_of_ne hje _ _).trans (hr.srb j hj)

theorem spdIoqStartProcessingSrb_agree (prepare : Addr → Addr → ω → Option ω) (w : ω) :
    Agree (spdIoqStartProcessingSrb prepare ioq w) (q.start prepare w) := by
  unfold Queue.start
  by_cases hst : q.stopped = true
  · rw [if_pos hst, spdIoqStartProcessingSrb, if_pos (hr.stopped.trans hst)]
    exact agree_some hr.wake
  · rw [if_neg hst, spdIoqStartProcessingSrb, if_neg (hr.stopped ▸ hst)]
    cases hp : q.pending with
    | nil =>
        rw [if_pos (hr.lists.first.flink_head_eq_self.mpr (by rw [hp]; rfl))]
        exact agree_some hr
    | cons i rest =>
        have hne : ¬ ioq.listEntry.flink .pendingList = some .pendingList := fun h => by
          have hnil := hr.lists.first.flink_head_eq_self.mp h
          simp [hp] at hnil
        have hhead := hr.lists.first.flink_head
        rw [hp, List.map_cons, List.map_cons, List.headD_cons] at hhead
        have hi : i ∈ q.items := List.mem_append_left _ (by rw [hp]; exact List.mem_cons_self)
        rw [if_neg hne, hhead]
        -- out of the pending list
        have hlists := hr.lists
        rw [hp, List.map_cons] at hlists
        obtain ⟨L₁, hL₁, hlists₁⟩ := hlists.removeEntryList (l := [])
        -- into the process list
        have hfresh : i.ext ∉ q.process.map Item.ext ++ rest.map Item.ext := by
          have hnd := hlists.nodup
          rw [List.cons_append, List.nodup_cons] at hnd
          exact fun h => hnd.1 (List.mem_append.mpr (List.mem_append.mp h).symm)
        obtain ⟨L₂, hL₂, hlists₂⟩ := hlists₁.symm.insertTailList hfresh
        rw [List.nil_append] at hL₁
        simp only [Option.bind_eq_bind, Option.bind_some, ListEntry.containingRecord,
          hL₁, hr.srb i hi,
          hL₂]
        cases hw : prepare i.ext i.srb w with
        | none => exact .none
        | some w' =>
            have hr' : Refines
                { ioq with
                  listEntry := L₂
                  processBuckets := ioq.processBuckets.push (ioq.bucket i.ext) i.ext }
                { q with pending := rest, process := q.process ++ [i] } := by
              refine ⟨hr.wf.move hp, hr.stopped, hr.event, ?_, ?_, fun j hj => hr.srb j ?_⟩
              · rw [List.map_append]
                exact hlists₂.symm
              · rw [List.map_append]
                exact hr.buckets.push (fun h => hfresh (List.mem_append_left _ h))
                  (hr.wf.ext_ne i hi)
              · simp only [Queue.items, hp, List.mem_append, List.mem_cons,
                  List.not_mem_nil] at hj ⊢
                tauto
            cases rest with
            | nil =>
                rw [List.isEmpty_nil, Bool.not_true, Bool.or_false]
                exact agree_some hr'
            | cons j rest =>
                rw [List.isEmpty_cons, Bool.not_false, Bool.or_true]
                exact agree_some hr'.wake

theorem spdIoqEndProcessingSrb_agree (complete : Addr → Addr → ω → Option (UInt8 × ω))
    (w : ω) (hint : UInt64) :
    Agree (spdIoqEndProcessingSrb complete ioq w hint) (q.finish complete w hint) := by
  unfold Queue.finish
  by_cases hst : q.stopped = true
  · rw [if_pos hst, spdIoqEndProcessingSrb, if_pos (hr.stopped.trans hst)]
    exact agree_some hr
  · rw [if_neg hst, spdIoqEndProcessingSrb, if_neg (hr.stopped ▸ hst)]
    cases hl : q.lookup hint with
    | none =>
        simp only [hr.buckets.find_notMem (lookup_eq_none.mp hl), Option.bind_eq_bind,
          Option.bind_some]
        exact agree_some hr
    | some i =>
        obtain ⟨hi, rfl⟩ := hr.wf.lookup_eq_some.mp hl
        have hmem : i ∈ q.items := List.mem_append_right _ hi
        have hext : i.ext ∈ q.process.map Item.ext := List.mem_map_of_mem hi
        obtain ⟨hnp, hnr, hdis⟩ := List.nodup_append.mp hr.lists.nodup
        have hpend : i.ext ∉ q.pending.map Item.ext := fun h => hdis _ h _ hext rfl
        have herase := hr.wf.map_erase hmem (List.subset_append_right q.pending q.process)
        obtain ⟨P, hP, hbuckets⟩ := hr.buckets.unlink hnr hext
        -- out of the process list
        obtain ⟨L₁, b, hL₁, hlists₁⟩ := hr.lists.erase (List.mem_append_right _ hext)
        rw [List.erase_of_not_mem hpend] at hlists₁
        -- and, for the next chunk, into the pending list
        have hgone : i.ext ∉ q.pending.map Item.ext ++ (q.process.map Item.ext).erase i.ext := by
          simp [hpend, hnr.mem_erase_iff]
        obtain ⟨L₂, hL₂, hlists₂⟩ := hlists₁.insertHeadList hgone
        rw [← herase] at hbuckets hlists₁ hlists₂
        simp only [hP, hL₁, hr.srb i hmem, Option.bind_eq_bind, Option.bind_some]
        cases hw : complete i.ext i.srb w with
        | none => exact .none
        | some r =>
            obtain ⟨status, w'⟩ := r
            simp only [hL₂, Option.bind_some]
            split
            · have hr' : Refines
                  { ioq with
                    listEntry := L₂
                    processBuckets := ioq.processBuckets.write P (ioq.processBuckets.next i.ext) }
                  { q with pending := i :: q.pending, process := q.process.erase i } := by
                refine ⟨hr.wf.repost hi, hr.stopped, hr.event, hlists₂, hbuckets,
                  fun j hj => hr.srb j ?_⟩
                simp only [Queue.items, List.cons_append, List.mem_cons, List.mem_append] at hj ⊢
                rcases hj with rfl | hj | hj
                · exact .inr hi
                · exact .inl hj
                · exact .inr (List.mem_of_mem_erase hj)
              exact agree_some hr'.wake
            · refine agree_some ⟨hr.wf.leave, hr.stopped, hr.event, hlists₁, hbuckets,
                fun j hj => hr.srb j ?_⟩
              exact ((List.Sublist.refl q.pending).append List.erase_sublist).subset hj

end Operations

end Winspd.Proofs
