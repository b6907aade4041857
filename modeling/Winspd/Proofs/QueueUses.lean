import Winspd.Proofs.UnitRun
import Winspd.Sys.SrbUse

/-!
# What the queue touches is in the queue

`Owned own us` goes through what a function touches, in order: each SRB and each
extension is of a request in `own`, and a completion takes its request out. The
critical sections of the queue only touch what is in the queue, because the two
rings and the buckets run through nothing else. A reset completes the requests
one by one, and has read what it needs of each before.
-/

namespace Winspd.Proofs

open Winspd.Lib Winspd.Sys Winspd.Spec

/-! ## Owned requests -/

/-- The SRBs and extensions are those of `own`, of which what is completed is no
longer part. -/
def Owned : List Item → List SrbUse → Prop
  | _, [] => True
  | own, .srb a :: us => a ∈ own.map Item.srb ∧ Owned own us
  | own, .ext e :: us => e ∈ own.map Item.ext ∧ Owned own us
  | own, .complete a :: us => Owned (own.filter fun i => i.srb ≠ a) us

/-- A read or write of a request in `own`. -/
def UseOf (own : List Item) : SrbUse → Prop
  | .srb a => a ∈ own.map Item.srb
  | .ext e => e ∈ own.map Item.ext
  | .complete _ => False

def completedUse : SrbUse → Option Addr
  | .complete a => some a
  | _ => none

/-- A function touched what is owned, and completed what its calls complete. -/
def UsesOk (own : List Item) (touched : Option (List SrbUse)) (calls : List IoqCall) : Prop :=
  ∃ us, touched = some us ∧ Owned own us ∧
    us.filterMap completedUse = calls.filterMap completedSrb

variable {own : List Item} {us us' : List SrbUse} {touched : Option (List SrbUse)} {i : Item}
  {a e : Addr} {es : List ListEntry} {calls : List IoqCall}

theorem owned_append (h : ∀ u ∈ us, UseOf own u) : Owned own (us ++ us') ↔ Owned own us' := by
  induction us with
  | nil => rfl
  | cons u us ih =>
      have hu := h u List.mem_cons_self
      have htail := ih fun v hv => h v (List.mem_cons_of_mem _ hv)
      cases u with
      | srb a => exact (and_iff_right hu).trans htail
      | ext e => exact (and_iff_right hu).trans htail
      | complete a => exact hu.elim

theorem owned_of_uses (h : ∀ u ∈ us, UseOf own u) : Owned own us := by
  have howned : Owned own (us ++ []) := (owned_append h).mpr trivial
  rwa [List.append_nil] at howned

theorem completed_ext (zs : List Addr) : (zs.map SrbUse.ext).filterMap completedUse = [] := by
  rw [List.filterMap_eq_nil_iff]
  intro u hu
  obtain ⟨e, -, rfl⟩ := List.mem_map.mp hu
  rfl

theorem completed_of_uses (h : ∀ u ∈ us, UseOf own u) : us.filterMap completedUse = [] := by
  rw [List.filterMap_eq_nil_iff]
  intro u hu
  cases u with
  | srb a => rfl
  | ext e => rfl
  | complete a => exact (h _ hu).elim

theorem owned_split (h : Owned own (us ++ us')) : ∃ own', Owned own' us' := by
  induction us generalizing own with
  | nil => exact ⟨own, h⟩
  | cons u us ih =>
      cases u with
      | srb a => exact ih h.2
      | ext e => exact ih h.2
      | complete a => exact ih h

theorem not_owned_again : ¬ Owned own (us ++ .complete a :: .srb a :: us') := by
  intro h
  obtain ⟨own', hmem, -⟩ := owned_split h
  obtain ⟨i, hi, hia⟩ := List.mem_map.mp hmem
  exact of_decide_eq_true (List.mem_filter.mp hi).2 hia

theorem owned_spdSrbComplete (h : a ∈ own.map Item.srb) : Owned own (spdSrbCompleteUses a) :=
  ⟨h, trivial⟩

theorem usesOk_of_uses (h : ∀ u ∈ us, UseOf own u)
    (hcalls : calls.filterMap completedSrb = []) :
    UsesOk own (some us) calls :=
  ⟨us, rfl, owned_of_uses h, (completed_of_uses h).trans hcalls.symm⟩

theorem usesOk_complete (h : ∀ u ∈ us, UseOf own u) (ha : a ∈ own.map Item.srb)
    (hcalls : calls.filterMap completedSrb = [a]) :
    UsesOk own (some (us ++ spdSrbCompleteUses a)) calls := by
  refine ⟨_, rfl, (owned_append h).mpr (owned_spdSrbComplete ha), ?_⟩
  rw [List.filterMap_append, completed_of_uses h, hcalls]
  rfl

theorem entryUses_of (h : ∀ e, ListEntry.ext e ∈ es → e ∈ own.map Item.ext) :
    ∀ u ∈ entryUses es, UseOf own u := by
  intro u hu
  obtain ⟨e, he, rfl⟩ := List.mem_map.mp hu
  obtain ⟨entry, hentry, heq⟩ := List.mem_filterMap.mp he
  cases entry with
  | ext e' =>
      cases heq
      exact h _ hentry
  | pendingList => cases heq
  | processList => cases heq

/-! ## The lists and the buckets -/

section Touched

variable {L : Links ListEntry} {h h' : ListEntry} {xs ys : List Addr}
  {C : Chains UInt32 Addr} {hash : Addr → UInt32}

theorem TwoRings.ext_mem (ht : TwoRings L h h' xs ys)
    (he : ListEntry.ext e ∈ h :: xs.map ListEntry.ext) : e ∈ xs := by
  rcases List.mem_cons.mp he with heq | he
  · exact absurd heq (ext_ne_of_containingRecord ht.head)
  · obtain ⟨e', he', heq⟩ := List.mem_map.mp he
    cases heq
    exact he'

theorem TwoRings.removeTouched (ht : TwoRings L h h' xs ys) (he : e ∈ xs ++ ys) :
    ∃ zs, L.removeTouched (.ext e) = some zs ∧ ∀ e', ListEntry.ext e' ∈ zs →
      e' ∈ xs ++ ys := by
  rcases List.mem_append.mp he with hx | hy
  · obtain ⟨zs, hzs, hmem⟩ := ht.first.removeTouched (List.mem_map_of_mem hx)
    exact ⟨zs, hzs, fun e' he' => List.mem_append_left _ (ht.ext_mem (hmem _ he'))⟩
  · obtain ⟨zs, hzs, hmem⟩ := ht.second.removeTouched (List.mem_map_of_mem hy)
    exact ⟨zs, hzs, fun e' he' => List.mem_append_right _ (ht.symm.ext_mem (hmem _ he'))⟩

theorem TwoRings.insertTailTouched (ht : TwoRings L h h' xs ys) :
    ∃ zs, L.insertTailTouched h (.ext e) = some zs ∧
      ∀ e', ListEntry.ext e' ∈ zs → e' = e ∨ e' ∈ xs := by
  obtain ⟨zs, hzs, hmem⟩ := ht.first.insertTailTouched (e := .ext e)
  refine ⟨zs, hzs, fun e' he' => ?_⟩
  rcases List.mem_cons.mp (hmem _ he') with heq | he'
  · cases heq
    exact .inl rfl
  · exact .inr (ht.ext_mem he')

theorem TwoRings.insertHeadTouched (ht : TwoRings L h h' xs ys) :
    ∃ zs, L.insertHeadTouched h (.ext e) = some zs ∧
      ∀ e', ListEntry.ext e' ∈ zs → e' = e ∨ e' ∈ xs := by
  obtain ⟨zs, hzs, hmem⟩ := ht.first.insertHeadTouched (e := .ext e)
  refine ⟨zs, hzs, fun e' he' => ?_⟩
  rcases List.mem_cons.mp (hmem _ he') with heq | he'
  · cases heq
    exact .inl rfl
  · exact .inr (ht.ext_mem he')

theorem Buckets.findTouched (hb : Buckets C hash ys) :
    ∃ zs, C.findTouched 0 e addressSpace (.head (hash e)) = some zs ∧ zs ⊆ ys := by
  obtain ⟨xs, ht, hmem⟩ := hb
  obtain ⟨zs, hzs, hsub⟩ := Chain.findTouched (P := .head (hash e)) (x := e) (ht.chain (hash e))
    (bucket_length_lt ht _)
  refine ⟨zs, hzs, fun y hy => ?_⟩
  have hy' : y ∈ xs (hash e) := (hsub y hy).resolve_left List.not_mem_nil
  exact (hmem y).mp (by rwa [ht.hash_eq hy'])

theorem Buckets.avoidsTouched (hb : Buckets C hash ys) (b : UInt32) :
    ∃ zs, C.avoidsTouched 0 addressSpace (C.head b) = some zs ∧ zs ⊆ ys := by
  obtain ⟨xs, ht, hmem⟩ := hb
  refine ⟨xs b, (ht.chain b).avoidsTouched (bucket_length_lt ht _), fun y hy => ?_⟩
  exact (hmem y).mp (by rwa [ht.hash_eq hy])

end Touched

/-! ## The critical sections -/

section Sections

variable {ω : Type} {ioq ioq' : SpdIoq} {q : Queue} {w w' : ω} {status : NtStatus}

theorem ext_own (hown : q.items ⊆ own)
    (he : e ∈ q.pending.map Item.ext ++ q.process.map Item.ext) : e ∈ own.map Item.ext := by
  rw [← List.map_append] at he
  exact List.map_subset _ hown he

theorem process_own {zs : List Addr} (hown : q.items ⊆ own)
    (hzs : zs ⊆ q.process.map Item.ext) : ∀ u ∈ zs.map SrbUse.ext, UseOf own u := by
  intro u hu
  obtain ⟨e, he, rfl⟩ := List.mem_map.mp hu
  exact ext_own hown (List.mem_append_right _ (hzs he))

theorem spdIoqPostSrb_uses (hr : Refines ioq q) (hown : q.items ⊆ own) (hi : i ∈ own) :
    ∃ us, spdIoqPostSrbUses ioq i.srb i.ext = some us ∧ ∀ u ∈ us, UseOf own u := by
  have hext : i.ext ∈ own.map Item.ext := List.mem_map_of_mem hi
  unfold spdIoqPostSrbUses
  split
  · exact ⟨[], rfl, fun u hu => by cases hu⟩
  · obtain ⟨zs, hzs, hmem⟩ := hr.lists.insertTailTouched (e := i.ext)
    refine ⟨_, by rw [hzs]; rfl, ?_⟩
    refine List.forall_mem_cons.mpr ⟨List.mem_map_of_mem hi,
      List.forall_mem_cons.mpr ⟨hext, ?_⟩⟩
    refine entryUses_of fun e he => ?_
    rcases hmem e he with rfl | hp
    · exact hext
    · exact ext_own hown (List.mem_append_left _ hp)

theorem assertedTouched_own (dbg : Bool) (hr : Refines ioq q) (hown : q.items ⊆ own) :
    ∃ zs, assertedTouched dbg ioq e = some zs ∧ ∀ u ∈ zs.map SrbUse.ext, UseOf own u := by
  cases dbg with
  | false => exact ⟨[], rfl, fun u hu => by cases hu⟩
  | true =>
      obtain ⟨zs, hzs, hsub⟩ := hr.buckets.avoidsTouched (ioq.bucket e)
      exact ⟨zs, hzs, process_own hown hsub⟩

/-- A request and its extension, for `Prepare` or `Complete`. -/
theorem callbackUses_own (hi : i ∈ own) : ∀ u ∈ callbackUses i.ext i.srb, UseOf own u :=
  List.forall_mem_cons.mpr
    ⟨List.mem_map_of_mem hi, List.forall_mem_singleton.mpr (List.mem_map_of_mem hi)⟩

theorem spdIoqStartProcessingSrb_uses (dbg : Bool) (hr : Refines ioq q) (hown : q.items ⊆ own) :
    ∃ us, spdIoqStartProcessingSrbUses dbg ioq = some us ∧ ∀ u ∈ us, UseOf own u := by
  unfold spdIoqStartProcessingSrbUses
  split
  · exact ⟨[], rfl, fun u hu => by cases hu⟩
  · split
    · exact ⟨[], rfl, fun u hu => by cases hu⟩
    · next hne =>
        cases hp : q.pending with
        | nil => exact absurd (hr.lists.first.flink_head_eq_self.mpr (by rw [hp]; rfl)) hne
        | cons i rest =>
            have hitem :
                i ∈ q.items := List.mem_append_left _ (by rw [hp]; exact List.mem_cons_self)
            have hi : i ∈ own := hown hitem
            have hext : i.ext ∈ own.map Item.ext := List.mem_map_of_mem hi
            have hhead := hr.lists.first.flink_head
            rw [hp, List.map_cons, List.map_cons, List.headD_cons] at hhead
            -- out of the pending list
            have hlists := hr.lists
            rw [hp, List.map_cons] at hlists
            obtain ⟨removed, hremoved, hmem⟩ := hr.lists.removeTouched (e := i.ext)
              (by rw [hp, List.map_cons]; exact List.mem_cons_self)
            obtain ⟨L₁, hL₁, hlists₁⟩ := hlists.removeEntryList (l := [])
            rw [List.nil_append] at hL₁
            -- into the process list
            obtain ⟨inserted, hinserted, hmem'⟩ := hlists₁.symm.insertTailTouched (e := i.ext)
            obtain ⟨asserted, hasserted, hbucket⟩ :=
              assertedTouched_own (e := i.ext) dbg hr hown
            have hout : ∀ u ∈ entryUses removed, UseOf own u :=
              entryUses_of fun e he => ext_own hown (hmem e he)
            have hin : ∀ u ∈ entryUses inserted, UseOf own u := by
              refine entryUses_of fun e he => ?_
              rcases hmem' e he with rfl | hprocess
              · exact hext
              · exact ext_own hown (List.mem_append_right _ hprocess)
            simp only [hhead, ListEntry.containingRecord, hremoved, hL₁, hinserted, hasserted,
              hr.srb i hitem, Option.bind_eq_bind, Option.bind_some]
            refine ⟨_, rfl, ?_⟩
            simp only [List.forall_mem_append, List.forall_mem_singleton]
            exact ⟨⟨⟨⟨hout, callbackUses_own hi⟩, hin⟩, hbucket⟩, hext⟩

theorem spdIoqEndProcessingSrb_uses {complete : Addr → Addr → ω → Option (UInt8 × ω)}
    {hint : UInt64} (hr : Refines ioq q) (hown : q.items ⊆ own)
    (h : spdIoqEndProcessingSrb complete ioq w hint = some (ioq', w', calls)) :
    UsesOk own (spdIoqEndProcessingSrbUses complete ioq w hint) calls := by
  have hagree := spdIoqEndProcessingSrb_agree hr complete w hint
  rw [h] at hagree
  obtain ⟨q', hspec, -⟩ := hagree.of_some
  obtain ⟨searched, hsearched, hsub⟩ := hr.buckets.findTouched (e := hint)
  have hsearch := process_own hown hsub
  unfold spdIoqEndProcessingSrbUses
  by_cases hst : q.stopped = true
  · rw [if_pos (hr.stopped.trans hst)]
    rw [Queue.finish, if_pos hst] at hspec
    cases hspec
    exact ⟨[], rfl, trivial, rfl⟩
  · rw [if_neg (hr.stopped ▸ hst)]
    obtain ⟨hno, -, -, rfl⟩ | ⟨i, status, -, hl, hcomplete, hrest⟩ :=
      Queue.finish_cases hspec
    · have hfind := hr.buckets.find_notMem (lookup_eq_none.mp (hno.resolve_left hst))
      simp only [hsearched, hfind, Option.bind_eq_bind, Option.bind_some]
      exact usesOk_of_uses hsearch rfl
    · obtain ⟨hprocess, rfl⟩ := hr.wf.lookup_eq_some.mp hl
      have hitem : i ∈ q.items := List.mem_append_right _ hprocess
      have hi : i ∈ own := hown hitem
      have hext : i.ext ∈ own.map Item.ext := List.mem_map_of_mem hi
      have hmem : i.ext ∈ q.pending.map Item.ext ++ q.process.map Item.ext :=
        List.mem_append_right _ (List.mem_map_of_mem hprocess)
      obtain ⟨P, hP, -⟩ := hr.buckets.unlink (List.nodup_append.mp hr.lists.nodup).2.1
        (List.mem_map_of_mem hprocess)
      obtain ⟨removed, hremoved, hneighbours⟩ := hr.lists.removeTouched hmem
      obtain ⟨L₁, b, hL₁, hlists₁⟩ := hr.lists.erase hmem
      obtain ⟨inserted, hinserted, hfirst⟩ := hlists₁.insertHeadTouched (e := i.ext)
      have hanswered : ∀ u ∈ searched.map SrbUse.ext ++ entryUses removed ++
          callbackUses i.ext i.srb, UseOf own u := by
        simp only [List.forall_mem_append]
        exact ⟨⟨hsearch, entryUses_of fun e he => ext_own hown (hneighbours e he)⟩,
          callbackUses_own hi⟩
      simp only [hsearched, hP, hremoved, hL₁, hr.srb i hitem, hcomplete, Option.bind_eq_bind,
        Option.bind_some]
      obtain ⟨rfl, -, rfl⟩ | ⟨hne, -, rfl⟩ := hrest
      · rw [if_pos rfl, hinserted, Option.bind_some]
        refine usesOk_of_uses (List.forall_mem_append.mpr ⟨hanswered, ?_⟩) rfl
        refine entryUses_of fun e he => ?_
        rcases hfirst e he with rfl | hp
        · exact hext
        · exact ext_own hown (List.mem_append_left _ (List.mem_of_mem_erase hp))
      · rw [if_neg hne, List.append_cons]
        exact usesOk_complete (List.forall_mem_append.mpr
          ⟨hanswered, List.forall_mem_singleton.mpr hext⟩) (List.mem_map_of_mem hi) rfl

/-- Whatever SRB a cancel is for, it completes that SRB at the end. -/
theorem spdIoqCancelSrb_uses (hr : Refines ioq q) (hst : ioq.stopped = false)
    (h : spdIoqCancelSrb ioq a e = some (ioq', calls, status)) :
    ∃ searched removed, spdIoqCancelSrbUses ioq a e =
        some (.srb a :: .ext e :: searched.map .ext ++ entryUses removed ++ [.ext e] ++
          spdSrbCompleteUses a) ∧
      searched ⊆ q.process.map Item.ext ∧
      ioq.listEntry.removeTouched (.ext e) = some removed ∧
      calls = [.srbComplete a srbStatusAborted] ∧ status = .success := by
  have hrunning : ¬ ioq.stopped = true := by simp [hst]
  rw [spdIoqCancelSrb, if_neg hrunning] at h
  simp only [Option.bind_eq_bind, Option.bind_eq_some_iff] at h
  obtain ⟨found, -, r, hremove, h⟩ := h
  cases h
  obtain ⟨searched, hsearched, hsub⟩ := hr.buckets.findTouched (e := e)
  obtain ⟨removed, hremoved⟩ := exists_removeTouched hremove
  refine ⟨searched, removed, ?_, hsub, hremoved, rfl, rfl⟩
  rw [spdIoqCancelSrbUses, if_neg hrunning]
  simp only [hsearched, hremoved, Option.bind_eq_bind, Option.bind_some, List.append_assoc,
    List.singleton_append]

theorem spdIoqCancelSrb_queued (hr : Refines ioq q) (hown : q.items ⊆ own) (hi : i ∈ q.items)
    (h : spdIoqCancelSrb ioq i.srb i.ext = some (ioq', calls, status)) :
    UsesOk own (spdIoqCancelSrbUses ioq i.srb i.ext) calls := by
  cases hst : ioq.stopped with
  | true =>
      rw [spdIoqCancelSrb, if_pos hst] at h
      cases h
      rw [spdIoqCancelSrbUses, if_pos hst]
      exact ⟨[], rfl, trivial, rfl⟩
  | false =>
      obtain ⟨searched, removed, huses, hsub, hremoved, rfl, -⟩ := spdIoqCancelSrb_uses hr hst h
      have hmem : i.ext ∈ q.pending.map Item.ext ++ q.process.map Item.ext := by
        rw [← List.map_append]
        exact List.mem_map_of_mem hi
      have hsrb : i.srb ∈ own.map Item.srb := List.mem_map_of_mem (hown hi)
      obtain ⟨touched, htouched, hneighbours⟩ := hr.lists.removeTouched hmem
      obtain rfl : removed = touched := Option.some.inj (hremoved.symm.trans htouched)
      rw [huses]
      refine usesOk_complete ?_ hsrb rfl
      have hneighbour : ∀ u ∈ entryUses removed, UseOf own u :=
        entryUses_of fun e he => ext_own hown (hneighbours e he)
      refine List.forall_mem_append.mpr ⟨List.forall_mem_append.mpr ⟨List.forall_mem_cons.mpr
        ⟨hsrb, List.forall_mem_cons.mpr ⟨ext_own hown hmem, process_own hown hsub⟩⟩,
          hneighbour⟩,
        List.forall_mem_singleton.mpr (ext_own hown hmem)⟩

def abortUses (i : Item) : List SrbUse := .ext i.ext :: spdSrbCompleteUses i.srb

theorem completed_abortUses (is : List Item) :
    (is.flatMap abortUses).filterMap completedUse = is.map Item.srb := by
  induction is with
  | nil => rfl
  | cons i is ih =>
      rw [List.flatMap_cons, List.filterMap_append, ih]
      rfl

/-- The requests are completed one by one, and each is owned until its turn. -/
theorem owned_abortUses {is : List Item} (hsub : is ⊆ own) (hnd : (is.map Item.srb).Nodup)
    (hrest : Owned (own.filter fun i => i.srb ∉ is.map Item.srb) us) :
    Owned own (is.flatMap abortUses ++ us) := by
  induction is generalizing own with
  | nil => simpa using hrest
  | cons i is ih =>
      have hi : i ∈ own := hsub List.mem_cons_self
      obtain ⟨hfresh, hnd⟩ := List.nodup_cons.mp hnd
      refine ⟨List.mem_map_of_mem hi, List.mem_map_of_mem hi, ih (fun j hj => ?_) hnd ?_⟩
      · refine List.mem_filter.mpr ⟨hsub (List.mem_cons_of_mem _ hj), decide_eq_true ?_⟩
        intro heq
        exact hfresh (heq ▸ List.mem_map_of_mem hj)
      · have hsame :
            (own.filter fun j => j.srb ≠ i.srb).filter (fun j => j.srb ∉ is.map Item.srb) =
            own.filter fun j => j.srb ∉ (i :: is).map Item.srb := by
          rw [List.filter_filter]
          refine List.filter_congr fun j _ => ?_
          rw [← Bool.decide_and, decide_eq_decide, List.map_cons, List.mem_cons, not_or, and_comm]
        rwa [hsame]

theorem spdIoqReset_uses {stop : Bool} (hr : Refines ioq q)
    (h : spdIoqReset ioq stop = some (ioq', calls)) :
    ∃ is, (is = [] ∨ is = q.items) ∧ spdIoqResetUses ioq = some (is.flatMap abortUses) ∧
      calls.filterMap completedSrb = is.map Item.srb := by
  have hagree := spdIoqReset_agree hr stop
  rw [h] at hagree
  obtain ⟨q', hspec, -⟩ := hagree.of_some
  rw [Option.some.injEq, Queue.reset] at hspec
  by_cases hst : q.stopped = true
  · rw [if_pos hst] at hspec
    cases hspec
    exact ⟨[], .inl rfl, by rw [spdIoqResetUses, if_pos (hr.stopped.trans hst)]; rfl, rfl⟩
  · rw [if_neg hst] at hspec
    cases hspec
    refine ⟨q.items, .inr rfl, ?_, ?_⟩
    · have hfuel := hr.wf.items_length_lt
      rw [Queue.items, List.length_append] at hfuel
      have hL : ∀ e, ((ioq.listEntry.initializeListHead .pendingList).initializeListHead
          .processList).flink (.ext e) = ioq.listEntry.flink (.ext e) := fun e => by
        simp [Links.initializeListHead, Links.setFlink, Links.setBlink]
      obtain ⟨s, hs, hpending⟩ := hr.lists.walk hL (show _ < addressSpace by simp; omega)
      obtain ⟨s', hs', hprocess⟩ := hr.lists.symm.walk hL (show _ < addressSpace by simp; omega)
      rw [spdIoqResetUses, if_neg (hr.stopped ▸ hst)]
      simp only [hs, hs', hpending, hprocess, Option.bind_eq_bind, Option.bind_some,
        ← List.map_append, mapM_containingRecord]
      rw [← Queue.items, List.flatMap_map, Option.some.injEq]
      refine List.flatMap_congr fun i hi => ?_
      rw [hr.srb i hi]
      rfl
    · rw [List.filterMap_map, ← List.filterMap_eq_map]
      rfl

end Sections

end Winspd.Proofs
