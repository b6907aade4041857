import Winspd.Launcher.Persistent
import Winspd.Proofs.LaunchCodec

/-!
# Instances that are restored

`restoredClasses` says which instances are created again when the service
starts: those of the records that are read, in their order. A record is lost
when it has no arguments, since the loop that counts its strings wants three of
them, and the security descriptor and the last NUL are only two. A record that
does not fit the buffers ends the loop, and so does a class: all that is behind
is lost, too.

The rest is a comparison of two lists of calls. What is created is a part of
what was set, so the two are the same when nothing is lost.
-/

namespace Winspd.Proofs

open Winspd.Lib Winspd.Shared Winspd.Launcher

/-- An instance that `SvcInstanceSetPersistent` was called for. -/
structure PersistentInstance where
  instanceName : WString
  args : List WString
  security : WString

namespace PersistentInstance

def call (r : PersistentInstance) (className : WString) : CreateCall :=
  ⟨className, r.instanceName, r.args, r.security⟩

def size (r : PersistentInstance) : Nat := (svcInstanceArgBuf r.args r.security).length * 2

/-- Its name and its value can be read. -/
def Fits (r : PersistentInstance) : Prop :=
  r.instanceName.length < instanceNameSize ∧ r.size ≤ regValueSize * 2

instance (r : PersistentInstance) : Decidable r.Fits := by
  unfold Fits
  infer_instance

end PersistentInstance

/-! ## What is restored -/

def restoredRecords (className : WString) : List PersistentInstance → List CreateCall
  | [] => []
  | r :: rs =>
      if r.Fits then
        (if r.args = [] then [] else [r.call className]) ++ restoredRecords className rs
      else []

def restoredClasses : List (WString × List PersistentInstance) → List CreateCall
  | [] => []
  | c :: cs =>
      if c.1.length < classNameSize then restoredRecords c.1 c.2 ++ restoredClasses cs else []

/-- What would be restored if nothing was lost. -/
def persistentCalls (cs : List (WString × List PersistentInstance)) : List CreateCall :=
  cs.flatMap fun c => c.2.map fun r => r.call c.1

/-- Nothing is lost: every record has arguments and fits, and no class that holds
a record or is in front of one has too long a name. -/
def NothingLost : List (WString × List PersistentInstance) → Prop
  | [] => True
  | c :: cs =>
      (c.1.length < classNameSize ∨ ∀ d ∈ c :: cs, d.2 = []) ∧
        (∀ r ∈ c.2, r.args ≠ [] ∧ r.Fits) ∧ NothingLost cs

theorem restoredRecords_sublist {className : WString} {rs : List PersistentInstance} :
    (restoredRecords className rs).Sublist (rs.map fun r => r.call className) := by
  induction rs with
  | nil => exact List.Sublist.refl _
  | cons r rs ih =>
      rw [restoredRecords, List.map_cons]
      split
      · split
        · exact ih.cons _
        · exact ih.cons_cons _
      · exact List.nil_sublist _

theorem restoredRecords_eq {className : WString} {rs : List PersistentInstance} :
    restoredRecords className rs = rs.map (fun r => r.call className) ↔
      ∀ r ∈ rs, r.args ≠ [] ∧ r.Fits := by
  induction rs with
  | nil => exact iff_of_true rfl fun r h => by cases h
  | cons r rs ih =>
      rw [restoredRecords, List.map_cons, List.forall_mem_cons, ← ih]
      by_cases hfits : r.Fits
      · rw [if_pos hfits]
        by_cases hargs : r.args = []
        · rw [if_pos hargs, List.nil_append]
          refine iff_of_false (fun h => ?_) fun h => h.1.1 hargs
          have hle : (restoredRecords className rs).length ≤
              (rs.map fun r => r.call className).length := restoredRecords_sublist.length_le
          have hlen := congrArg List.length h
          rw [List.length_cons] at hlen
          omega
        · rw [if_neg hargs, List.singleton_append, List.cons.injEq]
          exact ⟨fun h => ⟨⟨hargs, hfits⟩, h.2⟩, fun h => ⟨rfl, h.2⟩⟩
      · rw [if_neg hfits]
        exact iff_of_false (fun h => by cases h) fun h => hfits h.1.2

theorem append_eq_of_sublist {α : Type*} {xs ys us vs : List α} (hxs : xs.Sublist us)
    (hys : ys.Sublist vs) : xs ++ ys = us ++ vs ↔ xs = us ∧ ys = vs := by
  constructor
  · intro h
    have hlen := congrArg List.length h
    rw [List.length_append, List.length_append] at hlen
    have hx := hxs.length_le
    have hy := hys.length_le
    exact ⟨hxs.eq_of_length (by omega), hys.eq_of_length (by omega)⟩
  · rintro ⟨rfl, rfl⟩
    rfl

theorem persistentCalls_cons {c : WString × List PersistentInstance}
    {cs : List (WString × List PersistentInstance)} :
    persistentCalls (c :: cs) = (c.2.map fun r => r.call c.1) ++ persistentCalls cs := by
  rw [persistentCalls, List.flatMap_cons]
  rfl

theorem restoredClasses_sublist {cs : List (WString × List PersistentInstance)} :
    (restoredClasses cs).Sublist (persistentCalls cs) := by
  induction cs with
  | nil => exact List.Sublist.refl _
  | cons c cs ih =>
      rw [restoredClasses, persistentCalls_cons]
      split
      · exact restoredRecords_sublist.append ih
      · exact List.nil_sublist _

theorem persistentCalls_eq_nil {cs : List (WString × List PersistentInstance)} :
    persistentCalls cs = [] ↔ ∀ c ∈ cs, c.2 = [] := by
  simp [persistentCalls, List.flatMap_eq_nil_iff]

theorem restoredClasses_eq {cs : List (WString × List PersistentInstance)} :
    restoredClasses cs = persistentCalls cs ↔ NothingLost cs := by
  induction cs with
  | nil => exact iff_of_true rfl trivial
  | cons c cs ih =>
      rw [restoredClasses, NothingLost, ← ih]
      split
      · next hname =>
          rw [persistentCalls_cons,
            append_eq_of_sublist restoredRecords_sublist restoredClasses_sublist,
            restoredRecords_eq]
          exact ⟨fun h => ⟨.inl hname, h⟩, fun h => h.2⟩
      · next hname =>
          rw [eq_comm, persistentCalls_eq_nil]
          refine ⟨fun h => ⟨.inr h, ?_, ?_⟩, fun h => h.1.resolve_left hname⟩
          · rw [h c List.mem_cons_self]
            exact fun r hr => by cases hr
          · have hnil : persistentCalls cs = [] :=
              persistentCalls_eq_nil.mpr fun d hd => h d (List.mem_cons_of_mem _ hd)
            rw [hnil]
            exact List.sublist_nil.mp (hnil ▸ restoredClasses_sublist)

/-! ## What the launcher reads -/

/-- The strings of a record are read one after the other, to its end. -/
theorem svcRecordArgv_holds {regValue : Nat → UInt16} {strings : List WString} {n p size : Nat}
    (h : HoldsAt regValue p (strings.flatMap WString.terminated))
    (hsize : (p + (strings.flatMap WString.terminated).length) * 2 = size)
    (hfit : size ≤ regValueSize * 2) (hn : strings.length ≤ n) :
    svcRecordArgv regValue size n p = some strings := by
  induction strings generalizing n p with
  | nil =>
      cases n with
      | zero => rfl
      | succ n =>
          rw [List.flatMap_nil, List.length_nil] at hsize
          rw [svcRecordArgv, if_neg (by omega)]
  | cons x strings ih =>
      cases n with
      | zero => cases hn
      | succ n =>
          rw [List.flatMap_cons, holdsAt_append, length_terminated] at h
          rw [List.flatMap_cons, List.length_append, length_terminated] at hsize
          have hx : x.chars.length = x.length := rfl
          have hscan : (scanTo 0 regValue (regValueSize - p) p).1 = x.chars :=
            scanTo_terminated h.1 x.noNul (by omega)
          have harg : (⟨(scanTo 0 regValue (regValueSize - p) p).1, sep_not_mem_scanTo⟩ :
              WString) = x := WString.mk.injEq .. ▸ hscan
          have hrest := ih h.2 (by omega) (Nat.le_of_succ_le_succ hn)
          rw [svcRecordArgv, if_pos (by omega)]
          dsimp only
          rw [harg, if_pos (by omega), Nat.add_assoc, hrest]
          rfl

theorem svcRecordCall_strings {className instanceName security : WString} {args : List WString} :
    svcRecordCall className instanceName (args ++ [security, .empty]) =
      if args = [] then none else some ⟨className, instanceName, args, security⟩ := by
  have hlen : (args ++ [security, WString.empty]).length = args.length + 2 := by
    rw [List.length_append]
    rfl
  unfold svcRecordCall
  dsimp only
  rw [hlen, Nat.add_sub_cancel, List.take_left' rfl,
    List.getElem?_append_right (Nat.le_refl _), Nat.sub_self]
  cases args with
  | nil => rfl
  | cons x args => rw [if_pos (by rw [List.length_cons]; omega), if_neg (List.cons_ne_nil _ _)]; rfl

/-- The values of a class are those that were set for its instances. -/
def Persisted (c : RegClass) (rs : List PersistentInstance) : Prop :=
  (c.instances = none ∧ rs = []) ∨
    ∃ values, c.instances = some values ∧
      List.Forall₂ (fun r value =>
        svcInstanceSetPersistent c.persistent (some r.security) r.instanceName r.args =
          some value) rs values

/-- A class with the values of these instances. -/
def persistentClass (name : WString) (rs : List PersistentInstance) : RegClass :=
  ⟨name, some 1,
    some (rs.map fun r =>
      ⟨r.instanceName, regMultiSz, wcharBytes (svcInstanceArgBuf r.args r.security)⟩)⟩

theorem persisted_class {name : WString} {rs : List PersistentInstance} :
    Persisted (persistentClass name rs) rs := by
  refine .inr ⟨_, rfl, ?_⟩
  induction rs with
  | nil => exact .nil
  | cons r rs ih => exact .cons rfl ih

theorem svcInstanceSetPersistent_eq_some {persistent : Option UInt32} {r : PersistentInstance}
    {value : RegValue}
    (h : svcInstanceSetPersistent persistent (some r.security) r.instanceName r.args =
      some value) :
    value = ⟨r.instanceName, regMultiSz, wcharBytes (svcInstanceArgBuf r.args r.security)⟩ := by
  unfold svcInstanceSetPersistent at h
  cases persistent with
  | none => cases h
  | some p =>
      rw [Option.bind_eq_bind, Option.bind_some] at h
      split at h
      · cases h
      · cases h
        rfl

/-- The strings of a record that is read, whatever the buffer held before. -/
theorem svcRecordArgv_record {r : PersistentInstance} {mem : Nat → UInt8}
    (hargs : r.args.length ≤ 9) (hfits : r.Fits) :
    svcRecordArgv (wchars (store mem 0 (wcharBytes (svcInstanceArgBuf r.args r.security))))
        (wcharBytes (svcInstanceArgBuf r.args r.security)).length persistentArgvSize 0 =
      some (r.args ++ [r.security, .empty]) := by
  have hbuf : svcInstanceArgBuf r.args r.security =
      (r.args ++ [r.security, WString.empty]).flatMap WString.terminated := by
    rw [svcInstanceArgBuf, List.flatMap_append, List.append_assoc]
    rfl
  have hsize := hfits.2
  rw [PersistentInstance.size, hbuf] at hsize
  rw [hbuf, length_wcharBytes]
  refine svcRecordArgv_holds (holdsAt_wchars holdsAt_store) (by rw [Nat.zero_add]) hsize ?_
  rw [List.length_append, persistentArgvSize]
  show r.args.length + 2 ≤ 11
  omega

theorem svcStartInstances_restored {className : WString} {persistent : Option UInt32}
    {rs : List PersistentInstance} {values : List RegValue} {mem : Nat → UInt8}
    (h : List.Forall₂ (fun r value =>
      svcInstanceSetPersistent persistent (some r.security) r.instanceName r.args = some value)
      rs values) (hargs : ∀ r ∈ rs, r.args.length ≤ 9) :
    ∃ mem', svcStartInstances className values mem =
      some (restoredRecords className rs, mem') := by
  induction h generalizing mem with
  | nil => exact ⟨mem, rfl⟩
  | @cons r value rs values hset _ ih =>
      obtain rfl := svcInstanceSetPersistent_eq_some hset
      have hsize : (wcharBytes (svcInstanceArgBuf r.args r.security)).length = r.size :=
        length_wcharBytes _
      rw [restoredRecords, svcStartInstances]
      dsimp only
      by_cases hfits : r.Fits
      · have hname := hfits.1
        have hvalue := hfits.2
        have hread := @svcRecordArgv_record r mem (hargs r List.mem_cons_self) hfits
        obtain ⟨mem', hrest⟩ :=
          @ih (store mem 0 (wcharBytes (svcInstanceArgBuf r.args r.security)))
            fun r hr => hargs r (List.mem_cons_of_mem _ hr)
        rw [if_pos hfits, if_neg (by omega), if_neg (by decide), hread, hrest]
        refine ⟨mem', ?_⟩
        rw [Option.bind_eq_bind, Option.bind_some, Option.bind_eq_bind, Option.bind_some,
          svcRecordCall_strings]
        by_cases hnil : r.args = []
        · rw [if_pos hnil, if_pos hnil]
          rfl
        · rw [if_neg hnil, if_neg hnil]
          rfl
      · have hlarge : instanceNameSize < r.instanceName.length + 1 ∨ regValueSize * 2 <
            (wcharBytes (svcInstanceArgBuf r.args r.security)).length := by
          rw [PersistentInstance.Fits, not_and_or] at hfits
          omega
        rw [if_neg hfits, if_pos hlarge]
        exact ⟨mem, rfl⟩

theorem svcStartAllPersistent_restored {classes : List RegClass}
    {records : List (List PersistentInstance)} {mem : Nat → UInt8}
    (h : List.Forall₂ Persisted classes records)
    (hargs : ∀ rs ∈ records, ∀ r ∈ rs, r.args.length ≤ 9) :
    svcStartAllPersistent classes mem =
      some (restoredClasses ((classes.map RegClass.name).zip records)) := by
  induction h generalizing mem with
  | nil => rfl
  | @cons c rs classes records hpersisted _ ih =>
      rw [List.map_cons, List.zip_cons_cons, restoredClasses, svcStartAllPersistent]
      have hrest := fun mem => @ih mem fun rs hrs => hargs rs (List.mem_cons_of_mem _ hrs)
      by_cases hname : c.name.length < classNameSize
      · rw [if_pos hname, if_neg (by omega)]
        rcases hpersisted with ⟨hnone, rfl⟩ | ⟨values, hsome, hset⟩
        · rw [hnone]
          exact hrest mem
        · obtain ⟨mem', hread⟩ := @svcStartInstances_restored c.name _ _ _ mem hset
            (hargs rs List.mem_cons_self)
          rw [hsome]
          dsimp only
          rw [hread, Option.bind_eq_bind, Option.bind_some, hrest mem', Option.bind_eq_bind,
            Option.bind_some]
      · rw [if_neg hname, if_pos (by omega)]

/-- When the service starts, exactly what was set for the instances is restored
if and only if nothing is lost; and nothing else is ever created. -/
theorem persistent_restored {classes : List RegClass} {records : List (List PersistentInstance)}
    {mem : Nat → UInt8} (h : List.Forall₂ Persisted classes records)
    (hargs : ∀ rs ∈ records, ∀ r ∈ rs, r.args.length ≤ 9) :
    ∃ calls, svcStartAllPersistent classes mem = some calls ∧
      calls.Sublist (persistentCalls ((classes.map RegClass.name).zip records)) ∧
      (calls = persistentCalls ((classes.map RegClass.name).zip records) ↔
        NothingLost ((classes.map RegClass.name).zip records)) :=
  ⟨_, svcStartAllPersistent_restored h hargs, restoredClasses_sublist, restoredClasses_eq⟩

/-- `X:`, of the class `a`: once with an argument, and once with none. -/
def sampleInstance (args : List WString) : PersistentInstance :=
  ⟨⟨[0x58, 0x3a], by decide⟩, args, ⟨[0x44, 0x3a], by decide⟩⟩

/-- An instance with one argument, which is empty. -/
theorem persistent_restored_empty :
    ∃ calls,
      svcStartAllPersistent
          [persistentClass ⟨[0x61], by decide⟩ [sampleInstance [.empty]]] (fun _ => 0xff) =
        some calls ∧
      calls = [⟨⟨[0x61], by decide⟩, ⟨[0x58, 0x3a], by decide⟩, [.empty],
        ⟨[0x44, 0x3a], by decide⟩⟩] := by
  have hargs : ∀ rs ∈ [[sampleInstance [.empty]]], ∀ r ∈ rs,
      r.args.length ≤ 9 := by decide
  obtain ⟨calls, hread, -, hiff⟩ := @persistent_restored
    [persistentClass ⟨[0x61], by decide⟩ [sampleInstance [.empty]]] _ (fun _ => 0xff)
    (.cons persisted_class .nil) hargs
  have hlost : NothingLost [(⟨[0x61], by decide⟩, [sampleInstance [.empty]])] := by
    refine ⟨.inl (by decide), fun r hr => ?_, trivial⟩
    obtain rfl := List.mem_singleton.mp hr
    decide
  exact ⟨calls, hread, hiff.mpr hlost⟩

/-- An instance without arguments is not created again. -/
theorem persistent_restored_none :
    ¬∀ (classes : List RegClass) (records : List (List PersistentInstance))
      (mem : Nat → UInt8),
      List.Forall₂ Persisted classes records →
      (∀ rs ∈ records, ∀ r ∈ rs, r.args.length ≤ 9) →
      svcStartAllPersistent classes mem =
        some (persistentCalls ((classes.map RegClass.name).zip records)) := by
  intro hall
  have hargs : ∀ rs ∈ [[sampleInstance []]], ∀ r ∈ rs, r.args.length ≤ 9 := by decide
  have hcalls := hall [persistentClass ⟨[0x61], by decide⟩ [sampleInstance []]] _
    (fun _ => 0xff)
    (.cons persisted_class .nil) hargs
  rw [svcStartAllPersistent_restored (.cons persisted_class .nil) hargs] at hcalls
  exact absurd (Option.some_inj.mp hcalls) (by decide)

end Winspd.Proofs
