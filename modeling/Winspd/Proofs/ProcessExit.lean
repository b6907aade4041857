import Winspd.Proofs.RegistryRun

/-!
# Process exit

When a process exits, `SpdDeviceExtensionNotifyRoutine` takes a snapshot of the
slots that hold the process's units and then unprovisions slot after slot. The
lock is not held in between, so other processes and the remove path fill and
empty slots as they like; what they cannot do is put in a unit of the process
that exits.

Two loops stop early on a running count. The one that takes the snapshot counts
the process's units against all units (`useBitmapScan_spec`), the other one
counts the flags it has still to meet down to zero. `NotifyLeft` is the invariant of
the second: the flags from `i` on are no more than the count, and every slot
that still holds a unit of the process is one of them.
-/

namespace Winspd.Proofs

open Winspd.Lib Winspd.Sys Winspd.Spec

variable {dx dx' : SpdDeviceExtension} {held : List Addr} {processId : UInt32}
  {pool : Addr → Option UnitObject} {t t' : Registry} {capacity : UInt32} {i : Nat} {e : Entry}

/-! ## The snapshot -/

/-- `SpdStorageUnitGetUseBitmap` looks for the units of a process, or for all. -/
def UsedBy (processId : Option UInt32) (e : Entry) : Prop :=
  processId = none ∨ processId = some e.ownerProcessId

instance (processId : Option UInt32) (e : Entry) : Decidable (UsedBy processId e) := by
  unfold UsedBy
  infer_instance

def wantedSlots (processId : Option UInt32) (t : Registry) : Nat :=
  t.countP fun slot => slot.any fun e => UsedBy processId e

theorem wantedSlots_le {processId : Option UInt32} : wantedSlots processId t ≤ t.occupied := by
  refine List.countP_mono_left fun slot _ h => ?_
  cases slot with
  | none => cases h
  | some e => rfl

theorem wantedSlots_cons {processId : Option UInt32} :
    wantedSlots processId (some e :: t) =
      wantedSlots processId t + if UsedBy processId e then 1 else 0 := by
  rw [wantedSlots, List.countP_cons, Option.any_some, wantedSlots]
  simp only [decide_eq_true_eq]

/-- Slot `j` is wanted, where `t` are the slots from `k` on. -/
def WantedAt (processId : Option UInt32) (k : Nat) (t : Registry) (j : Nat) : Prop :=
  ∃ i e, j = k + i ∧ t.content i = some e ∧ UsedBy processId e

theorem wantedAt_free {processId : Option UInt32} {k j : Nat} :
    WantedAt processId k (none :: t) j ↔ WantedAt processId (k + 1) t j := by
  constructor
  · rintro ⟨i, e, rfl, hi, hw⟩
    cases i with
    | zero => cases hi
    | succ i => exact ⟨i, e, by omega, hi, hw⟩
  · rintro ⟨i, e, rfl, hi, hw⟩
    exact ⟨i + 1, e, by omega, hi, hw⟩

theorem wantedAt_cons {processId : Option UInt32} {k j : Nat} :
    WantedAt processId k (some e :: t) j ↔
      j = k ∧ UsedBy processId e ∨ WantedAt processId (k + 1) t j := by
  constructor
  · rintro ⟨i, e', rfl, hi, hw⟩
    cases i with
    | zero =>
        cases hi
        exact .inl ⟨rfl, hw⟩
    | succ i => exact .inr ⟨i, e', by omega, hi, hw⟩
  · rintro (⟨rfl, hw⟩ | ⟨i, e', rfl, hi, hw⟩)
    · exact ⟨0, e, rfl, rfl, hw⟩
    · exact ⟨i + 1, e', by omega, hi, hw⟩

theorem not_wantedAt_of_empty {processId : Option UInt32} {k j : Nat} (h : t.occupied = 0) :
    ¬ WantedAt processId k t j := by
  rintro ⟨i, e, -, hi, -⟩
  have hpos : 0 < t.occupied := List.countP_pos_iff.mpr
    ⟨some e, List.mem_of_getElem? (Slots.content_eq_some.mp hi), rfl⟩
  omega

/-- The loop, from slot `k` on: it marks the slots that are wanted and counts
them. `hcount` is what makes it right to end early. -/
theorem useBitmapScan_spec {processId : Option UInt32} {total count : UInt32} {ps : List Addr}
    {k : Nat} {bitmap : List UInt8}
    (hpresent : ∀ p ∈ ps, p ≠ 0 → ∃ object, pool p = some object)
    (hk : k + ps.length ≤ sizeofBitmap * 8) (hlen : bitmap.length = sizeofBitmap)
    (hcount : count.toNat + (slotsOf pool ps).occupied ≤ total.toNat) :
    ∃ bitmap' count', useBitmapScan pool processId total k bitmap count ps =
        some (bitmap', count') ∧
      bitmap'.length = sizeofBitmap ∧
      (∀ j, flagOn bitmap' j = true ↔
        flagOn bitmap j = true ∨ WantedAt processId k (slotsOf pool ps) j) ∧
      (∀ n m, flagsFrom bitmap' n m + count.toNat ≤ flagsFrom bitmap n m + count'.toNat) ∧
      count'.toNat = count.toNat + wantedSlots processId (slotsOf pool ps) := by
  induction ps generalizing k bitmap count with
  | nil =>
      refine ⟨bitmap, count, rfl, hlen, fun j => ?_, fun n m => Nat.le_refl _, rfl⟩
      exact (or_iff_left (not_wantedAt_of_empty rfl)).symm
  | cons p ps ih =>
      have hrest : ∀ p ∈ ps, p ≠ 0 → ∃ object, pool p = some object :=
        fun p hp => hpresent p (List.mem_cons_of_mem _ hp)
      rw [List.length_cons] at hk
      have hk' : k + 1 + ps.length ≤ sizeofBitmap * 8 := by omega
      rw [useBitmapScan]
      by_cases hmore : total > count
      · rw [if_pos hmore]
        by_cases h0 : p = 0
        · subst h0
          rw [if_pos rfl]
          obtain ⟨bitmap', count', hscan, hlen', hflags, hleft, hcount'⟩ :=
            ih hrest hk' hlen hcount
          refine ⟨bitmap', count', hscan, hlen', fun j => ?_, hleft, hcount'⟩
          rw [hflags j, slotsOf_zero, wantedAt_free]
        · obtain ⟨object, hobject⟩ := hpresent p List.mem_cons_self h0
          have hocc : (slotsOf pool (p :: ps)).occupied = (slotsOf pool ps).occupied + 1 := by
            rw [slotsOf_cons h0 hobject, Slots.occupied, List.countP_cons]
            rfl
          rw [if_neg h0, hobject]
          simp only
          by_cases hw : processId = none ∨ processId = some object.unit.ownerProcessId
          · rw [if_pos hw]
            have hbyte : k / 8 < bitmap.length := by
              rw [hlen]
              omega
            have hsucc : (count + 1).toNat = count.toNat + 1 := by
              have hlt := UInt32.lt_iff_toNat_lt.mp hmore
              have hmax := total.toNat_lt
              have hone : (1 : UInt32).toNat = 1 := rfl
              rw [UInt32.toNat_add, hone]
              omega
            obtain ⟨bitmap', count', hscan, hlen', hflags, hleft, hcount'⟩ :=
              ih hrest hk' (show (setFlag bitmap k).length = sizeofBitmap from
                length_setFlag.trans hlen)
                (show (count + 1).toNat + _ ≤ total.toNat by rw [hsucc]; omega)
            have hused : UsedBy processId ⟨p, object.unit.storageUnitParams.guid,
                object.unit.ownerProcessId⟩ := hw
            refine ⟨bitmap', count', hscan, hlen', fun j => ?_, fun n m => ?_, ?_⟩
            · rw [hflags j, slotsOf_cons h0 hobject, wantedAt_cons, flagOn_setFlag hbyte,
                Bool.or_eq_true, decide_eq_true_eq, and_iff_left hused, ← or_assoc,
                or_comm (a := j = k), eq_comm (a := j)]
            · have hle := hleft n m
              have hone : flagsFrom (setFlag bitmap k) n m ≤ flagsFrom bitmap n m + 1 :=
                flagsFrom_setFlag_le hbyte
              omega
            · rw [hcount', hsucc, slotsOf_cons h0 hobject, wantedSlots_cons, if_pos hused]
              omega
          · rw [if_neg hw]
            obtain ⟨bitmap', count', hscan, hlen', hflags, hleft, hcount'⟩ :=
              ih hrest hk' hlen (show count.toNat + _ ≤ total.toNat by omega)
            have hunused : ¬ UsedBy processId ⟨p, object.unit.storageUnitParams.guid,
              object.unit.ownerProcessId⟩ := hw
            refine ⟨bitmap', count', hscan, hlen', fun j => ?_, hleft, ?_⟩
            · rw [hflags j, slotsOf_cons h0 hobject, wantedAt_cons]
              exact or_congr_right (or_iff_right fun h => hunused h.2).symm
            · rw [hcount', slotsOf_cons h0 hobject, wantedSlots_cons, if_neg hunused, Nat.add_zero]
      · -- all units have been counted
        rw [if_neg hmore]
        rw [gt_iff_lt, UInt32.lt_iff_toNat_lt] at hmore
        have hnone : (slotsOf pool (p :: ps)).occupied = 0 := by omega
        have hwanted : wantedSlots processId (slotsOf pool (p :: ps)) ≤ _ := wantedSlots_le
        refine ⟨bitmap, count, rfl, hlen, fun j => ?_, fun n m => Nat.le_refl _, by omega⟩
        exact (or_iff_left (not_wantedAt_of_empty hnone)).symm

/-- The snapshot: the slots of the process, and a count that covers them. -/
theorem spdStorageUnitGetUseBitmap_spec (hinv : RegistryInv dx held)
    (processId : Option UInt32) :
    ∃ bitmap count, spdStorageUnitGetUseBitmap dx processId = some (bitmap, count) ∧
      bitmap.length = sizeofBitmap ∧
      (∀ j, flagOn bitmap j = true ↔ ∃ e, (table dx).content j = some e ∧
        UsedBy processId e) ∧
      (∀ n m, flagsFrom bitmap n m ≤ count.toNat) ∧
      count.toNat = wantedSlots processId (table dx) := by
  have hzero : (0 : UInt32).toNat = 0 := rfl
  have hocc := hinv.count
  have hlen := hinv.length
  have hcap := hinv.capacity
  obtain ⟨bitmap, count, hscan, hlength, hflags, hleft, hwanted⟩ :=
    @useBitmapScan_spec dx.pool processId dx.storageUnitCount 0 dx.storageUnits 0
      (List.replicate sizeofBitmap 0) (fun p hp hne => hinv.exists_object hne hp)
      (show 0 + dx.storageUnits.length ≤ sizeofBitmap * 8 by rw [sizeofBitmap]; omega)
      List.length_replicate (show (0 : UInt32).toNat + (table dx).occupied ≤ _ by omega)
  refine ⟨bitmap, count, hscan, hlength, fun j => ?_, fun n m => ?_, ?_⟩
  · rw [hflags j, flagOn_replicate]
    constructor
    · rintro (h | ⟨i, e, hj, hi, hw⟩)
      · cases h
      · rw [Nat.zero_add] at hj
        exact ⟨e, by rw [hj]; exact hi, hw⟩
    · rintro ⟨e, he, hw⟩
      exact .inr ⟨j, e, (Nat.zero_add j).symm, he, hw⟩
  · have hle := hleft n m
    rw [flagsFrom_replicate] at hle
    omega
  · rw [hwanted, hzero, Nat.zero_add]
    rfl

/-! ## The system -/

/-- The reference the routine holds, to a unit it took out. -/
def notifyHeld : NotifyRoutine → List Addr
  | .release p _ _ _ => [p]
  | _ => []

/-- The registry, the references all others hold, and the routine. -/
structure NotifySys where
  dx : SpdDeviceExtension
  held : List Addr
  routine : NotifyRoutine

def NotifySys.registry (s : NotifySys) : RegistrySys := ⟨s.dx, s.held ++ notifyHeld s.routine⟩

inductive NotifyEvent
  | other (ev : RegistryEvent)
  | routine

/-- Process `processId` exits: it provisions no more units, and the routine runs
while everybody else goes on. -/
inductive NotifyStep (processId : UInt32) : NotifySys → NotifyEvent → NotifySys → Prop
  | other {s s' : NotifySys} {ev : RegistryEvent}
      (step : RegistryStep s.registry ev s'.registry)
      (routine : s'.routine = s.routine)
      (own : ∀ p, ev.op = .dereference p → p ∈ s.held)
      (exited : ∀ params unitMem ioqMem, ev.op ≠ .provision params processId unitMem ioqMem) :
      NotifyStep processId s (.other ev) s'
  | routine {s s' : NotifySys}
      (exec : spdDeviceExtensionNotifyRoutine s.dx processId s.routine =
        some (s'.dx, s'.routine))
      (held : s'.held = s.held) : NotifyStep processId s .routine s'

/-! ## What is left to do -/

/-- No slot holds a unit of the process but the slots of `P`. -/
def OwnedOnly (t : Registry) (processId : UInt32) (P : Nat → Prop) : Prop :=
  ∀ j e, t.content j = some e → e.ownerProcessId = processId → P j

/-- What the routine still has to do is in its bitmap, and its count does not
let it stop before. -/
def NotifyLeft (t : Registry) (processId : UInt32) : NotifyRoutine → Prop
  | .entered => True
  | .loop bitmap count i | .release _ bitmap count i =>
      flagsFrom bitmap (sizeofBitmap * 8) i ≤ count.toNat ∧
        OwnedOnly t processId fun j => i ≤ j ∧ flagOn bitmap j = true
  | .returned => OwnedOnly t processId fun _ => False

theorem NotifyLeft.mono {routine : NotifyRoutine} (hleft : NotifyLeft t processId routine)
    (h : ∀ j e, t'.content j = some e → e.ownerProcessId = processId → t.content j = some e) :
    NotifyLeft t' processId routine := by
  have howned : ∀ {P : Nat → Prop}, OwnedOnly t processId P → OwnedOnly t' processId P :=
    fun hP j e he ho => hP j e (h j e he ho) ho
  cases routine with
  | entered => trivial
  | loop => exact ⟨hleft.1, howned hleft.2⟩
  | release => exact ⟨hleft.1, howned hleft.2⟩
  | returned => exact howned hleft

/-- A step that is not a provision of the process puts no unit of the process
into a slot. -/
theorem RegistryOp.Spec.owned {op : RegistryOp} {r : RegistryResult} (hspec : op.Spec t r t')
    (hguids : t.GuidsDistinct)
    (hexited : ∀ params unitMem ioqMem, op ≠ .provision params processId unitMem ioqMem) :
    ∀ j e, t'.content j = some e → e.ownerProcessId = processId → t.content j = some e := by
  intro j e he howner
  obtain hbefore | ⟨params, owner, p, mem, hop, -, rfl⟩ := hspec.content hguids he
  · exact hbefore
  · obtain rfl : owner = processId := howner
    exact absurd hop (hexited params (some p) (some mem))

theorem unprovision_index_owned (hguids : t.GuidsDistinct) {index : UInt32} {status : NtStatus}
    {found : Option Entry} (h : t.unprovision (.index index) processId = (t', status, found)) :
    OwnedOnly t' processId fun j => j ≠ index.toNat := by
  intro j e he howner hj
  subst hj
  obtain ⟨hno, heq⟩ | ⟨i, e', hnames, hne, heq⟩ | ⟨i, e', hnames, -, heq⟩ :=
    Registry.unprovision_cases hguids (.index index) processId
  · rw [h, Prod.mk.injEq] at heq
    rw [heq.1] at he
    exact hno _ e ⟨he, rfl⟩
  · rw [h, Prod.mk.injEq] at heq
    rw [heq.1] at he
    obtain ⟨hcontent, rfl⟩ := hnames
    rw [he, Option.some.injEq] at hcontent
    exact hne (by rw [← hcontent, howner])
  · rw [h, Prod.mk.injEq] at heq
    rw [heq.1] at he
    obtain ⟨-, rfl⟩ := hnames
    rw [Slots.content_clear_self] at he
    cases he

/-! ## Runs -/

/-- What every reachable state satisfies while the routine runs. -/
structure NotifyInv (capacity processId : UInt32) (s : NotifySys) : Prop where
  inv : RegistryInv s.dx s.registry.held
  length : s.dx.storageUnits.length = capacity.toNat
  left : NotifyLeft (table s.dx) processId s.routine

/-- The unit in one slot, which was the process's, has been taken out. -/
def TakenOut (processId : UInt32) (dx dx' : SpdDeviceExtension) : Prop :=
  ∃ i p object, InSlot dx i p object ∧ object.unit.ownerProcessId = processId ∧
    dx'.storageUnits = dx.storageUnits.set i 0 ∧
    dx'.storageUnitCount.toNat + 1 = dx.storageUnitCount.toNat

structure NotifyAgree (capacity processId : UInt32) (s s' : NotifySys) : Prop where
  exec : spdDeviceExtensionNotifyRoutine s.dx processId s.routine = some (s'.dx, s'.routine)
  held : s'.held = s.held
  inv : NotifyInv capacity processId s'
  effect : TakenOut processId s.dx s'.dx ∨
    s'.dx.storageUnits = s.dx.storageUnits ∧ s'.dx.storageUnitCount = s.dx.storageUnitCount

variable {s s' : NotifySys} {ev : NotifyEvent} {ls : List NotifyEvent}

/-- The first flag on is met, and a flag that is off holds no unit. -/
theorem notifyLeft_skip {bitmap : List UInt8} {count : UInt32}
    (hleft : NotifyLeft t processId (.loop bitmap count i)) (hi : sizeofBitmap * 8 > i)
    (hoff : flagOn bitmap i = false) : NotifyLeft t processId (.loop bitmap count (i + 1)) := by
  obtain ⟨hcount, howned⟩ := hleft
  rw [flagsFrom_succ hi, hoff] at hcount
  refine ⟨by simpa using hcount, fun j e he ho => ?_⟩
  obtain ⟨hij, hflag⟩ := howned j e he ho
  have hne : i ≠ j := by
    rintro rfl
    rw [hoff] at hflag
    cases hflag
  exact ⟨by omega, hflag⟩

theorem notifyLeft_returned {bitmap : List UInt8} {count : UInt32} (hlength : t.length ≤ 256)
    (hleft : NotifyLeft t processId (.loop bitmap count i))
    (hend : ¬ (0 < count ∧ sizeofBitmap * 8 > i)) : NotifyLeft t processId .returned := by
  obtain ⟨hcount, howned⟩ := hleft
  intro j e he ho
  obtain ⟨hij, hflag⟩ := howned j e he ho
  have hj : j < sizeofBitmap * 8 := (Slots.lt_length_of_content he).trans_le hlength
  have hpos := flagsFrom_pos hij hj hflag
  refine hend ⟨?_, hij.trans_lt hj⟩
  rw [UInt32.lt_iff_toNat_lt]
  exact hpos.trans_le hcount

/-- The unit of the flag that was met is no longer the process's. -/
theorem notifyLeft_take {bitmap : List UInt8} {count : UInt32} {status : NtStatus}
    {found : Option Entry} (hguids : t.GuidsDistinct)
    (hleft : NotifyLeft t processId (.loop bitmap count i)) (hcount : 0 < count)
    (hi : sizeofBitmap * 8 > i) (hon : flagOn bitmap i = true)
    (h : t.unprovision (.index (UInt32.ofNat i)) processId = (t', status, found)) :
    NotifyLeft t' processId (.loop bitmap (count - 1) (i + 1)) := by
  obtain ⟨hflags, howned⟩ := hleft
  rw [flagsFrom_succ hi, hon, if_pos rfl] at hflags
  have hindex : (UInt32.ofNat i).toNat = i := by
    rw [sizeofBitmap] at hi
    rw [UInt32.toNat_ofNat']
    omega
  have hpred : (count - 1).toNat = count.toNat - 1 := by
    have hone : (1 : UInt32).toNat = 1 := rfl
    rw [UInt32.lt_iff_toNat_lt] at hcount
    have hzero : (0 : UInt32).toNat = 0 := rfl
    exact UInt32.toNat_sub_of_le _ _ (by rw [UInt32.le_iff_toNat_le]; omega)
  refine ⟨by omega, fun j e he ho => ?_⟩
  have hne := unprovision_index_owned hguids h j e he ho
  rw [hindex] at hne
  have hspec : RegistryOp.Spec t ⟨status, -1, found.map Entry.addr⟩ t'
      (.unprovision (.index (UInt32.ofNat i)) processId) := ⟨found, h, rfl⟩
  obtain ⟨hij, hflag⟩ :=
    howned j e (hspec.owned hguids (fun _ _ _ h => by cases h) j e he ho) ho
  exact ⟨by omega, hflag⟩

/-- An unprovision takes out a unit of the process or leaves the array alone. -/
theorem takenOut_or {key : UnitKey} {r : RegistryResult} (hinv : RegistryInv dx held)
    (hexec : RegistryOp.exec dx (.unprovision key processId) = some (dx', r)) :
    TakenOut processId dx dx' ∨
      dx'.storageUnits = dx.storageUnits ∧ dx'.storageUnitCount = dx.storageUnitCount := by
  have hok := unprovisionOk hinv hexec
  by_cases howned : ∃ j p object, Named dx key j p object ∧
      object.unit.ownerProcessId = processId
  · obtain ⟨j, p, object, hnamed, howner⟩ := howned
    obtain ⟨-, hunits, hcount⟩ := hok.owned j p object hnamed howner
    exact .inl ⟨j, p, object, hnamed.1, howner, hunits, hcount⟩
  · obtain ⟨-, rfl⟩ := hok.otherwise fun j p object hnamed howner =>
      howned ⟨j, p, object, hnamed, howner⟩
    exact .inr ⟨rfl, rfl⟩

theorem NotifyInv.routine (hinv : NotifyInv capacity processId s)
    (hreturned : s.routine ≠ .returned) :
    ∃ s', NotifyAgree capacity processId s s' := by
  obtain ⟨dx, held, routine⟩ := s
  obtain ⟨hinv, hlength, hleft⟩ := hinv
  simp only at hinv hlength hleft hreturned
  cases routine with
  | returned => exact absurd rfl hreturned
  | entered =>
      obtain ⟨bitmap, count, hsnapshot, -, hflags, hcount, -⟩ :=
        spdStorageUnitGetUseBitmap_spec hinv (some processId)
      refine ⟨⟨dx, held, .loop bitmap count 0⟩, ?_, rfl, ⟨hinv, hlength, ?_⟩,
        .inr ⟨rfl, rfl⟩⟩
      · simp only [spdDeviceExtensionNotifyRoutine, hsnapshot, Option.map_some]
      · refine ⟨hcount _ _, fun j e he ho =>
          ⟨Nat.zero_le j, (hflags j).mpr ⟨e, he, .inr ?_⟩⟩⟩
        rw [ho]
  | loop bitmap count i =>
      have hlen256 : (table dx).length ≤ 256 := by
        have hcap := hinv.capacity
        rw [table_length, hinv.length]
        exact hcap
      by_cases hgo : 0 < count ∧ sizeofBitmap * 8 > i
      · cases hon : flagOn bitmap i with
        | false =>
            refine ⟨⟨dx, held, .loop bitmap count (i + 1)⟩, ?_, rfl,
              ⟨hinv, hlength, notifyLeft_skip hleft hgo.2 hon⟩, .inr ⟨rfl, rfl⟩⟩
            simp only [spdDeviceExtensionNotifyRoutine, if_pos hgo, hon, Bool.false_eq_true,
              if_false]
        | true =>
            have hinv₀ : RegistryInv dx held := by
              have hheld : (NotifySys.registry ⟨dx, held, .loop bitmap count i⟩).held = held :=
                List.append_nil held
              rwa [hheld] at hinv
            obtain ⟨t, status, found, dx', calls, hspec, hexec, rfl, hinv', hfailed, hdone⟩ :=
              spdStorageUnitUnprovision_agree hinv₀ (.index (UInt32.ofNat i)) processId
            have hleft' := notifyLeft_take hinv.guids hleft hgo.1 hgo.2 hon hspec
            have hop : RegistryOp.exec dx (.unprovision (.index (UInt32.ofNat i)) processId) =
                some (dx', ⟨status, -1, found.map Entry.addr⟩) := by
              simp only [RegistryOp.exec, hexec, Option.map_some]
            have heffect := takenOut_or hinv₀ hop
            have hlength' : dx'.storageUnits.length = capacity.toNat := by
              rcases heffect with ⟨j, p, object, -, -, hunits, -⟩ | ⟨hunits, -⟩
              · rw [hunits, List.length_set, hlength]
              · rw [hunits, hlength]
            cases found with
            | none =>
                refine ⟨⟨dx', held, .loop bitmap (count - 1) (i + 1)⟩, ?_, rfl,
                  ⟨hinv'.perm (by simp [NotifySys.registry, notifyHeld]), hlength', hleft'⟩,
                  heffect⟩
                simp only [spdDeviceExtensionNotifyRoutine, if_pos hgo, hon, if_true, hexec,
                  Option.bind_eq_bind, Option.bind_some, Option.map_none]
            | some e =>
                refine ⟨⟨dx', held, .release e.addr bitmap (count - 1) (i + 1)⟩, ?_, rfl,
                  ⟨hinv'.perm List.perm_append_comm, hlength', hleft'⟩, heffect⟩
                simp only [spdDeviceExtensionNotifyRoutine, if_pos hgo, hon, if_true, hexec,
                  Option.bind_eq_bind, Option.bind_some, Option.map_some]
      · refine ⟨⟨dx, held, .returned⟩, ?_, rfl,
          ⟨hinv, hlength, notifyLeft_returned hlen256 hleft hgo⟩,
          .inr ⟨rfl, rfl⟩⟩
        simp only [spdDeviceExtensionNotifyRoutine, if_neg hgo]
  | release p bitmap count i =>
      have hp : p ∈ held ++ [p] := List.mem_append_right _ (List.mem_singleton_self p)
      obtain ⟨dx', calls, hexec, hframe, htable, hinv'⟩ :=
        spdStorageUnitDereference_agree hinv hp
      have hperm : (held ++ []).Perm ((held ++ [p]).erase p) := by
        have herase := (List.perm_append_singleton p held).symm.erase p
        rw [List.erase_cons_head] at herase
        rwa [List.append_nil]
      refine ⟨⟨dx', held, .loop bitmap count i⟩, ?_, rfl,
        ⟨hinv'.perm hperm, by rw [hframe]; exact hlength, ?_⟩, .inr ?_⟩
      · simp only [spdDeviceExtensionNotifyRoutine, hexec, Option.map_some]
      · rw [htable]
        exact hleft
      · rw [hframe]
        exact ⟨rfl, rfl⟩

theorem NotifyInv.step (hinv : NotifyInv capacity processId s) (h : NotifyStep processId s ev s') :
    NotifyInv capacity processId s' := by
  cases h with
  | other step routine own exited =>
      obtain ⟨hinv', hspec, hlength, -⟩ := hinv.inv.step step
      refine ⟨hinv', hlength.trans hinv.length, ?_⟩
      rw [routine]
      exact hinv.left.mono (hspec.owned hinv.inv.guids exited)
  | routine exec held =>
      have hreturned : s.routine ≠ .returned := by
        intro hreturned
        rw [hreturned] at exec
        cases exec
      obtain ⟨s₁, hagree⟩ := hinv.routine hreturned
      have heq := hagree.exec
      rw [exec, Option.some.injEq, Prod.mk.injEq] at heq
      obtain rfl : s₁ = s' := by
        obtain ⟨dx₁, held₁, routine₁⟩ := s₁
        obtain ⟨dx', held', routine'⟩ := s'
        have hheld := hagree.held
        simp only at heq held hheld
        rw [heq.1, heq.2, held, hheld]
      exact hagree.inv

/-- The steps the routine has still to make, at most. -/
def notifyFuel : NotifyRoutine → Nat
  | .entered => 2 * (sizeofBitmap * 8) + 2
  | .loop _ _ i => 2 * (sizeofBitmap * 8 - i) + 1
  | .release _ _ _ i => 2 * (sizeofBitmap * 8 - i) + 2
  | .returned => 0

theorem spdDeviceExtensionNotifyRoutine_fuel {routine routine' : NotifyRoutine}
    (h : spdDeviceExtensionNotifyRoutine dx processId routine = some (dx', routine')) :
    notifyFuel routine' < notifyFuel routine := by
  cases routine with
  | entered =>
      simp only [spdDeviceExtensionNotifyRoutine, Option.map_eq_some_iff, Prod.mk.injEq] at h
      obtain ⟨r, -, -, rfl⟩ := h
      exact Nat.lt_succ_self _
  | loop bitmap count i =>
      simp only [spdDeviceExtensionNotifyRoutine] at h
      split at h
      · next hgo =>
          have hi := hgo.2
          split at h
          · simp only [Option.bind_eq_bind, Option.bind_eq_some_iff] at h
            obtain ⟨⟨dx₁, status, unit, calls⟩, -, h⟩ := h
            cases unit with
            | none =>
                cases h
                show 2 * (sizeofBitmap * 8 - (i + 1)) + 1 < 2 * (sizeofBitmap * 8 - i) + 1
                omega
            | some p =>
                cases h
                show 2 * (sizeofBitmap * 8 - (i + 1)) + 2 < 2 * (sizeofBitmap * 8 - i) + 1
                omega
          · cases h
            show 2 * (sizeofBitmap * 8 - (i + 1)) + 1 < 2 * (sizeofBitmap * 8 - i) + 1
            omega
      · cases h
        exact Nat.succ_pos _
  | release p bitmap count i =>
      simp only [spdDeviceExtensionNotifyRoutine, Option.map_eq_some_iff, Prod.mk.injEq] at h
      obtain ⟨r, -, -, rfl⟩ := h
      exact Nat.lt_succ_self _
  | returned => cases h

theorem notifyRun_steps {s₀ : NotifySys} (hrun : Run (NotifyStep processId) s₀ ls s) :
    (ls.filter fun ev => ev matches .routine).length + notifyFuel s.routine ≤
      notifyFuel s₀.routine := by
  induction hrun with
  | nil => exact Nat.le_of_eq (Nat.zero_add _)
  | snoc _ h ih =>
      rw [List.filter_append, List.length_append]
      cases h with
      | other step routine own exited =>
          rw [routine]
          exact ih
      | routine exec held =>
          have hlt := spdDeviceExtensionNotifyRoutine_fuel exec
          show _ + 1 + _ ≤ _
          omega

/-- What the exit of a process promises. -/
structure ExitPromise (capacity processId : UInt32) (s : NotifySys) : Prop where
  /-- The count is the number of occupied slots, at any time. -/
  ok : RegistryOk capacity s.dx
  /-- When the routine returns no slot holds a unit of the process. -/
  returned : s.routine = .returned → ∀ i p object, InSlot s.dx i p object →
    object.unit.ownerProcessId ≠ processId
  /-- The routine takes out units of the process only. -/
  takes : ∀ s', NotifyStep processId s .routine s' → TakenOut processId s.dx s'.dx ∨
    s'.dx.storageUnits = s.dx.storageUnits ∧ s'.dx.storageUnitCount = s.dx.storageUnitCount
  /-- It is never stuck before it returns. -/
  runs : s.routine ≠ .returned → ∃ s', NotifyStep processId s .routine s'

theorem NotifyInv.promise (hinv : NotifyInv capacity processId s) :
    ExitPromise capacity processId s where
  ok := hinv.inv.ok hinv.length
  returned hreturned i p object hin howner := by
    have hleft := hinv.left
    rw [hreturned] at hleft
    exact hleft i _ (content_iff_inSlot.mpr ⟨p, object, hin, rfl⟩) howner
  takes s' h := by
    cases h with
    | routine exec held =>
        have hreturned : s.routine ≠ .returned := by
          intro hreturned
          rw [hreturned] at exec
          cases exec
        obtain ⟨s₁, hagree⟩ := hinv.routine hreturned
        have heq := hagree.exec
        rw [exec, Option.some.injEq, Prod.mk.injEq] at heq
        rw [heq.1]
        exact hagree.effect
  runs hreturned := by
    obtain ⟨s', hagree⟩ := hinv.routine hreturned
    exact ⟨s', .routine hagree.exec hagree.held⟩

/-- A process exits in any reachable state of the registry, and its units are
taken out, whatever the others do meanwhile. -/
theorem spdDeviceExtensionNotifyRoutine_exit (hcap : capacity.toNat ≤ 256)
    {ls₀ : List RegistryEvent} {s₀ : RegistrySys}
    (hrun₀ : Run RegistryStep (.init capacity) ls₀ s₀)
    (hrun : Run (NotifyStep processId) ⟨s₀.dx, s₀.held, .entered⟩ ls s) :
    ExitPromise capacity processId s ∧
      (ls.filter fun ev => ev matches .routine).length ≤ notifyFuel .entered := by
  obtain ⟨hinv₀, hlength₀⟩ := registryRun_inv hcap hrun₀
  constructor
  · refine NotifyInv.promise (hrun.inv ⟨?_, hlength₀, trivial⟩ fun hinv h => hinv.step h)
    exact hinv₀.perm (List.Perm.of_eq (List.append_nil _))
  · have hsteps := notifyRun_steps hrun
    exact (Nat.le_add_right _ _).trans hsteps

/-- A process that has provisioned one unit exits, and nothing else happens. -/
theorem spdDeviceExtensionNotifyRoutine_exit_alone :
    ∃ ev s₀ s, Run RegistryStep (.init (spdStorageUnitCapacity none)) [ev] s₀ ∧
      ev.result = ⟨.success, 0, none⟩ ∧
      Run (NotifyStep 7) ⟨s₀.dx, s₀.held, .entered⟩
        [.routine, .routine, .routine, .routine] s ∧
      s.routine = .returned ∧ ExitPromise (spdStorageUnitCapacity none) 7 s := by
  obtain ⟨dx, r₁, r₂, r₃, r₄, hexec, h₁, h₂, h₃, h₄, hreturned⟩ :
      ∃ dx r₁ r₂ r₃ r₄,
      RegistryOp.exec (RegistrySys.init (spdStorageUnitCapacity none)).dx
        (.provision sampleUnit 7 (some 0x5000) (some zeroedIoq)) =
          some (dx, ⟨.success, 0, none⟩) ∧
      spdDeviceExtensionNotifyRoutine dx 7 .entered = some r₁ ∧
      spdDeviceExtensionNotifyRoutine r₁.1 7 r₁.2 = some r₂ ∧
      spdDeviceExtensionNotifyRoutine r₂.1 7 r₂.2 = some r₃ ∧
      spdDeviceExtensionNotifyRoutine r₃.1 7 r₃.2 = some r₄ ∧ r₄.2 = .returned :=
    ⟨_, _, _, _, _, rfl, rfl, rfl, rfl, rfl, rfl⟩
  have hstep : RegistryStep (.init (spdStorageUnitCapacity none))
      ⟨.provision sampleUnit 7 (some 0x5000) (some zeroedIoq), ⟨.success, 0, none⟩⟩
        ⟨dx, []⟩ := by
    refine ⟨fun p hp => ?_, hexec, rfl⟩
    cases hp
    exact ⟨by decide, rfl⟩
  have hroutine : ∀ {dx routine} {r : SpdDeviceExtension × NotifyRoutine},
      spdDeviceExtensionNotifyRoutine dx 7 routine = some r →
      NotifyStep 7 ⟨dx, [], routine⟩ .routine ⟨r.1, [], r.2⟩ := fun h => .routine h rfl
  have hrun := Run.cons (hroutine h₁) (.cons (hroutine h₂) (.cons (hroutine h₃)
    (.single (hroutine h₄))))
  exact ⟨_, _, _, .single hstep, rfl, hrun, hreturned,
    (spdDeviceExtensionNotifyRoutine_exit (spdStorageUnitCapacity_le none) (.single hstep)
      hrun).1⟩

end Winspd.Proofs
