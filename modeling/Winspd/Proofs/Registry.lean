import Mathlib.Data.List.NodupEquivFin
import Winspd.Proofs.IoqRefine
import Winspd.Spec.Registry
import Winspd.Sys.Ioctl

/-!
# The array of storage units is a registry

`SpdDeviceExtension.table` reads the array, and the units its pointers lead to,
as the table of `Spec.Registry`. `RegistryInv` is what makes that reading
faithful: the pointers are good, because every unit has as many references as
the array and the callers hold, and the count is the number of occupied slots.

Each function then does to the table what its specification does, or nothing
at all. The provision loop looks for the first hole and for a duplicate in one
pass; `provisionScan_eq` takes the two searches apart.

The refinement is per function and says both what is returned and what the table is
afterwards. What a caller may rely on is in the hypotheses: a new unit is at an
address at which there is none, and a unit that is dereferenced is one the caller
has a reference to.
-/

namespace Winspd.Proofs

open Winspd.Lib Winspd.Sys Winspd.Spec

/-! ## BTLs -/

theorem toNat_spdBtlFromIndex {i : Nat} (h : i < 256) :
    (spdBtlFromIndex (UInt32.ofNat i)).toNat = i * 256 := by
  have hi : (UInt32.ofNat i).toNat = i := by
    rw [UInt32.toNat_ofNat']
    omega
  simp only [spdBtlFromIndex, spdIoctlBtl, UInt32.toNat_or, UInt32.toNat_shiftLeft, hi]
  simp
  omega

theorem spdBtlFromIndex_ne {i : Nat} (h : i < 256) : spdBtlFromIndex (UInt32.ofNat i) ≠ -1 := by
  intro heq
  have hnat := toNat_spdBtlFromIndex h
  rw [heq] at hnat
  have hmax : (-1 : UInt32).toNat = 4294967295 := rfl
  omega

theorem toNat_and_ff (x : UInt32) : (x &&& 0xff).toNat = x.toNat % 256 := by
  rw [UInt32.toNat_and]
  exact Nat.and_two_pow_sub_one_eq_mod x.toNat 8

theorem spdIoctlBtlT_spdBtlFromIndex {i : Nat} (h : i < 256) :
    (spdIoctlBtlT (spdBtlFromIndex (UInt32.ofNat i))).toNat = i := by
  rw [spdIoctlBtlT, toNat_and_ff, UInt32.toNat_shiftRight, toNat_spdBtlFromIndex h,
    Nat.shiftRight_eq_div_pow]
  show i * 256 / 256 % 256 = i
  omega

theorem spdIoctlBtlB_spdBtlFromIndex {i : Nat} (h : i < 256) :
    spdIoctlBtlB (spdBtlFromIndex (UInt32.ofNat i)) = 0 := by
  rw [← UInt32.toNat_inj, spdIoctlBtlB, toNat_and_ff, UInt32.toNat_shiftRight,
    toNat_spdBtlFromIndex h, Nat.shiftRight_eq_div_pow]
  show i * 256 / 65536 % 256 = 0
  omega

theorem spdIoctlBtlL_spdBtlFromIndex {i : Nat} (h : i < 256) :
    spdIoctlBtlL (spdBtlFromIndex (UInt32.ofNat i)) = 0 := by
  rw [← UInt32.toNat_inj, spdIoctlBtlL, toNat_and_ff, toNat_spdBtlFromIndex h]
  show i * 256 % 256 = 0
  omega

/-! ## The table -/

/-- What the registry sees of the unit at `p`. -/
def poolEntry (pool : Addr → Option UnitObject) (p : Addr) : Option Entry :=
  if p = 0 then none
  else (pool p).map fun object =>
    ⟨p, object.unit.storageUnitParams.guid, object.unit.ownerProcessId⟩

def slotsOf (pool : Addr → Option UnitObject) (ps : List Addr) : Registry :=
  ps.map (poolEntry pool)

def table (dx : SpdDeviceExtension) : Registry := slotsOf dx.pool dx.storageUnits

/-- The references to the unit at `p`: the array's, and those that are held. -/
def refs (dx : SpdDeviceExtension) (held : List Addr) (p : Addr) : Nat :=
  dx.storageUnits.count p + held.count p

/-- A unit is as it should be when it has `n` references. -/
structure UnitReferenced (object : UnitObject) (n : Nat) : Prop where
  pos : 0 < n
  refCount : object.unit.refCount.toNat = n
  queue : ∃ q, Refines object.ioq q

/-- The device extension, while its callers hold references to the units of
`held`. -/
structure RegistryInv (dx : SpdDeviceExtension) (held : List Addr) : Prop where
  length : dx.storageUnits.length = dx.storageUnitCapacity.toNat
  capacity : dx.storageUnitCapacity.toNat ≤ 256
  count : dx.storageUnitCount.toNat = (table dx).occupied
  guids : Registry.GuidsDistinct (table dx)
  null : dx.pool 0 = none
  held_ne : 0 ∉ held
  present : ∀ p, p ≠ 0 → 0 < refs dx held p → ∃ object, dx.pool p = some object
  objects : ∀ p object, dx.pool p = some object → UnitReferenced object (refs dx held p)

variable {dx dx' : SpdDeviceExtension} {held held' : List Addr} {p x : Addr} {i : Nat} {e : Entry}
  {object object' : UnitObject} {pool pool' : Addr → Option UnitObject}

theorem poolEntry_eq_some : poolEntry pool p = some e ↔
    p ≠ 0 ∧ ∃ object, pool p = some object ∧
    e = ⟨p, object.unit.storageUnitParams.guid, object.unit.ownerProcessId⟩ := by
  unfold poolEntry
  split
  · next h => simp [h]
  · next h => simp [h, eq_comm]

theorem poolEntry_zero : poolEntry pool 0 = none := if_pos rfl

theorem poolEntry_congr (h : pool' p = pool p) : poolEntry pool' p = poolEntry pool p := by
  rw [poolEntry, poolEntry, h]

theorem table_length : (table dx).length = dx.storageUnits.length := List.length_map _

theorem table_getElem? : (table dx)[i]? = dx.storageUnits[i]?.map (poolEntry dx.pool) :=
  List.getElem?_map

theorem content_table :
    (table dx).content i = some e ↔ ∃ p object, dx.storageUnits[i]? = some p ∧
    p ≠ 0 ∧ dx.pool p = some object ∧
    e = ⟨p, object.unit.storageUnitParams.guid, object.unit.ownerProcessId⟩ := by
  rw [Slots.content_eq_some, table_getElem?, Option.map_eq_some_iff]
  simp only [poolEntry_eq_some]
  constructor
  · rintro ⟨p, hp, hne, object, hobject, rfl⟩
    exact ⟨p, object, hp, hne, hobject, rfl⟩
  · rintro ⟨p, object, hp, hne, hobject, rfl⟩
    exact ⟨p, hp, hne, object, hobject, rfl⟩

theorem table_congr (hunits : dx'.storageUnits = dx.storageUnits)
    (h : ∀ p ∈ dx.storageUnits, poolEntry dx'.pool p = poolEntry dx.pool p) :
    table dx' = table dx := by
  rw [table, table, slotsOf, slotsOf, hunits]
  exact List.map_congr_left h

theorem RegistryInv.exists_object (hinv : RegistryInv dx held) (hne : p ≠ 0)
    (h : p ∈ dx.storageUnits) : ∃ object, dx.pool p = some object :=
  hinv.present p hne (Nat.lt_of_lt_of_le (List.count_pos_iff.mpr h) (Nat.le_add_right _ _))

theorem RegistryInv.object_of_held (hinv : RegistryInv dx held) (h : p ∈ held) :
    ∃ object, dx.pool p = some object := by
  refine hinv.present p (fun h0 => hinv.held_ne (h0 ▸ h)) ?_
  exact Nat.lt_of_lt_of_le (List.count_pos_iff.mpr h) (Nat.le_add_left _ _)

theorem RegistryInv.ne_of_object (hinv : RegistryInv dx held) (h : dx.pool p = some object) :
    p ≠ 0 := by
  rintro rfl
  rw [hinv.null] at h
  cases h

theorem RegistryInv.perm (hinv : RegistryInv dx held) (hperm : held'.Perm held) :
    RegistryInv dx held' := by
  have hrefs : refs dx held' = refs dx held := funext fun p =>
    congrArg (dx.storageUnits.count p + ·) (hperm.count_eq p)
  refine ⟨hinv.length, hinv.capacity, hinv.count, hinv.guids, hinv.null,
    fun h => hinv.held_ne (hperm.mem_iff.mp h), ?_, ?_⟩
  · rw [hrefs]
    exact hinv.present
  · rw [hrefs]
    exact hinv.objects

theorem RegistryInv.free_iff (hinv : RegistryInv dx held) :
    (table dx)[i]? = some none ↔ dx.storageUnits[i]? = some 0 := by
  rw [table_getElem?, Option.map_eq_some_iff]
  constructor
  · rintro ⟨p, hp, hnone⟩
    by_cases h0 : p = 0
    · rw [hp, h0]
    · obtain ⟨object, hobject⟩ := hinv.exists_object h0 (List.mem_of_getElem? hp)
      rw [poolEntry, if_neg h0, hobject] at hnone
      cases hnone
  · intro h
    exact ⟨0, h, poolEntry_zero⟩

/-! ## Searches -/

/-- The BTL the provision loop ends with, if it finds no duplicate. -/
def scanBtl (k : Nat) (btl : UInt32) (t : Registry) : UInt32 :=
  if btl = -1 then
    match t.lowestFree with
    | some j => spdBtlFromIndex (UInt32.ofNat (k + j))
    | none => -1
  else btl

theorem ofNat_add_one (k : Nat) : UInt32.ofNat k + 1 = UInt32.ofNat (k + 1) :=
  (UInt32.ofNat_add k 1).symm

theorem slotsOf_zero {ps : List Addr} : slotsOf pool (0 :: ps) = none :: slotsOf pool ps := rfl

theorem slotsOf_cons {ps : List Addr} (h0 : p ≠ 0) (h : pool p = some object) :
    slotsOf pool (p :: ps) =
      some ⟨p, object.unit.storageUnitParams.guid, object.unit.ownerProcessId⟩ ::
        slotsOf pool ps := by
  rw [slotsOf, List.map_cons, poolEntry, if_neg h0, h]
  rfl

theorem scanBtl_full {t : Registry} (h : t.lowestFree = none) : scanBtl 0 (-1) t = -1 := by
  rw [scanBtl, if_pos rfl, h]

theorem scanBtl_lowest {t : Registry} (h : t.lowestFree = some i) :
    scanBtl 0 (-1) t = spdBtlFromIndex (UInt32.ofNat i) := by
  rw [scanBtl, if_pos rfl, h]
  show spdBtlFromIndex (UInt32.ofNat (0 + i)) = _
  rw [Nat.zero_add]

theorem scanBtl_free {k : Nat} {btl : UInt32} {t : Registry} (hk : k < 256) :
    scanBtl k btl (none :: t) =
      scanBtl (k + 1) (if btl = -1 then spdBtlFromIndex (UInt32.ofNat k) else btl) t := by
  unfold scanBtl
  by_cases h : btl = -1
  · rw [if_pos h, if_pos h, if_neg (spdBtlFromIndex_ne hk), Slots.lowestFree_free]
    rfl
  · rw [if_neg h, if_neg h, if_neg h]

theorem scanBtl_cons {k : Nat} {btl : UInt32} {t : Registry} :
    scanBtl k btl (some e :: t) = scanBtl (k + 1) btl t := by
  unfold scanBtl
  rw [Slots.lowestFree_cons]
  cases t.lowestFree with
  | none => rfl
  | some j =>
      simp only [Option.map_some]
      rw [show k + (j + 1) = k + 1 + j by omega]

theorem provisionScan_eq (guid : Guid) {ps : List Addr} {k : Nat} (btl : UInt32)
    (hpresent : ∀ p ∈ ps, p ≠ 0 → ∃ object, pool p = some object)
    (hk : k + ps.length ≤ 256) :
    (∃ duplicate btl', ((slotsOf pool ps).slotWith fun e => e.guid = guid) ≠ none ∧
        provisionScan pool guid (UInt32.ofNat k) btl ps = some (some duplicate, btl')) ∨
      (((slotsOf pool ps).slotWith fun e => e.guid = guid) = none ∧
        provisionScan pool guid (UInt32.ofNat k) btl ps =
          some (none, scanBtl k btl (slotsOf pool ps))) := by
  induction ps generalizing k btl with
  | nil =>
      refine .inr ⟨rfl, ?_⟩
      unfold provisionScan scanBtl
      split
      · next h => rw [h]; rfl
      · rfl
  | cons p ps ih =>
      rw [List.length_cons] at hk
      have hrest : ∀ p ∈ ps, p ≠ 0 → ∃ object, pool p = some object :=
        fun p hp => hpresent p (List.mem_cons_of_mem _ hp)
      by_cases h0 : p = 0
      · -- a hole: the first one is remembered
        subst h0
        rw [slotsOf_zero, Slots.slotWith_free, scanBtl_free (by omega), provisionScan, if_pos rfl,
          ofNat_add_one]
        simp only [ne_eq, Option.map_eq_none_iff]
        exact ih _ hrest (by omega)
      · obtain ⟨object, hobject⟩ := hpresent p List.mem_cons_self h0
        rw [slotsOf_cons h0 hobject, Slots.slotWith_cons, scanBtl_cons, provisionScan, if_neg h0,
          hobject]
        by_cases hguid : object.unit.storageUnitParams.guid = guid
        · exact .inl ⟨p, btl, by simp [hguid], by simp only [if_pos hguid]⟩
        · rw [if_neg (by simpa using hguid)]
          simp only [if_neg hguid, ne_eq, Option.map_eq_none_iff]
          rw [ofNat_add_one]
          exact ih _ hrest (by omega)

theorem findUnit_eq {P : SpdStorageUnit → Bool} {Q : Entry → Bool} {ps : List Addr} {k : Nat}
    (hpresent : ∀ p ∈ ps, p ≠ 0 → ∃ object, pool p = some object)
    (hPQ : ∀ p object, pool p = some object → P object.unit =
      Q ⟨p, object.unit.storageUnitParams.guid, object.unit.ownerProcessId⟩) :
    findUnit pool P k ps = some (((slotsOf pool ps).slotWith Q).bind fun j =>
      ps[j]?.map fun p => (k + j, p)) := by
  induction ps generalizing k with
  | nil => rfl
  | cons p ps ih =>
      have hrest : ∀ p ∈ ps, p ≠ 0 → ∃ object, pool p = some object :=
        fun p hp => hpresent p (List.mem_cons_of_mem _ hp)
      have hnext : ((((slotsOf pool ps).slotWith Q).map (· + 1)).bind fun j =>
          (p :: ps)[j]?.map fun p => (k + j, p)) =
          ((slotsOf pool ps).slotWith Q).bind fun j => ps[j]?.map fun p => (k + 1 + j, p) := by
        rw [Option.bind_map]
        refine congrArg _ (funext fun j => ?_)
        rw [Function.comp_apply, List.getElem?_cons_succ, show k + (j + 1) = k + 1 + j by omega]
      by_cases h0 : p = 0
      · subst h0
        rw [slotsOf_zero, Slots.slotWith_free, hnext, findUnit, if_pos rfl, ih hrest]
      · obtain ⟨object, hobject⟩ := hpresent p List.mem_cons_self h0
        rw [slotsOf_cons h0 hobject, Slots.slotWith_cons, findUnit, if_neg h0, hobject]
        simp only [hPQ p object hobject]
        split
        · rfl
        · rw [hnext, ih hrest]

theorem findUnit_mem {P : SpdStorageUnit → Bool} {ps : List Addr} {k : Nat}
    (hpresent : ∀ p ∈ ps, p ≠ 0 → ∃ object, pool p = some object) :
    ∃ found, findUnit pool P k ps = some found ∧
      ∀ j p, found = some (j, p) → p ∈ ps ∧ p ≠ 0 := by
  induction ps generalizing k with
  | nil => exact ⟨none, rfl, fun j p h => by cases h⟩
  | cons p ps ih =>
      obtain ⟨found, hfound, hmem⟩ :=
        ih (fun p hp => hpresent p (List.mem_cons_of_mem _ hp)) (k := k + 1)
      have hrest : ∀ j p', found = some (j, p') → p' ∈ p :: ps ∧ p' ≠ 0 :=
        fun j p' h => ⟨List.mem_cons_of_mem _ (hmem j p' h).1, (hmem j p' h).2⟩
      unfold findUnit
      split
      · exact ⟨found, hfound, hrest⟩
      · next h0 =>
          obtain ⟨object, hobject⟩ := hpresent p List.mem_cons_self h0
          simp only [hobject]
          split
          · refine ⟨_, rfl, fun j p' h => ?_⟩
            cases h
            exact ⟨List.mem_cons_self, h0⟩
          · exact ⟨found, hfound, hrest⟩

/-! ## What keeps the array in order -/

theorem count_set {ps : List Addr} {a b : Addr} (h : ps[i]? = some a) (x : Addr) :
    (ps.set i b).count x + (if a = x then 1 else 0) = ps.count x + if b = x then 1 else 0 := by
  obtain ⟨hi, heq⟩ := List.getElem?_eq_some_iff.mp h
  rw [List.count_set hi, heq]
  simp only [beq_iff_eq]
  by_cases hax : a = x
  · have hpos : 0 < ps.count x := List.count_pos_iff.mpr (hax ▸ List.mem_of_getElem? h)
    rw [if_pos hax]
    omega
  · rw [if_neg hax]
    omega

/-- The unit at `p` changes, and so do the references to it. -/
theorem RegistryInv.update {new : Option UnitObject} (hinv : RegistryInv dx held)
    (hobject : dx.pool p = some object)
    (hentry : p ∈ dx.storageUnits → ∃ object', new = some object' ∧
      object'.unit.storageUnitParams.guid = object.unit.storageUnitParams.guid ∧
      object'.unit.ownerProcessId = object.unit.ownerProcessId)
    (hnew : ∀ object', new = some object' → UnitReferenced object' (refs dx held' p))
    (hfreed : new = none → refs dx held' p = 0)
    (hheld : ∀ x, x ≠ p → held'.count x = held.count x) :
    table { dx with pool := Function.update dx.pool p new } = table dx ∧
      RegistryInv { dx with pool := Function.update dx.pool p new } held' := by
  have hp := hinv.ne_of_object hobject
  have htable : table { dx with pool := Function.update dx.pool p new } = table dx := by
    refine table_congr rfl fun x hx => ?_
    show poolEntry (Function.update dx.pool p new) x = poolEntry dx.pool x
    by_cases hxp : x = p
    · subst hxp
      obtain ⟨object', rfl, hguid, howner⟩ := hentry hx
      rw [poolEntry, poolEntry, if_neg hp, if_neg hp, Function.update_self, hobject,
        Option.map_some, Option.map_some, hguid, howner]
    · exact poolEntry_congr (Function.update_of_ne hxp _ _)
  refine ⟨htable, hinv.length, hinv.capacity, ?_, ?_, ?_, ?_, ?_, ?_⟩
  · rw [htable]
    exact hinv.count
  · rw [htable]
    exact hinv.guids
  · exact (Function.update_of_ne hp.symm _ _).trans hinv.null
  · have hzero : held'.count 0 = 0 := (hheld 0 hp.symm).trans (List.count_eq_zero.mpr hinv.held_ne)
    exact List.count_eq_zero.mp hzero
  · intro x hx hpos
    by_cases hxp : x = p
    · subst hxp
      cases new with
      | none => exact absurd (hfreed rfl) (Nat.ne_of_gt hpos)
      | some object' => exact ⟨object', Function.update_self _ _ _⟩
    · obtain ⟨y, hy⟩ := hinv.present x hx (by rwa [refs, ← hheld x hxp])
      exact ⟨y, (Function.update_of_ne hxp _ _).trans hy⟩
  · intro x y hy
    have hy' : Function.update dx.pool p new x = some y := hy
    by_cases hxp : x = p
    · subst hxp
      rw [Function.update_self] at hy'
      exact hnew y hy'
    · rw [Function.update_of_ne hxp] at hy'
      have hold := hinv.objects x y hy'
      rwa [refs, ← hheld x hxp] at hold

/-- The device extension with a new unit in a slot. -/
def fillSlot (dx : SpdDeviceExtension) (i : Nat) (p : Addr) (object : UnitObject) :
    SpdDeviceExtension :=
  { dx with
    storageUnits := dx.storageUnits.set i p
    storageUnitCount := dx.storageUnitCount + 1
    pool := Function.update dx.pool p (some object) }

/-- And with the unit of a slot taken out. -/
def clearSlot (dx : SpdDeviceExtension) (i : Nat) : SpdDeviceExtension :=
  { dx with
    storageUnitCount := dx.storageUnitCount - 1
    storageUnits := dx.storageUnits.set i 0 }

theorem RegistryInv.fill (hinv : RegistryInv dx held) (hp : p ≠ 0) (hfresh : dx.pool p = none)
    (hfree : dx.storageUnits[i]? = some 0) (hnew : UnitReferenced object 1)
    (hguid : ∀ j e, (table dx).content j = some e →
      e.guid ≠ object.unit.storageUnitParams.guid) :
    table (fillSlot dx i p object) = (table dx).fill i
        ⟨p, object.unit.storageUnitParams.guid, object.unit.ownerProcessId⟩ ∧
      RegistryInv (fillSlot dx i p object) held := by
  have hnone : refs dx held p = 0 := by
    by_contra hne
    obtain ⟨y, hy⟩ := hinv.present p hp (Nat.pos_of_ne_zero hne)
    rw [hfresh] at hy
    cases hy
  have hunits : dx.storageUnits.count p = 0 := Nat.eq_zero_of_add_eq_zero_right hnone
  have hentry : poolEntry (Function.update dx.pool p (some object)) p =
      some ⟨p, object.unit.storageUnitParams.guid, object.unit.ownerProcessId⟩ := by
    rw [poolEntry, if_neg hp, Function.update_self]
    rfl
  have hslots : slotsOf (Function.update dx.pool p (some object)) dx.storageUnits = table dx := by
    refine List.map_congr_left fun x hx => poolEntry_congr (Function.update_of_ne ?_ _ _)
    rintro rfl
    exact List.count_eq_zero.mp hunits hx
  have htable : table (fillSlot dx i p object) = (table dx).fill i
      ⟨p, object.unit.storageUnitParams.guid, object.unit.ownerProcessId⟩ := by
    show slotsOf (Function.update dx.pool p (some object)) (dx.storageUnits.set i p) = _
    rw [slotsOf, List.map_set, hentry, ← hslots]
    rfl
  have hrefs : ∀ x, x ≠ 0 → (dx.storageUnits.set i p).count x + held.count x =
      refs dx held x + if p = x then 1 else 0 := by
    intro x hx
    have hset := count_set (b := p) hfree x
    rw [if_neg hx.symm] at hset
    rw [refs]
    omega
  have hlt : i < (table dx).length := by
    rw [table_length]
    exact (List.getElem?_eq_some_iff.mp hfree).1
  refine ⟨htable, ?_, hinv.capacity, ?_, ?_, ?_, hinv.held_ne, ?_, ?_⟩
  · exact (List.length_set ..).trans hinv.length
  · have hle := (Slots.occupied_le_length (t := table dx))
    have hlen := hinv.length
    have hcap := hinv.capacity
    rw [table_length] at hle
    have hcount := hinv.count
    rw [htable, Slots.occupied_fill (hinv.free_iff.mpr hfree), ← hcount]
    show (dx.storageUnitCount + 1).toNat = dx.storageUnitCount.toNat + 1
    rw [UInt32.toNat_add]
    show (dx.storageUnitCount.toNat + 1) % 2 ^ 32 = _
    omega
  · rw [htable]
    exact Slots.KeysDistinct.fill hinv.guids hlt hguid
  · exact (Function.update_of_ne hp.symm _ _).trans hinv.null
  · intro x hx hpos
    by_cases hxp : x = p
    · subst hxp
      exact ⟨object, Function.update_self _ _ _⟩
    · have hpos' : 0 < (dx.storageUnits.set i p).count x + held.count x := hpos
      rw [hrefs x hx, if_neg (Ne.symm hxp)] at hpos'
      obtain ⟨y, hy⟩ := hinv.present x hx hpos'
      exact ⟨y, (Function.update_of_ne hxp _ _).trans hy⟩
  · intro x y hy
    show UnitReferenced y ((dx.storageUnits.set i p).count x + held.count x)
    have hy' : Function.update dx.pool p (some object) x = some y := hy
    by_cases hxp : x = p
    · subst hxp
      rw [Function.update_self, Option.some.injEq] at hy'
      rw [← hy', hrefs x hp, if_pos rfl, hnone]
      exact hnew
    · rw [Function.update_of_ne hxp] at hy'
      rw [hrefs x (hinv.ne_of_object hy'), if_neg (Ne.symm hxp)]
      exact hinv.objects x y hy'

/-- The reference of a slot goes to the caller, and the slot is free. -/
theorem RegistryInv.clear (hinv : RegistryInv dx held) (hp : p ≠ 0)
    (hi : dx.storageUnits[i]? = some p) :
    table (clearSlot dx i) = (table dx).clear i ∧ RegistryInv (clearSlot dx i) (p :: held) := by
  obtain ⟨object, hobject⟩ := hinv.exists_object hp (List.mem_of_getElem? hi)
  have hcontent := content_table.mpr ⟨p, object, hi, hp, hobject, rfl⟩
  have htable : table (clearSlot dx i) = (table dx).clear i := by
    show slotsOf dx.pool (dx.storageUnits.set i 0) = _
    rw [slotsOf, List.map_set, poolEntry_zero]
    rfl
  have hrefs : ∀ x, x ≠ 0 → (dx.storageUnits.set i 0).count x + (p :: held).count x =
      refs dx held x := by
    intro x hx
    have hset := count_set (b := 0) hi x
    rw [if_neg hx.symm] at hset
    rw [refs, List.count_cons]
    simp only [beq_iff_eq]
    omega
  refine ⟨htable, ?_, hinv.capacity, ?_, ?_, hinv.null, ?_, ?_, ?_⟩
  · exact (List.length_set ..).trans hinv.length
  · have hclear := Slots.occupied_clear hcontent
    have hcount := hinv.count
    have hlt := dx.storageUnitCount.toNat_lt
    have hone : (1 : UInt32).toNat = 1 := rfl
    rw [htable]
    show (dx.storageUnitCount - 1).toNat = _
    rw [UInt32.toNat_sub_of_le _ _ (by rw [UInt32.le_iff_toNat_le]; omega)]
    omega
  · rw [htable]
    exact Slots.KeysDistinct.clear hinv.guids
  · rw [List.mem_cons, not_or]
    exact ⟨hp.symm, hinv.held_ne⟩
  · intro x hx hpos
    refine hinv.present x hx ?_
    rw [← hrefs x hx]
    exact hpos
  · intro x y hy
    show UnitReferenced y ((dx.storageUnits.set i 0).count x + (p :: held).count x)
    rw [hrefs x (hinv.ne_of_object hy)]
    exact hinv.objects x y hy

theorem RegistryInv.count_le_one (hinv : RegistryInv dx held) (hp : p ≠ 0) :
    dx.storageUnits.count p ≤ 1 := by
  by_contra hlt
  have hdup : List.Duplicate p dx.storageUnits := List.duplicate_iff_two_le_count.mpr (by omega)
  obtain ⟨i, j, hij, hi, hj⟩ := List.duplicate_iff_exists_distinct_get.mp hdup
  have hi' : dx.storageUnits[i.val]? = some p := List.getElem?_eq_some_iff.mpr ⟨i.isLt, hi.symm⟩
  have hj' : dx.storageUnits[j.val]? = some p := List.getElem?_eq_some_iff.mpr ⟨j.isLt, hj.symm⟩
  obtain ⟨object, hobject⟩ := hinv.exists_object hp (List.mem_of_getElem? hi')
  have heq := hinv.guids _ _ _ _ (content_table.mpr ⟨p, object, hi', hp, hobject, rfl⟩)
    (content_table.mpr ⟨p, object, hj', hp, hobject, rfl⟩) rfl
  have hlt' : i.val < j.val := hij
  omega

/-! ## The functions of stgunit.c -/

variable {params : StorageUnitParams} {processId : UInt32} {mem : SpdIoq}

def btlOf : Option Nat → UInt32
  | none => -1
  | some i => spdBtlFromIndex (UInt32.ofNat i)

theorem spdIoqDelete_create (mem : SpdIoq) :
    ∃ calls, spdIoqDelete (spdIoqCreate mem) = some calls := by
  obtain ⟨ioq, hreset, -⟩ := (spdIoqReset_agree (spdIoqCreate_refines mem) false).exists_some
  exact ⟨_, by rw [spdIoqDelete, hreset]; rfl⟩

def provisioned (dx : SpdDeviceExtension) (p : Addr) (object : UnitObject) :
    Option Nat → SpdDeviceExtension
  | none => dx
  | some i => fillSlot dx i p object

theorem spdStorageUnitProvision_agree (hinv : RegistryInv dx held) (hp : p ≠ 0)
    (hfresh : dx.pool p = none) (params : StorageUnitParams) (processId : UInt32) (mem : SpdIoq) :
    ∃ t status found dx', (table dx).provision ⟨p, params.guid, processId⟩ =
      (t, status, found) ∧
      spdStorageUnitProvision dx params processId (some p) (some mem) =
        some (dx', status, btlOf found) ∧
      dx' = provisioned dx p ⟨newStorageUnit params processId, spdIoqCreate mem⟩ found ∧
      table dx' = t ∧ RegistryInv dx' held := by
  have hpresent : ∀ p ∈ dx.storageUnits, p ≠ 0 → ∃ object, dx.pool p = some object :=
    fun p hmem hne => hinv.exists_object hne hmem
  have hlen : 0 + dx.storageUnits.length ≤ 256 := by
    rw [Nat.zero_add, hinv.length]
    exact hinv.capacity
  obtain ⟨calls, hdelete⟩ := spdIoqDelete_create mem
  have hscan := provisionScan_eq params.guid (-1) hpresent hlen
  rw [show slotsOf dx.pool dx.storageUnits = table dx from rfl,
    show UInt32.ofNat 0 = 0 from rfl] at hscan
  unfold Registry.provision
  rcases hscan with ⟨duplicate, btl, hslot, hscan⟩ | ⟨hslot, hscan⟩
  · obtain ⟨i, hi⟩ := Option.ne_none_iff_exists'.mp hslot
    simp only [hi]
    refine ⟨_, _, _, dx, rfl, ?_, rfl, rfl, hinv⟩
    simp only [spdStorageUnitProvision, hscan, hdelete, Option.bind_eq_bind, Option.bind_some]
    rfl
  · simp only [hslot]
    cases hfree : (table dx).lowestFree with
    | none =>
        refine ⟨_, _, _, dx, rfl, ?_, rfl, rfl, hinv⟩
        simp only [spdStorageUnitProvision, hscan, scanBtl_full hfree, hdelete, Option.bind_eq_bind,
          Option.bind_some, if_true]
        rfl
    | some i =>
        have hbtl := scanBtl_lowest hfree
        have hlt : i < 256 := by
          have h := Slots.lt_length_of_lowestFree hfree
          rw [table_length] at h
          omega
        have hslot0 := hinv.free_iff.mp (Slots.lowestFree_eq_some.mp hfree).1
        have hnew : ∀ j e, (table dx).content j = some e → e.guid ≠ params.guid :=
          fun j e he => by simpa using Slots.slotWith_eq_none.mp hslot j e he
        have hunit : UnitReferenced ⟨newStorageUnit params processId, spdIoqCreate mem⟩ 1 :=
          ⟨Nat.one_pos, rfl, .empty, spdIoqCreate_refines mem⟩
        obtain ⟨htable, hinv'⟩ := hinv.fill hp hfresh hslot0 hunit hnew
        refine ⟨_, _, _, fillSlot dx i p ⟨newStorageUnit params processId, spdIoqCreate mem⟩,
          rfl, ?_, rfl, htable, hinv'⟩
        simp only [spdStorageUnitProvision, hscan, hbtl, if_neg (spdBtlFromIndex_ne hlt),
          Option.bind_eq_bind, Option.bind_some, spdIndexFromBtl,
          spdIoctlBtlT_spdBtlFromIndex hlt]
        rfl

theorem RegistryInv.unitAt (hinv : RegistryInv dx held) (i : Nat) :
    dx.unitAt i = ((table dx).content i).map Entry.addr := by
  unfold SpdDeviceExtension.unitAt
  cases hunit : dx.storageUnits[i]? with
  | none =>
      have hnone : (table dx).content i = none := by
        rw [Slots.content, table_getElem?, hunit]
        rfl
      rw [hnone]
      rfl
  | some p =>
      by_cases h0 : p = 0
      · have hnone : (table dx).content i = none := by
          rw [Slots.content, table_getElem?, hunit, h0]
          rfl
        rw [hnone]
        simp only [if_pos h0]
        rfl
      · obtain ⟨object, hobject⟩ := hinv.exists_object h0 (List.mem_of_getElem? hunit)
        rw [content_table.mpr ⟨p, object, hunit, h0, hobject, rfl⟩]
        simp only [if_neg h0]
        rfl

theorem unprovisionLookup_eq (hinv : RegistryInv dx held) (key : UnitKey) :
    unprovisionLookup dx key = some (((table dx).lookup key).map fun r => (r.1, r.2.addr)) := by
  cases key with
  | index index =>
      rw [unprovisionLookup, hinv.unitAt, Registry.lookup, Option.map_map, Option.map_map]
      rfl
  | guid guid =>
      have hpresent : ∀ p ∈ dx.storageUnits, p ≠ 0 → ∃ object, dx.pool p = some object :=
        fun p hmem hne => hinv.exists_object hne hmem
      rw [unprovisionLookup, Registry.lookup,
        findUnit_eq (Q := fun e => e.guid = guid) hpresent fun p object _ => by
          simp only [eq_comm]]
      rw [show slotsOf dx.pool dx.storageUnits = table dx from rfl]
      cases hslot : (table dx).slotWith fun e => decide (e.guid = guid) with
      | none => rfl
      | some i =>
          obtain ⟨⟨e, he, -⟩, -⟩ := Slots.slotWith_eq_some.mp hslot
          obtain ⟨p, object, hp, -, -, rfl⟩ := content_table.mp he
          simp only [Option.bind_some, he, hp, Option.map_some, Nat.zero_add]

theorem spdStorageUnitUnprovision_agree (hinv : RegistryInv dx held) (key : UnitKey)
    (processId : UInt32) :
    ∃ t status found dx' calls, (table dx).unprovision key processId = (t, status, found) ∧
      spdStorageUnitUnprovision dx key processId =
        some (dx', status, found.map Entry.addr, calls) ∧
      table dx' = t ∧ RegistryInv dx' ((found.map Entry.addr).toList ++ held) ∧
      (status ≠ .success → dx' = dx) ∧
      ∀ i e, (table dx).Names key i e → status = .success →
        dx'.storageUnits = (clearSlot dx i).storageUnits ∧
          dx'.storageUnitCount = (clearSlot dx i).storageUnitCount := by
  have hlookup := unprovisionLookup_eq hinv key
  unfold Registry.unprovision spdStorageUnitUnprovision
  cases hl : (table dx).lookup key with
  | none =>
      rw [hl] at hlookup
      simp only [hlookup, Option.bind_eq_bind, Option.bind_some, Option.map_none]
      exact ⟨_, _, _, dx, [], rfl, rfl, rfl, hinv, fun _ => rfl, fun _ _ _ h => by cases h⟩
  | some r =>
      obtain ⟨i, e⟩ := r
      obtain ⟨hcontent, -⟩ := (Registry.lookup_eq_some hinv.guids).mp hl
      obtain ⟨p, object, hslot, hp, hobject, rfl⟩ := content_table.mp hcontent
      rw [hl] at hlookup
      simp only [hlookup, Option.bind_eq_bind, Option.bind_some, Option.map_some, hobject]
      by_cases howner : processId ≠ object.unit.ownerProcessId
      · simp only [if_pos howner]
        exact ⟨_, _, _, dx, [], rfl, rfl, rfl, hinv, fun _ => rfl, fun _ _ _ h => by cases h⟩
      · simp only [if_neg howner]
        have hunit := hinv.objects p object hobject
        obtain ⟨q, hq⟩ := hunit.queue
        have hagree := spdIoqReset_agree hq true
        obtain ⟨ioq, hreset, hq'⟩ := hagree.exists_some
        simp only [hreset, Option.bind_some]
        obtain ⟨htable, hinv₁⟩ := hinv.update hobject
          (fun _ => ⟨{ object with ioq := ioq }, rfl, rfl, rfl⟩)
          (fun object' h => by
            cases h
            exact ⟨hunit.pos, hunit.refCount, _, hq'⟩)
          (fun h => by cases h) (fun x _ => (rfl : held.count x = held.count x))
        obtain ⟨htable', hinv₂⟩ := hinv₁.clear hp hslot
        refine ⟨_, _, _,
          clearSlot
            { dx with pool := Function.update dx.pool p (some { object with ioq := ioq }) } i,
          _, rfl, rfl, by rw [htable', htable], hinv₂, fun h => absurd rfl h, ?_⟩
        intro j e' hnames _
        rw [(Registry.lookup_eq_some hinv.guids).mpr hnames, Option.some.injEq,
          Prod.mk.injEq] at hl
        rw [hl.1]
        exact ⟨rfl, rfl⟩

/-! ## References -/

theorem RegistryInv.addRef (hinv : RegistryInv dx held) (hlt : held.length + 2 < 2 ^ 32)
    (hobject : dx.pool p = some object) :
    ∃ dx', dx.addRef p = some dx' ∧ dx' = { dx with pool := dx'.pool } ∧
      table dx' = table dx ∧
      RegistryInv dx' (p :: held) := by
  have hp := hinv.ne_of_object hobject
  have hunit := hinv.objects p object hobject
  have hle := hinv.count_le_one hp
  have hheld := List.count_le_length (a := p) (l := held)
  have hrefs := hunit.refCount
  rw [refs] at hrefs
  have hadd : dx.addRef p = some
      { dx with
        pool := Function.update dx.pool p
          (some { object with
            unit := { object.unit with refCount := object.unit.refCount + 1 } }) } := by
    simp only [SpdDeviceExtension.addRef, hobject, Option.bind_eq_bind, Option.bind_some]
  refine ⟨_, hadd, rfl, ?_⟩
  refine hinv.update hobject (fun _ => ⟨_, rfl, rfl, rfl⟩) (fun object' h => ?_)
    (fun h => by cases h) (fun x hx => List.count_cons_of_ne (Ne.symm hx))
  cases h
  refine ⟨?_, ?_, hunit.queue⟩
  · rw [refs, List.count_cons_self]
    omega
  · show (object.unit.refCount + 1).toNat = _
    rw [UInt32.toNat_add, refs, List.count_cons_self]
    show (object.unit.refCount.toNat + 1) % 2 ^ 32 = _
    omega

theorem RegistryInv.unitByBtl_object (hinv : RegistryInv dx held) {btl : UInt32}
    (h : dx.unitByBtl btl = some p) : ∃ object, dx.pool p = some object := by
  unfold SpdDeviceExtension.unitByBtl at h
  split at h
  · cases h
  · rw [hinv.unitAt, Option.map_eq_some_iff] at h
    obtain ⟨e, he, rfl⟩ := h
    obtain ⟨p, object, -, -, hobject, rfl⟩ := content_table.mp he
    exact ⟨object, hobject⟩

theorem spdStorageUnitReferenceByBtl_agree (hinv : RegistryInv dx held)
    (hlt : held.length + 2 < 2 ^ 32) (btl : UInt32) :
    ∃ dx', spdStorageUnitReferenceByBtl dx btl = some (dx', dx.unitByBtl btl) ∧
      dx' = { dx with pool := dx'.pool } ∧ table dx' = table dx ∧
      RegistryInv dx' ((dx.unitByBtl btl).toList ++ held) := by
  unfold spdStorageUnitReferenceByBtl
  cases hunit : dx.unitByBtl btl with
  | none => exact ⟨dx, rfl, rfl, rfl, hinv⟩
  | some p =>
      obtain ⟨object, hobject⟩ := hinv.unitByBtl_object hunit
      obtain ⟨dx', hadd, hunits, htable, hinv'⟩ := hinv.addRef hlt hobject
      refine ⟨dx', ?_, hunits, htable, hinv'⟩
      simp only [hadd, Option.map_some]

theorem spdStorageUnitReferenceByDevice_agree (hinv : RegistryInv dx held)
    (hlt : held.length + 2 < 2 ^ 32) (deviceObject : Addr) :
    ∃ dx' found, spdStorageUnitReferenceByDevice dx deviceObject = some (dx', found) ∧
      dx' = { dx with pool := dx'.pool } ∧ table dx' = table dx ∧
      RegistryInv dx' (found.toList ++ held) := by
  obtain ⟨found, hfound, hmem⟩ := findUnit_mem
    (P := fun unit => deviceObject = unit.deviceObject) (k := 0)
    fun p hmem hne => hinv.exists_object hne hmem
  unfold spdStorageUnitReferenceByDevice
  simp only [hfound, Option.bind_eq_bind, Option.bind_some]
  cases found with
  | none => exact ⟨dx, none, rfl, rfl, rfl, hinv⟩
  | some r =>
      obtain ⟨j, p⟩ := r
      obtain ⟨hp, hne⟩ := hmem j p rfl
      obtain ⟨object, hobject⟩ := hinv.exists_object hne hp
      obtain ⟨dx', hadd, hunits, htable, hinv'⟩ := hinv.addRef hlt hobject
      refine ⟨dx', some p, ?_, hunits, htable, hinv'⟩
      simp only [hadd, Option.map_some]

/-- A reference less. The last one frees the unit, which is then in no slot. -/
theorem spdStorageUnitDereference_agree (hinv : RegistryInv dx held) (hheld : p ∈ held) :
    ∃ dx' calls, spdStorageUnitDereference dx p = some (dx', calls) ∧
      dx' = { dx with pool := dx'.pool } ∧ table dx' = table dx ∧
      RegistryInv dx' (held.erase p) := by
  obtain ⟨object, hobject⟩ := hinv.object_of_held hheld
  have hunit := hinv.objects p object hobject
  have hpos : 0 < held.count p := List.count_pos_iff.mpr hheld
  have herase : (held.erase p).count p = held.count p - 1 := List.count_erase_self
  have hothers : ∀ x, x ≠ p → (held.erase p).count x = held.count x :=
    fun x hx => List.count_erase_of_ne hx
  have hrefs := hunit.refCount
  have hone : (1 : UInt32).toNat = 1 := rfl
  have hsub : (object.unit.refCount - 1).toNat = object.unit.refCount.toNat - 1 :=
    UInt32.toNat_sub_of_le _ _ (by rw [UInt32.le_iff_toNat_le]; have := hunit.pos; omega)
  rw [refs] at hrefs
  unfold spdStorageUnitDereference
  simp only [hobject, Option.bind_eq_bind, Option.bind_some]
  split
  · next hzero =>
      rw [← UInt32.toNat_inj, hsub] at hzero
      have hzero' : object.unit.refCount.toNat - 1 = 0 := hzero
      obtain ⟨q, hq⟩ := hunit.queue
      obtain ⟨ioq, hreset, -⟩ := (spdIoqReset_agree hq false).exists_some
      have hdelete : spdIoqDelete object.ioq = some (q.reset false).2 := by
        rw [spdIoqDelete, hreset]
        rfl
      simp only [hdelete, Option.bind_some]
      refine ⟨_, _, rfl, rfl, ?_⟩
      refine hinv.update hobject (fun hmem => ?_) (fun object' h => by cases h)
        (fun _ => ?_) hothers
      · have hcount : 0 < dx.storageUnits.count p := List.count_pos_iff.mpr hmem
        omega
      · rw [refs]
        omega
  · next hzero =>
      have hne : object.unit.refCount.toNat - 1 ≠ 0 := by
        rw [← hsub]
        exact fun h => hzero (UInt32.toNat_inj.mp h)
      refine ⟨_, _, rfl, rfl, ?_⟩
      refine hinv.update hobject (fun _ => ⟨_, rfl, rfl, rfl⟩) (fun object' h => ?_)
        (fun h => by cases h) hothers
      cases h
      refine ⟨?_, ?_, hunit.queue⟩
      · rw [refs]
        omega
      · show (object.unit.refCount - 1).toNat = _
        rw [hsub, refs]
        omega

end Winspd.Proofs
