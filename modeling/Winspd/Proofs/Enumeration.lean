import Winspd.Proofs.ProcessExit
import Winspd.Sys.Ioctl

/-!
# Enumeration of the storage units

`SpdStorageUnitGetUseBitmap` stops when it has counted as many units as there
are, and `SPD_IOCTL_LIST` when it has put out as many BTLs as bits are set. The
first count is over all units, also those the process filter leaves out, so it
comes to the end of the array or to a point behind the last unit; the second
count is the number of bits. Neither loop stops too early.
-/

namespace Winspd.Proofs

open Winspd.Lib Winspd.Sys Winspd.Spec

variable {dx : SpdDeviceExtension} {held : List Addr} {processId : Option UInt32}
  {capacity : UInt32} {bitmap buf : List UInt8} {i n btlEnd btlP : Nat} {count : UInt32}

def usedSlots (dx : SpdDeviceExtension) (processId : Option UInt32) : List Nat :=
  (table dx).slotsWith fun e => UsedBy processId e

theorem mem_usedSlots : i ∈ usedSlots dx processId ↔ ∃ p object, InSlot dx i p object ∧
    (processId = none ∨ processId = some object.unit.ownerProcessId) := by
  rw [usedSlots, Slots.mem_slotsWith]
  constructor
  · intro h
    obtain ⟨e, he, hused⟩ := h
    obtain ⟨p, object, hin, rfl⟩ := content_iff_inSlot.mp he
    exact ⟨p, object, hin, of_decide_eq_true hused⟩
  · intro h
    obtain ⟨p, object, hin, hused⟩ := h
    exact ⟨_, content_iff_inSlot.mpr ⟨p, object, hin, rfl⟩, decide_eq_true hused⟩

theorem length_usedSlots : (usedSlots dx processId).length = wantedSlots processId (table dx) :=
  Slots.length_slotsWith

/-! ## The list -/

def btlBytes (i : Nat) : List UInt8 := toLe 4 (spdBtlFromIndex (UInt32.ofNat i)).toNat

theorem length_btlBytes : (btlBytes i).length = 4 := length_toLe ..

/-- The loop from round `i` on, with as many bits to come as it has counted. -/
theorem getListScan_spec {js : List Nat} (hjs : (List.range' i n).filter (flagOn bitmap) = js)
    (hcount : count.toNat = js.length) (hP : btlP ≤ btlEnd) (hend : btlEnd ≤ buf.length) :
    ∃ status btlP' buf', getListScan bitmap btlEnd i n count btlP buf = some
      (status, btlP', buf') ∧
      buf'.length = buf.length ∧ buf'.drop btlEnd = buf.drop btlEnd ∧
      (btlP + 4 * js.length ≤ btlEnd → status = .success ∧ btlP' = btlP + 4 * js.length ∧
        buf'.take btlP' = buf.take btlP ++ js.flatMap btlBytes) ∧
      (btlEnd < btlP + 4 * js.length → status = .bufferTooSmall) := by
  induction n generalizing i count btlP buf js with
  | zero =>
      subst hjs
      refine ⟨.success, btlP, buf, rfl, rfl, rfl, fun _ => ⟨rfl, rfl, ?_⟩, fun h => ?_⟩
      · exact (List.append_nil _).symm
      · exact absurd h (Nat.not_lt.mpr hP)
  | succ n ih =>
      rw [List.range'_succ, List.filter_cons] at hjs
      rw [getListScan]
      by_cases hmore : 0 < count
      · rw [if_pos hmore]
        have hpos : 0 < count.toNat := UInt32.lt_iff_toNat_lt.mp hmore
        cases hon : flagOn bitmap i with
        | false =>
            rw [hon] at hjs
            exact ih hjs hcount hP hend
        | true =>
            rw [hon] at hjs
            obtain rfl : i :: (List.range' (i + 1) n).filter (flagOn bitmap) = js := hjs
            rw [List.length_cons] at hcount ⊢
            rw [if_pos rfl]
            by_cases hfull : btlP + 4 > btlEnd
            · rw [if_pos hfull]
              exact ⟨.bufferTooSmall, btlP, buf, rfl, rfl, rfl, fun h => by omega, fun _ => rfl⟩
            · have hlen := @length_btlBytes i
              obtain ⟨buf₁, hwrite⟩ := exists_writeAt buf btlP (btlBytes i) (by omega)
              have hcount₁ : (count - 1).toNat =
                  ((List.range' (i + 1) n).filter (flagOn bitmap)).length := by
                have hone : (1 : UInt32).toNat = 1 := rfl
                have hle : 1 ≤ count := UInt32.le_iff_toNat_le.mpr hpos
                rw [UInt32.toNat_sub_of_le _ _ hle, hcount, hone]
                omega
              have hlen₁ := length_writeAt hwrite
              obtain ⟨status, btlP', buf', hscan, hlen', hdrop, hfits, hshort⟩ :=
                ih rfl hcount₁ (show btlP + 4 ≤ btlEnd by omega)
                  (show btlEnd ≤ buf₁.length by omega)
              have htake := take_add_writeAt hwrite
              rw [hlen] at htake
              have hkeep := drop_writeAt hwrite
                (show btlP + (btlBytes i).length ≤ btlEnd by omega)
              refine ⟨status, btlP', buf', ?_, hlen'.trans hlen₁,
                hdrop.trans hkeep, fun h => ?_,
                fun h => hshort (by omega)⟩
              · have hwrite' : writeAt buf btlP (toLe 4 (spdBtlFromIndex (UInt32.ofNat i)).toNat) =
                    some buf₁ := hwrite
                rw [if_neg hfull, hwrite']
                exact hscan
              · obtain ⟨hstatus, hP', hbytes⟩ := hfits (by omega)
                refine ⟨hstatus, by omega, ?_⟩
                rw [hbytes, htake, List.flatMap_cons, List.append_assoc]
      · -- all bits have been met
        have hzero : count.toNat = 0 := by
          rw [UInt32.lt_iff_toNat_lt] at hmore
          have hzero : (0 : UInt32).toNat = 0 := rfl
          omega
        rw [hzero] at hcount
        obtain rfl : js = [] := List.length_eq_zero_iff.mp hcount.symm
        rw [if_neg hmore]
        refine ⟨.success, btlP, buf, rfl, rfl, rfl, fun _ => ⟨rfl, rfl, ?_⟩, fun h => ?_⟩
        · exact (List.append_nil _).symm
        · exact absurd h (Nat.not_lt.mpr hP)

theorem filter_flagOn (hlen : dx.storageUnits.length ≤ n)
    (hflags : ∀ j, flagOn bitmap j = true ↔ ∃ e, (table dx).content j = some e ∧
      UsedBy processId e) :
    (List.range n).filter (flagOn bitmap) = usedSlots dx processId := by
  have hcongr : ∀ j, flagOn bitmap j = ((table dx).content j).any fun e =>
      UsedBy processId e := by
    intro j
    rw [Bool.eq_iff_iff, hflags j, Option.any_eq_true]
    simp only [decide_eq_true_eq]
  obtain ⟨k, rfl⟩ := Nat.exists_eq_add_of_le hlen
  rw [usedSlots, Slots.slotsWith, table_length, List.range_add, List.filter_append,
    List.filter_congr fun j _ => hcongr j, List.append_right_eq_self, List.filter_eq_nil_iff]
  intro j hj
  obtain ⟨j, -, rfl⟩ := List.mem_map.mp hj
  intro hon
  obtain ⟨e, he, -⟩ := (hflags _).mp hon
  have hlt := Slots.lt_length_of_content he
  rw [table_length] at hlt
  omega

/-! ## What follows -/

/-- The two enumerations of the units. -/
structure UnitEnumeration (dx : SpdDeviceExtension) : Prop where
  bitmap : ∀ processId, ∃ bitmap count,
    spdStorageUnitGetUseBitmap dx processId = some (bitmap, count) ∧
      bitmap.length = sizeofBitmap ∧
      (∀ i, flagOn bitmap i = true ↔ ∃ p object, InSlot dx i p object ∧
        (processId = none ∨ processId = some object.unit.ownerProcessId)) ∧
      count.toNat = (usedSlots dx processId).length
  /-- `usedSlots` are these slots, in increasing order. -/
  slots : ∀ processId i, i ∈ usedSlots dx processId ↔ ∃ p object, InSlot dx i p object ∧
    (processId = none ∨ processId = some object.unit.ownerProcessId)
  increasing : ∀ processId, (usedSlots dx processId).Pairwise fun i j =>
    i < j ∧ spdBtlFromIndex (UInt32.ofNat i) < spdBtlFromIndex (UInt32.ofNat j)
  /-- The system buffer has room for what goes out. -/
  list : ∀ irp buf, serviceRequest irp = some .list →
    irp.outputBufferLength.toNat ≤ buf.length →
    ∃ status information buf', spdIoctlGetList dx irp buf = some (status, information, buf') ∧
      buf'.length = buf.length ∧
      buf'.drop irp.outputBufferLength.toNat = buf.drop irp.outputBufferLength.toNat ∧
      if 4 * (usedSlots dx none).length ≤ irp.outputBufferLength.toNat then
        status = .success ∧ information = some (4 * (usedSlots dx none).length) ∧
          buf'.take (4 * (usedSlots dx none).length) =
            (usedSlots dx none).flatMap fun i => toLe 4 (spdBtlFromIndex (UInt32.ofNat i)).toNat
      else status = .bufferTooSmall

theorem spdBtlFromIndex_lt {j : Nat} (hij : i < j) (hj : j < 256) :
    spdBtlFromIndex (UInt32.ofNat i) < spdBtlFromIndex (UInt32.ofNat j) := by
  have hbtl : ∀ k < 256, (spdBtlFromIndex (UInt32.ofNat k)).toNat = 256 * k := by decide +kernel
  rw [UInt32.lt_iff_toNat_lt, hbtl i (by omega), hbtl j hj]
  omega

/-- In every reachable registry the bitmap and the list have the slots of the units that
there are, of one process or of all. -/
theorem unit_enumeration (hcap : capacity.toNat ≤ 256) {ls : List RegistryEvent} {s : RegistrySys}
    (hrun : Run RegistryStep (.init capacity) ls s) : UnitEnumeration s.dx := by
  obtain ⟨hinv, hlength⟩ := registryRun_inv hcap hrun
  constructor
  case bitmap =>
    intro processId
    obtain ⟨bitmap, count, hbitmap, hlen, hflags, -, hcount⟩ :=
      spdStorageUnitGetUseBitmap_spec hinv processId
    refine ⟨bitmap, count, hbitmap, hlen, fun i => ?_, hcount.trans length_usedSlots.symm⟩
    rw [hflags, ← mem_usedSlots, usedSlots, Slots.mem_slotsWith]
    simp only [decide_eq_true_eq]
  case slots => exact fun _ _ => mem_usedSlots
  case increasing =>
    intro processId
    have hincreasing := (table s.dx).slotsWith_increasing (P := fun e => UsedBy processId e)
    refine hincreasing.imp_of_mem fun {i j} _ hj hij => ⟨hij, spdBtlFromIndex_lt hij ?_⟩
    obtain ⟨e, he, -⟩ := Slots.mem_slotsWith.mp hj
    have hlt := Slots.lt_length_of_content he
    rw [table_length] at hlt
    omega
  case list =>
    intro irp buf hrequest hbuf
    obtain ⟨bitmap, count, hbitmap, -, hflags, -, hcount⟩ :=
      spdStorageUnitGetUseBitmap_spec hinv none
    have hinput : ¬ sizeofListParams > irp.inputBufferLength := by
      unfold serviceRequest at hrequest
      split at hrequest
      · cases hrequest
      · split at hrequest
        · cases hrequest
        · next hsize => exact fun h => hsize (.inl h)
    have hjs : (List.range' 0 (sizeofBitmap * 8)).filter (flagOn bitmap) = usedSlots s.dx none := by
      rw [← List.range_eq_range']
      exact filter_flagOn (by rw [sizeofBitmap]; omega) hflags
    obtain ⟨status, btlP, buf', hscan, hlen, hdrop, hfits, hshort⟩ :=
      getListScan_spec hjs (hcount.trans length_usedSlots.symm) (Nat.zero_le _) hbuf
    refine ⟨status, if status = .success then some btlP else none, buf', ?_, hlen, hdrop, ?_⟩
    · rw [spdIoctlGetList, if_neg hinput, hbitmap]
      simp only [Option.bind_eq_bind, Option.bind_some, hscan]
    · rw [Nat.zero_add] at hfits hshort
      split
      · next hle =>
          obtain ⟨rfl, rfl, hbytes⟩ := hfits hle
          exact ⟨rfl, if_pos rfl, hbytes⟩
      · next hlt => exact hshort (Nat.not_le.mp hlt)

/-- One unit is provisioned. -/
theorem unit_enumeration_provision :
    ∃ ev s, Run RegistryStep (.init (spdStorageUnitCapacity none)) [ev] s ∧
      usedSlots s.dx none = [0] ∧ UnitEnumeration s.dx := by
  obtain ⟨dx, hexec, hused⟩ :
      ∃ dx, RegistryOp.exec (RegistrySys.init (spdStorageUnitCapacity none)).dx
      (.provision sampleUnit 7 (some 0x5000) (some zeroedIoq)) =
        some (dx, ⟨.success, 0, none⟩) ∧ usedSlots dx none = [0] := ⟨_, rfl, rfl⟩
  have hstep : RegistryStep (.init (spdStorageUnitCapacity none))
      ⟨.provision sampleUnit 7 (some 0x5000) (some zeroedIoq), ⟨.success, 0, none⟩⟩
        ⟨dx, []⟩ := by
    refine ⟨fun p hp => ?_, hexec, rfl⟩
    cases hp
    exact ⟨by decide, rfl⟩
  exact ⟨_, _, .single hstep, hused,
    unit_enumeration (spdStorageUnitCapacity_le none) (.single hstep)⟩

end Winspd.Proofs
