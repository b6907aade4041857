import Winspd.Lib.Slots
import Winspd.Sys.Stgunit

/-!
# The registry of storage units

What the array in the device extension is for. It is a table of slots, with
the units under their GUIDs: a unit is provisioned into the lowest free slot
unless its GUID is taken, and it is taken out by the process it belongs to.
There is no count here, there are no pointers to follow and no references: the
count is the number of occupied slots, and a unit is in the table or it is
not.
-/

namespace Winspd.Spec

open Winspd.Lib Winspd.Sys

/-- A unit, with what it is found by and whom it belongs to. -/
structure Entry where
  addr : Addr
  guid : Guid
  ownerProcessId : UInt32
  deriving DecidableEq, Repr

abbrev Registry := Slots Entry

namespace Registry

def provision (t : Registry) (e : Entry) : Registry × NtStatus × Option Nat :=
  match t.slotWith fun x => x.guid = e.guid with
  | some _ => (t, .objectNameCollision, none)
  | none =>
      match t.lowestFree with
      | none => (t, .cannotMake, none)
      | some i => (t.fill i e, .success, some i)

def lookup (t : Registry) : UnitKey → Option (Nat × Entry)
  | .guid guid =>
      (t.slotWith fun e => e.guid = guid).bind fun i => (t.content i).map fun e => (i, e)
  | .index index => (t.content index.toNat).map fun e => (index.toNat, e)

/-- The outcome of taking a unit out, and the unit. -/
def unprovision (t : Registry) (key : UnitKey) (processId : UInt32) :
    Registry × NtStatus × Option Entry :=
  match t.lookup key with
  | none => (t, .objectNameNotFound, none)
  | some (i, e) =>
      if processId ≠ e.ownerProcessId then (t, .accessDenied, none)
      else (t.clear i, .success, some e)

/-- The key names the unit in slot `i`. -/
def Names (t : Registry) (key : UnitKey) (i : Nat) (e : Entry) : Prop :=
  t.content i = some e ∧
    match key with
    | .guid guid => e.guid = guid
    | .index index => i = index.toNat

abbrev GuidsDistinct (t : Registry) : Prop := t.KeysDistinct Entry.guid

variable {t t' : Registry} {e e' : Entry} {key : UnitKey} {processId : UInt32} {i : Nat}
  {status : NtStatus}

/-! ## Provision -/

theorem provision_cases (t : Registry) (e : Entry) :
    ((∃ i e', t.content i = some e' ∧ e'.guid = e.guid) ∧
        t.provision e = (t, .objectNameCollision, none)) ∨
      ((∀ i e', t.content i = some e' → e'.guid ≠ e.guid) ∧ t.lowestFree = none ∧
        t.provision e = (t, .cannotMake, none)) ∨
      ∃ i, (∀ i e', t.content i = some e' → e'.guid ≠ e.guid) ∧ t.lowestFree = some i ∧
        t.provision e = (t.fill i e, .success, some i) := by
  unfold provision
  cases hslot : t.slotWith fun x => decide (x.guid = e.guid) with
  | some i =>
      obtain ⟨⟨e', he', heq⟩, -⟩ := Slots.slotWith_eq_some.mp hslot
      exact .inl ⟨⟨i, e', he', by simpa using heq⟩, rfl⟩
  | none =>
      have hnew : ∀ i e', t.content i = some e' → e'.guid ≠ e.guid := fun i e' he' => by
        simpa using Slots.slotWith_eq_none.mp hslot i e' he'
      cases hfree : t.lowestFree with
      | none => exact .inr (.inl ⟨hnew, rfl, rfl⟩)
      | some i => exact .inr (.inr ⟨i, hnew, rfl, rfl⟩)

/-! ## Unprovision -/

theorem lookup_eq_some (h : GuidsDistinct t) : t.lookup key = some (i, e) ↔ t.Names key i e := by
  cases key with
  | guid guid =>
      show ((t.slotWith fun e => decide (e.guid = guid)).bind fun i =>
        (t.content i).map fun e => (i, e)) = some (i, e) ↔ t.content i = some e ∧ e.guid = guid
      simp only [Option.bind_eq_some_iff, Option.map_eq_some_iff, Prod.mk.injEq]
      constructor
      · rintro ⟨j, hslot, e', he', rfl, rfl⟩
        obtain ⟨⟨e'', he'', heq⟩, -⟩ := Slots.slotWith_eq_some.mp hslot
        rw [he', Option.some.injEq] at he''
        subst he''
        exact ⟨he', by simpa using heq⟩
      · rintro ⟨he, rfl⟩
        exact ⟨i, Slots.KeysDistinct.slotWith h he, e, he, rfl, rfl⟩
  | index index =>
      show ((t.content index.toNat).map fun e => (index.toNat, e)) = some (i, e) ↔
        t.content i = some e ∧ i = index.toNat
      simp only [Option.map_eq_some_iff, Prod.mk.injEq]
      constructor
      · rintro ⟨e', he', rfl, rfl⟩
        exact ⟨he', rfl⟩
      · rintro ⟨he, rfl⟩
        exact ⟨e, he, rfl, rfl⟩

theorem unprovision_cases (h : GuidsDistinct t) (key : UnitKey) (processId : UInt32) :
    ((∀ i e, ¬ t.Names key i e) ∧
        t.unprovision key processId = (t, .objectNameNotFound, none)) ∨
      (∃ i e, t.Names key i e ∧ e.ownerProcessId ≠ processId ∧
        t.unprovision key processId = (t, .accessDenied, none)) ∨
      ∃ i e, t.Names key i e ∧ e.ownerProcessId = processId ∧
        t.unprovision key processId = (t.clear i, .success, some e) := by
  unfold unprovision
  cases hl : t.lookup key with
  | none =>
      refine .inl ⟨fun i e hnames => ?_, rfl⟩
      rw [(lookup_eq_some h).mpr hnames] at hl
      cases hl
  | some r =>
      obtain ⟨i, e⟩ := r
      have hnames := (lookup_eq_some h).mp hl
      by_cases ho : processId ≠ e.ownerProcessId
      · exact .inr (.inl ⟨i, e, hnames, ho.symm, if_pos ho⟩)
      · exact .inr (.inr ⟨i, e, hnames, (not_not.mp ho).symm, if_neg ho⟩)

theorem Names.unique (h : GuidsDistinct t) {j : Nat} (hi : t.Names key i e)
    (hj : t.Names key j e') : i = j := by
  rw [← lookup_eq_some h] at hi hj
  rw [hi, Option.some.injEq, Prod.mk.injEq] at hj
  exact hj.1

end Registry

end Winspd.Spec
