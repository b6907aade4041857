import Mathlib.Data.List.Basic
import Mathlib.Data.Option.Basic

/-!
# Tables of slots

A table of slots is an array whose places are free or hold something, and
whose holes are filled again: a new content goes into the lowest free slot.
Contents are told apart by a key, and no two slots hold the same one
(`KeysDistinct`). Filling a slot with a new key and emptying a slot keep that,
and change the number of occupied slots by one.
-/

namespace Winspd.Lib

/-- A table of slots, each free or with a content. -/
abbrev Slots (α : Type*) := List (Option α)

namespace Slots

variable {α κ : Type*} {t : Slots α} {key : α → κ} {P : α → Bool} {a b : α} {i j : Nat}

/-- The content of a slot. A slot beyond the table has none. -/
def content (t : Slots α) (i : Nat) : Option α := t[i]?.join

def occupied (t : Slots α) : Nat := t.countP Option.isSome

/-- The first slot with a content that satisfies `P`. -/
def slotWith (P : α → Bool) (t : Slots α) : Option Nat := t.findIdx? fun slot => slot.any P

def lowestFree (t : Slots α) : Option Nat := t.findIdx? Option.isNone

def empty (n : Nat) : Slots α := List.replicate n none

def fill (t : Slots α) (i : Nat) (a : α) : Slots α := t.set i (some a)

def clear (t : Slots α) (i : Nat) : Slots α := t.set i none

/-- No two slots have contents with the same key. -/
def KeysDistinct (key : α → κ) (t : Slots α) : Prop :=
  ∀ i j a b, t.content i = some a → t.content j = some b → key a = key b → i = j

/-! ## Slots -/

theorem content_eq_some : t.content i = some a ↔ t[i]? = some (some a) := by
  rw [content, Option.join_eq_some_iff]

theorem lt_length_of_content (h : t.content i = some a) : i < t.length := by
  rw [content_eq_some, List.getElem?_eq_some_iff] at h
  exact h.1

theorem content_fill_self (hi : i < t.length) : (t.fill i a).content i = some a := by
  rw [content, fill, List.getElem?_set_self hi]
  rfl

theorem content_fill_ne (h : j ≠ i) : (t.fill i a).content j = t.content j := by
  rw [content, fill, List.getElem?_set_ne (Ne.symm h)]
  rfl

theorem content_of_fill (h : (t.fill i a).content j = some b) :
    t.content j = some b ∨ j = i ∧ b = a := by
  by_cases hji : j = i
  · subst hji
    have hlt := lt_length_of_content h
    rw [fill, List.length_set] at hlt
    rw [content_fill_self hlt, Option.some.injEq] at h
    exact .inr ⟨rfl, h.symm⟩
  · rw [content_fill_ne hji] at h
    exact .inl h

theorem content_clear_self : (t.clear i).content i = none := by
  rw [content, clear, List.getElem?_set]
  simp only [if_true]
  split <;> rfl

theorem content_clear_ne (h : j ≠ i) : (t.clear i).content j = t.content j := by
  rw [content, clear, List.getElem?_set_ne (Ne.symm h)]
  rfl

theorem content_of_clear (h : (t.clear i).content j = some a) : t.content j = some a := by
  by_cases hji : j = i
  · rw [hji, content_clear_self] at h
    cases h
  · rwa [content_clear_ne hji] at h

theorem occupied_empty (n : Nat) : (empty n : Slots α).occupied = 0 := by
  rw [occupied, empty, List.countP_replicate]
  rfl

theorem occupied_le_length : t.occupied ≤ t.length := List.countP_le_length

theorem occupied_fill (h : t[i]? = some none) : (t.fill i a).occupied = t.occupied + 1 := by
  obtain ⟨hi, hslot⟩ := List.getElem?_eq_some_iff.mp h
  rw [occupied, fill, List.countP_set hi, hslot]
  rfl

theorem occupied_clear (h : t.content i = some a) : (t.clear i).occupied + 1 = t.occupied := by
  obtain ⟨hi, hslot⟩ := List.getElem?_eq_some_iff.mp (content_eq_some.mp h)
  have hpos : 0 < t.countP Option.isSome :=
    List.countP_pos_iff.mpr ⟨_, List.getElem_mem hi, by rw [hslot]; rfl⟩
  rw [occupied, clear, List.countP_set hi, hslot]
  show t.countP Option.isSome - 1 + 0 + 1 = t.countP Option.isSome
  omega

/-! ## Finding slots -/

theorem slotWith_eq_some : t.slotWith P = some i ↔ (∃ a, t.content i = some a ∧ P a) ∧
    ∀ j < i, ∀ a, t.content j = some a → ¬ P a := by
  rw [slotWith, List.findIdx?_eq_some_iff_getElem]
  constructor
  · rintro ⟨hi, hslot, hbefore⟩
    obtain ⟨a, ha, hP⟩ := (Option.any_eq_true ..).mp hslot
    refine ⟨⟨a, content_eq_some.mpr (List.getElem?_eq_some_iff.mpr ⟨hi, ha⟩), hP⟩, ?_⟩
    intro j hj b hb hPb
    rw [content_eq_some, List.getElem?_eq_some_iff] at hb
    refine hbefore j hj ?_
    rw [hb.2]
    exact hPb
  · rintro ⟨⟨a, ha, hP⟩, hbefore⟩
    obtain ⟨hi, hslot⟩ := List.getElem?_eq_some_iff.mp (content_eq_some.mp ha)
    refine ⟨hi, by rw [hslot]; exact hP, fun j hj hslot => ?_⟩
    obtain ⟨b, hb, hPb⟩ := (Option.any_eq_true ..).mp hslot
    exact hbefore j hj b (content_eq_some.mpr (List.getElem?_eq_some_iff.mpr ⟨_, hb⟩)) hPb

theorem slotWith_eq_none : t.slotWith P = none ↔ ∀ i a, t.content i = some a → ¬ P a := by
  rw [slotWith, List.findIdx?_eq_none_iff]
  constructor
  · intro h i a ha hP
    have hslot := h (some a) (List.mem_of_getElem? (content_eq_some.mp ha))
    rw [Option.any_some, hP] at hslot
    cases hslot
  · intro h slot hslot
    obtain ⟨i, hi, rfl⟩ := List.mem_iff_getElem.mp hslot
    rw [Option.any_eq_false]
    intro a ha
    simpa using h i a (content_eq_some.mpr (List.getElem?_eq_some_iff.mpr ⟨hi, ha⟩))

theorem lowestFree_eq_some : t.lowestFree = some i ↔ t[i]? = some none ∧
    ∀ j < i, ∃ a, t.content j = some a := by
  rw [lowestFree, List.findIdx?_eq_some_iff_getElem]
  constructor
  · rintro ⟨hi, hslot, hbefore⟩
    refine ⟨by rw [List.getElem?_eq_getElem hi, Option.isNone_iff_eq_none.mp hslot], ?_⟩
    intro j hj
    have hsome := hbefore j hj
    rw [Option.isNone_iff_eq_none] at hsome
    obtain ⟨a, ha⟩ := Option.ne_none_iff_exists'.mp hsome
    exact ⟨a, content_eq_some.mpr (List.getElem?_eq_some_iff.mpr ⟨_, ha⟩)⟩
  · rintro ⟨hslot, hbefore⟩
    obtain ⟨hi, hslot⟩ := List.getElem?_eq_some_iff.mp hslot
    refine ⟨hi, by rw [hslot]; rfl, fun j hj hfree => ?_⟩
    obtain ⟨a, ha⟩ := hbefore j hj
    obtain ⟨_, hslot'⟩ := List.getElem?_eq_some_iff.mp (content_eq_some.mp ha)
    rw [hslot'] at hfree
    cases hfree

theorem lowestFree_eq_none : t.lowestFree = none ↔
    ∀ i < t.length, ∃ a, t.content i = some a := by
  rw [lowestFree, List.findIdx?_eq_none_iff]
  constructor
  · intro h i hi
    have hslot := h t[i] (List.getElem_mem hi)
    rw [Option.isNone_eq_false_iff, Option.isSome_iff_exists] at hslot
    obtain ⟨a, ha⟩ := hslot
    exact ⟨a, content_eq_some.mpr (List.getElem?_eq_some_iff.mpr ⟨hi, ha⟩)⟩
  · intro h slot hslot
    obtain ⟨i, hi, rfl⟩ := List.mem_iff_getElem.mp hslot
    obtain ⟨a, ha⟩ := h i hi
    obtain ⟨_, ha⟩ := List.getElem?_eq_some_iff.mp (content_eq_some.mp ha)
    rw [ha]
    rfl

theorem lt_length_of_lowestFree (h : t.lowestFree = some i) : i < t.length :=
  (List.getElem?_eq_some_iff.mp (lowestFree_eq_some.mp h).1).1

theorem slotWith_free : slotWith P (none :: t) = (t.slotWith P).map (· + 1) := by
  rw [slotWith, List.findIdx?_cons]
  rfl

theorem slotWith_cons : slotWith P (some a :: t) =
    if P a then some 0 else (t.slotWith P).map (· + 1) := by
  rw [slotWith, List.findIdx?_cons]
  rfl

theorem lowestFree_free : lowestFree (none :: t) = some 0 := rfl

theorem lowestFree_cons : lowestFree (some a :: t) = t.lowestFree.map (· + 1) := by
  rw [lowestFree, List.findIdx?_cons]
  rfl

/-! ## All slots with a content -/

/-- The slots whose contents satisfy `P`, in order. -/
def slotsWith (P : α → Bool) (t : Slots α) : List Nat :=
  (List.range t.length).filter fun i => (t.content i).any P

theorem mem_slotsWith : i ∈ t.slotsWith P ↔ ∃ a, t.content i = some a ∧ P a := by
  rw [slotsWith, List.mem_filter, List.mem_range, Option.any_eq_true]
  constructor
  · intro h
    exact h.2
  · intro h
    obtain ⟨a, ha, hP⟩ := h
    exact ⟨lt_length_of_content ha, a, ha, hP⟩

theorem slotsWith_increasing : (t.slotsWith P).Pairwise (· < ·) :=
  List.pairwise_lt_range.filter _

theorem map_content : (List.range t.length).map t.content = t := by
  refine List.ext_getElem (by simp) fun i hi hi' => ?_
  rw [List.getElem_map, List.getElem_range, content, List.getElem?_eq_getElem hi']
  rfl

theorem length_slotsWith : (t.slotsWith P).length = t.countP fun slot => slot.any P := by
  rw [slotsWith, ← List.countP_eq_length_filter]
  calc (List.range t.length).countP (fun i => (t.content i).any P)
      = ((List.range t.length).map t.content).countP (fun slot => slot.any P) := by
        rw [List.countP_map]
        rfl
    _ = t.countP fun slot => slot.any P := by rw [map_content]

/-! ## Keys -/

theorem keysDistinct_empty (n : Nat) : (empty n : Slots α).KeysDistinct key := by
  intro i j a b ha
  rw [content_eq_some] at ha
  cases List.eq_of_mem_replicate (List.mem_of_getElem? ha)

theorem KeysDistinct.fill (h : t.KeysDistinct key) (hi : i < t.length)
    (hnew : ∀ j b, t.content j = some b → key b ≠ key a) : (t.fill i a).KeysDistinct key := by
  intro j k b c hb hc heq
  by_cases hj : j = i
  · by_cases hk : k = i
    · rw [hj, hk]
    · rw [hj, content_fill_self hi, Option.some.injEq] at hb
      rw [content_fill_ne hk] at hc
      subst hb
      exact absurd heq.symm (hnew k c hc)
  · rw [content_fill_ne hj] at hb
    by_cases hk : k = i
    · rw [hk, content_fill_self hi, Option.some.injEq] at hc
      subst hc
      exact absurd heq (hnew j b hb)
    · rw [content_fill_ne hk] at hc
      exact h j k b c hb hc heq

theorem KeysDistinct.clear (h : t.KeysDistinct key) : (t.clear i).KeysDistinct key :=
  fun j k b c hb hc heq => h j k b c (content_of_clear hb) (content_of_clear hc) heq

/-- Other keys that are the same for what is in the table. -/
theorem KeysDistinct.congr {key' : α → κ} (h : t.KeysDistinct key)
    (hkey : ∀ i a, t.content i = some a → key' a = key a) : t.KeysDistinct key' := by
  intro i j a b ha hb heq
  rw [hkey i a ha, hkey j b hb] at heq
  exact h i j a b ha hb heq

theorem KeysDistinct.slotWith [DecidableEq κ] (h : t.KeysDistinct key)
    (ha : t.content i = some a) :
    t.slotWith (fun b => key b = key a) = some i := by
  rw [slotWith_eq_some]
  refine ⟨⟨a, ha, by simp⟩, fun j hj b hb heq => ?_⟩
  rw [h j i b a hb ha (by simpa using heq)] at hj
  exact Nat.lt_irrefl _ hj

end Slots

end Winspd.Lib
