import Mathlib.Data.List.Infix

/-!
# Trees of keys with values

A tree of keys is the set of the paths to them: the root is in it, and with a path
every prefix of it. A key has values by their names.

A tree grows when keys are inserted, with what is missing in front of them, and
values are set. A list of removals takes trees and values away again.
`Grown t₀ rs t` says that what `t` has and `t₀` has not is at, below or above what
is removed. Then the removals give `t₀` back (`Grown.restored`) if what is missing
above a removed tree is removed too (`Covered`), and only then
(`covered_of_restored`).
-/

namespace Winspd.Lib

/-- Keys and values. -/
@[ext] structure KeyTree (κ ν δ : Type) where
  keys : List κ → Bool
  values : List κ → ν → Option δ
  root : keys [] = true
  closed : ∀ {p q}, p <+: q → keys q = true → keys p = true
  valued : ∀ {p} v, keys p = false → values p v = none

/-- A key with all that is below it, or a value. -/
inductive Removal (κ ν : Type)
  | tree (p : List κ)
  | value (p : List κ) (v : ν)
  deriving DecidableEq, Repr

namespace KeyTree

variable {κ ν δ : Type} {t t₀ : KeyTree κ ν δ} {rs : List (Removal κ ν)} {p q : List κ}
  {v w : ν} {d : δ}

theorem eq_of_iff {t' : KeyTree κ ν δ} (hkeys : ∀ q, t.keys q = true ↔ t'.keys q = true)
    (hvalues : ∀ q v d, t.values q v = some d ↔ t'.values q v = some d) : t = t' :=
  KeyTree.ext (funext fun q => Bool.eq_iff_iff.mpr (hkeys q))
    (funext fun q => funext fun v => Option.ext (hvalues q v))

theorem keys_below (h : t.keys p = false) (hpre : p <+: q) : t.keys q = false := by
  refine Bool.eq_false_iff.mpr fun hq => ?_
  exact Bool.false_ne_true (h.symm.trans (t.closed hpre hq))

theorem not_below (h : t.keys p = false) (hq : t.keys q = true) : ¬ p <+: q := by
  intro hpre
  exact Bool.false_ne_true ((keys_below h hpre).symm.trans hq)

theorem keys_of_value (h : t.values q v = some d) : t.keys q = true := by
  by_contra hq
  rw [t.valued v (Bool.eq_false_iff.mpr hq)] at h
  cases h

/-! ## Growth -/

def New (t₀ : KeyTree κ ν δ) : Removal κ ν → Prop
  | .tree p => t₀.keys p = false
  | .value p v => t₀.values p v = none

/-- What has become of `t₀`. -/
structure Grown (t₀ : KeyTree κ ν δ) (rs : List (Removal κ ν))
    (t : KeyTree κ ν δ) : Prop where
  keeps : ∀ q, t₀.keys q = true → t.keys q = true
  keys : ∀ q, t.keys q = true → t₀.keys q = true ∨ ∃ p, .tree p ∈ rs ∧
    (p <+: q ∨ q <+: p)
  values : ∀ q v, t₀.keys q = true → .value q v ∉ rs → t.values q v = t₀.values q v

/-- What is missing above a removed tree is in one. -/
def Covered (t₀ : KeyTree κ ν δ) (rs : List (Removal κ ν)) : Prop :=
  ∀ p, .tree p ∈ rs → ∀ q, q <+: p → t₀.keys q = false →
    ∃ p', .tree p' ∈ rs ∧ p' <+: q

theorem Grown.refl : Grown t₀ rs t₀ := ⟨fun _ => id, fun _ => .inl, fun _ _ _ _ => rfl⟩

/-! ## Keys -/

def leaf : KeyTree κ ν δ where
  keys q := q.isEmpty
  values _ _ := none
  root := rfl
  closed hpre hq := by
    rw [List.isEmpty_iff] at hq ⊢
    exact List.prefix_nil.mp (hq ▸ hpre)
  valued _ _ := rfl

variable [DecidableEq κ]

/-- A key, with what is missing in front of it. -/
def insert (t : KeyTree κ ν δ) (p : List κ) : KeyTree κ ν δ where
  keys q := t.keys q || decide (q <+: p)
  values := t.values
  root := by rw [t.root, Bool.true_or]
  closed hpre hq := by
    rw [Bool.or_eq_true, decide_eq_true_eq] at hq ⊢
    exact hq.imp (t.closed hpre) hpre.trans
  valued v hq := t.valued v (Bool.or_eq_false_iff.mp hq).1

/-- A key and all that is below it; the root itself stays. -/
def remove (t : KeyTree κ ν δ) (p : List κ) : KeyTree κ ν δ where
  keys q := t.keys q && decide (q ≠ [] → ¬ p <+: q)
  values q v := if p <+: q then none else t.values q v
  root := by rw [t.root, Bool.true_and, decide_eq_true_eq]; exact fun h => absurd rfl h
  closed hpre hq := by
    rw [Bool.and_eq_true, decide_eq_true_eq] at hq ⊢
    refine ⟨t.closed hpre hq.1, fun hne hp => hq.2 (fun hnil => ?_) (hp.trans hpre)⟩
    exact hne (List.prefix_nil.mp (hnil ▸ hpre))
  valued v hq := by
    split
    · rfl
    · next hp =>
        rw [Bool.and_eq_false_iff, decide_eq_false_iff_not] at hq
        exact t.valued v (hq.resolve_right fun h => h fun _ => hp)

theorem keys_insert : (t.insert p).keys q = true ↔ t.keys q = true ∨ q <+: p := by
  rw [insert, Bool.or_eq_true, decide_eq_true_eq]

theorem keys_remove :
    (t.remove p).keys q = true ↔ t.keys q = true ∧ (q ≠ [] → ¬ p <+: q) := by
  rw [remove, Bool.and_eq_true, decide_eq_true_eq]

theorem values_remove :
    (t.remove p).values q v = some d ↔ ¬ p <+: q ∧ t.values q v = some d := by
  rw [remove]
  dsimp only
  split
  · next hp => exact ⟨fun h => (by cases h), fun h => absurd hp h.1⟩
  · next hp => exact ⟨fun h => ⟨hp, h⟩, And.right⟩

theorem Grown.insert (h : Grown t₀ rs t)
    (hp : ∃ p', .tree p' ∈ rs ∧ (p' <+: p ∨ p <+: p')) :
    Grown t₀ rs (t.insert p) := by
  refine ⟨fun q hq => keys_insert.mpr (.inl (h.keeps q hq)), fun q hq => ?_, h.values⟩
  rcases keys_insert.mp hq with hq | hq
  · exact h.keys q hq
  · obtain ⟨p', hmem, hp | hp⟩ := hp
    · exact .inr ⟨p', hmem, List.prefix_or_prefix_of_prefix hp hq⟩
    · exact .inr ⟨p', hmem, .inr (hq.trans hp)⟩

theorem remove_of_not (h : t.keys p = false) : t.remove p = t := by
  refine eq_of_iff (fun q => ?_) fun q v d => ?_
  · rw [keys_remove]
    exact ⟨And.left, fun hq => ⟨hq, fun _ => not_below h hq⟩⟩
  · rw [values_remove]
    exact ⟨And.right, fun hv => ⟨not_below h (keys_of_value hv), hv⟩⟩

/-! ## Values -/

variable [DecidableEq ν]

/-- A value of a key that is there. -/
def setValue (t : KeyTree κ ν δ) (p : List κ) (v : ν) (d : δ) : KeyTree κ ν δ where
  keys := t.keys
  values q w := if t.keys q = true ∧ q = p ∧ w = v then some d else t.values q w
  root := t.root
  closed := t.closed
  valued w hq := by
    rw [if_neg (fun h => Bool.false_ne_true (hq.symm.trans h.1)), t.valued w hq]

def eraseValue (t : KeyTree κ ν δ) (p : List κ) (v : ν) : KeyTree κ ν δ where
  keys := t.keys
  values q w := if q = p ∧ w = v then none else t.values q w
  root := t.root
  closed := t.closed
  valued w hq := by rw [t.valued w hq, ite_self]

theorem values_setValue (h : ¬ (q = p ∧ w = v)) :
    (t.setValue p v d).values q w = t.values q w :=
  if_neg fun hset => h hset.2

theorem Grown.setValue (h : Grown t₀ rs t) (hp : t₀.keys p = false ∨ .value p v ∈ rs) :
    Grown t₀ rs (t.setValue p v d) := by
  refine ⟨h.keeps, h.keys, fun q w hq hnot => ?_⟩
  rw [values_setValue, h.values q w hq hnot]
  rintro ⟨rfl, rfl⟩
  rcases hp with hp | hp
  · exact Bool.false_ne_true (hp.symm.trans hq)
  · exact hnot hp

theorem values_eraseValue :
    (t.eraseValue p v).values q w = some d ↔ ¬ (q = p ∧ w = v) ∧ t.values q w = some d := by
  rw [eraseValue]
  dsimp only
  split
  · next hp => exact ⟨fun h => (by cases h), fun h => absurd hp h.1⟩
  · next hp => exact ⟨fun h => ⟨hp, h⟩, And.right⟩

theorem eraseValue_of_none (h : t.values p v = none) : t.eraseValue p v = t := by
  refine eq_of_iff (fun q => Iff.rfl) fun q w d => ?_
  rw [values_eraseValue]
  refine ⟨And.right, fun hw => ⟨?_, hw⟩⟩
  rintro ⟨rfl, rfl⟩
  rw [h] at hw
  cases hw

/-! ## Removals -/

def without (t : KeyTree κ ν δ) : Removal κ ν → KeyTree κ ν δ
  | .tree p => t.remove p
  | .value p v => t.eraseValue p v

def withoutAll (t : KeyTree κ ν δ) (rs : List (Removal κ ν)) : KeyTree κ ν δ :=
  rs.foldl without t

theorem keys_withoutAll : (t.withoutAll rs).keys q = true ↔
    t.keys q = true ∧ (q ≠ [] → ∀ p, .tree p ∈ rs → ¬ p <+: q) := by
  induction rs generalizing t with
  | nil => exact ⟨fun h => ⟨h, fun _ p hmem => absurd hmem List.not_mem_nil⟩, And.left⟩
  | cons r rs ih =>
      have hstep := @ih (t.without r)
      rw [withoutAll] at hstep ⊢
      rw [List.foldl_cons, hstep]
      cases r with
      | tree p =>
          rw [without, keys_remove]
          constructor
          · rintro ⟨⟨hq, hp⟩, hrest⟩
            refine ⟨hq, fun hne p' hmem => ?_⟩
            rcases List.mem_cons.mp hmem with heq | hmem
            · cases heq
              exact hp hne
            · exact hrest hne p' hmem
          · rintro ⟨hq, hall⟩
            exact ⟨⟨hq, fun hne => hall hne p List.mem_cons_self⟩,
              fun hne p' hmem => hall hne p' (List.mem_cons_of_mem _ hmem)⟩
      | value p v =>
          refine and_congr_right fun _ => forall_congr' fun _ => forall_congr' fun p' => ?_
          rw [List.mem_cons, or_iff_right (by simp)]

theorem values_withoutAll : (t.withoutAll rs).values q v = some d ↔
    t.values q v = some d ∧ .value q v ∉ rs ∧ ∀ p, .tree p ∈ rs → ¬ p <+: q := by
  induction rs generalizing t with
  | nil =>
      exact ⟨fun h => ⟨h, List.not_mem_nil, fun p hmem => absurd hmem List.not_mem_nil⟩,
        And.left⟩
  | cons r rs ih =>
      have hstep := @ih (t.without r)
      rw [withoutAll] at hstep ⊢
      rw [List.foldl_cons, hstep]
      cases r with
      | tree p =>
          simp only [without, values_remove, List.mem_cons, reduceCtorEq, false_or,
            Removal.tree.injEq]
          constructor
          · rintro ⟨⟨hp, hv⟩, hnot, hall⟩
            refine ⟨hv, hnot, ?_⟩
            rintro p' (rfl | hmem)
            · exact hp
            · exact hall p' hmem
          · rintro ⟨hv, hnot, hall⟩
            exact ⟨⟨hall p (.inl rfl), hv⟩, hnot, fun p' hmem => hall p' (.inr hmem)⟩
      | value p w =>
          simp only [without, values_eraseValue, List.mem_cons, reduceCtorEq, false_or,
            Removal.value.injEq, not_or]
          tauto

theorem withoutAll_withoutAll : (t.withoutAll rs).withoutAll rs = t.withoutAll rs := by
  refine eq_of_iff (fun q => ?_) fun q v d => ?_
  · rw [keys_withoutAll, keys_withoutAll]
    exact ⟨And.left, fun h => ⟨h, h.2⟩⟩
  · rw [values_withoutAll, values_withoutAll]
    exact ⟨And.left, fun h => ⟨h, h.2⟩⟩

theorem without_keeps {r : Removal κ ν} (hnew : New t₀ r)
    (hkeeps : ∀ q, t₀.keys q = true → t.keys q = true) (hq : t₀.keys q = true) :
    (t.without r).keys q = true := by
  cases r with
  | value p v => exact hkeeps q hq
  | tree p =>
      rw [without, keys_remove]
      exact ⟨hkeeps q hq, fun _ => not_below hnew hq⟩

/-! ## What is given back -/

theorem Grown.restored (h : Grown t₀ rs t) (hnew : ∀ r ∈ rs, New t₀ r)
    (hcovered : Covered t₀ rs) :
    t.withoutAll rs = t₀ := by
  have hkept : ∀ {q}, t₀.keys q = true → ∀ p, .tree p ∈ rs → ¬ p <+: q :=
    fun hq p hmem => not_below (hnew _ hmem) hq
  have hkeys : ∀ q, (t.withoutAll rs).keys q = true ↔ t₀.keys q = true := by
    intro q
    rw [keys_withoutAll]
    refine ⟨?_, fun hq => ⟨h.keeps q hq, fun _ => hkept hq⟩⟩
    rintro ⟨hq, hall⟩
    by_contra hnot
    have hne : q ≠ [] := fun hnil => hnot (hnil ▸ t₀.root)
    rcases h.keys q hq with hq | ⟨p, hmem, hp | hp⟩
    · exact hnot hq
    · exact hall hne p hmem hp
    · obtain ⟨p', hmem', hp'⟩ := hcovered p hmem q hp (Bool.eq_false_iff.mpr hnot)
      exact hall hne p' hmem' hp'
  refine eq_of_iff hkeys fun q v d => ⟨fun hv => ?_, fun hv => ?_⟩
  · have hq := (hkeys q).mp (keys_of_value hv)
    obtain ⟨hv, hnot, -⟩ := values_withoutAll.mp hv
    rwa [h.values q v hq hnot] at hv
  · have hq := keys_of_value hv
    have hnot : .value q v ∉ rs := by
      intro hmem
      have hnone : t₀.values q v = none := hnew _ hmem
      rw [hnone] at hv
      cases hv
    rw [values_withoutAll, h.values q v hq hnot]
    exact ⟨hv, hnot, hkept hq⟩

theorem covered_of_restored (hall : ∀ p, .tree p ∈ rs → t.keys p = true)
    (h : t.withoutAll rs = t₀) : Covered t₀ rs := by
  intro p hmem q hq hnot
  by_contra hno
  have hkey : (t.withoutAll rs).keys q = true :=
    keys_withoutAll.mpr ⟨t.closed hq (hall p hmem),
      fun _ p' hmem' hp' => hno ⟨p', hmem', hp'⟩⟩
  rw [h, hnot] at hkey
  cases hkey

end KeyTree

end Winspd.Lib
