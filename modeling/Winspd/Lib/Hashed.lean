import Mathlib.Data.List.Nodup
import Mathlib.Logic.Function.Basic

/-!
# Hash tables of items

A hash table of key and value pairs, a bucket being the list of its items.
`take` removes the first item with a key and says what its value was, and `put`
adds an item in front of its bucket unless the key is there.

`Hashed.Ok` says that every item is in its own bucket and no key has two items.
A table that satisfies it is a partial map, `get`, and the rules say what each
operation does to that map.
-/

namespace Winspd.Lib

abbrev Hashed (ι κ ν : Type*) := ι → List (κ × ν)

variable {ι κ ν : Type*} [DecidableEq ι] [DecidableEq κ]

def unlink (k : κ) : List (κ × ν) → Option ν × List (κ × ν)
  | [] => (none, [])
  | e :: es => if e.1 = k then (some e.2, es) else ((unlink k es).1, e :: (unlink k es).2)

namespace Hashed

variable {T : Hashed ι κ ν} {hash : κ → ι} {k k' : κ} {v v' : ν} {i : ι}

def get (T : Hashed ι κ ν) (hash : κ → ι) (k : κ) : Option ν :=
  ((T (hash k)).find? fun e => e.1 = k).map Prod.snd

def take (T : Hashed ι κ ν) (hash : κ → ι) (k : κ) : Option ν × Hashed ι κ ν :=
  let (v, es) := unlink k (T (hash k))
  (v, Function.update T (hash k) es)

/-- A key that is there already is refused, and so is one there is no memory
for. -/
def put (T : Hashed ι κ ν) (hash : κ → ι) (memory : Bool) (k : κ) (v : ν) :
    Bool × Hashed ι κ ν :=
  if (T (hash k)).any fun e => e.1 = k then (false, T)
  else if memory then (true, Function.update T (hash k) ((k, v) :: T (hash k)))
  else (false, T)

/-- Every item is in its bucket, and no two items have one key. -/
structure Ok (T : Hashed ι κ ν) (hash : κ → ι) : Prop where
  placed : ∀ i, ∀ e ∈ T i, hash e.1 = i
  keys : ∀ i, ((T i).map Prod.fst).Nodup

/-! ## One bucket -/

theorem unlink_fst {es : List (κ × ν)} :
    (unlink k es).1 = (es.find? fun e => e.1 = k).map Prod.snd := by
  induction es with
  | nil => rfl
  | cons e es ih =>
      by_cases h : e.1 = k
      · simp [unlink, h]
      · simp [unlink, h, ih]

/-- When a key has one item at most, what is left are the other items. -/
theorem unlink_snd {es : List (κ × ν)} (hes : (es.map Prod.fst).Nodup) :
    (unlink k es).2 = es.filter fun e => e.1 ≠ k := by
  induction es with
  | nil => rfl
  | cons e es ih =>
      rw [List.map_cons, List.nodup_cons] at hes
      by_cases h : e.1 = k
      · have hrest : es.filter (fun e => e.1 ≠ k) = es := by
          refine List.filter_eq_self.mpr fun e' he' => ?_
          have hne : e'.1 ≠ k := fun heq => hes.1 (by
            rw [h, ← heq]
            exact List.mem_map_of_mem he')
          exact decide_eq_true hne
        rw [unlink, if_pos h, List.filter_cons_of_neg (by simp [h]), hrest]
      · rw [unlink, if_neg h, List.filter_cons_of_pos (by simp [h]), ih hes.2]

/-! ## The table -/

omit [DecidableEq ι] [DecidableEq κ] in
theorem ok_empty : Ok (fun _ => [] : Hashed ι κ ν) hash :=
  ⟨fun _ _ he => absurd he List.not_mem_nil, fun _ => List.nodup_nil⟩

omit [DecidableEq ι] in
theorem Ok.mem_iff (hT : Ok T hash) : (k, v) ∈ T i ↔ hash k = i ∧ T.get hash k = some v := by
  constructor
  · intro hmem
    have hi := hT.placed i (k, v) hmem
    subst hi
    refine ⟨rfl, ?_⟩
    cases hfind : (T (hash k)).find? (fun e => e.1 = k) with
    | none =>
        have hno := List.find?_eq_none.mp hfind _ hmem
        simp at hno
    | some e =>
        have hk : e.1 = k := by simpa using List.find?_some hfind
        have he := List.mem_of_find?_eq_some hfind
        have heq : e = (k, v) := List.inj_on_of_nodup_map (hT.keys _) he hmem hk
        rw [get, hfind, heq]
        rfl
  · rintro ⟨rfl, hget⟩
    rw [get, Option.map_eq_some_iff] at hget
    obtain ⟨⟨k', v'⟩, hfind, rfl⟩ := hget
    have hk : k' = k := by simpa using List.find?_some hfind
    have hmem := List.mem_of_find?_eq_some hfind
    rw [hk] at hmem
    exact hmem

theorem take_fst : (T.take hash k).1 = T.get hash k := unlink_fst

theorem Ok.take (hT : Ok T hash) : Ok (T.take hash k).2 hash := by
  have hsnd := unlink_snd (k := k) (hT.keys (hash k))
  refine ⟨fun i e he => ?_, fun i => ?_⟩
  · by_cases hi : i = hash k
    · subst hi
      simp only [Hashed.take, Function.update_self, hsnd] at he
      exact hT.placed _ e (List.mem_of_mem_filter he)
    · simp only [Hashed.take, Function.update_of_ne hi] at he
      exact hT.placed i e he
  · by_cases hi : i = hash k
    · subst hi
      simp only [Hashed.take, Function.update_self, hsnd]
      exact (hT.keys _).sublist (List.filter_sublist.map _)
    · simp only [Hashed.take, Function.update_of_ne hi]
      exact hT.keys i

theorem Ok.get_take (hT : Ok T hash) :
    (T.take hash k).2.get hash k' = if k' = k then none else T.get hash k' := by
  have hsnd := unlink_snd (k := k) (hT.keys (hash k))
  by_cases hi : hash k' = hash k
  · simp only [Hashed.take, get, hi, Function.update_self, hsnd, List.find?_filter]
    split
    · next h =>
        subst h
        rw [Option.map_eq_none_iff, List.find?_eq_none]
        intro e _
        simp
    · next h =>
        refine congrArg _ (congrArg₂ _ (funext fun e => ?_) rfl)
        by_cases he : e.1 = k'
        · simp [he, h]
        · simp [he]
  · have hk : k' ≠ k := fun h => hi (by rw [h])
    simp only [Hashed.take, get, Function.update_of_ne hi, if_neg hk]

/-- A put goes in exactly when the key is not there and there is memory. -/
theorem put_fst {memory : Bool} :
    (T.put hash memory k v).1 = true ↔ T.get hash k = none ∧ memory = true := by
  have hany : ((T (hash k)).any fun e => e.1 = k) = true ↔ ¬ T.get hash k = none := by
    rw [get, Option.map_eq_none_iff, List.find?_eq_none, List.any_eq_true]
    simp
  rw [put]
  split
  · next h => simp [hany.mp h]
  · next h =>
      rw [hany, not_not] at h
      cases memory <;> simp [h]

theorem put_of_not {memory : Bool} (h : (T.put hash memory k v).1 = false) :
    (T.put hash memory k v).2 = T := by
  unfold put at h ⊢
  split
  · rfl
  · next hany =>
      rw [if_neg hany] at h
      split at h
      · cases h
      · next hmem => rw [if_neg hmem]

theorem put_snd {memory : Bool} (h : (T.put hash memory k v).1 = true) :
    (T.put hash memory k v).2 = Function.update T (hash k) ((k, v) :: T (hash k)) := by
  unfold put at h ⊢
  split
  · next hany =>
      rw [if_pos hany] at h
      cases h
  · next hany =>
      rw [if_neg hany] at h
      split at h
      · next hmem => rw [if_pos hmem]
      · cases h

theorem Ok.put {memory : Bool} (hT : Ok T hash) : Ok (T.put hash memory k v).2 hash := by
  cases hput : (T.put hash memory k v).1 with
  | false => rwa [put_of_not hput]
  | true =>
      rw [put_snd hput]
      have hnone := (put_fst.mp hput).1
      refine ⟨fun i e he => ?_, fun i => ?_⟩
      · by_cases hi : i = hash k
        · subst hi
          rw [Function.update_self, List.mem_cons] at he
          rcases he with rfl | he
          · rfl
          · exact hT.placed _ e he
        · rw [Function.update_of_ne hi] at he
          exact hT.placed i e he
      · by_cases hi : i = hash k
        · subst hi
          rw [Function.update_self, List.map_cons, List.nodup_cons]
          refine ⟨fun hmem => ?_, hT.keys _⟩
          obtain ⟨e, he, hek⟩ := List.mem_map.mp hmem
          have hget := (hT.mem_iff.mp (show (e.1, e.2) ∈ T (hash k) from he)).2
          rw [hek, hnone] at hget
          cases hget
        · rw [Function.update_of_ne hi]
          exact hT.keys i

theorem get_put {memory : Bool} (h : (T.put hash memory k v).1 = true) :
    (T.put hash memory k v).2.get hash k' = if k' = k then some v else T.get hash k' := by
  rw [put_snd h]
  by_cases hi : hash k' = hash k
  · by_cases hk : k' = k
    · subst hk
      simp [get]
    · simp [get, hi, hk, Ne.symm hk]
  · have hk : k' ≠ k := fun h => hi (by rw [h])
    simp only [get, Function.update_of_ne hi, if_neg hk]

end Hashed

end Winspd.Lib
