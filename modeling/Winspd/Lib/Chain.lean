import Mathlib.Data.List.Basic
import Mathlib.Logic.Function.Basic

/-!
# Chained hash tables

An intrusive hash table: an array of chain heads, and in every element the
pointer to the next element of its chain. A pointer that ends a chain is
`null`.

A C program searches such a table with a pointer to a pointer, so that the
place it stops at is the place to write when the element is to be taken out.
`Loc` is such a place, a chain head or the pointer inside an element, and
`Chains.find` is the loop. The loop runs on fuel, because nothing in the
store alone says that a chain ends; the rules give it enough.

`Table C null hash xs` says that bucket `i` holds exactly the elements
`xs i`, in that order, each once, and that every one of them hashes to `i`.
-/

namespace Winspd.Lib

/-- The stored pointers of a chained hash table. -/
structure Chains (ι α : Type*) where
  head : ι → α
  next : α → α

/-- A place that holds a pointer: a chain head or an element. -/
inductive Loc (ι α : Type*) where
  | head (i : ι)
  | next (x : α)

def Loc.touched {ι α : Type*} : Loc ι α → List α
  | .head _ => []
  | .next x => [x]

namespace Chains

variable {ι α : Type*} [DecidableEq ι] [DecidableEq α]

def read (C : Chains ι α) : Loc ι α → α
  | .head i => C.head i
  | .next x => C.next x

def write (C : Chains ι α) : Loc ι α → α → Chains ι α
  | .head i, p => { C with head := Function.update C.head i p }
  | .next x, p => { C with next := Function.update C.next x p }

@[simp] theorem read_write_self (C : Chains ι α) (P : Loc ι α) (p : α) :
    (C.write P p).read P = p := by
  cases P <;> simp [read, write]

theorem read_write_of_ne {C : Chains ι α} {P Q : Loc ι α} {p : α} (h : P ≠ Q) :
    (C.write Q p).read P = C.read P := by
  cases P <;> cases Q <;> simp_all [read, write]

/-- The loop `for (P = ...; *P; P = &(*P)->Next) if (*P == x)`: the place
where `x` was found, if it was. -/
def find (C : Chains ι α) (null x : α) : Nat → Loc ι α → Option (Option (Loc ι α))
  | 0, _ => none
  | fuel + 1, P =>
      if C.read P = null then some none
      else if C.read P = x then some (some P)
      else C.find null x fuel (.next (C.read P))

/-- The loop `for (X = ...; X; X = X->Next) ASSERT(X != x)`, from `p` on: whether
the assertion held each time. -/
def avoids (C : Chains ι α) (null x : α) : Nat → α → Option Bool
  | 0, _ => none
  | fuel + 1, p =>
      if p = null then some true
      else (C.avoids null x fuel (C.next p)).map fun held => p ≠ x && held

/-- The elements whose pointer the loop of `find` reads. -/
def findTouched (C : Chains ι α) (null x : α) : Nat → Loc ι α → Option (List α)
  | 0, _ => none
  | fuel + 1, P =>
      if C.read P = null then some P.touched
      else if C.read P = x then some P.touched
      else (C.findTouched null x fuel (.next (C.read P))).map (P.touched ++ ·)

/-- Those of the loop of `avoids`. -/
def avoidsTouched (C : Chains ι α) (null : α) : Nat → α → Option (List α)
  | 0, _ => none
  | fuel + 1, p =>
      if p = null then some [] else (C.avoidsTouched null fuel (C.next p)).map (p :: ·)

/-- Put `x` in front of chain `i`. -/
def push (C : Chains ι α) (i : ι) (x : α) : Chains ι α :=
  (C.write (.next x) (C.head i)).write (.head i) x

end Chains

variable {ι α : Type*} {next next' : α → α} {null p x : α} {xs pre post : List α}

/-! ## One chain -/

/-- Following `next` from `p` meets exactly `xs` and then `null`. -/
def Chain (next : α → α) (null : α) : α → List α → Prop
  | p, [] => p = null
  | p, x :: xs => p = x ∧ x ≠ null ∧ Chain next null (next x) xs

theorem chain_nil : Chain next null p [] ↔ p = null := Iff.rfl

theorem chain_cons :
    Chain next null p (x :: xs) ↔ p = x ∧ x ≠ null ∧ Chain next null (next x) xs := Iff.rfl

theorem Chain.congr (hc : Chain next null p xs) (hn : ∀ x ∈ xs, next' x = next x) :
    Chain next' null p xs := by
  induction xs generalizing p with
  | nil => exact hc
  | cons x xs ih =>
      rw [chain_cons] at hc ⊢
      rw [hn x (by simp)]
      exact ⟨hc.1, hc.2.1, ih hc.2.2 fun y hy => hn y (List.mem_cons_of_mem _ hy)⟩

theorem Chain.ne_null (hc : Chain next null p xs) {y : α} (hy : y ∈ xs) : y ≠ null := by
  induction xs generalizing p with
  | nil => cases hy
  | cons x xs ih =>
      rcases List.mem_cons.mp hy with rfl | hy
      · exact hc.2.1
      · exact ih hc.2.2 hy

section Find

variable {C : Chains ι α} {P : Loc ι α} {fuel : Nat}

/-- The place that points past `pre`, starting from the place `P`. -/
def lastLoc (P : Loc ι α) (pre : List α) : Loc ι α := (pre.getLast?).elim P .next

theorem lastLoc_nil : lastLoc P ([] : List α) = P := rfl

theorem lastLoc_cons {y : α} : lastLoc P (y :: pre) = lastLoc (.next y) pre := by
  cases pre with
  | nil => rfl
  | cons z pre =>
      rw [lastLoc, lastLoc, List.getLast?_cons_cons, List.getLast?_cons]
      rfl

theorem lastLoc_next (y : α) (pre : List α) :
    ∃ z ∈ y :: pre, lastLoc (.next y : Loc ι α) pre = .next z := by
  induction pre generalizing y with
  | nil => exact ⟨y, by simp, rfl⟩
  | cons z pre ih =>
      obtain ⟨w, hw, heq⟩ := ih z
      exact ⟨w, List.mem_cons_of_mem _ hw, by rw [lastLoc_cons, heq]⟩

variable [DecidableEq α]

/-- The loop stops at the first place that holds `x`. -/
theorem Chain.find_mem (hc : Chain C.next null (C.read P) (pre ++ x :: post)) (hx : x ∉ pre)
    (hfuel : pre.length < fuel) : C.find null x fuel P = some (some (lastLoc P pre)) := by
  induction pre generalizing P fuel with
  | nil =>
      obtain ⟨fuel, rfl⟩ : ∃ m, fuel = m + 1 := ⟨fuel - 1, by omega⟩
      rw [List.nil_append, chain_cons] at hc
      rw [Chains.find, if_neg (hc.1 ▸ hc.2.1), if_pos hc.1, lastLoc_nil]
  | cons y pre ih =>
      rw [List.length_cons] at hfuel
      obtain ⟨fuel, rfl⟩ : ∃ m, fuel = m + 1 := ⟨fuel - 1, by omega⟩
      rw [List.cons_append, chain_cons] at hc
      simp only [List.mem_cons, not_or] at hx
      rw [Chains.find, if_neg (hc.1 ▸ hc.2.1), if_neg (hc.1 ▸ Ne.symm hx.1), hc.1, lastLoc_cons]
      exact ih hc.2.2 hx.2 (by omega)

/-- The loop runs off the end of a chain without `x`. -/
theorem Chain.find_notMem (hc : Chain C.next null (C.read P) xs) (hx : x ∉ xs)
    (hfuel : xs.length < fuel) : C.find null x fuel P = some none := by
  induction xs generalizing P fuel with
  | nil =>
      obtain ⟨fuel, rfl⟩ : ∃ m, fuel = m + 1 := ⟨fuel - 1, by omega⟩
      rw [Chains.find, if_pos (chain_nil.mp hc)]
  | cons y xs ih =>
      rw [List.length_cons] at hfuel
      obtain ⟨fuel, rfl⟩ : ∃ m, fuel = m + 1 := ⟨fuel - 1, by omega⟩
      rw [chain_cons] at hc
      simp only [List.mem_cons, not_or] at hx
      rw [Chains.find, if_neg (hc.1 ▸ hc.2.1), if_neg (hc.1 ▸ Ne.symm hx.1), hc.1]
      exact ih hc.2.2 hx.2 (by omega)

/-- The loop stops at the place it started from, or inside the chain. -/
theorem Chain.find_place {Q : Loc ι α} (hc : Chain C.next null (C.read P) xs)
    (h : C.find null x fuel P = some (some Q)) : Q = P ∨ ∃ y ∈ xs, Q = .next y := by
  induction xs generalizing P fuel with
  | nil =>
      cases fuel with
      | zero => cases h
      | succ fuel =>
          rw [Chains.find, if_pos (chain_nil.mp hc)] at h
          cases h
  | cons y xs ih =>
      rw [chain_cons] at hc
      cases fuel with
      | zero => cases h
      | succ fuel =>
          rw [Chains.find, if_neg (hc.1 ▸ hc.2.1), hc.1] at h
          split at h
          · cases h
            exact .inl rfl
          · rcases ih (show Chain C.next null (C.read (.next y)) xs from hc.2.2) h with
              rfl | ⟨z, hz, rfl⟩
            · exact .inr ⟨y, List.mem_cons_self, rfl⟩
            · exact .inr ⟨z, List.mem_cons_of_mem _ hz, rfl⟩

/-- The assertion holds each time when `x` is not on the chain. -/
theorem Chain.avoids (hc : Chain C.next null p xs) (hfuel : xs.length < fuel) :
    C.avoids null x fuel p = some (decide (x ∉ xs)) := by
  induction xs generalizing p fuel with
  | nil =>
      obtain ⟨fuel, rfl⟩ : ∃ m, fuel = m + 1 := ⟨fuel - 1, by omega⟩
      rw [Chains.avoids, if_pos (chain_nil.mp hc)]
      simp
  | cons y xs ih =>
      rw [List.length_cons] at hfuel
      obtain ⟨fuel, rfl⟩ : ∃ m, fuel = m + 1 := ⟨fuel - 1, by omega⟩
      obtain ⟨rfl, hnull, hrest⟩ := hc
      rw [Chains.avoids, if_neg hnull, ih hrest (by omega), Option.map_some]
      simp [eq_comm]

/-- The loop reads the pointers of elements of the chain, and the one in the place
it starts from. -/
theorem Chain.findTouched (hc : Chain C.next null (C.read P) xs) (hfuel : xs.length < fuel) :
    ∃ ys, C.findTouched null x fuel P = some ys ∧ ∀ y ∈ ys, y ∈ P.touched ∨
      y ∈ xs := by
  induction xs generalizing P fuel with
  | nil =>
      obtain ⟨fuel, rfl⟩ : ∃ m, fuel = m + 1 := ⟨fuel - 1, by omega⟩
      rw [Chains.findTouched, if_pos (chain_nil.mp hc)]
      exact ⟨_, rfl, fun y hy => .inl hy⟩
  | cons z xs ih =>
      rw [List.length_cons] at hfuel
      obtain ⟨fuel, rfl⟩ : ∃ m, fuel = m + 1 := ⟨fuel - 1, by omega⟩
      obtain ⟨hread, hnull, hrest⟩ := chain_cons.mp hc
      obtain ⟨ys, hys, hmem⟩ := ih (P := .next z) hrest (show xs.length < fuel by omega)
      rw [Chains.findTouched, hread, if_neg hnull]
      split
      · exact ⟨_, rfl, fun y hy => .inl hy⟩
      · refine ⟨P.touched ++ ys, by rw [hys, Option.map_some], fun y hy => ?_⟩
        rcases List.mem_append.mp hy with hy | hy
        · exact .inl hy
        · rcases hmem y hy with hz | hy
          · rw [List.mem_singleton.mp hz]
            exact .inr List.mem_cons_self
          · exact .inr (List.mem_cons_of_mem _ hy)

theorem Chain.avoidsTouched (hc : Chain C.next null p xs) (hfuel : xs.length < fuel) :
    C.avoidsTouched null fuel p = some xs := by
  induction xs generalizing p fuel with
  | nil =>
      obtain ⟨fuel, rfl⟩ : ∃ m, fuel = m + 1 := ⟨fuel - 1, by omega⟩
      rw [Chains.avoidsTouched, if_pos (chain_nil.mp hc)]
  | cons y xs ih =>
      rw [List.length_cons] at hfuel
      obtain ⟨fuel, rfl⟩ : ∃ m, fuel = m + 1 := ⟨fuel - 1, by omega⟩
      obtain ⟨rfl, hnull, hrest⟩ := hc
      rw [Chains.avoidsTouched, if_neg hnull, ih hrest (by omega), Option.map_some]

variable [DecidableEq ι]

/-- Writing `x`'s own pointer where `x` was found takes `x` out. -/
theorem Chain.unlink (hc : Chain C.next null (C.read P) (pre ++ x :: post))
    (hnd : (pre ++ x :: post).Nodup) (hP : ∀ y ∈ pre ++ x :: post, P ≠ .next y) :
    let C' := C.write (lastLoc P pre) (C.next x)
    Chain C'.next null (C'.read P) (pre ++ post) := by
  induction pre generalizing P with
  | nil =>
      rw [List.nil_append, chain_cons] at hc
      simp only [lastLoc_nil, List.nil_append, Chains.read_write_self]
      refine hc.2.2.congr fun y hy => ?_
      cases P with
      | head i => rfl
      | next z =>
          have hyz : y ≠ z := fun hyz => hP y (by simp [hy]) (by rw [hyz])
          simp [Chains.write, hyz]
  | cons y pre ih =>
      rw [List.cons_append, chain_cons] at hc
      obtain ⟨hy, hnd'⟩ := List.nodup_cons.mp hnd
      have hrec := ih (P := .next y) hc.2.2 hnd' fun z hz => by
        rintro ⟨⟩
        exact hy hz
      -- the write is behind `y`, so what `P` points to stays
      obtain ⟨z, hz, hloc⟩ := lastLoc_next (ι := ι) y pre
      have hPz : P ≠ lastLoc (.next y) pre := by
        rw [hloc]
        refine hP z ?_
        rw [List.cons_append]
        rcases List.mem_cons.mp hz with rfl | hz
        · simp
        · simp [hz]
      simp only [lastLoc_cons, List.cons_append, chain_cons,
        Chains.read_write_of_ne hPz] at hrec ⊢
      exact ⟨hc.1, hc.2.1, hrec⟩

end Find

/-! ## The table -/

/-- Bucket `i` holds exactly `xs i`, in that order, each once, and what it
holds hashes to `i`. -/
structure Table (C : Chains ι α) (null : α) (hash : α → ι) (xs : ι → List α) : Prop where
  chain : ∀ i, Chain C.next null (C.head i) (xs i)
  nodup : ∀ i, (xs i).Nodup
  hash_eq : ∀ {i x}, x ∈ xs i → hash x = i

variable {C : Chains ι α} {hash : α → ι} {xs : ι → List α}

theorem Table.congr {C' : Chains ι α} (ht : Table C null hash xs) (hh : C'.head = C.head)
    (hn : ∀ x, x ∈ xs (hash x) → C'.next x = C.next x) : Table C' null hash xs where
  chain i := by
    rw [hh]
    exact (ht.chain i).congr fun x hx => hn x (by rwa [ht.hash_eq hx])
  nodup := ht.nodup
  hash_eq := ht.hash_eq

theorem table_empty {n : α → α} : Table ⟨fun _ : ι => null, n⟩ null hash fun _ => [] where
  chain _ := rfl
  nodup _ := List.nodup_nil
  hash_eq hx := by cases hx

variable [DecidableEq α] {fuel : Nat}

theorem Table.find_notMem (ht : Table C null hash xs) (hx : x ∉ xs (hash x))
    (hfuel : (xs (hash x)).length < fuel) :
    C.find null x fuel (.head (hash x)) = some none :=
  (ht.chain (hash x)).find_notMem hx hfuel

variable [DecidableEq ι]

/-- Finding an element and taking it out, in one: the loop stops at a place,
and writing there leaves every other element in its bucket, in order. -/
theorem Table.unlink (ht : Table C null hash xs) (hx : x ∈ xs (hash x))
    (hfuel : (xs (hash x)).length < fuel) :
    ∃ P, C.find null x fuel (.head (hash x)) = some (some P) ∧
      Table (C.write P (C.next x)) null hash
        (Function.update xs (hash x) ((xs (hash x)).erase x)) := by
  obtain ⟨pre, post, hsplit, hpre⟩ := List.eq_append_cons_of_mem hx
  have hnd := ht.nodup (hash x)
  have hchain := ht.chain (hash x)
  rw [hsplit] at hnd hchain hfuel
  rw [List.length_append] at hfuel
  have herase : (xs (hash x)).erase x = pre ++ post := by
    rw [hsplit, List.erase_append_right _ hpre, List.erase_cons_head]
  have hmem : ∀ y ∈ pre, y ∈ xs (hash x) := fun y hy => by rw [hsplit]; simp [hy]
  refine ⟨lastLoc (.head (hash x)) pre,
    Chain.find_mem (P := .head (hash x)) hchain hpre (by omega), ?_, ?_, ?_⟩
  · intro i
    by_cases hi : i = hash x
    · subst hi
      rw [Function.update_self, herase]
      exact Chain.unlink (P := .head (hash x)) hchain hnd fun _ _ => by simp
    · rw [Function.update_of_ne hi]
      cases pre with
      | nil => simpa [lastLoc_nil, Chains.write, hi] using ht.chain i
      | cons w pre =>
          obtain ⟨z, hz, hloc⟩ := lastLoc_next (ι := ι) w pre
          rw [lastLoc_cons, hloc]
          refine (ht.chain i).congr fun y hy => ?_
          have hyz : y ≠ z := by
            rintro rfl
            exact hi ((ht.hash_eq hy).symm.trans (ht.hash_eq (hmem y hz)))
          simp [Chains.write, hyz]
  · intro i
    by_cases hi : i = hash x
    · subst hi
      rw [Function.update_self]
      exact (ht.nodup _).erase x
    · rw [Function.update_of_ne hi]
      exact ht.nodup i
  · intro i y hy
    by_cases hi : i = hash x
    · subst hi
      rw [Function.update_self] at hy
      exact ht.hash_eq (List.mem_of_mem_erase hy)
    · rw [Function.update_of_ne hi] at hy
      exact ht.hash_eq hy

theorem Table.push (ht : Table C null hash xs) (hx : x ∉ xs (hash x)) (hnull : x ≠ null) :
    Table (C.push (hash x) x) null hash
      (Function.update xs (hash x) (x :: xs (hash x))) := by
  have hnot : ∀ i, x ∉ xs i := fun i hi => hx (by rwa [ht.hash_eq hi])
  have hchain : ∀ i, Chain (C.push (hash x) x).next null (C.head i) (xs i) := by
    intro i
    refine (ht.chain i).congr fun y hy => ?_
    have hyx : y ≠ x := fun hyx => hnot i (hyx ▸ hy)
    simp [Chains.push, Chains.write, hyx]
  refine ⟨?_, ?_, ?_⟩
  · intro i
    by_cases hi : i = hash x
    · subst hi
      rw [Function.update_self, chain_cons]
      refine ⟨by simp [Chains.push, Chains.write], hnull, ?_⟩
      have hnext : (C.push (hash x) x).next x = C.head (hash x) := by
        simp [Chains.push, Chains.write]
      rw [hnext]
      exact hchain (hash x)
    · rw [Function.update_of_ne hi]
      have hhead : (C.push (hash x) x).head i = C.head i := by
        simp [Chains.push, Chains.write, hi]
      rw [hhead]
      exact hchain i
  · intro i
    by_cases hi : i = hash x
    · subst hi
      rw [Function.update_self, List.nodup_cons]
      exact ⟨hx, ht.nodup _⟩
    · rw [Function.update_of_ne hi]
      exact ht.nodup i
  · intro i y hy
    by_cases hi : i = hash x
    · subst hi
      rw [Function.update_self] at hy
      rcases List.mem_cons.mp hy with rfl | hy
      · rfl
      · exact ht.hash_eq hy
    · rw [Function.update_of_ne hi] at hy
      exact ht.hash_eq hy

end Winspd.Lib
