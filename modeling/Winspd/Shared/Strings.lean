/-!
# shared/minimal.h, shared/strtoint.c: strings

A wide string is the list of its characters, without the NUL that ends it. No
character is a NUL, so where the source reads one the list is at its end.
-/

namespace Winspd.Shared

/-- A `PWSTR`. -/
structure WString where
  chars : List UInt16
  noNul : 0 ∉ chars
  deriving DecidableEq, Repr

namespace WString

def empty : WString := ⟨[], List.not_mem_nil⟩

/-- `lstrlenW`. -/
def length (s : WString) : Nat := s.chars.length

def terminated (s : WString) : List UInt16 := s.chars ++ [0]

end WString

/-- `invariant_toupper`. -/
def invariantToupper (c : UInt32) : UInt32 :=
  if 0x61 ≤ c ∧ c ≤ 0x7a then c &&& ~~~0x20 else c

/-- `*S`. -/
def headChar (s : List UInt16) : UInt16 := s.headD 0

/-- `invariant_wcsicmp`, from where two strings agree. -/
def invariantWcsicmp : List UInt16 → List UInt16 → Int32
  | s, [] => (invariantToupper (headChar s).toUInt32 - invariantToupper 0).toInt32
  | s, c :: t =>
      let v := (invariantToupper (headChar s).toUInt32 - invariantToupper c.toUInt32).toInt32
      if v = 0 then invariantWcsicmp s.tail t else v

/-- `*S`, where it is compared. -/
def compareChar (s : List UInt8) : UInt32 := (s.headD 0).toInt8.toInt32.toUInt32

/-- `invariant_strncmp`, of at most so many characters from where two strings
agree. -/
def invariantStrncmp (s t : List UInt8) : Nat → Int32
  | 0 => 0
  | n + 1 =>
      let v := (compareChar s - compareChar t).toInt32
      if v = 0 ∧ t.headD 0 ≠ 0 then invariantStrncmp s.tail t.tail n else v

/-- Two strings are the same up to case. -/
def WString.Same (s t : WString) : Prop := invariantWcsicmp s.chars t.chars = 0

instance (s t : WString) : Decidable (s.Same t) := by
  unfold WString.Same
  infer_instance

/-! ## Numbers -/

/-- The sign, and what comes after it. -/
def intSign (isSigned : Bool) : List UInt16 → Int64 × List UInt16
  | 0x2b :: p => if isSigned then (1, p) else (1, 0x2b :: p)
  | 0x2d :: p => if isSigned then (-1, p) else (1, 0x2d :: p)
  | p => (1, p)

/-- The base that a prefix says, where `base` is zero, and what comes after. -/
def intBase (base : UInt32) (p : List UInt16) : UInt32 × List UInt16 :=
  if base ≠ 0 then (base, p)
  else
    match p with
    | 0x30 :: p =>
        if headChar p = 0x78 ∨ headChar p = 0x58 then (16, p.tail) else (8, p)
    | p => (10, p)

/-- The value of a digit. -/
def intDigit (base : UInt32) (c : UInt16) : Option UInt32 :=
  let maxdig := if 10 < base then 0x39 else base - 1 + 0x30
  let maxalp := if 10 < base then base - 1 - 10 + 0x61 else 0
  let c := c.toUInt32
  if 0x30 ≤ c ∧ c ≤ maxdig then some (c - 0x30)
  else
    let c := c ||| 0x20
    if 0x61 ≤ c ∧ c ≤ maxalp then some (c - 0x61 + 10) else none

/-- The digits: the value, and where they end. -/
def intDigits (base : UInt32) (v : Int64) : List UInt16 → Int64 × List UInt16
  | [] => (v, [])
  | c :: p =>
      match intDigit base c with
      | some digit => intDigits base (base.toUInt64.toInt64 * v + digit.toUInt64.toInt64) p
      | none => (v, c :: p)

/-- `wcstoint`: the value, and `*endp`. -/
def wcstoint (p : List UInt16) (base : UInt32) (isSigned : Bool) : Int64 × List UInt16 :=
  let (sign, p) := intSign isSigned p
  let (base, p) := intBase base p
  let (v, endp) := intDigits base 0 p
  (sign * v, endp)

/-- A `char` as an `int`. A negative one is no digit and no sign, and is not among
the letters. -/
def charWide (c : UInt8) : UInt16 := c.toInt8.toInt16.toUInt16

/-- `strtoint`, which is the text of `wcstoint` again. -/
def strtoint (p : List UInt8) (base : UInt32) (isSigned : Bool) : Int64 × List UInt8 :=
  let r := wcstoint (p.map charWide) base isSigned
  (r.1, p.drop (p.length - r.2.length))

/-! ## Case -/

variable {s t u : WString}

/-- Only the NUL is a NUL in upper case. -/
theorem invariantToupper_eq_zero {c : UInt16} (h : invariantToupper c.toUInt32 = 0) : c = 0 := by
  unfold invariantToupper at h
  split at h
  · next hletter =>
      have hupper : ∀ n : Fin 26, UInt32.ofNat (0x61 + n) &&& ~~~0x20 ≠ 0 := by decide
      have hle := UInt32.le_iff_toNat_le.mp hletter.1
      have hge := UInt32.le_iff_toNat_le.mp hletter.2
      rw [show (0x61 : UInt32).toNat = 0x61 from rfl] at hle
      rw [show (0x7a : UInt32).toNat = 0x7a from rfl] at hge
      refine absurd h ?_
      have hc : c.toUInt32 = UInt32.ofNat (0x61 + (c.toUInt32.toNat - 0x61)) := by
        rw [Nat.add_sub_cancel' hle, UInt32.ofNat_toNat]
      rw [hc]
      exact hupper ⟨c.toUInt32.toNat - 0x61, by omega⟩
  · exact UInt16.toUInt32_inj.mp h

theorem toInt32_sub_eq_zero {a b : UInt32} : (a - b).toInt32 = 0 ↔ a = b := by
  constructor
  · intro h
    have hzero : a - b = 0 := by
      rw [← UInt32.toUInt32_toInt32 (a - b), h]
      rfl
    rw [UInt32.sub_eq_iff_eq_add.mp hzero, UInt32.zero_add]
  · rintro rfl
    rw [UInt32.sub_self]
    rfl

/-- Strings are the same when their characters are, one by one. -/
theorem invariantWcsicmp_eq_zero {s t : List UInt16} (hs : 0 ∉ s) (ht : 0 ∉ t) :
    invariantWcsicmp s t = 0 ↔
      s.map (fun c => invariantToupper c.toUInt32) = t.map
        (fun c => invariantToupper c.toUInt32) := by
  induction t generalizing s with
  | nil =>
      rw [invariantWcsicmp, toInt32_sub_eq_zero]
      cases s with
      | nil => exact iff_of_true rfl rfl
      | cons c s =>
          refine iff_of_false (fun h => hs ?_) (by simp)
          have hc : c = 0 := invariantToupper_eq_zero h
          rw [hc]
          exact List.mem_cons_self
  | cons c t ih =>
      rw [List.mem_cons, not_or] at ht
      have hstep : invariantWcsicmp s (c :: t) = 0 ↔
          invariantToupper (headChar s).toUInt32 = invariantToupper c.toUInt32 ∧
            invariantWcsicmp s.tail t = 0 := by
        rw [invariantWcsicmp, ← toInt32_sub_eq_zero]
        split
        · next hv => exact ⟨fun h => ⟨hv, h⟩, And.right⟩
        · next hv => exact ⟨fun h => absurd h hv, fun h => absurd h.1 hv⟩
      rw [hstep]
      cases s with
      | nil =>
          refine iff_of_false (fun h => ht.1 ?_) (by simp)
          exact (invariantToupper_eq_zero h.1.symm).symm
      | cons d s =>
          rw [List.map_cons, List.map_cons, List.cons.injEq]
          exact and_congr_right fun _ => ih (fun hmem => hs (List.mem_cons_of_mem _ hmem)) ht.2

theorem WString.same_iff : s.Same t ↔
    s.chars.map (fun c => invariantToupper c.toUInt32) =
      t.chars.map (fun c => invariantToupper c.toUInt32) :=
  invariantWcsicmp_eq_zero s.noNul t.noNul

theorem WString.Same.symm (h : s.Same t) : t.Same s := same_iff.mpr (same_iff.mp h).symm

end Winspd.Shared
