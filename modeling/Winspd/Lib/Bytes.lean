import Mathlib.Algebra.Group.Nat.Defs
import Mathlib.Data.List.Basic

/-!
# Byte buffers

A buffer is the list of its bytes. Reading and writing a range of it fail
outside its bounds. A write changes the range it is given and keeps the length
and everything before and after it (`take_writeAt`, `take_add_writeAt`), so
ranges written one after another from the front pile up to a prefix of the
buffer.

Numbers of a C struct are stored with their lowest byte first, those of a bus
protocol with their highest byte first. The second kind is put together by
shifts and ors, which is the sum when the bytes do not overlap.
-/

namespace Winspd.Lib

/-- The `len` entries from `off`. -/
def readAt {α : Type*} (buf : List α) (off len : Nat) : Option (List α) :=
  if off + len ≤ buf.length then some ((buf.drop off).take len) else none

/-- Overwrite the entries from `off`. -/
def writeAt {α : Type*} (buf : List α) (off : Nat) (xs : List α) : Option (List α) :=
  if off + xs.length ≤ buf.length then
    some (buf.take off ++ xs ++ buf.drop (off + xs.length))
  else none

section Buffers

variable {α : Type*} {buf buf' xs : List α} {off len : Nat}

theorem readAt_eq_some : readAt buf off len = some xs ↔
    off + len ≤ buf.length ∧ (buf.drop off).take len = xs := by
  unfold readAt
  split
  · next h => simp [h]
  · next h => simp [h]

theorem length_readAt (h : readAt buf off len = some xs) : xs.length = len := by
  obtain ⟨hle, rfl⟩ := readAt_eq_some.mp h
  rw [List.length_take, List.length_drop]
  omega

theorem writeAt_eq_some : writeAt buf off xs = some buf' ↔
    off + xs.length ≤ buf.length ∧ buf.take off ++ xs ++ buf.drop (off + xs.length) = buf' := by
  unfold writeAt
  split
  · next h => simp [h]
  · next h => simp [h]

theorem length_writeAt (h : writeAt buf off xs = some buf') : buf'.length = buf.length := by
  obtain ⟨hle, rfl⟩ := writeAt_eq_some.mp h
  simp only [List.length_append, List.length_take, List.length_drop]
  omega

theorem take_writeAt (h : writeAt buf off xs = some buf') : buf'.take off = buf.take off := by
  obtain ⟨hle, rfl⟩ := writeAt_eq_some.mp h
  rw [List.append_assoc, List.take_append_of_le_length (by rw [List.length_take]; omega),
    List.take_take, Nat.min_self]

theorem take_add_writeAt (h : writeAt buf off xs = some buf') :
    buf'.take (off + xs.length) = buf.take off ++ xs := by
  obtain ⟨hle, rfl⟩ := writeAt_eq_some.mp h
  rw [List.take_left' (by rw [List.length_append, List.length_take]; omega)]

theorem drop_writeAt {n : Nat} (h : writeAt buf off xs = some buf') (hle : off + xs.length ≤ n) :
    buf'.drop n = buf.drop n := by
  obtain ⟨hlen, rfl⟩ := writeAt_eq_some.mp h
  have hfront : (buf.take off ++ xs).length = off + xs.length := by
    rw [List.length_append, List.length_take]
    omega
  rw [List.drop_append, List.drop_eq_nil_of_le (by omega), List.nil_append, List.drop_drop, hfront,
    Nat.add_sub_cancel' hle]

theorem readAt_writeAt (h : writeAt buf off xs = some buf') :
    readAt buf' off xs.length = some xs := by
  obtain ⟨hle, rfl⟩ := writeAt_eq_some.mp h
  have hlen : (buf.take off).length = off := by
    rw [List.length_take]
    omega
  rw [readAt_eq_some]
  refine ⟨by simp; omega, ?_⟩
  rw [List.append_assoc, List.drop_left' hlen, List.take_left' rfl]

theorem readAt_writeAt_before {off' : Nat} (h : writeAt buf off xs = some buf')
    (hle : off' + len ≤ off) : readAt buf' off' len = readAt buf off' len := by
  have htake := take_writeAt h
  have hlen := length_writeAt h
  have hread : ∀ b : List α, (b.drop off').take len = ((b.take off).drop off').take len := by
    intro b
    rw [List.drop_take, List.take_take, Nat.min_eq_left (by omega)]
  rw [readAt, readAt, hlen, hread buf', hread buf, htake]

theorem writeAt_append {buf₁ buf₂ ys : List α} (h : writeAt buf off xs = some buf₁)
    (h' : writeAt buf₁ (off + xs.length) ys = some buf₂) :
    writeAt buf off (xs ++ ys) = some buf₂ := by
  have hlen := length_writeAt h
  have htake := take_add_writeAt h
  obtain ⟨hle, rfl⟩ := writeAt_eq_some.mp h'
  rw [writeAt_eq_some, List.length_append, ← Nat.add_assoc]
  refine ⟨hlen ▸ hle, ?_⟩
  rw [drop_writeAt h (Nat.le_add_right _ _), htake, List.append_assoc (buf.take off) xs ys]

theorem exists_writeAt (buf : List α) (off : Nat) (xs : List α)
    (h : off + xs.length ≤ buf.length) : ∃ buf', writeAt buf off xs = some buf' :=
  ⟨_, if_pos h⟩

end Buffers

/-! ## Numbers -/

/-- The lowest `n` bytes of a number, lowest first. -/
def toLe : Nat → Nat → List UInt8
  | 0, _ => []
  | n + 1, x => UInt8.ofNat x :: toLe n (x / 256)

/-- The number whose bytes these are, lowest first. -/
def ofLe : List UInt8 → Nat
  | [] => 0
  | b :: bs => b.toNat + 256 * ofLe bs

theorem length_toLe (n x : Nat) : (toLe n x).length = n := by
  induction n generalizing x with
  | zero => rfl
  | succ n ih => rw [toLe, List.length_cons, ih]

theorem ofLe_toLe (n x : Nat) : ofLe (toLe n x) = x % 256 ^ n := by
  induction n generalizing x with
  | zero => rw [toLe, ofLe, Nat.pow_zero, Nat.mod_one]
  | succ n ih =>
      have hmod : x % 256 ^ (n + 1) = x % 256 + 256 * (x / 256 % 256 ^ n) := by
        rw [Nat.pow_succ', Nat.mod_mul]
      rw [toLe, ofLe, ih, UInt8.toNat_ofNat', hmod]

theorem toLe_ofLe (bs : List UInt8) : toLe bs.length (ofLe bs) = bs := by
  induction bs with
  | nil => rfl
  | cons b bs ih =>
      have hb := b.toNat_lt
      have hlow : UInt8.ofNat (b.toNat + 256 * ofLe bs) = b := by
        rw [← UInt8.toNat_inj, UInt8.toNat_ofNat']
        omega
      have hhigh : (b.toNat + 256 * ofLe bs) / 256 = ofLe bs := by omega
      rw [List.length_cons, ofLe, toLe, hlow, hhigh, ih]

/-! ## Numbers, highest byte first -/

/-- The lowest `n` bytes of a number, highest first. -/
def toBe (n x : Nat) : List UInt8 := (toLe n x).reverse

/-- The number whose bytes these are, highest first. -/
def ofBe (bs : List UInt8) : Nat := ofLe bs.reverse

theorem ofBe_toBe (n x : Nat) : ofBe (toBe n x) = x % 256 ^ n := by
  rw [ofBe, toBe, List.reverse_reverse, ofLe_toLe]

theorem ofBe_toBe_of_lt {n x : Nat} (h : x < 256 ^ n) : ofBe (toBe n x) = x := by
  rw [ofBe_toBe, Nat.mod_eq_of_lt h]

theorem ofLe_lt (bs : List UInt8) : ofLe bs < 256 ^ bs.length := by
  induction bs with
  | nil => decide
  | cons b bs ih =>
      have hb := b.toNat_lt
      rw [ofLe, List.length_cons, Nat.pow_succ']
      omega

theorem ofBe_lt (bs : List UInt8) : ofBe bs < 256 ^ bs.length := by
  rw [← List.length_reverse]
  exact ofLe_lt _

theorem shiftLeft_or_shiftLeft {a b k : Nat} (hb : b < 256) :
    a <<< (k + 8) ||| b <<< k = (a * 256 + b) <<< k := by
  rw [Nat.add_comm k 8, Nat.shiftLeft_add, ← Nat.shiftLeft_or_distrib,
    ← Nat.shiftLeft_add_eq_or_of_lt (i := 8) hb a, Nat.shiftLeft_eq a 8]

theorem toNat_byte_shiftLeft {b : UInt8} {k : UInt64} (hk : k.toNat ≤ 56) :
    (b.toUInt64 <<< k).toNat = b.toNat <<< k.toNat := by
  have hpow : 2 ^ k.toNat ≤ 2 ^ 56 := Nat.pow_le_pow_right (by decide) hk
  have hlt : b.toNat <<< k.toNat < 2 ^ 64 := by
    rw [Nat.shiftLeft_eq]
    calc b.toNat * 2 ^ k.toNat ≤ 255 * 2 ^ 56 :=
          Nat.mul_le_mul (Nat.le_of_lt_succ b.toNat_lt) hpow
      _ < 2 ^ 64 := by decide
  have hmod : k.toNat % 64 = k.toNat := Nat.mod_eq_of_lt (by omega)
  rw [UInt64.toNat_shiftLeft, UInt8.toNat_toUInt64, hmod, Nat.mod_eq_of_lt hlt]

theorem toNat_byte_shiftLeft32 {b : UInt8} {k : UInt32} (hk : k.toNat ≤ 24) :
    (b.toUInt32 <<< k).toNat = b.toNat <<< k.toNat := by
  have hpow : 2 ^ k.toNat ≤ 2 ^ 24 := Nat.pow_le_pow_right (by decide) hk
  have hlt : b.toNat <<< k.toNat < 2 ^ 32 := by
    rw [Nat.shiftLeft_eq]
    calc b.toNat * 2 ^ k.toNat ≤ 255 * 2 ^ 24 :=
          Nat.mul_le_mul (Nat.le_of_lt_succ b.toNat_lt) hpow
      _ < 2 ^ 32 := by decide
  have hmod : k.toNat % 32 = k.toNat := Nat.mod_eq_of_lt (by omega)
  rw [UInt32.toNat_shiftLeft, UInt8.toNat_toUInt32, hmod, Nat.mod_eq_of_lt hlt]

section Bytes

variable {b₀ b₁ b₂ b₃ b₄ b₅ b₆ b₇ : UInt8}

theorem toNat_or_two32 : (b₀.toUInt32 <<< 8 ||| b₁.toUInt32).toNat = ofBe [b₀, b₁] := by
  rw [UInt32.toNat_or, toNat_byte_shiftLeft32 (by decide), UInt8.toNat_toUInt32]
  show b₀.toNat <<< (0 + 8) ||| b₁.toNat <<< 0 = _
  rw [shiftLeft_or_shiftLeft b₁.toNat_lt]
  simp [ofBe, ofLe]
  omega

theorem toNat_or_two32_lt (b₀ b₁ : UInt8) :
    (b₀.toUInt32 <<< 8 ||| b₁.toUInt32).toNat < 65536 := by
  have hlt : ofBe [b₀, b₁] < 256 ^ 2 := ofBe_lt [b₀, b₁]
  rw [toNat_or_two32]
  omega

theorem toNat_or_four32 :
    (b₀.toUInt32 <<< 24 ||| b₁.toUInt32 <<< 16 ||| b₂.toUInt32 <<< 8 |||
      b₃.toUInt32).toNat =
      ofBe [b₀, b₁, b₂, b₃] := by
  simp only [UInt32.toNat_or]
  rw [toNat_byte_shiftLeft32 (by decide), toNat_byte_shiftLeft32 (by decide),
    toNat_byte_shiftLeft32 (by decide), UInt8.toNat_toUInt32]
  show b₀.toNat <<< (16 + 8) ||| b₁.toNat <<< (8 + 8) ||| b₂.toNat <<< (0 + 8) |||
    b₃.toNat <<< 0 = _
  rw [shiftLeft_or_shiftLeft b₁.toNat_lt, shiftLeft_or_shiftLeft b₂.toNat_lt,
    shiftLeft_or_shiftLeft b₃.toNat_lt]
  simp [ofBe, ofLe]
  omega

theorem toNat_or_three :
    (b₀.toUInt64 <<< 16 ||| b₁.toUInt64 <<< 8 ||| b₂.toUInt64).toNat =
      ofBe [b₀, b₁, b₂] := by
  simp only [UInt64.toNat_or]
  rw [toNat_byte_shiftLeft (by decide), toNat_byte_shiftLeft (by decide), UInt8.toNat_toUInt64]
  show b₀.toNat <<< (8 + 8) ||| b₁.toNat <<< (0 + 8) ||| b₂.toNat <<< 0 = _
  rw [shiftLeft_or_shiftLeft b₁.toNat_lt, shiftLeft_or_shiftLeft b₂.toNat_lt]
  simp [ofBe, ofLe]
  omega

theorem toNat_or_four :
    (b₀.toUInt64 <<< 24 ||| b₁.toUInt64 <<< 16 ||| b₂.toUInt64 <<< 8 |||
      b₃.toUInt64).toNat =
      ofBe [b₀, b₁, b₂, b₃] := by
  simp only [UInt64.toNat_or]
  rw [toNat_byte_shiftLeft (by decide), toNat_byte_shiftLeft (by decide),
    toNat_byte_shiftLeft (by decide), UInt8.toNat_toUInt64]
  show b₀.toNat <<< (16 + 8) ||| b₁.toNat <<< (8 + 8) ||| b₂.toNat <<< (0 + 8) |||
    b₃.toNat <<< 0 = _
  rw [shiftLeft_or_shiftLeft b₁.toNat_lt, shiftLeft_or_shiftLeft b₂.toNat_lt,
    shiftLeft_or_shiftLeft b₃.toNat_lt]
  simp [ofBe, ofLe]
  omega

theorem toNat_or_eight :
    (b₀.toUInt64 <<< 56 ||| b₁.toUInt64 <<< 48 ||| b₂.toUInt64 <<< 40 |||
      b₃.toUInt64 <<< 32 |||
      b₄.toUInt64 <<< 24 ||| b₅.toUInt64 <<< 16 ||| b₆.toUInt64 <<< 8 |||
        b₇.toUInt64).toNat =
      ofBe [b₀, b₁, b₂, b₃, b₄, b₅, b₆, b₇] := by
  simp only [UInt64.toNat_or]
  rw [toNat_byte_shiftLeft (by decide), toNat_byte_shiftLeft (by decide),
    toNat_byte_shiftLeft (by decide), toNat_byte_shiftLeft (by decide),
    toNat_byte_shiftLeft (by decide), toNat_byte_shiftLeft (by decide),
    toNat_byte_shiftLeft (by decide), UInt8.toNat_toUInt64]
  show b₀.toNat <<< (48 + 8) ||| b₁.toNat <<< (40 + 8) ||| b₂.toNat <<< (32 + 8) |||
    b₃.toNat <<< (24 + 8) ||| b₄.toNat <<< (16 + 8) ||| b₅.toNat <<< (8 + 8) |||
    b₆.toNat <<< (0 + 8) ||| b₇.toNat <<< 0 = _
  rw [shiftLeft_or_shiftLeft b₁.toNat_lt, shiftLeft_or_shiftLeft b₂.toNat_lt,
    shiftLeft_or_shiftLeft b₃.toNat_lt, shiftLeft_or_shiftLeft b₄.toNat_lt,
    shiftLeft_or_shiftLeft b₅.toNat_lt, shiftLeft_or_shiftLeft b₆.toNat_lt,
    shiftLeft_or_shiftLeft b₇.toNat_lt]
  simp [ofBe, ofLe]
  omega

end Bytes

end Winspd.Lib
