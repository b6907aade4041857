import Winspd.Lib.Bits
import Winspd.Scsitool.Scsitext

/-!
# The fields of device data

A number of bits is taken from the buffer a part of a byte at a time, and what
is put together is the number that these bits are (`scsiBits_some`). From this
follows all that a line of the format can do (`scsiLine_field`): a field begins
where the one in front of it has ended, or at the next byte, and it ends where
the data do, if not before.

The positions and lengths are `size_t`, and a sum of them may be too large for one.
In the 32-bit build the width of a field, which the device may say, can take the
position once around, and then nothing is clipped. `TurnFits` is that it does not;
in the 64-bit build no width does (`runFits_x64`).

Both results about `ScsiText` are drawn from this lemma. A format is a list of
items here, which are its lines and its marks: a `*` is a mark where a line could
begin, unless it follows another `*` there.
-/

namespace Winspd.Proofs

open Winspd.Lib Winspd.Shared Winspd.Scsitool

variable {platform : Platform} {buf : List UInt8}

/-! ## Sizes -/

/-- How many values a `size_t` has. -/
def sizeMax (platform : Platform) : Nat := 2 ^ (8 * platform.sizeofPvoid)

theorem sizeT_of_lt {n : Nat} (h : n < sizeMax platform) : sizeT platform n = n :=
  Nat.mod_eq_of_lt h

theorem sizeT_of_lt_add {n len : Nat} (hlen : 8 * len < sizeMax platform) (h : n < 8 * len + 8) :
    sizeT platform n = n := by
  have hsize : ∃ k, sizeMax platform = 8 * k := by
    cases platform with
    | win32 => exact ⟨2 ^ 29, rfl⟩
    | x64 => exact ⟨2 ^ 61, rfl⟩
  obtain ⟨k, hk⟩ := hsize
  exact sizeT_of_lt (by omega)

/-- The width of the line that comes next, behind its mark if it has one. -/
def nextWidth (s : ScsiState) : UInt32 :=
  match s.format with
  | 0x2a :: type :: p => (scsiField type p).1.width.getD s.m
  | type :: p => (scsiField type p).1.width.getD s.m
  | [] => 0

theorem nextWidth_line {s : ScsiState} {type : UInt8} {p : List UInt8}
    (hformat : s.format = type :: p) (hne : type ≠ 0x2a) :
    nextWidth s = (scsiField type p).1.width.getD s.m := by
  unfold nextWidth
  rw [hformat]
  split
  · next heq => exact absurd (List.cons.inj heq).1 hne
  · next heq =>
      obtain ⟨rfl, rfl⟩ := List.cons.inj heq
      rfl
  · next heq => cases heq

/-- The bits of the buffer can be counted, and so can the width of the next line from
the position on. -/
structure TurnFits (platform : Platform) (buf : List UInt8) (s : ScsiState) : Prop where
  buf : 8 * buf.length < sizeMax platform
  width : s.bitpos < 8 * s.len → s.bitpos + (nextWidth s).toNat < sizeMax platform

/-- This is so in each of so many turns. -/
def RunFits (platform : Platform) (buf : List UInt8) : Nat → ScsiState → Prop
  | 0, _ => True
  | n + 1, s => TurnFits platform buf s ∧
      ∀ s', scsiTurn platform buf s = some (.goesOn s') → RunFits platform buf n s'

/-- This is so however often the loop turns. -/
def AlwaysFits (platform : Platform) (buf : List UInt8) (s : ScsiState) : Prop :=
  ∀ n, RunFits platform buf n s

theorem AlwaysFits.turn {s : ScsiState} (h : AlwaysFits platform buf s) :
    TurnFits platform buf s := (h 1).1

theorem AlwaysFits.next {s s' : ScsiState} (h : AlwaysFits platform buf s)
    (hturn : scsiTurn platform buf s = some (.goesOn s')) : AlwaysFits platform buf s' :=
  fun n => (h (n + 1)).2 s' hturn

/-! ## Numbers of bits -/

theorem toNat_shiftIn (x : UInt64) {w b : Nat} (hw : w < 64) (hb : b < 2 ^ w) :
    (x <<< UInt64.ofNat w ||| UInt64.ofNat b).toNat = (x.toNat * 2 ^ w + b) % 2 ^ 64 := by
  have hsplit : 2 ^ 64 = 2 ^ (64 - w) * 2 ^ w := by
    rw [← Nat.pow_add]
    exact congrArg _ (by omega)
  have hlow : 2 ^ w ≤ 2 ^ 64 := Nat.pow_le_pow_right (by decide) (by omega)
  have hshift : (x <<< UInt64.ofNat w).toNat = 2 ^ w * (x.toNat % 2 ^ (64 - w)) := by
    rw [UInt64.toNat_shiftLeft, UInt64.toNat_ofNat', Nat.mod_eq_of_lt (show w < 2 ^ 64 by omega),
      Nat.mod_eq_of_lt hw, Nat.shiftLeft_eq, hsplit, Nat.mul_mod_mul_right, Nat.mul_comm]
  have hmod : (x.toNat * 2 ^ w + b) % 2 ^ 64 = 2 ^ w * (x.toNat % 2 ^ (64 - w)) + b := by
    rw [hsplit, Nat.mul_comm (x.toNat), Nat.mul_comm (2 ^ (64 - w)), Nat.mod_mul,
      Nat.mul_add_mod, Nat.mod_eq_of_lt hb, Nat.mul_add_div (Nat.two_pow_pos w),
      Nat.div_eq_of_lt hb, Nat.add_zero, Nat.add_comm]
  have hfits : b < 2 ^ 64 := Nat.lt_of_lt_of_le hb hlow
  rw [UInt64.toNat_or, hshift, UInt64.toNat_ofNat', Nat.mod_eq_of_lt hfits, hmod,
    Nat.two_pow_add_eq_or_of_lt hb]

theorem scsiBits_some {n loopw bitpos : Nat} {uval : UInt64}
    (hbuf : 8 * buf.length < sizeMax platform) (hfuel : loopw ≤ n)
    (hin : bitpos + loopw ≤ 8 * buf.length) :
    ∃ r, scsiBits platform buf n loopw bitpos uval = some (r, bitpos + loopw) ∧
      r.toNat = (uval.toNat * 2 ^ loopw + bitsValue buf bitpos loopw) % 2 ^ 64 := by
  induction n generalizing loopw bitpos uval with
  | zero =>
      obtain rfl : loopw = 0 := Nat.le_zero.mp hfuel
      refine ⟨uval, rfl, ?_⟩
      rw [Nat.pow_zero, Nat.mul_one, bitsValue, Nat.add_zero, Nat.mod_eq_of_lt uval.toNat_lt]
  | succ n ih =>
      by_cases hzero : loopw = 0
      · subst hzero
        refine ⟨uval, rfl, ?_⟩
        rw [Nat.pow_zero, Nat.mul_one, bitsValue, Nat.add_zero, Nat.mod_eq_of_lt uval.toNat_lt]
      · -- what is left of the byte, or of the number
        obtain ⟨w, hw, hpos, hle, hbyte⟩ : ∃ w,
            (if bitpos + loopw > (bitpos + 8) / 8 * 8 then (bitpos + 8) / 8 * 8 - bitpos
              else loopw) = w ∧ 0 < w ∧ w ≤ loopw ∧ bitpos % 8 + w ≤ 8 := by
          refine ⟨_, rfl, ?_⟩
          split <;> omega
        have hindex : bitpos / 8 < buf.length := by omega
        obtain ⟨u, hu⟩ : ∃ u, buf[bitpos / 8]? = some u :=
          ⟨_, List.getElem?_eq_getElem hindex⟩
        have hbits : (u.toNat <<< (bitpos % 8) &&& 0xff) >>> (8 - w) = bitsValue buf bitpos w := by
          rw [shift_out _ hbyte, bitsValue_byte hbyte, List.getD_eq_getElem?_getD, hu]
          rfl
        have hlt : bitsValue buf bitpos w < 2 ^ w := bitsValue_lt buf bitpos w
        have hend : sizeT platform (bitpos + 8) = bitpos + 8 := sizeT_of_lt_add hbuf (by omega)
        have hsum : sizeT platform (bitpos + loopw) = bitpos + loopw :=
          sizeT_of_lt_add hbuf (by omega)
        have hnext : sizeT platform (bitpos + w) = bitpos + w := sizeT_of_lt_add hbuf (by omega)
        obtain ⟨r, hr, hvalue⟩ := @ih (loopw - w) (bitpos + w)
          (uval <<< UInt64.ofNat w ||| UInt64.ofNat (bitsValue buf bitpos w)) (by omega) (by omega)
        refine ⟨r, ?_, ?_⟩
        · rw [scsiBits, if_neg hzero]
          dsimp only [Option.bind_eq_bind]
          rw [hend, hsum, hw, hu]
          dsimp only [Option.bind_some]
          rw [hbits, hnext, hr, Nat.add_assoc, Nat.add_sub_cancel' hle]
        · have hpow : 2 ^ loopw = 2 ^ w * 2 ^ (loopw - w) := by
            rw [← Nat.pow_add, Nat.add_sub_cancel' hle]
          have hvalues := bitsValue_add buf bitpos w (loopw - w)
          rw [Nat.add_sub_cancel' hle] at hvalues
          rw [hvalue, toNat_shiftIn _ (by omega) hlt, hvalues, hpow, ← Nat.add_assoc,
            ← Nat.mul_assoc, ← Nat.add_mul, Nat.add_mod, Nat.mul_mod, Nat.mod_mod,
              ← Nat.mul_mod,
            ← Nat.add_mod]

/-! ## What a line can do -/

variable {s s' : ScsiState} {f : ScsiField} {format p : List UInt8}

def lenAfter (platform : Platform) (f : ScsiField) (len : Nat) (uval : UInt64) : Nat :=
  if -1 ≠ f.nminusv then min len (sizeT platform (uval + f.nminusv.toUInt64 + 1).toNat) else len

/-- The width for later lines behind a number. -/
def mAfter (f : ScsiField) (m : UInt32) (uval : UInt64) : UInt32 :=
  if -1 = f.nminusv ∧ -1 ≠ f.mminusv then uval.toUInt32 else m

def IsNumber (f : ScsiField) : Prop := 0x61 ≤ f.type ∧ f.type ≤ 0x7a

def IsBytes (f : ScsiField) : Prop := 0x41 ≤ f.type ∧ f.type ≤ 0x5a

structure NumberCall (buf : List UInt8) (f : ScsiField) (width : UInt32) (bitpos n : Nat)
    (call : ScsiCall) : Prop where
  type : call.type = f.type
  width : call.width = width
  name : call.name = f.name
  value : call.uval.toNat = bitsValue buf bitpos n % 2 ^ 64
  pval : call.pval = none

structure BytesCall (f : ScsiField) (width : UInt32) (start n : Nat) (call : ScsiCall) :
    Prop where
  type : call.type = f.type
  width : call.width = width
  name : call.name = f.name
  pval : call.pval = some start
  lval : call.lval = n

/-- What becomes of a state, from behind a line on. -/
inductive FieldDone (platform : Platform) (buf : List UInt8) (f : ScsiField) (s : ScsiState) :
    ScsiState → Prop
  | number (hnumber : IsNumber f) {n : Nat} {call : ScsiCall}
      (hn : n = min (f.width.getD s.m).toNat (8 * s.len - s.bitpos))
      (hcall : NumberCall buf f (f.width.getD s.m) s.bitpos n call) :
      FieldDone platform buf f s { s with
        m := mAfter f s.m call.uval
        bitpos := s.bitpos + n
        len := lenAfter platform f s.len call.uval
        calls := s.calls ++ [call] }
  | bytes (hbytes : IsBytes f) {start n : Nat} {call : ScsiCall} (hle : s.bitpos ≤ 8 * start)
      (hlt : 8 * start < s.bitpos + 8) (hn : n = min (f.width.getD s.m).toNat (s.len - start))
      (hend : start + n ≤ s.len) (hcall : BytesCall f (f.width.getD s.m) start n call) :
      FieldDone platform buf f s { s with
        bitpos := 8 * start + 8 * n
        calls := if 0 ≠ f.width.getD s.m then s.calls ++ [call] else s.calls }
  | other (hnumber : ¬ IsNumber f) (hbytes : ¬ IsBytes f) : FieldDone platform buf f s s

theorem scsiBytesField_done (hbytes : IsBytes f) (hpos : s.bitpos < 8 * s.len)
    (hlen : s.len ≤ buf.length) (hbuf : 8 * buf.length < sizeMax platform)
    (hfits : s.bitpos + (f.width.getD s.m).toNat < sizeMax platform) :
    FieldDone platform buf f s (scsiBytesField platform s f (f.width.getD s.m)) := by
  have hup : sizeT platform (s.bitpos + 7) = s.bitpos + 7 := sizeT_of_lt_add hbuf (by omega)
  have hstart : (s.bitpos + 7) / 8 * 8 / 8 = (s.bitpos + 7) / 8 := Nat.mul_div_cancel _ (by decide)
  have hsum : sizeT platform ((s.bitpos + 7) / 8 + (f.width.getD s.m).toNat) =
      (s.bitpos + 7) / 8 + (f.width.getD s.m).toNat := sizeT_of_lt (by omega)
  have hlval : (if (s.bitpos + 7) / 8 + (f.width.getD s.m).toNat > s.len then
      s.len - (s.bitpos + 7) / 8 else (f.width.getD s.m).toNat) =
        min (f.width.getD s.m).toNat (s.len - (s.bitpos + 7) / 8) := by
    split <;> omega
  have hbits : sizeT platform (min (f.width.getD s.m).toNat (s.len - (s.bitpos + 7) / 8) * 8) =
      min (f.width.getD s.m).toNat (s.len - (s.bitpos + 7) / 8) * 8 :=
    sizeT_of_lt_add hbuf (by omega)
  have hend : sizeT platform ((s.bitpos + 7) / 8 * 8 +
      min (f.width.getD s.m).toNat (s.len - (s.bitpos + 7) / 8) * 8) =
        (s.bitpos + 7) / 8 * 8 +
          min (f.width.getD s.m).toNat (s.len - (s.bitpos + 7) / 8) * 8 :=
    sizeT_of_lt_add hbuf (by omega)
  unfold scsiBytesField
  dsimp only
  rw [hup, hstart, hsum, hlval, hbits, hend, Nat.mul_comm, Nat.mul_comm (min _ _)]
  exact .bytes hbytes (by omega) (by omega) rfl (by omega) ⟨rfl, rfl, rfl, rfl, rfl⟩

theorem scsiBitsField_done (hnumber : IsNumber f) (hpos : s.bitpos < 8 * s.len)
    (hlen : s.len ≤ buf.length) (hbuf : 8 * buf.length < sizeMax platform)
    (hfits : s.bitpos + (f.width.getD s.m).toNat < sizeMax platform) :
    ∃ s', scsiBitsField platform buf s f (f.width.getD s.m) = some s' ∧
      FieldDone platform buf f s s' := by
  have hbits : sizeT platform (s.len * 8) = s.len * 8 := sizeT_of_lt_add hbuf (by omega)
  have hloopw : (if s.bitpos + (f.width.getD s.m).toNat > s.len * 8 then s.len * 8 - s.bitpos
      else (f.width.getD s.m).toNat) =
        min (f.width.getD s.m).toNat (8 * s.len - s.bitpos) := by
    split <;> omega
  obtain ⟨r, hr, hvalue⟩ := @scsiBits_some platform buf _ _ s.bitpos 0 hbuf
    (Nat.le_refl (min (f.width.getD s.m).toNat (8 * s.len - s.bitpos))) (by omega)
  rw [show (0 : UInt64).toNat = 0 from rfl, Nat.zero_mul, Nat.zero_add] at hvalue
  have hafter : (if -1 ≠ f.nminusv ∧
      s.len > sizeT platform (r + f.nminusv.toUInt64 + 1).toNat then
        sizeT platform (r + f.nminusv.toUInt64 + 1).toNat else s.len) =
          lenAfter platform f s.len r := by
    unfold lenAfter
    split
    · next h =>
        rw [if_pos h.1]
        omega
    · next h =>
        split
        · next hn => exact (Nat.min_eq_left (Nat.le_of_not_lt fun hlt => h ⟨hn, hlt⟩)).symm
        · rfl
  have hm :
      (if ¬ -1 ≠ f.nminusv ∧ -1 ≠ f.mminusv then r.toUInt32 else s.m) = mAfter f s.m r := by
    unfold mAfter
    simp only [ne_eq, not_not]
  unfold scsiBitsField
  dsimp only [Option.bind_eq_bind]
  rw [hbits, sizeT_of_lt hfits, hloopw, hr]
  dsimp only [Option.bind_some]
  rw [hafter, hm]
  exact ⟨_, rfl, @FieldDone.number platform buf f s hnumber _
    ⟨f.type, f.width.getD s.m, f.name, r, none, 0, _⟩ rfl ⟨rfl, rfl, rfl, hvalue, rfl⟩⟩

theorem scsiLine_field {type : UInt8} (hformat : s.format = type :: p)
    (hpos : s.bitpos < 8 * s.len) (hlen : s.len ≤ buf.length)
    (hbuf : 8 * buf.length < sizeMax platform)
    (hfits : s.bitpos + ((scsiField type p).1.width.getD s.m).toNat < sizeMax platform) :
    ∃ s', scsiLine platform buf s = some (.goesOn s') ∧
      FieldDone platform buf (scsiField type p).1
        { s with format := (scsiField type p).2 } s' := by
  have htype : (scsiField type p).1.type = type := rfl
  unfold scsiLine
  rw [hformat]
  dsimp only
  split
  · next hbytes =>
      exact ⟨_, rfl, @scsiBytesField_done platform buf { s with format := (scsiField type p).2 } _
        (htype ▸ hbytes) hpos hlen hbuf hfits⟩
  · next hbytes =>
      split
      · next hnumber =>
          obtain ⟨s', hs', hdone⟩ :=
            @scsiBitsField_done platform buf { s with format := (scsiField type p).2 } _
              (htype ▸ hnumber) hpos hlen hbuf hfits
          rw [hs']
          exact ⟨s', rfl, hdone⟩
      · next hnumber => exact ⟨_, rfl, .other (htype ▸ hnumber) (htype ▸ hbytes)⟩

/-! ## Turns -/

theorem FieldDone.keeps (h : FieldDone platform buf f s s') :
    s'.format = s.format ∧ s'.star = s.star ∧ s'.len ≤ s.len ∧ s.bitpos ≤ s'.bitpos := by
  cases h with
  | number =>
      refine ⟨rfl, rfl, ?_, Nat.le_add_right _ _⟩
      unfold lenAfter
      dsimp only
      split
      · exact Nat.min_le_left _ _
      · exact Nat.le_refl _
  | bytes hbytes hle => exact ⟨rfl, rfl, Nat.le_refl _, Nat.le_add_right_of_le hle⟩
  | other => exact ⟨rfl, rfl, Nat.le_refl _, Nat.le_refl _⟩

/-- The bytes of all calls are in the buffer. -/
def CallsInside (buf : List UInt8) (s : ScsiState) : Prop :=
  ∀ call ∈ s.calls, ∀ off, call.pval = some off → off + call.lval ≤ buf.length

theorem FieldDone.inside (h : FieldDone platform buf f s s') (hlen : s.len ≤ buf.length)
    (hinside : CallsInside buf s) : CallsInside buf s' := by
  have hone : ∀ {call}, (∀ off, call.pval = some off → off + call.lval ≤ buf.length) →
      ∀ call' ∈ s.calls ++ [call], ∀ off, call'.pval = some off →
        off + call'.lval ≤ buf.length := by
    intro call hcall call' hmem
    rcases List.mem_append.mp hmem with hmem | hmem
    · exact hinside call' hmem
    · rw [List.mem_singleton.mp hmem]
      exact hcall
  cases h with
  | number hnumber hn hcall =>
      refine hone fun off hoff => ?_
      rw [hcall.pval] at hoff
      cases hoff
  | bytes hbytes hle hlt hn hend hcall =>
      unfold CallsInside
      dsimp only
      split
      · refine hone fun off hoff => ?_
        rw [hcall.pval] at hoff
        cases hoff
        rw [hcall.lval]
        exact Nat.le_trans hend hlen
      · exact hinside
  | other => exact hinside

section Turn

variable (hfits : TurnFits platform buf s) (hlen : s.len ≤ buf.length)
include hfits hlen

theorem scsiTurn_over (h : 8 * s.len ≤ s.bitpos) : scsiTurn platform buf s = some .ends := by
  have hbits : sizeT platform (s.len * 8) = s.len * 8 := sizeT_of_lt_add hfits.buf (by omega)
  exact if_neg (by omega)

theorem sizeT_bits_gt (hpos : s.bitpos < 8 * s.len) : sizeT platform (s.len * 8) > s.bitpos := by
  rw [sizeT_of_lt_add hfits.buf (show s.len * 8 < 8 * buf.length + 8 by omega)]
  omega

theorem scsiTurn_end (hpos : s.bitpos < 8 * s.len) (hformat : s.format = []) :
    scsiTurn platform buf s = some (match s.star with
      | some star => .goesOn { s with format := star }
      | none => .ends) := by
  unfold scsiTurn
  rw [if_pos (sizeT_bits_gt hfits hlen hpos), hformat]
  dsimp only
  unfold scsiLine
  rw [hformat]
  dsimp only
  cases s.star with
  | none => rfl
  | some star => rfl

theorem scsiTurn_markEnd (hpos : s.bitpos < 8 * s.len) (hformat : s.format = [0x2a]) :
    scsiTurn platform buf s = some (.goesOn { s with star := some [0x2a], format := [0x2a] }) := by
  unfold scsiTurn
  rw [if_pos (sizeT_bits_gt hfits hlen hpos), hformat]
  rfl

theorem scsiTurn_line {type : UInt8} (hpos : s.bitpos < 8 * s.len) (hformat : s.format = type :: p)
    (hne : type ≠ 0x2a) :
    ∃ s', scsiTurn platform buf s = some (.goesOn s') ∧
      FieldDone platform buf (scsiField type p).1
        { s with format := (scsiField type p).2 } s' := by
  have hturn : scsiTurn platform buf s = scsiLine platform buf s := by
    unfold scsiTurn
    rw [if_pos (sizeT_bits_gt hfits hlen hpos)]
    split
    · next q hq =>
        rw [hformat] at hq
        exact absurd (List.cons.inj hq).1 hne
    · rfl
  have hwidth := hfits.width hpos
  rw [nextWidth_line hformat hne] at hwidth
  rw [hturn]
  exact scsiLine_field hformat hpos hlen hfits.buf hwidth

theorem scsiTurn_markLine {type : UInt8} (hpos : s.bitpos < 8 * s.len)
    (hformat : s.format = 0x2a :: type :: p) :
    ∃ s', scsiTurn platform buf s = some (.goesOn s') ∧
      FieldDone platform buf (scsiField type p).1
        { s with star := some s.format, format := (scsiField type p).2 } s' := by
  have hturn : scsiTurn platform buf s =
      scsiLine platform buf { s with star := some s.format, format := type :: p } := by
    unfold scsiTurn
    rw [if_pos (sizeT_bits_gt hfits hlen hpos), hformat]
    rfl
  have hwidth := hfits.width hpos
  have hnext : nextWidth s = (scsiField type p).1.width.getD s.m := by
    unfold nextWidth
    rw [hformat]
    rfl
  rw [hnext] at hwidth
  rw [hturn]
  exact @scsiLine_field platform buf { s with star := some s.format, format := type :: p } p type
    rfl hpos hlen hfits.buf hwidth

theorem scsiTurn_inside (hinside : CallsInside buf s) :
    ∃ t, scsiTurn platform buf s = some t ∧
      ∀ s', t = .goesOn s' → s'.len ≤ buf.length ∧ CallsInside buf s' := by
  rcases Nat.lt_or_ge s.bitpos (8 * s.len) with hpos | hover
  · have hdone : ∀ {f s₀ s'}, FieldDone platform buf f s₀ s' → s₀.len = s.len →
        s₀.calls = s.calls → s'.len ≤ buf.length ∧ CallsInside buf s' := by
      intro f s₀ s' h hsame hcalls
      have hlen₀ : s₀.len ≤ buf.length := hsame ▸ hlen
      have hinside₀ : CallsInside buf s₀ := by
        unfold CallsInside
        rw [hcalls]
        exact hinside
      exact ⟨Nat.le_trans h.keeps.2.2.1 hlen₀, h.inside hlen₀ hinside₀⟩
    cases hformat : s.format with
    | nil =>
        rw [scsiTurn_end hfits hlen hpos hformat]
        cases s.star with
        | none => exact ⟨_, rfl, by simp⟩
        | some star =>
            refine ⟨_, rfl, fun s' h => ?_⟩
            cases h
            exact ⟨hlen, hinside⟩
    | cons type p =>
        by_cases hmark : type = 0x2a
        · subst hmark
          cases p with
          | nil =>
              rw [scsiTurn_markEnd hfits hlen hpos hformat]
              refine ⟨_, rfl, fun s' h => ?_⟩
              cases h
              exact ⟨hlen, hinside⟩
          | cons type p =>
              obtain ⟨s', hs', h⟩ := scsiTurn_markLine hfits hlen hpos hformat
              rw [hs']
              refine ⟨_, rfl, fun s'' heq => ?_⟩
              cases heq
              exact hdone h rfl rfl
        · obtain ⟨s', hs', h⟩ := scsiTurn_line hfits hlen hpos hformat hmark
          rw [hs']
          refine ⟨_, rfl, fun s'' heq => ?_⟩
          cases heq
          exact hdone h rfl rfl
  · exact ⟨.ends, scsiTurn_over hfits hlen hover, by simp⟩

end Turn

theorem scsiRun_inside {n : Nat} (hfits : RunFits platform buf n s) (hlen : s.len ≤ buf.length)
    (hinside : CallsInside buf s) :
    ∃ s' e, scsiRun platform buf n s = some (s', e) ∧ CallsInside buf s' := by
  induction n generalizing s with
  | zero => exact ⟨s, false, rfl, hinside⟩
  | succ n ih =>
      obtain ⟨t, ht, hnext⟩ := scsiTurn_inside hfits.1 hlen hinside
      rw [scsiRun, ht]
      dsimp only [Option.bind_eq_bind, Option.bind_some]
      cases t with
      | ends => exact ⟨s, true, rfl, hinside⟩
      | goesOn s' =>
          obtain ⟨hlen', hinside'⟩ := hnext s' rfl
          exact ih (hfits.2 s' ht) hlen' hinside'

theorem runFits_x64 (hbuf : 8 * buf.length + 2 ^ 32 ≤ 2 ^ 64) (hlen : s.len ≤ buf.length)
    (hinside : CallsInside buf s) (n : Nat) : RunFits .x64 buf n s := by
  induction n generalizing s with
  | zero => trivial
  | succ n ih =>
      have hsize : sizeMax .x64 = 2 ^ 64 := rfl
      have hwidth := (nextWidth s).toNat_lt
      have hfits : TurnFits .x64 buf s := ⟨by omega, fun hpos => by omega⟩
      obtain ⟨t, ht, hnext⟩ := scsiTurn_inside hfits hlen hinside
      refine ⟨hfits, fun s' hturn => ?_⟩
      obtain ⟨hlen', hinside'⟩ := hnext s' (Option.some_inj.mp (ht.symm.trans hturn))
      exact ih hlen' hinside'

theorem callsInside_start (format : List UInt8) : CallsInside buf (.start format buf.length) :=
  fun call hmem => by cases hmem

theorem alwaysFits_x64 (hbuf : 8 * buf.length + 2 ^ 32 ≤ 2 ^ 64) (format : List UInt8) :
    AlwaysFits .x64 buf (.start format buf.length) :=
  runFits_x64 hbuf (Nat.le_refl _) (callsInside_start format)

end Winspd.Proofs
