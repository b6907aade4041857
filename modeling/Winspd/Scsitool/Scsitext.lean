import Winspd.Shared.Memalign
import Winspd.Shared.Strings

/-!
# scsitool/scsitext.c: `ScsiText`

`ScsiText` takes device data apart by a format, and calls a function back with
each field. A line of the format is a field: a letter for its type, its width,
and its name. Fields with small letters are numbers of so many bits, those with
capital letters are bytes. A `*` in front of a field is where the format goes on
when it has ended and there are data left.

A format is the list of its characters without the NUL, and a pointer into it is
what it still has from there on. The calls that are made are kept in the state.

Positions in the buffer and the lengths are `size_t`, which has the size of a
pointer. They are natural numbers here, and what is computed with them is taken
modulo the size (`sizeT`). A buffer is so small that its bits can be counted: it
has fewer than 2^29 bytes in the 32-bit build, and fewer than 2^61 in the 64-bit
one.
-/

namespace Winspd.Scsitool

open Winspd.Shared

/-! ## The format -/

/-- What a line of the format says. The width is not there when it is `m`, and
what is subtracted is -1 when there is none. -/
structure ScsiField where
  type : UInt8
  width : Option UInt32
  name : List UInt8
  nminusv : UInt32
  mminusv : UInt32
  deriving DecidableEq, Repr

/-- `(unsigned)strtoint(p, 10, 0, &p)`. -/
def scsiNumber (p : List UInt8) : UInt32 × List UInt8 :=
  let r := strtoint p 10 false
  (r.1.toInt32.toUInt32, r.2)

/-- `(n-` and a number and `)`, with that letter. -/
def scsiMinus (letter : UInt8) : List UInt8 → Option UInt32
  | 0x28 :: c :: 0x2d :: p =>
      let r := scsiNumber p
      if c = letter ∧ r.2.headD 0 = 0x29 then some r.1 else none
  | _ => none

/-- The loop over the name: what is subtracted, and what comes behind the name. -/
def scsiName : UInt32 → UInt32 → List UInt8 → UInt32 × UInt32 × List UInt8
  | nminusv, mminusv, [] => (nminusv, mminusv, [])
  | nminusv, mminusv, c :: p =>
      if c = 0x0a then (nminusv, mminusv, c :: p)
      else
        match scsiMinus 0x6e (c :: p), scsiMinus 0x6d (c :: p) with
        | some v, _ => scsiName v mminusv p
        | none, some v => scsiName nminusv v p
        | none, none => scsiName nminusv mminusv p

/-- `if ('\n' == *p) p++`. -/
def skipNewline : List UInt8 → List UInt8
  | 0x0a :: p => p
  | p => p

/-- A line, from behind its type, and what comes behind it. -/
def scsiField (type : UInt8) (p : List UInt8) : ScsiField × List UInt8 :=
  let width : Option UInt32 × List UInt8 :=
    match p with
    | 0x6d :: p => (none, p)
    | p => (some (scsiNumber p).1, (scsiNumber p).2)
  let name := width.2.dropWhile fun c => c = 0x20
  let r := scsiName (-1) (-1) name
  (⟨type, width.1, name.take (name.length - r.2.2.length), r.1, r.2.1⟩, skipNewline r.2.2)

/-! ## The fields -/

/-- A `size_t`, from a sum, a product or a cast. -/
def sizeT (platform : Platform) (n : Nat) : Nat := n % 2 ^ (8 * platform.sizeofPvoid)

/-- What `fn` is called with. `pval` is where in the buffer the bytes are. -/
structure ScsiCall where
  type : UInt8
  width : UInt32
  name : List UInt8
  uval : UInt64
  pval : Option Nat
  lval : Nat
  warn : Option String
  deriving DecidableEq, Repr

structure ScsiState where
  /-- `p`. -/
  format : List UInt8
  star : Option (List UInt8)
  m : UInt32
  bitpos : Nat
  len : Nat
  calls : List ScsiCall
  deriving DecidableEq, Repr

/-- The loop that assembles a number of `loopw` bits, of which at least one is
taken each time. `none` when it reads where the buffer has no byte. -/
def scsiBits (platform : Platform) (buf : List UInt8) :
    Nat → Nat → Nat → UInt64 → Option (UInt64 × Nat)
  | 0, _, bitpos, uval => some (uval, bitpos)
  | n + 1, loopw, bitpos, uval =>
      if loopw = 0 then some (uval, bitpos)
      else do
        -- `(bitpos + 8) & ~7`
        let endpos := sizeT platform (bitpos + 8) / 8 * 8
        let w := if sizeT platform (bitpos + loopw) > endpos then endpos - bitpos else loopw
        let u ← buf[bitpos / 8]?
        let bits := (u.toNat <<< (bitpos % 8) &&& 0xff) >>> (8 - w)
        scsiBits platform buf n (loopw - w) (sizeT platform (bitpos + w))
          (uval <<< UInt64.ofNat w ||| UInt64.ofNat bits)

def lengthMismatch : String := "data buffer length mismatch"

def nonZeroReserved : String := "non-zero reserved value"

/-- `"Reserved"`. -/
def reservedName : List UInt8 := [0x52, 0x65, 0x73, 0x65, 0x72, 0x76, 0x65, 0x64]

def scsiBytesField (platform : Platform) (s : ScsiState) (field : ScsiField) (width : UInt32) :
    ScsiState :=
  let bitpos := sizeT platform (s.bitpos + 7) / 8 * 8
  let lval :=
    if sizeT platform (bitpos / 8 + width.toNat) > s.len then s.len - bitpos / 8 else width.toNat
  let call : ScsiCall := ⟨field.type, width, field.name, 0, some (bitpos / 8), lval, none⟩
  { s with
    bitpos := sizeT platform (bitpos + sizeT platform (lval * 8))
    calls := if 0 ≠ width then s.calls ++ [call] else s.calls }

def scsiBitsField (platform : Platform) (buf : List UInt8) (s : ScsiState) (field : ScsiField)
    (width : UInt32) : Option ScsiState := do
  let bits := sizeT platform (s.len * 8)
  let loopw :=
    if sizeT platform (s.bitpos + width.toNat) > bits then bits - s.bitpos else width.toNat
  let r ← scsiBits platform buf loopw loopw s.bitpos 0
  -- the sum is a 64-bit one
  let newlen := sizeT platform (r.1 + field.nminusv.toUInt64 + 1).toNat
  let len := if -1 ≠ field.nminusv ∧ s.len > newlen then newlen else s.len
  let m := if ¬ -1 ≠ field.nminusv ∧ -1 ≠ field.mminusv then r.1.toUInt32 else s.m
  let warn :=
    if 0 = invariantStrncmp reservedName field.name field.name.length ∧ 0 ≠ r.1 then
      some nonZeroReserved
    else if -1 ≠ field.nminusv ∧ s.len ≠ newlen then some lengthMismatch
    else none
  let call : ScsiCall := ⟨field.type, width, field.name, r.1, none, 0, warn⟩
  some { s with m := m, bitpos := r.2, len := len, calls := s.calls ++ [call] }

/-! ## The loop -/

inductive ScsiTurn
  | ends
  | goesOn (s : ScsiState)
  deriving DecidableEq, Repr

/-- From behind a `*`, if there is one. -/
def scsiLine (platform : Platform) (buf : List UInt8) (s : ScsiState) : Option ScsiTurn :=
  match s.format with
  | [] =>
      match s.star with
      | some star => some (.goesOn { s with format := star })
      | none => some .ends
  | type :: p =>
      let r := scsiField type p
      let width := r.1.width.getD s.m
      let s := { s with format := r.2 }
      if 0x41 ≤ type ∧ type ≤ 0x5a then some (.goesOn (scsiBytesField platform s r.1 width))
      else if 0x61 ≤ type ∧ type ≤ 0x7a then
        (scsiBitsField platform buf s r.1 width).map .goesOn
      else some (.goesOn s)

/-- One turn. `none` when it reads outside the buffer. -/
def scsiTurn (platform : Platform) (buf : List UInt8) (s : ScsiState) : Option ScsiTurn :=
  if sizeT platform (s.len * 8) > s.bitpos then
    match s.format with
    | 0x2a :: p => scsiLine platform buf { s with star := some s.format, format := p }
    | _ => scsiLine platform buf s
  else some .ends

/-- So many turns: the state, and whether the loop has ended. -/
def scsiRun (platform : Platform) (buf : List UInt8) :
    Nat → ScsiState → Option (ScsiState × Bool)
  | 0, s => some (s, false)
  | n + 1, s => do
      let r ← scsiTurn platform buf s
      match r with
      | .ends => some (s, true)
      | .goesOn s => scsiRun platform buf n s

/-- In front of the loop. -/
def ScsiState.start (format : List UInt8) (len : Nat) : ScsiState :=
  ⟨format, none, 1, 0, len, []⟩

end Winspd.Scsitool
