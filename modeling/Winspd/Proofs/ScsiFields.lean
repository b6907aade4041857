import Winspd.Proofs.ScsiText

/-!
# A format, and what is decoded by it

The data end in the middle of a format, or the format ends in the middle of the
data, and may then go on from its last mark. A number of positive width behind
that mark takes at least one bit each time, so the data come to an end
(`good_ends`): the bits that are left get fewer, or they stay and what is
left of the format has such a number in it, or that stays and what is left of the
format gets shorter.

With no marks, the calls are the fields of the format one after another, each
from where the last one has ended (`Decodes`).
-/

namespace Winspd.Proofs

open Winspd.Lib Winspd.Shared Winspd.Scsitool

variable {platform : Platform} {buf : List UInt8} {s s' : ScsiState} {f : ScsiField}
  {format p : List UInt8}

/-! ## Formats -/

/-- A line, or a mark in front of one. -/
inductive ScsiItem
  | mark
  | line (f : ScsiField)
  deriving DecidableEq

/-- The items of a format. What is behind a mark is a line whatever it begins
with. -/
inductive Items : List UInt8 → List ScsiItem → Prop
  | nil : Items [] []
  | line {type : UInt8} {p : List UInt8} {is : List ScsiItem} (hne : type ≠ 0x2a)
      (h : Items (scsiField type p).2 is) : Items (type :: p) (.line (scsiField type p).1 :: is)
  | markEnd : Items [0x2a] [.mark]
  | markLine {type : UInt8} {p : List UInt8} {is : List ScsiItem}
      (h : Items (scsiField type p).2 is) :
      Items (0x2a :: type :: p) (.mark :: .line (scsiField type p).1 :: is)

theorem length_scsiNumber (p : List UInt8) : (scsiNumber p).2.length ≤ p.length := by
  show (p.drop _).length ≤ _
  rw [List.length_drop]
  exact Nat.sub_le _ _

theorem length_scsiName (nminusv mminusv : UInt32) (p : List UInt8) :
    (scsiName nminusv mminusv p).2.2.length ≤ p.length := by
  induction p generalizing nminusv mminusv with
  | nil => exact Nat.le_refl _
  | cons c p ih =>
      rw [scsiName]
      split
      · exact Nat.le_refl _
      · split
        · exact Nat.le_succ_of_le (ih _ _)
        · exact Nat.le_succ_of_le (ih _ _)
        · exact Nat.le_succ_of_le (ih _ _)

theorem length_skipNewline (p : List UInt8) : (skipNewline p).length ≤ p.length := by
  unfold skipNewline
  split
  · exact Nat.le_succ _
  · exact Nat.le_refl _

theorem length_scsiField (type : UInt8) (p : List UInt8) :
    (scsiField type p).2.length ≤ p.length := by
  refine Nat.le_trans (length_skipNewline _) (Nat.le_trans (length_scsiName _ _ _) ?_)
  refine Nat.le_trans (List.dropWhile_sublist _).length_le ?_
  split
  · exact Nat.le_succ _
  · exact length_scsiNumber _

theorem exists_items (p : List UInt8) : ∃ is, Items p is := by
  induction hn : p.length using Nat.strongRecOn generalizing p with
  | ind n ih =>
      cases p with
      | nil => exact ⟨_, .nil⟩
      | cons type p =>
          have hrest : ∀ type (q : List UInt8), q.length < n →
              ∃ is, Items (scsiField type q).2 is :=
            fun type q hq => ih _ (Nat.lt_of_le_of_lt (length_scsiField type q) hq) _ rfl
          rw [List.length_cons] at hn
          by_cases hmark : type = 0x2a
          · subst hmark
            cases p with
            | nil => exact ⟨_, .markEnd⟩
            | cons type p =>
                rw [List.length_cons] at hn
                obtain ⟨is, his⟩ := hrest type p (by omega)
                exact ⟨_, .markLine his⟩
          · obtain ⟨is, his⟩ := hrest type p (by omega)
            exact ⟨_, .line hmark his⟩

/-! ## Repetition -/

/-- What is behind the last mark, if there is one. -/
def afterLastMark : List ScsiItem → Option (List ScsiItem)
  | [] => none
  | .line _ :: is => afterLastMark is
  | .mark :: is => some ((afterLastMark is).getD is)

/-- A `u` field of positive width, which the format says itself. -/
def TakesBits (f : ScsiField) : Prop := f.type = 0x75 ∧ ∃ width, f.width = some width ∧
    0 < width.toNat

def HasBits (is : List ScsiItem) : Prop := ∃ f, .line f ∈ is ∧ TakesBits f

def Anchored : List ScsiItem → Prop
  | [] => True
  | .line _ :: is => Anchored is
  | .mark :: is => HasBits is ∧ Anchored is

theorem afterLastMark_suffix {is part : List ScsiItem} (h : afterLastMark is = some part) :
    part <:+ is := by
  induction is generalizing part with
  | nil => cases h
  | cons item is ih =>
      cases item with
      | line f => exact (ih h).trans (List.suffix_cons _ _)
      | mark =>
          cases h
          refine List.IsSuffix.trans ?_ (List.suffix_cons _ _)
          cases hlast : afterLastMark is with
          | none => exact List.suffix_refl _
          | some part => exact ih hlast

theorem anchored_of_last {is : List ScsiItem}
    (h : ∀ part, afterLastMark is = some part → HasBits part) : Anchored is := by
  induction is with
  | nil => trivial
  | cons item is ih =>
      cases item with
      | line f => exact ih h
      | mark =>
          have hpart := h _ rfl
          cases hlast : afterLastMark is with
          | none =>
              rw [hlast] at hpart
              refine ⟨hpart, ih fun part hnone => ?_⟩
              rw [hlast] at hnone
              cases hnone
          | some part =>
              rw [hlast] at hpart
              obtain ⟨f, hmem, hbits⟩ := hpart
              refine ⟨⟨f, (afterLastMark_suffix hlast).mem hmem, hbits⟩,
                ih fun part' hpart' => ?_⟩
              rw [hlast] at hpart'
              cases hpart'
              exact ⟨f, hmem, hbits⟩

/-! ## The loop ends -/

def Ends (platform : Platform) (buf : List UInt8) (s : ScsiState) : Prop :=
  ∃ n s', scsiRun platform buf n s = some (s', true)

theorem ends_of_turn (h : scsiTurn platform buf s = some .ends) : Ends platform buf s :=
  ⟨1, s, by rw [scsiRun, h]; rfl⟩

theorem ends_of_next (h : scsiTurn platform buf s = some (.goesOn s'))
    (hends : Ends platform buf s') : Ends platform buf s := by
  obtain ⟨n, s'', hrun⟩ := hends
  exact ⟨n + 1, s'', by rw [scsiRun, h]; exact hrun⟩

def left (s : ScsiState) : Nat := 8 * s.len - s.bitpos

theorem FieldDone.left_le (h : FieldDone platform buf f s s') : left s' ≤ left s := by
  obtain ⟨-, -, hlen, hpos⟩ := h.keeps
  unfold left
  omega

theorem FieldDone.left_lt (h : FieldDone platform buf f s s') (hbits : TakesBits f)
    (hpos : s.bitpos < 8 * s.len) : left s' < left s := by
  obtain ⟨htype, width, hwidth, hwide⟩ := hbits
  have hnumber : IsNumber f := by
    rw [IsNumber, htype]
    decide
  have hkeeps := h.keeps
  cases h with
  | @number _ n call hn hcall =>
      rw [hwidth, Option.getD_some] at hn
      have hlen : lenAfter platform f s.len call.uval ≤ s.len := hkeeps.2.2.1
      show 8 * lenAfter platform f s.len call.uval - (s.bitpos + n) < 8 * s.len - s.bitpos
      omega
  | bytes hbytes =>
      rw [IsBytes, htype] at hbytes
      exact absurd hbytes (by decide)
  | other hother => exact absurd hnumber hother

/-- The mark that the format goes on from, if it does. -/
def StarOk (s : ScsiState) : Prop :=
  ∀ star, s.star = some star → ∃ is, Items star (.mark :: is) ∧ HasBits is ∧ Anchored is

structure TextGood (platform : Platform) (buf : List UInt8) (s : ScsiState) : Prop where
  fits : AlwaysFits platform buf s
  len : s.len ≤ buf.length
  star : StarOk s
  items : ∃ is, Items s.format is ∧ Anchored is

/-- From a place in the format: either some line takes bits before the format ends,
or it has to be known what happens at its end. -/
theorem ends_of_items {bits : Nat} {is : List ScsiItem}
    (ih : ∀ s, left s < bits → TextGood platform buf s → Ends platform buf s)
    (hitems : Items p is) (hanchored : Anchored is)
    (hend : HasBits is ∨ ∀ s, s.format = [] → left s ≤ bits →
      AlwaysFits platform buf s →
      s.len ≤ buf.length → StarOk s → Ends platform buf s)
    (hformat : s.format = p) (hleft : left s ≤ bits) (hfits : AlwaysFits platform buf s)
    (hlen : s.len ≤ buf.length) (hstar : StarOk s) : Ends platform buf s := by
  induction hitems generalizing s with
  | nil =>
      rcases hend with ⟨f, hmem, -⟩ | hend
      · cases hmem
      · exact hend s hformat hleft hfits hlen hstar
  | markEnd =>
      obtain ⟨⟨f, hmem, -⟩, -⟩ := hanchored
      cases hmem
  | @line type p is hne hrest ihrest =>
      rcases Nat.lt_or_ge s.bitpos (8 * s.len) with hpos | hover
      · obtain ⟨s', hturn, hdone⟩ := scsiTurn_line hfits.turn hlen hpos hformat hne
        refine ends_of_next hturn ?_
        obtain ⟨hformat', hstar', hlen', -⟩ := hdone.keeps
        have hok : StarOk s' := fun star h => hstar star (hstar'.symm.trans h)
        by_cases hbits : TakesBits (scsiField type p).1
        · refine ih s' (Nat.lt_of_lt_of_le (hdone.left_lt hbits hpos) hleft)
            ⟨hfits.next hturn, Nat.le_trans hlen' hlen, hok, is, ?_, hanchored⟩
          rw [hformat']
          exact hrest
        · refine ihrest hanchored (hend.imp_left ?_) hformat'
            (Nat.le_trans hdone.left_le hleft) (hfits.next hturn) (Nat.le_trans hlen' hlen) hok
          rintro ⟨f, hmem, hf⟩
          rcases List.mem_cons.mp hmem with hline | hmem
          · cases hline
            exact absurd hf hbits
          · exact ⟨f, hmem, hf⟩
      · exact ends_of_turn (scsiTurn_over hfits.turn hlen hover)
  | @markLine type p is hrest ihrest =>
      rcases Nat.lt_or_ge s.bitpos (8 * s.len) with hpos | hover
      · obtain ⟨s', hturn, hdone⟩ := scsiTurn_markLine hfits.turn hlen hpos hformat
        refine ends_of_next hturn ?_
        obtain ⟨hformat', hstar', hlen', -⟩ := hdone.keeps
        -- from now on the format goes on from here
        have hok : StarOk s' := by
          intro star h
          have hsame : star = 0x2a :: type :: p :=
            (Option.some_inj.mp (h.symm.trans hstar')).trans hformat
          subst hsame
          exact ⟨_, .markLine hrest, hanchored⟩
        by_cases hbits : TakesBits (scsiField type p).1
        · refine ih s' (Nat.lt_of_lt_of_le (hdone.left_lt hbits hpos) hleft)
            ⟨hfits.next hturn, Nat.le_trans hlen' hlen, hok, is, ?_, hanchored.2⟩
          rw [hformat']
          exact hrest
        · have hmore : HasBits is := by
            obtain ⟨f, hmem, hf⟩ := hanchored.1
            rcases List.mem_cons.mp hmem with hline | hmem
            · cases hline
              exact absurd hf hbits
            · exact ⟨f, hmem, hf⟩
          exact ihrest hanchored.2 (.inl hmore) hformat' (Nat.le_trans hdone.left_le hleft)
            (hfits.next hturn) (Nat.le_trans hlen' hlen) hok
      · exact ends_of_turn (scsiTurn_over hfits.turn hlen hover)

theorem good_ends (h : TextGood platform buf s) : Ends platform buf s := by
  induction hbits : left s using Nat.strongRecOn generalizing s with
  | ind bits ih =>
      have ih' : ∀ s, left s < bits → TextGood platform buf s → Ends platform buf s :=
        fun s hlt hgood => ih _ hlt hgood rfl
      obtain ⟨is, hitems, hanchored⟩ := h.items
      refine ends_of_items ih' hitems hanchored (.inr fun s hformat hleft hfits hlen hstar => ?_)
        rfl (Nat.le_of_eq hbits) h.fits h.len h.star
      rcases Nat.lt_or_ge s.bitpos (8 * s.len) with hpos | hover
      · have hturn := scsiTurn_end hfits.turn hlen hpos hformat
        cases hs : s.star with
        | none =>
            rw [hs] at hturn
            exact ends_of_turn hturn
        | some star =>
            rw [hs] at hturn
            obtain ⟨is, hitems, hmore, hanchored⟩ := hstar star hs
            refine ends_of_next hturn ?_
            have hany : HasBits (.mark :: is) := by
              obtain ⟨f, hmem, hf⟩ := hmore
              exact ⟨f, List.mem_cons_of_mem _ hmem, hf⟩
            exact ends_of_items ih' hitems ⟨hmore, hanchored⟩ (.inl hany) rfl hleft
              (hfits.next hturn) hlen fun star' h => hstar star' (hs.trans h)
      · exact ends_of_turn (scsiTurn_over hfits.turn hlen hover)

/-- As long as the widths fit, `ScsiText` reads inside the buffer and calls back with
bytes inside it, whatever the format and the data are. If a line behind the last mark
of the format takes bits, or there is no mark, it comes to an end. -/
theorem scsiText_ends (platform : Platform) (buf format : List UInt8) :
    (∀ n, RunFits platform buf n (.start format buf.length) →
      ∃ s e, scsiRun platform buf n (.start format buf.length) = some (s, e) ∧
        CallsInside buf s) ∧
    (∃ is, Items format is) ∧
    (∀ is, Items format is → (∀ part, afterLastMark is = some part → HasBits part) →
      AlwaysFits platform buf (.start format buf.length) →
      ∃ n s, scsiRun platform buf n (.start format buf.length) = some (s, true)) ∧
    (platform = .x64 → 8 * buf.length + 2 ^ 32 ≤ 2 ^ 64 →
      AlwaysFits platform buf (.start format buf.length)) := by
  refine ⟨fun n hfits => scsiRun_inside hfits (Nat.le_refl _) (callsInside_start format),
    exists_items format, fun is hitems hlast hfits => ?_, fun hx64 hbuf => ?_⟩
  · exact good_ends ⟨hfits, Nat.le_refl _, fun star h => (by cases h), is, hitems,
      anchored_of_last hlast⟩
  · subst hx64
    exact alwaysFits_x64 hbuf format

/-- A length, and then numbers again and again: `u4 A (n-1)`, `*u3 B`. -/
theorem scsiText_ends_repeated :
    ∃ n s, scsiRun .x64 [0x2a, 0xff, 0x01] n (.start [0x75, 0x34, 0x20, 0x41, 0x28, 0x6e, 0x2d,
      0x31, 0x29, 0x0a, 0x2a, 0x75, 0x33, 0x20, 0x42, 0x0a] 3) = some (s, true) := by
  have hfirst : (scsiField 0x75 [0x34, 0x20, 0x41, 0x28, 0x6e, 0x2d, 0x31, 0x29, 0x0a, 0x2a, 0x75,
      0x33, 0x20, 0x42, 0x0a]).2 = [0x2a, 0x75, 0x33, 0x20, 0x42, 0x0a] := by decide
  have hsecond : (scsiField 0x75 [0x33, 0x20, 0x42, 0x0a]).2 = [] := by decide
  have hitems : Items [0x75, 0x34, 0x20, 0x41, 0x28, 0x6e, 0x2d, 0x31, 0x29, 0x0a, 0x2a, 0x75, 0x33,
      0x20, 0x42, 0x0a] _ :=
    .line (by decide) (by rw [hfirst]; exact .markLine (by rw [hsecond]; exact .nil))
  obtain ⟨-, -, hends, hfits⟩ := scsiText_ends .x64 [0x2a, 0xff, 0x01] [0x75, 0x34, 0x20, 0x41,
    0x28, 0x6e, 0x2d, 0x31, 0x29, 0x0a, 0x2a, 0x75, 0x33, 0x20, 0x42, 0x0a]
  refine hends _ hitems (fun part hpart => ?_) (hfits rfl (by decide))
  cases hpart
  exact ⟨_, List.mem_cons_self, rfl, 3, by decide, by decide⟩

/-! ## Formats that do not end -/

theorem scsiRun_goesOn {I : ScsiState → Prop}
    (hstep : ∀ s, I s → ∃ s', scsiTurn platform buf s = some (.goesOn s') ∧ I s') (h : I s)
    (n : Nat) : ∃ s', scsiRun platform buf n s = some (s', false) := by
  induction n generalizing s with
  | zero => exact ⟨s, rfl⟩
  | succ n ih =>
      obtain ⟨s', hturn, h'⟩ := hstep s h
      obtain ⟨s'', hrun⟩ := ih h'
      refine ⟨s'', ?_⟩
      rw [scsiRun, hturn]
      exact hrun

/-- The state is at a mark in front of all there is, or at the end of it, and at the
first bit of one byte. -/
inductive AtMark (marked : List UInt8) : ScsiState → Prop
  | mark (star : Option (List UInt8)) (calls : List ScsiCall) :
      AtMark marked ⟨marked, star, 1, 0, 1, calls⟩
  | behind (calls : List ScsiCall) : AtMark marked ⟨[], some marked, 1, 0, 1, calls⟩

theorem AtMark.turn {marked : List UInt8}
    (h : ∀ star calls, ∃ calls', scsiTurn platform [0xff] ⟨marked, star, 1, 0, 1, calls⟩ =
      some (.goesOn ⟨[], some marked, 1, 0, 1, calls'⟩)) (hs : AtMark marked s) :
    ∃ s', scsiTurn platform [0xff] s = some (.goesOn s') ∧ AtMark marked s' := by
  cases hs with
  | mark star calls =>
      obtain ⟨calls', hturn⟩ := h star calls
      exact ⟨_, hturn, .behind calls'⟩
  | behind calls =>
      refine ⟨_, ?_, .mark (some marked) calls⟩
      cases platform with
      | win32 => rfl
      | x64 => rfl

/-- `**u4 A` and `*u4294967296 A` never come to an end of one byte: the second mark is
the type of a line, and the width is 0. In the 32-bit build, `X1 A`, `X4294967295 B`
gives bytes behind the end of two. -/
theorem scsiText_goes_on :
    (∀ platform n, ∃ s, scsiRun platform [0xff] n
      (.start [0x2a, 0x2a, 0x75, 0x34, 0x20, 0x41] 1) = some (s, false)) ∧
    (∀ platform n, ∃ s, scsiRun platform [0xff] n
      (.start [0x2a, 0x75, 0x34, 0x32, 0x39, 0x34, 0x39, 0x36, 0x37, 0x32, 0x39, 0x36, 0x20, 0x41]
        1) = some (s, false)) ∧
    ∃ s, scsiRun .win32 [0x11, 0x22] 2 (.start [0x58, 0x31, 0x20, 0x41, 0x0a, 0x58, 0x34, 0x32,
      0x39, 0x34, 0x39, 0x36, 0x37, 0x32, 0x39, 0x35, 0x20, 0x42] 2) = some (s, false) ∧
        ¬ CallsInside [0x11, 0x22] s := by
  refine ⟨fun platform n => ?_, fun platform n => ?_, ?_⟩
  · refine scsiRun_goesOn (fun s => AtMark.turn fun star calls => ⟨calls, ?_⟩)
      (.mark none []) n
    cases platform with
    | win32 => rfl
    | x64 => rfl
  · refine scsiRun_goesOn (fun s => AtMark.turn fun star calls =>
      ⟨calls ++ [⟨0x75, 0, [0x41], 0, none, 0, none⟩], ?_⟩) (.mark none []) n
    cases platform with
    | win32 => rfl
    | x64 => rfl
  · refine ⟨⟨[], none, 1, 0, 2, [⟨0x58, 1, [0x41], 0, some 0, 1, none⟩,
      ⟨0x58, 0xffffffff, [0x42], 0, some 1, 0xffffffff, none⟩]⟩, by decide,
      fun hinside => ?_⟩
    exact absurd (hinside _ (List.mem_cons_of_mem _ (List.mem_singleton_self _)) 1 rfl)
      (by decide)

/-! ## The fields -/

/-- A `u` field that says its width, of at most 64 bits, or a field of bytes. -/
def Plain (f : ScsiField) : Prop :=
  f.type = 0x75 ∧ (∃ width, f.width = some width ∧ 0 < width.toNat ∧ width.toNat ≤ 64) ∨
    f.type = 0x41 ∨ f.type = 0x58

/-- The calls for the data from a position on, up to an effective length, by the
fields of a format. A number is that of the next bits, as many as its width says
or as there are. Bytes begin at the next byte, and go as far as their width says
or the data do. What follows begins where they end. -/
inductive Decodes (platform : Platform) (buf : List UInt8) :
    List ScsiField → Nat → Nat → UInt32 → List ScsiCall → Prop
  | ended {pos len : Nat} {m : UInt32} : Decodes platform buf [] pos len m []
  | full {fs : List ScsiField} {pos len : Nat} {m : UInt32} (h : 8 * len ≤ pos) :
      Decodes platform buf fs pos len m []
  | number {f : ScsiField} {fs : List ScsiField} {pos len n : Nat} {m : UInt32} {call : ScsiCall}
      {calls : List ScsiCall} (hin : pos < 8 * len) (htype : f.type = 0x75)
      (hn : n = min (f.width.getD m).toNat (8 * len - pos))
      (hcall : NumberCall buf f (f.width.getD m) pos n call)
      (hvalue : call.uval.toNat = bitsValue buf pos n)
      (hrest : Decodes platform buf fs (pos + n) (lenAfter platform f len call.uval)
        (mAfter f m call.uval) calls) :
      Decodes platform buf (f :: fs) pos len m (call :: calls)
  | bytes {f : ScsiField} {fs : List ScsiField} {pos len start n : Nat} {m : UInt32}
      {call : ScsiCall} {calls : List ScsiCall} (hin : pos < 8 * len)
      (htype : f.type = 0x41 ∨ f.type = 0x58) (hle : pos ≤ 8 * start)
      (hlt : 8 * start < pos + 8)
      (hn : n = min (f.width.getD m).toNat (len - start))
      (hcall : BytesCall f (f.width.getD m) start n call)
      (hrest : Decodes platform buf fs (8 * start + 8 * n) len m calls) :
      Decodes platform buf (f :: fs) pos len m
        (if 0 ≠ f.width.getD m then call :: calls else calls)

theorem Plain.exact {m : UInt32} {pos n : Nat} {call : ScsiCall} (hplain : Plain f)
    (hnumber : IsNumber f) (hn : n ≤ (f.width.getD m).toNat)
    (hcall : NumberCall buf f (f.width.getD m) pos n call) :
    f.type = 0x75 ∧ call.uval.toNat = bitsValue buf pos n := by
  rcases hplain with ⟨htype, width, hwidth, -, hmost⟩ | htype | htype
  · refine ⟨htype, ?_⟩
    rw [hwidth, Option.getD_some] at hn
    have hpow : 2 ^ n ≤ 2 ^ 64 := Nat.pow_le_pow_right (by decide) (Nat.le_trans hn hmost)
    rw [hcall.value, Nat.mod_eq_of_lt (Nat.lt_of_lt_of_le (bitsValue_lt buf pos n) hpow)]
  · rw [IsNumber, htype] at hnumber
    exact absurd hnumber (by decide)
  · rw [IsNumber, htype] at hnumber
    exact absurd hnumber (by decide)

theorem Plain.bytes (hplain : Plain f) (hbytes : IsBytes f) : f.type = 0x41 ∨ f.type = 0x58 := by
  rcases hplain with ⟨htype, -⟩ | htype
  · rw [IsBytes, htype] at hbytes
    exact absurd hbytes (by decide)
  · exact htype

theorem Plain.not_other (hplain : Plain f) (hnumber : ¬ IsNumber f) : IsBytes f := by
  rcases hplain with ⟨htype, -⟩ | htype | htype
  · refine absurd ?_ hnumber
    rw [IsNumber, htype]
    decide
  · rw [IsBytes, htype]
    decide
  · rw [IsBytes, htype]
    decide

theorem FieldDone.decodes {fs : List ScsiField} {calls : List ScsiCall}
    (h : FieldDone platform buf f s s') (hplain : Plain f) (hpos : s.bitpos < 8 * s.len)
    (hrest : Decodes platform buf fs s'.bitpos s'.len s'.m calls) :
    ∃ calls', s'.calls ++ calls = s.calls ++ calls' ∧
      Decodes platform buf (f :: fs) s.bitpos s.len s.m calls' := by
  cases h with
  | @number hnumber n call hn hcall =>
      obtain ⟨htype, hvalue⟩ := hplain.exact hnumber (hn ▸ Nat.min_le_left _ _) hcall
      exact ⟨call :: calls, List.append_assoc _ _ _, .number hpos htype hn hcall hvalue hrest⟩
  | @bytes hbytes start n call hle hlt hn hend hcall =>
      refine ⟨_, ?_, .bytes hpos (hplain.bytes hbytes) hle hlt hn hcall hrest⟩
      dsimp only
      split
      · exact List.append_assoc _ _ _
      · rfl
  | other hnumber hbytes => exact absurd (hplain.not_other hnumber) hbytes

/-- What is done from a place in a format with no marks. -/
def DecodesAll (platform : Platform) (buf : List UInt8) (fs : List ScsiField) (s : ScsiState) :
    Prop :=
  ∃ n s' calls, scsiRun platform buf n s = some (s', true) ∧ s'.calls = s.calls ++ calls ∧
    Decodes platform buf fs s.bitpos s.len s.m calls

theorem decodesAll_of_turn {fs : List ScsiField} (hturn : scsiTurn platform buf s = some .ends)
    (h : Decodes platform buf fs s.bitpos s.len s.m []) : DecodesAll platform buf fs s :=
  ⟨1, s, [], by rw [scsiRun, hturn]; rfl, (List.append_nil _).symm, h⟩

theorem decodes_of_items {fs : List ScsiField} (hplain : ∀ f ∈ fs, Plain f)
    (hitems : Items s.format (fs.map .line)) (hfits : AlwaysFits platform buf s)
    (hstar : s.star = none) (hlen : s.len ≤ buf.length) : DecodesAll platform buf fs s := by
  induction fs generalizing s with
  | nil =>
      rcases Nat.lt_or_ge s.bitpos (8 * s.len) with hpos | hover
      · generalize hformat : s.format = format at hitems
        cases hitems
        have hturn := scsiTurn_end hfits.turn hlen hpos hformat
        rw [hstar] at hturn
        exact decodesAll_of_turn hturn .ended
      · exact decodesAll_of_turn (scsiTurn_over hfits.turn hlen hover) (.full hover)
  | cons f fs ih =>
      rcases Nat.lt_or_ge s.bitpos (8 * s.len) with hpos | hover
      · generalize hformat : s.format = format at hitems
        rw [List.map_cons] at hitems
        cases hitems with
        | @line type p _ hne hrest =>
            obtain ⟨s', hturn, hdone⟩ := scsiTurn_line hfits.turn hlen hpos hformat hne
            obtain ⟨hformat', hstar', hlen', -⟩ := hdone.keeps
            obtain ⟨n, s'', calls, hrun, hcalls, hdecodes⟩ := @ih s'
              (fun f hmem => hplain f (List.mem_cons_of_mem _ hmem)) (hformat'.symm ▸ hrest)
              (hfits.next hturn) (hstar'.trans hstar) (Nat.le_trans hlen' hlen)
            obtain ⟨calls', happend, hall⟩ :=
              hdone.decodes (hplain _ List.mem_cons_self) hpos hdecodes
            refine ⟨n + 1, s'', calls', ?_, hcalls.trans happend, hall⟩
            rw [scsiRun, hturn]
            exact hrun
      · exact decodesAll_of_turn (scsiTurn_over hfits.turn hlen hover) (.full hover)

/-- As long as the widths fit, numbers and bytes are decoded one after another, each
from where the last one has ended. In the 64-bit build they do. -/
theorem scsiText_decodes (platform : Platform) (buf format : List UInt8) (fs : List ScsiField)
    (hitems : Items format (fs.map .line)) (hplain : ∀ f ∈ fs, Plain f) :
    (AlwaysFits platform buf (.start format buf.length) →
      ∃ n s, scsiRun platform buf n (.start format buf.length) = some (s, true) ∧
        Decodes platform buf fs 0 buf.length 1 s.calls) ∧
    (platform = .x64 → 8 * buf.length + 2 ^ 32 ≤ 2 ^ 64 →
      AlwaysFits platform buf (.start format buf.length)) := by
  constructor
  · intro hfits
    obtain ⟨n, s, calls, hrun, hcalls, hdecodes⟩ :=
      @decodes_of_items platform buf (.start format buf.length) fs hplain hitems hfits rfl
        (Nat.le_refl _)
    refine ⟨n, s, hrun, ?_⟩
    rw [hcalls]
    exact hdecodes
  · intro hx64 hbuf
    subst hx64
    exact alwaysFits_x64 hbuf format

/-- `u3 A`, `X1 B`, `u9 C`, on three bytes. -/
theorem scsiText_decodes_three :
    ∃ fs n s, scsiRun .x64 [0xa5, 0x5a, 0x3c] n (.start [0x75, 0x33, 0x20, 0x41, 0x0a, 0x58, 0x31,
      0x20, 0x42, 0x0a, 0x75, 0x39, 0x20, 0x43, 0x0a] 3) = some (s, true) ∧
      Decodes .x64 [0xa5, 0x5a, 0x3c] fs 0 3 1 s.calls := by
  have hfirst : (scsiField 0x75 [0x33, 0x20, 0x41, 0x0a, 0x58, 0x31, 0x20, 0x42, 0x0a, 0x75, 0x39,
      0x20, 0x43, 0x0a]).2 = [0x58, 0x31, 0x20, 0x42, 0x0a, 0x75, 0x39, 0x20, 0x43, 0x0a] := by
    decide
  have hsecond : (scsiField 0x58 [0x31, 0x20, 0x42, 0x0a, 0x75, 0x39, 0x20, 0x43, 0x0a]).2 =
      [0x75, 0x39, 0x20, 0x43, 0x0a] := by decide
  have hthird : (scsiField 0x75 [0x39, 0x20, 0x43, 0x0a]).2 = [] := by decide
  refine ⟨[(scsiField 0x75 [0x33, 0x20, 0x41, 0x0a, 0x58, 0x31, 0x20, 0x42, 0x0a,
    0x75, 0x39, 0x20,
    0x43, 0x0a]).1, (scsiField 0x58 [0x31, 0x20, 0x42, 0x0a, 0x75, 0x39, 0x20, 0x43, 0x0a]).1,
    (scsiField 0x75 [0x39, 0x20, 0x43, 0x0a]).1], ?_⟩
  have hall := scsiText_decodes .x64 [0xa5, 0x5a, 0x3c] [0x75, 0x33, 0x20, 0x41, 0x0a, 0x58, 0x31,
    0x20, 0x42, 0x0a, 0x75, 0x39, 0x20, 0x43, 0x0a] [(scsiField 0x75 [0x33, 0x20, 0x41, 0x0a, 0x58,
    0x31, 0x20, 0x42, 0x0a, 0x75, 0x39, 0x20, 0x43, 0x0a]).1, (scsiField 0x58 [0x31, 0x20, 0x42,
    0x0a, 0x75, 0x39, 0x20, 0x43, 0x0a]).1, (scsiField 0x75 [0x39, 0x20, 0x43, 0x0a]).1]
    (.line (by decide) ?_) fun f hmem => ?_
  · exact hall.1 (hall.2 rfl (by decide))
  · rw [hfirst]
    refine .line (by decide) ?_
    rw [hsecond]
    refine .line (by decide) ?_
    rw [hthird]
    exact .nil
  · rcases List.mem_cons.mp hmem with rfl | hmem
    · exact .inl ⟨rfl, 3, by decide⟩
    · rcases List.mem_cons.mp hmem with rfl | hmem
      · exact .inr (.inr rfl)
      · rw [List.mem_singleton.mp hmem]
        exact .inl ⟨rfl, 9, by decide⟩

/-- `X0 A`, `u8 B`, on one byte: there is no call for the bytes. -/
theorem scsiText_empty_field :
    ∃ f g, Items [0x58, 0x30, 0x20, 0x41, 0x0a, 0x75, 0x38, 0x20, 0x42, 0x0a]
      [.line f, .line g] ∧
      Plain f ∧ Plain g ∧ f.type = 0x58 ∧ ∀ platform,
      ∃ s, scsiRun platform [0xa5] 2
          (.start [0x58, 0x30, 0x20, 0x41, 0x0a, 0x75, 0x38, 0x20, 0x42, 0x0a] 1) =
        some (s, false) ∧ scsiTurn platform [0xa5] s = some .ends ∧
          ∀ call ∈ s.calls, call.type ≠ 0x58 := by
  have hfirst : (scsiField 0x58 [0x30, 0x20, 0x41, 0x0a, 0x75, 0x38, 0x20, 0x42, 0x0a]).2 =
      [0x75, 0x38, 0x20, 0x42, 0x0a] := by decide
  have hsecond : (scsiField 0x75 [0x38, 0x20, 0x42, 0x0a]).2 = [] := by decide
  refine ⟨(scsiField 0x58 [0x30, 0x20, 0x41, 0x0a, 0x75, 0x38, 0x20, 0x42, 0x0a]).1,
    (scsiField 0x75 [0x38, 0x20, 0x42, 0x0a]).1, .line (by decide) ?_, .inr (.inr rfl),
    .inl ⟨rfl, 8, by decide⟩, rfl, fun platform => ?_⟩
  · rw [hfirst]
    refine .line (by decide) ?_
    rw [hsecond]
    exact .nil
  · refine ⟨⟨[], none, 1, 8, 1, [⟨0x75, 8, [0x42], 0xa5, none, 0, none⟩]⟩, ?_⟩
    cases platform with
    | win32 => exact ⟨by decide, by decide, by decide⟩
    | x64 => exact ⟨by decide, by decide, by decide⟩

end Winspd.Proofs
