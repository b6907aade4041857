import Winspd.Launcher.CommandLine
import Winspd.Lib.Template

/-!
# The substitution of arguments

The two loops of `SvcInstanceReplaceArguments` are compared with one text, the
string's pieces with the arguments filled in (`substituted`). The first loop
finds its length, as far as a `ULONG` goes, and the second writes it, as far as
there is room. What a write does to the memory is the same for one character
and for many of them (`written`), so that each part of the text is one lemma.

A `%` at the end of the string has the terminator behind it. Both loops take
the terminator for the character that is escaped and go on behind it.
-/

namespace Winspd.Proofs

open Winspd.Lib Winspd.Shared Winspd.Launcher

/-- The argument vectors: ten strings at most. -/
structure ArgumentVector where
  args : List WString
  few : args.length ≤ 10

def argumentPlace (d : UInt16) : Option Nat :=
  if digitZero ≤ d ∧ d ≤ digitNine then some (d - digitZero).toNat else none

def withoutQuotes (s : WString) : List UInt16 := s.chars.filter fun c => doubleQuote ≠ c

/-- An argument as it stands in the command line. -/
def quoted (s : WString) : List UInt16 := doubleQuote :: withoutQuotes s ++ [doubleQuote]

/-- The string, with its arguments. An argument that there is not is empty. -/
def substituted (args : List WString) (string : List UInt16) : List UInt16 :=
  expand (fun i => quoted (args.getD i .empty)) (pieces percent argumentPlace string)

/-- The command line and its NUL can be counted and allocated. -/
def Allocatable (platform : Platform) (length : Nat) : Prop :=
  length + 1 < 2 ^ 32 ∧ (length + 1) * 2 < 2 ^ (8 * platform.sizeofPvoid)

/-! ## Writes -/

/-- What is in the memory when these characters are written behind the others. -/
def written (room : Nat) (dest chars : List UInt16) : Option (List UInt16) :=
  if dest.length + chars.length ≤ room then some (dest ++ chars) else none

section Written

variable {room : Nat} {dest chars chars' : List UInt16} {c : UInt16}
  {f g : List UInt16 → Option (List UInt16)}

theorem putChar_written : putChar room dest c = written room dest [c] := rfl

theorem written_nil (h : dest.length ≤ room) : written room dest [] = some dest := by
  simp [written, h]

theorem written_bind_written :
    ((written room dest chars).bind fun dest => written room dest chars') =
      written room dest (chars ++ chars') := by
  unfold written
  by_cases hfirst : dest.length + chars.length ≤ room
  · rw [if_pos hfirst, Option.bind_some]
    simp [Nat.add_assoc]
  · have hboth : ¬ dest.length + (chars ++ chars').length ≤ room := by
      rw [List.length_append]
      omega
    rw [if_neg hfirst, if_neg hboth, Option.bind_none]

theorem written_bind_congr (h : ∀ dest, dest.length ≤ room → f dest = g dest) :
    (written room dest chars).bind f = (written room dest chars).bind g := by
  unfold written
  split
  · rw [Option.bind_some, Option.bind_some]
    apply h
    rw [List.length_append]
    assumption
  · rfl

end Written

/-! ## One argument -/

section Argument

variable {room : Nat} {dest chars : List UInt16} {length : UInt32} {s : WString}

theorem argumentLengthLoop_eq (h : (0 : UInt16) ∉ chars) :
    argumentLengthLoop length (chars ++ [0]) =
      some (length + UInt32.ofNat (chars.filter fun c => doubleQuote ≠ c).length) := by
  induction chars generalizing length with
  | nil => simp [argumentLengthLoop]
  | cons c chars ih =>
      rw [List.mem_cons, not_or] at h
      rw [List.cons_append, argumentLengthLoop, if_neg (Ne.symm h.1), ih h.2, List.filter_cons]
      by_cases hquote : doubleQuote ≠ c
      · simp only [hquote, ne_eq, not_false_eq_true, decide_true, if_true, List.length_cons]
        rw [Nat.add_comm _ 1, UInt32.ofNat_add, ← UInt32.add_assoc]
        rfl
      · simp [hquote]

theorem length_quoted : (quoted s).length = 2 + (withoutQuotes s).length := by
  simp [quoted, Nat.add_comm]
  omega

theorem svcInstanceArgumentLength_eq :
    svcInstanceArgumentLength s.terminated = some (UInt32.ofNat (quoted s).length) := by
  rw [length_quoted, UInt32.ofNat_add]
  exact argumentLengthLoop_eq s.noNul

theorem argumentCopyLoop_eq (h : (0 : UInt16) ∉ chars) (hdest : dest.length ≤ room) :
    argumentCopyLoop room dest (chars ++ [0]) =
      written room dest (chars.filter fun c => doubleQuote ≠ c) := by
  induction chars generalizing dest with
  | nil =>
      rw [List.filter_nil, written_nil hdest]
      simp [argumentCopyLoop]
  | cons c chars ih =>
      rw [List.mem_cons, not_or] at h
      rw [List.cons_append, argumentCopyLoop, if_neg (Ne.symm h.1), List.filter_cons]
      by_cases hquote : doubleQuote ≠ c
      · rw [if_pos hquote, if_pos (by simpa using hquote),
          ← List.singleton_append (l := chars.filter _), ← written_bind_written]
        show (written room dest [c]).bind _ = _
        exact written_bind_congr fun dest hdest => ih h.2 hdest
      · rw [if_neg hquote, if_neg (by simpa using hquote)]
        exact ih h.2 hdest

theorem svcInstanceArgumentCopy_eq :
    svcInstanceArgumentCopy room dest s.terminated = written room dest (quoted s) := by
  have hloop : quoted s = [doubleQuote] ++ (withoutQuotes s ++ [doubleQuote]) := rfl
  rw [hloop, ← written_bind_written]
  show (written room dest [doubleQuote]).bind _ = _
  refine written_bind_congr fun dest hdest => ?_
  rw [← written_bind_written]
  show (argumentCopyLoop room dest s.terminated).bind _ = _
  rw [WString.terminated, argumentCopyLoop_eq s.noNul hdest]
  rfl

end Argument

/-! ## The string -/

variable {platform : Platform} {argv : ArgumentVector} {room : Nat} {dest : List UInt16}
  {string : List UInt16} {length : UInt32} {c d : UInt16}

theorem substituted_plain (hc : c ≠ percent) :
    substituted argv.args (c :: string) = c :: substituted argv.args string := by
  rw [substituted, pieces_plain hc, expand_text, ← substituted]

theorem substituted_place (hd : digitZero ≤ d ∧ d ≤ digitNine) :
    substituted argv.args (percent :: d :: string) =
      quoted (argv.args.getD (d - digitZero).toNat .empty) ++ substituted argv.args string := by
  have hplace : argumentPlace d = some (d - digitZero).toNat := if_pos hd
  rw [substituted, pieces_place hplace, expand_place, ← substituted]

theorem substituted_escaped (hd : ¬ (digitZero ≤ d ∧ d ≤ digitNine)) :
    substituted argv.args (percent :: d :: string) = d :: substituted argv.args string := by
  have hplace : argumentPlace d = none := if_neg hd
  rw [substituted, pieces_escaped hplace, expand_text, ← substituted]

theorem replacedArgument_eq :
    replacedArgument (UInt32.ofNat argv.args.length) (argv.args.map WString.terminated) d =
      some (argv.args.getD (d - digitZero).toNat .empty).terminated := by
  have hcount : (UInt32.ofNat argv.args.length).toNat = argv.args.length :=
    UInt32.toNat_ofNat_of_lt' (Nat.lt_of_le_of_lt argv.few (by decide))
  have hiff : UInt32.ofNat argv.args.length > (d - digitZero).toUInt32 ↔
      (d - digitZero).toNat < argv.args.length := by
    rw [GT.gt, UInt32.lt_iff_toNat_lt, hcount, UInt16.toNat_toUInt32]
  unfold replacedArgument
  by_cases hthere : (d - digitZero).toNat < argv.args.length
  · rw [if_pos (hiff.mpr hthere)]
    simp [List.getD, hthere]
  · rw [if_neg fun hless => hthere (hiff.mp hless)]
    simp [List.getD, List.getElem?_eq_none (Nat.le_of_not_lt hthere)]
    rfl

/-- Where a `%` has nothing behind it, the loop reads on behind the terminator. -/
theorem replacedLength_eq (h : (0 : UInt16) ∉ string) :
    replacedLength (UInt32.ofNat argv.args.length) (argv.args.map WString.terminated) length
        (string ++ [0]) =
      if paired percent string then
        some (length + UInt32.ofNat (substituted argv.args string).length)
      else none := by
  induction string using template_induction percent generalizing length with
  | nil => simp [replacedLength, substituted]
  | lone =>
      rw [paired_lone]
      simp [replacedLength, percent, digitZero]
  | escaped d rest ih =>
      simp only [List.mem_cons, not_or] at h
      rw [List.cons_append, List.cons_append, replacedLength, if_neg (by decide), if_pos rfl,
        paired_escaped]
      by_cases hd : digitZero ≤ d ∧ d ≤ digitNine
      · simp only [if_pos hd, replacedArgument_eq, Option.bind_eq_bind, Option.bind_some,
          svcInstanceArgumentLength_eq]
        rw [ih h.2.2, substituted_place hd, List.length_append, UInt32.ofNat_add, UInt32.add_assoc]
      · simp only [if_neg hd]
        rw [ih h.2.2, substituted_escaped hd, List.length_cons, Nat.add_comm _ 1,
          UInt32.ofNat_add, UInt32.add_assoc]
        rfl
  | plain c rest hc ih =>
      simp only [List.mem_cons, not_or] at h
      rw [List.cons_append, replacedLength.eq_def]
      simp only [if_neg (Ne.symm h.1), if_neg hc]
      rw [ih h.2, paired_plain hc, substituted_plain hc, List.length_cons, Nat.add_comm _ 1,
        UInt32.ofNat_add, UInt32.add_assoc]
      rfl

theorem replacedCopy_eq (h : (0 : UInt16) ∉ string) (hpaired : paired percent string = true)
    (hdest : dest.length ≤ room) :
    replacedCopy (UInt32.ofNat argv.args.length) (argv.args.map WString.terminated) room dest
        (string ++ [0]) = written room dest (substituted argv.args string) := by
  induction string using template_induction percent generalizing dest with
  | nil =>
      have hnil : substituted argv.args [] = [] := rfl
      rw [hnil, written_nil hdest]
      simp [replacedCopy]
  | lone =>
      rw [paired_lone] at hpaired
      cases hpaired
  | escaped d rest ih =>
      simp only [List.mem_cons, not_or] at h
      rw [paired_escaped] at hpaired
      rw [List.cons_append, List.cons_append, replacedCopy, if_neg (by decide), if_pos rfl]
      by_cases hd : digitZero ≤ d ∧ d ≤ digitNine
      · simp only [if_pos hd, replacedArgument_eq, Option.bind_eq_bind, Option.bind_some,
          svcInstanceArgumentCopy_eq]
        rw [substituted_place hd, ← written_bind_written]
        exact written_bind_congr fun dest hdest => ih h.2.2 hpaired hdest
      · simp only [if_neg hd, Option.bind_eq_bind, putChar_written]
        rw [substituted_escaped hd, ← List.singleton_append (l := substituted _ _),
          ← written_bind_written]
        exact written_bind_congr fun dest hdest => ih h.2.2 hpaired hdest
  | plain c rest hc ih =>
      simp only [List.mem_cons, not_or] at h
      rw [paired_plain hc] at hpaired
      rw [List.cons_append, replacedCopy.eq_def]
      simp only [if_neg (Ne.symm h.1), if_neg hc, Option.bind_eq_bind, putChar_written]
      rw [substituted_plain hc, ← List.singleton_append (l := substituted _ _),
        ← written_bind_written]
      exact written_bind_congr fun dest hdest => ih h.2 hpaired hdest

/-- There is room for so many characters and a NUL exactly when so many can be
counted and allocated. -/
theorem room_iff {n : Nat} :
    n + 1 ≤ allocatedSize platform (UInt32.ofNat n) / 2 ↔ Allocatable platform n := by
  have hlength : (UInt32.ofNat n + 1).toNat = (n + 1) % 2 ^ 32 := by
    rw [UInt32.toNat_add, UInt32.toNat_ofNat']
    simp
  unfold allocatedSize Allocatable
  rw [hlength]
  cases platform <;> simp only [Platform.sizeofPvoid] <;> omega

theorem svcInstanceReplaceArguments_eq (platform : Platform) (allocated : Bool)
    (argv : ArgumentVector) (s : WString) :
    svcInstanceReplaceArguments platform allocated s.terminated
        (UInt32.ofNat argv.args.length) (argv.args.map WString.terminated) =
      if paired percent s.chars = false then none
      else if allocated = false then some (.error errorNoSystemResources)
      else
        (written (allocatedSize platform
              (UInt32.ofNat (substituted argv.args s.chars).length) / 2) []
            (substituted argv.args s.chars ++ [0])).map .ok := by
  have hs : s.terminated = s.chars ++ [0] := rfl
  unfold svcInstanceReplaceArguments
  rw [hs, replacedLength_eq s.noNul]
  cases hpaired : paired percent s.chars with
  | false => simp
  | true =>
      rw [if_pos rfl, if_neg (by decide)]
      simp only [Option.bind_eq_bind, Option.bind_some, UInt32.zero_add]
      by_cases hallocated : allocated = false
      · rw [if_pos hallocated, if_pos hallocated]
      · rw [if_neg hallocated, if_neg hallocated, replacedCopy_eq s.noNul hpaired (Nat.zero_le _),
          ← written_bind_written, Option.map_eq_bind, Option.bind_assoc]
        rfl

/-! ## The result -/

/-- Both loops end at the terminator, the second writes as many characters as the
first has found, and these are the string with its arguments. -/
structure Substituted (platform : Platform) (argv : ArgumentVector) (s : WString) : Prop where
  counted : ∃ length, replacedLength (UInt32.ofNat argv.args.length)
      (argv.args.map WString.terminated) 0 s.terminated = some length ∧
    length.toNat = (substituted argv.args s.chars).length
  copied : svcInstanceReplaceArguments platform true s.terminated
      (UInt32.ofNat argv.args.length) (argv.args.map WString.terminated) =
    some (.ok (substituted argv.args s.chars ++ [0]))
  noMemory : svcInstanceReplaceArguments platform false s.terminated
      (UInt32.ofNat argv.args.length) (argv.args.map WString.terminated) =
    some (.error errorNoSystemResources)

theorem written_eq_some_iff {room : Nat} {chars : List UInt16} :
    written room [] chars = some chars ↔ chars.length ≤ room := by
  simp [written]

/-- The command line is the template with its arguments put in, and what is copied is what
was counted, if and only if every escape has a character behind it and there can be a
block of that size. -/
theorem argument_substitution {s : WString} :
    Substituted platform argv s ↔
      paired percent s.chars = true ∧
        Allocatable platform (substituted argv.args s.chars).length := by
  constructor
  · intro h
    have hpaired : paired percent s.chars = true := by
      obtain ⟨length, hlength, -⟩ := h.counted
      have hs : s.terminated = s.chars ++ [0] := rfl
      rw [hs, replacedLength_eq s.noNul] at hlength
      by_contra hnot
      rw [if_neg hnot] at hlength
      cases hlength
    refine ⟨hpaired, ?_⟩
    have hcopied := h.copied
    rw [svcInstanceReplaceArguments_eq, hpaired, if_neg (by decide), if_neg (by decide)] at hcopied
    obtain ⟨chars, hchars, heq⟩ := Option.map_eq_some_iff.mp hcopied
    cases heq
    have hroom := written_eq_some_iff.mp hchars
    rw [List.length_append, List.length_singleton] at hroom
    exact room_iff.mp hroom
  · rintro ⟨hpaired, hfits⟩
    have hs : s.terminated = s.chars ++ [0] := rfl
    refine ⟨⟨UInt32.ofNat (substituted argv.args s.chars).length, ?_, ?_⟩, ?_, ?_⟩
    · rw [hs, replacedLength_eq s.noNul, if_pos hpaired, UInt32.zero_add]
    · apply UInt32.toNat_ofNat_of_lt'
      have hcount := hfits.1
      have hsize : UInt32.size = 2 ^ 32 := rfl
      omega
    · have hroom := room_iff.mpr hfits
      rw [svcInstanceReplaceArguments_eq, hpaired, if_neg (by decide), if_neg (by decide),
        written_eq_some_iff.mpr (by simpa using hroom)]
      rfl
    · rw [svcInstanceReplaceArguments_eq, hpaired, if_neg (by decide), if_pos rfl]

/-- `%0 %`. -/
def percentAtEnd : WString := ⟨[percent, digitZero, wideSpace, percent], by decide⟩

theorem argument_substitution_percent :
    replacedLength 1 [WString.empty.terminated] 0 percentAtEnd.terminated = none ∧
      ¬ Substituted .x64 ⟨[.empty], by decide⟩ percentAtEnd := by
  have hreads : replacedLength 1 [WString.empty.terminated] 0 percentAtEnd.terminated = none := by
    decide
  refine ⟨hreads, fun h => ?_⟩
  obtain ⟨length, hlength, -⟩ := h.counted
  have hnone : some length = none := hlength.symm.trans hreads
  cases hnone

end Winspd.Proofs
