import Mathlib.Data.List.Induction
import Winspd.Lib.Template

/-!
# Command lines

How a program finds its arguments in its command line. Words are separated by
blanks, a quotation mark begins and ends a part in which blanks separate
nothing, and backslashes mean something only in front of a quotation mark: of an
even number of them half are left, and of an odd number half are left and the
quotation mark is text.

What a quotation mark is that comes directly behind one that has ended a quoted
part is not the same for all programs (`pair`): it begins another quoted part,
or it is text.

A text without quotation marks that is put between two of them is read back when
it does not end in a backslash (`split_enquote`), and only then
(`split_enquote_ne`). From this it follows for every template which of the
fillings can be read back (`split_expand_iff`).
-/

namespace Winspd.Lib

/-- The characters of a command line that mean something. -/
structure Quoting (α : Type*) where
  quote : α
  backslash : α
  blank : α → Bool
  quote_ne : quote ≠ backslash
  quote_blank : blank quote = false
  backslash_blank : blank backslash = false

/-- A word, as far as it was read. -/
structure WordRead (α : Type*) where
  chars : List α
  /-- In a quoted part? -/
  quoted : Bool
  /-- Directly behind a quoted part? -/
  closed : Bool
  /-- The backslashes that were read last. -/
  backslashes : Nat
  deriving Repr

variable {α ι : Type*} (x : Quoting α) (pair : Option Bool)

namespace WordRead

def start : WordRead α := ⟨[], false, false, 0⟩

def word (v : WordRead α) : List α := v.chars ++ List.replicate v.backslashes x.backslash

def readQuote (v : WordRead α) : WordRead α :=
  let chars := v.chars ++ List.replicate (v.backslashes / 2) x.backslash
  if v.backslashes % 2 = 1 then ⟨chars ++ [x.quote], v.quoted, false, 0⟩
  else if v.closed then
    match pair with
    | some quoted => ⟨chars ++ [x.quote], quoted, false, 0⟩
    | none => ⟨chars, true, false, 0⟩
  else ⟨chars, !v.quoted, v.quoted, 0⟩

theorem prefix_word (v : WordRead α) : v.chars <+: v.word x := List.prefix_append ..

theorem prefix_readQuote (v : WordRead α) : v.chars <+: (v.readQuote x pair).chars := by
  unfold readQuote
  dsimp only
  split
  · rw [List.append_assoc]
    exact List.prefix_append ..
  · split
    · cases pair with
      | none => exact List.prefix_append ..
      | some quoted =>
          dsimp only
          rw [List.append_assoc]
          exact List.prefix_append ..
    · exact List.prefix_append ..

theorem readQuote_start : start.readQuote x pair = ⟨[], true, false, 0⟩ := by
  simp [readQuote, start]

end WordRead

def enquote (text : List α) : List α := x.quote :: text ++ [x.quote]

def Separated : List α → Prop
  | [] => True
  | c :: _ => x.blank c = true

def separates : List (Piece α ι) → Bool
  | [] => true
  | .text c :: _ => x.blank c
  | .place _ :: _ => false

variable {x pair} in
theorem separated_expand {filling : ι → List α} {ps : List (Piece α ι)}
    (h : separates x ps = true) : Separated x (expand filling ps) := by
  match ps with
  | [] => trivial
  | .text c :: ps => exact h

variable [DecidableEq α]

/-- A character: the word that ends with it, and the word that is read. -/
def readChar (w : Option (WordRead α)) (c : α) : Option (List α) × Option (WordRead α) :=
  let v := w.getD .start
  if c = x.backslash then
    (none, some { v with backslashes := v.backslashes + 1, closed := false })
  else if c = x.quote then (none, some (v.readQuote x pair))
  else if x.blank c = true ∧ v.quoted = false then (w.map (WordRead.word x), none)
  else (none, some ⟨v.word x ++ [c], v.quoted, false, 0⟩)

def splitWords : Option (WordRead α) → List α → List (List α)
  | none, [] => []
  | some v, [] => [v.word x]
  | w, c :: rest => (readChar x pair w c).1.toList ++ splitWords (readChar x pair w c).2 rest

/-- The arguments of a command line. The name of the program has no escapes. -/
def commandLineToArgv (image : List α) : List α → List (List α)
  | [] => [image]
  | c :: rest =>
      if c = x.quote then
        rest.takeWhile (· ≠ x.quote) ::
          splitWords x pair none (rest.dropWhile (· ≠ x.quote)).tail
      else
        (c :: rest).takeWhile (fun c => !x.blank c) ::
          splitWords x pair none ((c :: rest).dropWhile fun c => !x.blank c)

/-! ## One word -/

variable {x pair} {v : WordRead α} {text rest : List α} {c : α}

theorem readChar_blank (hc : x.blank c = true) (w : Option (WordRead α))
    (hw : (w.getD .start).quoted = false) :
    readChar x pair w c = (w.map (WordRead.word x), none) := by
  have hback : c ≠ x.backslash := by
    intro h
    rw [h, x.backslash_blank] at hc
    cases hc
  have hquote : c ≠ x.quote := by
    intro h
    rw [h, x.quote_blank] at hc
    cases hc
  rw [readChar, if_neg hback, if_neg hquote, if_pos ⟨hc, hw⟩]

theorem splitWords_separated (hv : v.quoted = false) (hrest : Separated x rest) :
    splitWords x pair (some v) rest = v.word x :: splitWords x pair none rest := by
  cases rest with
  | nil => rfl
  | cons c rest =>
      rw [splitWords, splitWords, readChar_blank hrest (some v) hv, readChar_blank hrest none rfl]
      rfl

theorem readChar_quote : readChar x pair (some v) x.quote = (none, some (v.readQuote x pair)) := by
  rw [readChar, if_neg x.quote_ne, if_pos rfl]
  rfl

/-- What a quoted part reads of a text. By induction on the text from its end, so
that the last character says how many backslashes there are. -/
theorem splitWords_quoted (pair : Option Bool) (hquoted : v.quoted = true)
    (hclosed : v.closed = false)
    (hnone : v.backslashes = 0) (htext : x.quote ∉ text) :
    ∃ v' : WordRead α, (∀ rest, splitWords x pair (some v) (text ++ rest) =
        splitWords x pair (some v') rest) ∧
      v'.quoted = true ∧ v'.closed = false ∧ v'.word x = v.word x ++ text ∧
      (v'.backslashes = 0 ↔ text.getLast? ≠ some x.backslash) := by
  induction text using List.reverseRecOn with
  | nil => exact ⟨v, fun rest => rfl, hquoted, hclosed, by simp, by simp [hnone]⟩
  | append_singleton text c ih =>
      rw [List.mem_append, List.mem_singleton, not_or] at htext
      obtain ⟨v', hread, hquoted', hclosed', hchars, -⟩ := ih htext.1
      by_cases hback : c = x.backslash
      · refine ⟨{ v' with backslashes := v'.backslashes + 1, closed := false }, fun rest => ?_,
          hquoted', rfl, ?_, by simp [hback]⟩
        · rw [List.append_assoc, hread, List.singleton_append, splitWords, readChar, if_pos hback]
          rfl
        · rw [← List.append_assoc, ← hchars, hback]
          simp [WordRead.word, List.replicate_succ']
      · refine ⟨⟨v'.word x ++ [c], true, false, 0⟩, fun rest => ?_, rfl, rfl, ?_,
          by simp [hback]⟩
        · have hnot : ¬ (x.blank c = true ∧ (Option.getD (some v') .start).quoted = false) := by
            simp [hquoted']
          rw [List.append_assoc, hread, List.singleton_append, splitWords, readChar, if_neg hback,
            if_neg (Ne.symm htext.2), if_neg hnot, Option.getD_some, hquoted']
          rfl
        · rw [← List.append_assoc, ← hchars]
          simp [WordRead.word]

theorem splitWords_prefix (pair : Option Bool) (v : WordRead α) (rest : List α) :
    ∃ word words, splitWords x pair (some v) rest = word :: words ∧ v.chars <+: word := by
  induction rest generalizing v with
  | nil => exact ⟨_, _, rfl, WordRead.prefix_word x v⟩
  | cons c rest ih =>
      rw [splitWords, readChar]
      split
      · exact ih { v with backslashes := v.backslashes + 1, closed := false }
      · split
        · obtain ⟨word, words, heq, hprefix⟩ := ih (v.readQuote x pair)
          exact ⟨word, words, heq, (WordRead.prefix_readQuote x pair v).trans hprefix⟩
        · split
          · exact ⟨_, _, rfl, WordRead.prefix_word x v⟩
          · obtain ⟨word, words, heq, hprefix⟩ := ih ⟨v.word x ++ [c], v.quoted, false, 0⟩
            refine ⟨word, words, heq, List.IsPrefix.trans ?_ hprefix⟩
            exact (WordRead.prefix_word x v).trans (List.prefix_append ..)

/-! ## A text between quotation marks -/

theorem splitWords_enquote (pair : Option Bool) (htext : x.quote ∉ text) :
    ∃ v : WordRead α, (∀ rest, splitWords x pair none (enquote x text ++ rest) =
        splitWords x pair (some (v.readQuote x pair)) rest) ∧
      v.quoted = true ∧ v.closed = false ∧ v.word x = text ∧
      (v.backslashes = 0 ↔ text.getLast? ≠ some x.backslash) := by
  have hstart : readChar x pair none x.quote = (none, some ⟨[], true, false, 0⟩) := by
    rw [readChar, if_neg x.quote_ne, if_pos rfl, Option.getD_none, WordRead.readQuote_start]
  obtain ⟨v, hread, hquoted, hclosed, hword, hnone⟩ :=
    splitWords_quoted pair (v := ⟨[], true, false, 0⟩) rfl rfl rfl htext
  refine ⟨v, fun rest => ?_, hquoted, hclosed, hword, hnone⟩
  rw [enquote, List.cons_append, List.cons_append, List.append_assoc, splitWords, hstart]
  show splitWords x pair (some ⟨[], true, false, 0⟩) _ = _
  rw [hread, List.singleton_append, splitWords, readChar_quote]
  rfl

/-- It is read back when it does not end in a backslash. -/
theorem split_enquote (htext : x.quote ∉ text) (hlast : text.getLast? ≠ some x.backslash)
    (hrest : Separated x rest) :
    splitWords x pair none (enquote x text ++ rest) = text :: splitWords x pair none rest := by
  obtain ⟨v, hread, hquoted, hclosed, hword, hnone⟩ :=
    splitWords_enquote pair htext
  have hzero := hnone.mpr hlast
  have hclose : v.readQuote x pair = ⟨v.word x, false, true, 0⟩ := by
    simp [WordRead.readQuote, WordRead.word, hzero, hclosed, hquoted]
  rw [hread, hclose, splitWords_separated rfl hrest, hword]
  simp [WordRead.word]

/-- Otherwise another word is read. With an odd number of backslashes it has the
quotation mark in it, and with an even number there are only half of them. -/
theorem split_enquote_ne (htext : x.quote ∉ text) (hlast : text.getLast? = some x.backslash)
    (hrest : Separated x rest) (words : List (List α)) :
    splitWords x pair none (enquote x text ++ rest) ≠ text :: words := by
  obtain ⟨v, hread, hquoted, hclosed, hword, hnone⟩ :=
    splitWords_enquote pair htext
  have hsome : v.backslashes ≠ 0 := fun hzero => hnone.mp hzero hlast
  rw [hread]
  intro heq
  by_cases hodd : v.backslashes % 2 = 1
  · obtain ⟨word, words', heq', hprefix⟩ :=
      splitWords_prefix (x := x) pair (v.readQuote x pair) rest
    rw [heq] at heq'
    cases heq'
    apply htext
    apply hprefix.subset
    simp [WordRead.readQuote, hodd]
  · have hclose : v.readQuote x pair =
        ⟨v.chars ++ List.replicate (v.backslashes / 2) x.backslash, false, true, 0⟩ := by
      simp [WordRead.readQuote, hodd, hclosed, hquoted]
    rw [hclose, splitWords_separated rfl hrest] at heq
    obtain ⟨hhead, -⟩ := List.cons.inj heq
    have hlen := congrArg List.length (hhead.trans hword.symm)
    simp only [WordRead.word, List.length_append, List.length_replicate] at hlen
    omega

theorem commandLineToArgv_enquote {image : List α} (htext : x.quote ∉ text) :
    commandLineToArgv x pair image (enquote x text ++ rest) =
      text :: splitWords x pair none rest := by
  have hall : ∀ c ∈ text, decide (c ≠ x.quote) = true := by
    intro c hc
    exact decide_eq_true fun heq => htext (heq ▸ hc)
  rw [enquote, List.cons_append, List.cons_append, List.append_assoc, commandLineToArgv,
    if_pos rfl, List.takeWhile_append_of_pos hall, List.dropWhile_append_of_pos hall]
  simp

/-! ## Templates -/

/-- What is to be read of a template: a word of its text, or what a place is
filled with. -/
inductive Slot (α ι : Type*)
  | text (word : List α)
  | place (i : ι)
  deriving DecidableEq, Repr

def Slot.fill (filling : ι → List α) : Slot α ι → List α
  | .text word => word
  | .place i => filling i

/-- The words of a template in which each place stands as a word of its own. -/
def slots (x : Quoting α) (pair : Option Bool) :
    Option (WordRead α) → List (Piece α ι) → Option (List (Slot α ι))
  | none, [] => some []
  | some v, [] => some [.text (v.word x)]
  | w, .text c :: ps =>
      (slots x pair (readChar x pair w c).2 ps).map
        ((readChar x pair w c).1.toList.map Slot.text ++ ·)
  | none, .place i :: ps =>
      if separates x ps then (slots x pair none ps).map (.place i :: ·) else none
  | some _, .place _ :: _ => none

variable {filling : ι → List α} {w : Option (WordRead α)} {ps : List (Piece α ι)}
  {sl : List (Slot α ι)}

/-- By induction on the pieces. What is read of the text of the template is the
same on both sides, and a place is read back or it is not. -/
theorem split_expand_iff (h : slots x pair w ps = some sl) (hquote : ∀ i, x.quote ∉ filling i) :
    splitWords x pair w (expand (fun i => enquote x (filling i)) ps) =
        sl.map (Slot.fill filling) ↔
      ∀ i, Slot.place i ∈ sl → (filling i).getLast? ≠ some x.backslash := by
  induction ps generalizing w sl with
  | nil =>
      cases w with
      | none =>
          cases h
          simp [splitWords]
      | some v =>
          cases h
          simp [splitWords, Slot.fill]
  | cons p ps ih =>
      cases p with
      | text c =>
          rw [slots] at h
          obtain ⟨rest, hrest, rfl⟩ := Option.map_eq_some_iff.mp h
          rw [expand_text, splitWords, List.map_append]
          have hhead : ((readChar x pair w c).1.toList.map Slot.text).map (Slot.fill filling) =
              (readChar x pair w c).1.toList := by
            rw [List.map_map]
            exact List.map_id _
          rw [hhead, List.append_right_inj, ih hrest]
          simp
      | place i =>
          cases w with
          | some v => cases h
          | none =>
              rw [slots] at h
              split at h
              · obtain ⟨rest, hrest, rfl⟩ := Option.map_eq_some_iff.mp h
                have hsep : Separated x (expand (fun i => enquote x (filling i)) ps) :=
                  separated_expand ‹_›
                rw [expand_place, List.map_cons, Slot.fill]
                by_cases hlast : (filling i).getLast? = some x.backslash
                · constructor
                  · intro heq
                    exact absurd heq (split_enquote_ne (hquote i) hlast hsep _)
                  · intro hall
                    exact absurd hlast (hall i List.mem_cons_self)
                · rw [split_enquote (hquote i) hlast hsep, List.cons_inj_right, ih hrest]
                  constructor
                  · intro hall j hj
                    rcases List.mem_cons.mp hj with hj | hj
                    · cases hj
                      exact hlast
                    · exact hall j hj
                  · intro hall j hj
                    exact hall j (List.mem_cons_of_mem _ hj)
              · cases h

end Winspd.Lib
