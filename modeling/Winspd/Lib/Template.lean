import Mathlib.Data.List.Basic

/-!
# Templates

A text with an escape character. What stands behind the escape character is a
place, which is filled with another text, or it stands for itself. A text in
which an escape character has nothing behind it is not a template: it is not
`paired`.
-/

namespace Winspd.Lib

variable {α ι : Type*}

inductive Piece (α ι : Type*)
  | text (c : α)
  | place (i : ι)
  deriving DecidableEq, Repr

/-- The text of a piece, when the places are filled. -/
def Piece.fill (filling : ι → List α) : Piece α ι → List α
  | .text c => [c]
  | .place i => filling i

/-- The text of a template, when the places are filled. -/
def expand (filling : ι → List α) (ps : List (Piece α ι)) : List α :=
  ps.flatMap (Piece.fill filling)

variable {filling : ι → List α} {ps qs : List (Piece α ι)} {c : α} {i : ι} {n : Nat}

@[simp]
theorem expand_nil : expand filling [] = [] := rfl

@[simp]
theorem expand_text : expand filling (.text c :: ps) = c :: expand filling ps := rfl

@[simp]
theorem expand_place : expand filling (.place i :: ps) = filling i ++ expand filling ps := rfl

theorem expand_append : expand filling (ps ++ qs) = expand filling ps ++ expand filling qs :=
  List.flatMap_append

theorem expand_map_text {text : List α} : expand filling (text.map .text) = text := by
  induction text with
  | nil => rfl
  | cons c text ih => rw [List.map_cons, expand_text, ih]

theorem length_expand_le (ps : List (Piece α ι)) (hn : 0 < n)
    (hfill : ∀ i, (filling i).length ≤ n) :
    (expand filling ps).length ≤ n * ps.length := by
  induction ps with
  | nil => simp
  | cons p ps ih =>
      have hone : (p.fill filling).length ≤ n := by
        cases p with
        | text c => exact hn
        | place i => exact hfill i
      have hcons : expand filling (p :: ps) = p.fill filling ++ expand filling ps := rfl
      rw [hcons, List.length_append, List.length_cons, Nat.mul_succ]
      omega

variable [DecidableEq α]

/-- The pieces of a text. An escape character with nothing behind it is left as
it is. -/
def pieces (escape : α) (place : α → Option ι) : List α → List (Piece α ι)
  | [] => []
  | [c] => [.text c]
  | c :: d :: rest =>
      if c = escape then
        (match place d with
          | some i => .place i
          | none => .text d) :: pieces escape place rest
      else .text c :: pieces escape place (d :: rest)

/-- Every escape character has a character behind it. -/
def paired (escape : α) : List α → Bool
  | [] => true
  | [c] => c ≠ escape
  | c :: d :: rest => if c = escape then paired escape rest else paired escape (d :: rest)

variable {escape : α} {place : α → Option ι} {text : List α} {d : α}

@[simp]
theorem pieces_nil : pieces escape place [] = [] := rfl

theorem pieces_plain (hc : c ≠ escape) :
    pieces escape place (c :: text) = .text c :: pieces escape place text := by
  cases text with
  | nil => rfl
  | cons d rest => rw [pieces, if_neg hc]

theorem pieces_place (hd : place d = some i) :
    pieces escape place (escape :: d :: text) = .place i :: pieces escape place text := by
  rw [pieces, if_pos rfl, hd]

theorem pieces_escaped (hd : place d = none) :
    pieces escape place (escape :: d :: text) = .text d :: pieces escape place text := by
  rw [pieces, if_pos rfl, hd]

@[simp]
theorem paired_nil : paired escape [] = true := rfl

theorem paired_lone : paired escape [escape] = false := by simp [paired]

theorem paired_plain (hc : c ≠ escape) : paired escape (c :: text) = paired escape text := by
  cases text with
  | nil => simp [paired, hc]
  | cons d rest => rw [paired, if_neg hc]

theorem paired_escaped : paired escape (escape :: d :: text) = paired escape text := by
  rw [paired, if_pos rfl]

theorem template_induction (escape : α) {motive : List α → Prop} (nil : motive [])
    (lone : motive [escape])
    (escaped : ∀ d rest, motive rest → motive (escape :: d :: rest))
    (plain : ∀ c rest, c ≠ escape → motive rest → motive (c :: rest)) (text : List α) :
    motive text := by
  induction text using pieces.induct escape with
  | case1 => exact nil
  | case2 c =>
      by_cases hc : c = escape
      · rw [hc]
        exact lone
      · exact plain c [] hc nil
  | case3 d rest ih => exact escaped d rest ih
  | case4 c d rest hc ih => exact plain c (d :: rest) hc ih

theorem length_pieces_le : (pieces escape place text).length ≤ text.length := by
  induction text using template_induction escape with
  | nil => exact Nat.le_refl 0
  | lone => exact Nat.le_refl 1
  | escaped d rest ih =>
      rw [pieces, if_pos rfl, List.length_cons, List.length_cons, List.length_cons]
      omega
  | plain c rest hc ih =>
      rw [pieces_plain hc, List.length_cons, List.length_cons]
      omega

end Winspd.Lib
