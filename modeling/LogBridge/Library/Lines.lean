import Mathlib.Data.List.Induction
import Mathlib.Tactic.Common

/-! Lines of a growing text. A line is complete once its separator has arrived;
what follows the last separator is the unterminated tail. Splitting a text in
parts and splitting each part after the tail of the parts before it agree. -/
namespace Lines
variable {α : Type} [DecidableEq α]

/-- One more symbol after the given complete lines and tail. -/
def extend (separator : α) (split : List (List α) × List α) (symbol : α) :
    List (List α) × List α :=
  if symbol = separator then (split.1 ++ [split.2], []) else (split.1, split.2 ++ [symbol])

/-- The complete lines of a text, without their separators. -/
def complete (separator : α) (text : List α) : List (List α) :=
  (text.foldl (extend separator) ([], [])).1

/-- The symbols after the last separator. -/
def tail (separator : α) (text : List α) : List α :=
  (text.foldl (extend separator) ([], [])).2

variable {separator : α}

@[simp] theorem extend_separator (split : List (List α) × List α) :
    extend separator split separator = (split.1 ++ [split.2], []) := if_pos rfl

theorem extend_of_ne {symbol : α} (h : symbol ≠ separator) (split : List (List α) × List α) :
    extend separator split symbol = (split.1, split.2 ++ [symbol]) := if_neg h

/-- Lines that are already complete stay in front. -/
theorem foldl_extend (lines : List (List α)) (current text : List α) :
    text.foldl (extend separator) (lines, current) =
      (lines ++ (text.foldl (extend separator) ([], current)).1,
        (text.foldl (extend separator) ([], current)).2) := by
  induction text generalizing lines current with
  | nil => simp
  | cons symbol rest ih =>
      rw [List.foldl_cons, List.foldl_cons]
      by_cases hSymbol : symbol = separator
      · rw [hSymbol, extend_separator, extend_separator]
        dsimp only
        rw [ih, ih ([] ++ [current])]
        simp
      · rw [extend_of_ne hSymbol, extend_of_ne hSymbol]
        exact ih lines (current ++ [symbol])

theorem foldl_extend_of_not_mem {current text : List α} (h : separator ∉ text) :
    text.foldl (extend separator) ([], current) = ([], current ++ text) := by
  induction text generalizing current with
  | nil => simp
  | cons symbol rest ih =>
      rw [List.mem_cons, not_or] at h
      rw [List.foldl_cons, extend_of_ne (Ne.symm h.1), ih h.2]
      simp

@[simp] theorem complete_nil : complete separator [] = [] := rfl
@[simp] theorem tail_nil : tail separator [] = [] := rfl

theorem tail_of_not_mem {text : List α} (h : separator ∉ text) : tail separator text = text := by
  rw [tail, foldl_extend_of_not_mem h, List.nil_append]

theorem complete_of_not_mem {text : List α} (h : separator ∉ text) :
    complete separator text = [] := by
  rw [complete, foldl_extend_of_not_mem h]

theorem complete_line {line : List α} (h : separator ∉ line) (rest : List α) :
    complete separator (line ++ separator :: rest) = line :: complete separator rest := by
  rw [complete, List.foldl_append, foldl_extend_of_not_mem h, List.foldl_cons,
    extend_separator, foldl_extend]
  simp [complete]

theorem tail_line {line : List α} (h : separator ∉ line) (rest : List α) :
    tail separator (line ++ separator :: rest) = tail separator rest := by
  rw [tail, List.foldl_append, foldl_extend_of_not_mem h, List.foldl_cons,
    extend_separator, foldl_extend]
  simp [tail]

/-- The tail has no separator. -/
theorem separator_not_mem_tail (separator : α) (text : List α) : separator ∉ tail separator text := by
  unfold tail
  generalize hStart : (([], []) : List (List α) × List α) = start
  have hNot : separator ∉ start.2 := by
    rw [← hStart]
    exact List.not_mem_nil
  clear hStart
  induction text generalizing start with
  | nil => exact hNot
  | cons symbol rest ih =>
      rw [List.foldl_cons]
      apply ih
      by_cases hSymbol : symbol = separator
      · rw [hSymbol, extend_separator]
        exact List.not_mem_nil
      · rw [extend_of_ne hSymbol]
        intro hMem
        rcases List.mem_append.mp hMem with hMem | hMem
        · exact hNot hMem
        · exact hSymbol (List.mem_singleton.mp hMem).symm

/-- A further part is split after the tail of the first. -/
theorem foldl_extend_append (first second : List α) :
    (first ++ second).foldl (extend separator) ([], []) =
      (complete separator first ++ complete separator (tail separator first ++ second),
        tail separator (tail separator first ++ second)) := by
  have hTail : (tail separator first ++ second).foldl (extend separator) ([], []) =
      second.foldl (extend separator) ([], tail separator first) := by
    rw [List.foldl_append, foldl_extend_of_not_mem (separator_not_mem_tail separator first), List.nil_append]
  have hFirst : first.foldl (extend separator) ([], []) =
      (complete separator first, tail separator first) := rfl
  rw [List.foldl_append, hFirst, foldl_extend, ← hTail]
  rfl

theorem complete_append (first second : List α) :
    complete separator (first ++ second) =
      complete separator first ++ complete separator (tail separator first ++ second) := by
  change ((first ++ second).foldl (extend separator) ([], [])).1 = _
  rw [foldl_extend_append]

theorem tail_append (first second : List α) :
    tail separator (first ++ second) = tail separator (tail separator first ++ second) := by
  change ((first ++ second).foldl (extend separator) ([], [])).2 = _
  rw [foldl_extend_append]

/-- A text is its complete lines with their separators, and its tail. -/
theorem split_eq (separator : α) (text : List α) :
    text = (complete separator text).flatMap (· ++ [separator]) ++ tail separator text := by
  induction text using List.reverseRecOn with
  | nil => rfl
  | append_singleton text symbol ih =>
      conv_lhs => rw [ih]
      rw [complete_append, tail_append]
      have hTail := separator_not_mem_tail separator text
      by_cases hSymbol : symbol = separator
      · rw [hSymbol, complete_line hTail, tail_line hTail]
        simp
      · have hNot : separator ∉ tail separator text ++ [symbol] := by
          simp only [List.mem_append, List.mem_singleton, not_or]
          exact ⟨hTail, Ne.symm hSymbol⟩
        rw [complete_of_not_mem hNot, tail_of_not_mem hNot]
        simp

theorem tail_length_le (separator : α) (text : List α) : (tail separator text).length ≤ text.length := by
  have hLength := congrArg List.length (split_eq separator text)
  rw [List.length_append] at hLength
  omega

/-- The text without its tail. -/
theorem take_sub_tail (text : List α) :
    text.take (text.length - (tail separator text).length) =
      (complete separator text).flatMap (· ++ [separator]) := by
  have hSplit := split_eq separator text
  have hLength := congrArg List.length hSplit
  rw [List.length_append] at hLength
  conv_lhs =>
    arg 2
    rw [hSplit]
  exact List.take_left' (by omega)

/-- A text that ends with a separator has no tail. -/
theorem tail_concat_separator (text : List α) : tail separator (text ++ [separator]) = [] := by
  rw [tail_append, tail_line (separator_not_mem_tail separator text), tail_nil]

/-- A text without a tail ends with a separator, unless it is empty. -/
theorem getLast?_of_tail_eq_nil {text : List α} (h : tail separator text = [])
    (hNonempty : text ≠ []) : text.getLast? = some separator := by
  have hSplit := split_eq separator text
  rw [h, List.append_nil] at hSplit
  rcases List.eq_nil_or_concat (complete separator text) with hLines | ⟨lines, last, hLines⟩
  · rw [hLines] at hSplit
    exact absurd hSplit hNonempty
  · rw [hSplit, hLines, List.concat_eq_append, List.flatMap_append, List.flatMap_singleton,
      ← List.append_assoc]
    exact List.getLast?_concat

/-- Without its tail a text has the same complete lines and no tail. -/
theorem split_take_sub_tail (separator : α) (text : List α) :
    complete separator (text.take (text.length - (tail separator text).length)) =
        complete separator text ∧
      tail separator (text.take (text.length - (tail separator text).length)) = [] := by
  have hNone : tail separator ((complete separator text).flatMap (· ++ [separator])) = [] := by
    rcases List.eq_nil_or_concat (complete separator text) with hLines | ⟨lines, last, hLines⟩
    · rw [hLines]
      rfl
    · rw [hLines, List.concat_eq_append, List.flatMap_append, List.flatMap_singleton,
        ← List.append_assoc]
      exact tail_concat_separator _
  rw [take_sub_tail]
  refine ⟨?_, hNone⟩
  conv_rhs => rw [split_eq separator text]
  rw [complete_append, hNone, List.nil_append,
    complete_of_not_mem (separator_not_mem_tail separator text), List.append_nil]

end Lines
