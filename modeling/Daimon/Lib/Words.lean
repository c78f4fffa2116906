import Mathlib.Data.List.Basic

/-!
# Words

The pieces of a text between the separators that stand outside of quotes. The quotes stay in the pieces.
-/

namespace Daimon.Lib

section Words
variable {α : Type*} [DecidableEq α] (sep quote : α)

def splitUnquoted : Bool → List α → List (List α)
  | _, [] => [[]]
  | quoted, x :: rest =>
      if x = sep ∧ quoted = false then [] :: splitUnquoted false rest
      else (splitUnquoted (quoted ^^ decide (x = quote)) rest).modifyHead (x :: ·)

/-- All separators stand inside of quotes and every quote is closed. -/
def isWord : Bool → List α → Bool
  | quoted, [] => !quoted
  | quoted, x :: rest => (x ≠ sep || quoted) && isWord (quoted ^^ decide (x = quote)) rest

example : isWord ' ' '"' false ['"', ' ', '"'] = true := by simp [isWord]

variable {sep quote} {quoted : Bool} {xs ys word : List α} {words : List (List α)}

theorem splitUnquoted_append_sep (isWord : isWord sep quote quoted word = true) (rest : List α) :
    splitUnquoted sep quote quoted (word ++ sep :: rest) = word :: splitUnquoted sep quote false rest := by
  induction word generalizing quoted with
  | nil =>
      obtain rfl : quoted = false := by simpa [Lib.isWord] using isWord
      simp [splitUnquoted]
  | cons x word ih =>
      simp only [Lib.isWord, Bool.and_eq_true] at isWord
      have kept : ¬ (x = sep ∧ quoted = false) := by
        rintro ⟨rfl, rfl⟩
        simp at isWord
      rw [List.cons_append, splitUnquoted, if_neg kept, ih isWord.2]
      rfl

theorem splitUnquoted_word (isWord : isWord sep quote quoted word = true) :
    splitUnquoted sep quote quoted word = [word] := by
  induction word generalizing quoted with
  | nil => rfl
  | cons x word ih =>
      simp only [Lib.isWord, Bool.and_eq_true] at isWord
      have kept : ¬ (x = sep ∧ quoted = false) := by
        rintro ⟨rfl, rfl⟩
        simp at isWord
      rw [splitUnquoted, if_neg kept, ih isWord.2]
      rfl

theorem isWord_append (front : isWord sep quote quoted xs = true) (back : isWord sep quote false ys = true) :
    isWord sep quote quoted (xs ++ ys) = true := by
  induction xs generalizing quoted with
  | nil =>
      obtain rfl : quoted = false := by simpa [isWord] using front
      exact back
  | cons x xs ih =>
      simp only [isWord, Bool.and_eq_true] at front
      rw [List.cons_append, isWord, front.1, ih front.2, Bool.and_self]

theorem isWord_of_not_mem (plain : ∀ x ∈ xs, x ≠ sep ∧ x ≠ quote) : isWord sep quote false xs = true := by
  induction xs with
  | nil => rfl
  | cons x xs ih =>
      have first := plain x List.mem_cons_self
      simp [isWord, first.1, first.2, ih fun y member => plain y (List.mem_cons_of_mem _ member)]

theorem isWord_quoted (distinct : sep ≠ quote) (closed : quote ∉ xs) :
    isWord sep quote false (quote :: xs ++ [quote]) = true := by
  have inside : isWord sep quote true (xs ++ [quote]) = true := by
    induction xs with
    | nil => simp [isWord]
    | cons x xs ih =>
        rw [List.mem_cons, not_or] at closed
        simp [isWord, Ne.symm closed.1, ih closed.2]
  simp [isWord, Ne.symm distinct, inside]

theorem length_splitUnquoted (unquoted : quote ∉ xs) :
    (splitUnquoted sep quote false xs).length = xs.count sep + 1 := by
  induction xs with
  | nil => rfl
  | cons x xs ih =>
      rw [List.mem_cons, not_or] at unquoted
      by_cases separates : x = sep
      · simp [splitUnquoted, separates, ih unquoted.2]
      · simp [splitUnquoted, separates, Ne.symm unquoted.1, ih unquoted.2]

variable (sep quote) in
/-- The list is made of these words, with one separator between any two. -/
inductive MadeOf : List α → List (List α) → Prop
  | word {word : List α} (isWord : isWord sep quote false word = true) : MadeOf word [word]
  | cons {word xs : List α} {words : List (List α)} (isWord : isWord sep quote false word = true)
      (rest : MadeOf xs words) : MadeOf (word ++ sep :: xs) (word :: words)

theorem MadeOf.push (made : MadeOf sep quote xs words) (isWord : isWord sep quote false word = true) :
    MadeOf sep quote (xs ++ sep :: word) (words ++ [word]) := by
  induction made with
  | word first => exact .cons first (.word isWord)
  | cons first rest ih =>
      rw [List.append_assoc, List.cons_append]
      exact .cons first ih

theorem MadeOf.split (made : MadeOf sep quote xs words) : splitUnquoted sep quote false xs = words := by
  induction made with
  | word isWord => exact splitUnquoted_word isWord
  | cons isWord rest ih => rw [splitUnquoted_append_sep isWord, ih]

theorem madeOf_intercalate (nonempty : words ≠ []) (all : ∀ word ∈ words, isWord sep quote false word = true) :
    MadeOf sep quote ([sep].intercalate words) words := by
  induction words with
  | nil => exact absurd rfl nonempty
  | cons word words ih =>
      have first := all word List.mem_cons_self
      cases words with
      | nil =>
          rw [List.intercalate_singleton]
          exact .word first
      | cons next more =>
          rw [List.intercalate_cons_cons, List.append_assoc]
          exact .cons first (ih (List.cons_ne_nil _ _) fun w member => all w (List.mem_cons_of_mem _ member))

end Words

end Daimon.Lib
