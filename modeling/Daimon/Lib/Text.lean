import Mathlib.Data.List.Basic
import Mathlib.Data.List.TakeWhile

/-!
# Texts

`str::trim` and the characters it removes, the Unicode property `White_Space`; the pieces that `str::split` gives; and
the lines and words of a text.
-/

namespace Daimon.Lib

def isWhitespace (c : Char) : Bool :=
  let n := c.toNat
  (0x9 ≤ n && n ≤ 0xd) || n == 0x20 || n == 0x85 || n == 0xa0 || n == 0x1680 ||
    (0x2000 ≤ n && n ≤ 0x200a) || n == 0x2028 || n == 0x2029 || n == 0x202f || n == 0x205f || n == 0x3000

def trim (text : String) : String :=
  let front := text.toList.dropWhile isWhitespace
  String.ofList (front.reverse.dropWhile isWhitespace).reverse

theorem trim_eq_empty_iff {text : String} : trim text = "" ↔ ∀ c ∈ text.toList, isWhitespace c = true := by
  rw [trim, String.ofList_eq_empty_iff, List.reverse_eq_nil_iff, List.dropWhile_eq_nil_iff]
  constructor
  · intro rest
    by_contra visible
    push Not at visible
    obtain ⟨c, member, sharp⟩ := visible
    have some : text.toList.dropWhile isWhitespace ≠ [] := fun none =>
      sharp (List.dropWhile_eq_nil_iff.mp none c member)
    have first := List.head_dropWhile_not isWhitespace some
    exact Bool.false_ne_true (first.symm.trans (rest _ (List.mem_reverse.mpr (List.head_mem some))))
  · intro all c member
    exact all c ((List.dropWhile_suffix _).subset (List.mem_reverse.mp member))

def toAsciiLowercase (text : String) : String := String.ofList (text.toList.map Char.toLower)

/-- `str::lines`: a line ends with a line feed or a carriage return and a line feed, and the last one may have no end. -/
def lines (text : String) : List (List Char) :=
  let pieces := text.toList.splitOn '\n'
  let ended := pieces.dropLast.map fun line => if line.getLast? = some '\r' then line.dropLast else line
  ended ++ (pieces.getLast?.filter (· ≠ [])).toList

/-- The first piece of `str::split_whitespace`. -/
def firstWord (text : List Char) : Option (List Char) :=
  let word := (text.dropWhile isWhitespace).takeWhile fun c => !isWhitespace c
  if word = [] then none else some word

/-- `split_once(char::is_whitespace)`. -/
def splitOnceWhitespace (text : List Char) : Option (List Char × List Char) :=
  match text.dropWhile fun c => !isWhitespace c with
  | [] => none
  | _ :: rest => some (text.takeWhile fun c => !isWhitespace c, rest)

section Split
variable {α : Type*} [DecidableEq α] {sep : α} {xs ys : List α} {pieces : List (List α)}

theorem not_mem_of_mem_splitOn (member : ys ∈ xs.splitOn sep) : sep ∉ ys := by
  induction xs generalizing ys with
  | nil => simp_all
  | cons x rest ih =>
      rw [List.splitOn_cons_eq_if_modifyHead] at member
      split at member
      · rcases List.mem_cons.mp member with rfl | later
        · simp
        · exact ih later
      · rename_i other
        obtain ⟨first, more, split⟩ := List.exists_cons_of_ne_nil (List.splitOn_ne_nil sep rest)
        rw [split] at member
        rcases List.mem_cons.mp member with rfl | later
        · have clean : sep ∉ first := ih (split ▸ List.mem_cons_self)
          simp only [List.mem_cons, not_or]
          exact ⟨fun same => other (beq_iff_eq.mpr same.symm), clean⟩
        · exact ih (split ▸ List.mem_cons_of_mem _ later)

theorem splitOn_eq_iff : xs.splitOn sep = pieces ↔
    pieces ≠ [] ∧ (∀ piece ∈ pieces, sep ∉ piece) ∧ [sep].intercalate pieces = xs := by
  constructor
  · rintro rfl
    exact ⟨List.splitOn_ne_nil _ _, fun _ => not_mem_of_mem_splitOn, List.intercalate_splitOn sep⟩
  · rintro ⟨some, clean, rfl⟩
    exact List.splitOn_intercalate sep clean some

/-- The last piece of one list and the first of the next are one piece of both together. -/
theorem splitOn_append {front back : List (List α)} {a b : List α} (left : xs.splitOn sep = front ++ [a])
    (right : ys.splitOn sep = b :: back) : (xs ++ ys).splitOn sep = front ++ (a ++ b) :: back := by
  induction xs generalizing front a with
  | nil =>
      rw [List.splitOn_nil] at left
      have split : front = [] ∧ a = [] := by
        cases front with
        | nil => simpa using left.symm
        | cons piece more => simp at left
      rw [split.1, split.2]
      exact right
  | cons x xs ih =>
      obtain ⟨front', a', whole⟩ : ∃ front' a', xs.splitOn sep = front' ++ [a'] :=
        ⟨_, _, (List.dropLast_concat_getLast (List.splitOn_ne_nil sep xs)).symm⟩
      have rest := ih whole
      rw [List.splitOn_cons_eq_if_modifyHead, whole] at left
      rw [List.cons_append, List.splitOn_cons_eq_if_modifyHead, rest]
      split_ifs at left ⊢ with at_sep
      · rw [← List.cons_append] at left
        obtain ⟨rfl, same⟩ := List.append_inj' left rfl
        rw [List.cons_append, List.singleton_inj.mp same]
      · cases front' with
        | nil =>
            have alone : [] ++ [x :: a'] = front ++ [a] := left
            obtain ⟨rfl, same⟩ := List.append_inj' alone rfl
            rw [← List.singleton_inj.mp same]
            rfl
        | cons piece more =>
            have later : (x :: piece) :: more ++ [a'] = front ++ [a] := left
            obtain ⟨rfl, same⟩ := List.append_inj' later rfl
            rw [← List.singleton_inj.mp same]
            rfl

end Split

end Daimon.Lib
