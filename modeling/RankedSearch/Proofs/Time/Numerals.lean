import Mathlib.Algebra.Group.Nat.Defs
import RankedSearch.Time.Rfc3339

/-!
# Numerals in timestamps

A number in a timestamp is written with a fixed width, filled up by zeros in front
(`padded`). If it fits the width, it has exactly that many digits and they denote the
number (`digitsValue_padded`), so a reader of that many digits reads the number and
stops behind it, whatever follows (`Timestamp.readNumber?_padded`).
-/

set_option autoImplicit false

namespace RankedSearch

/-! ## Writing -/

theorem toList_padded (width n : Nat) :
    (padded width n).toList =
      List.replicate (width - (Nat.toDigits 10 n).length) '0' ++ Nat.toDigits 10 n := by
  rw [padded, String.toList_append, String.toList_ofList, Nat.toString_eq_repr,
    ← String.length_toList, Nat.toList_repr]

/-- The digits of a number that fits are as many as the width says. -/
theorem length_padded {width n : Nat} (positive : 0 < width) (fits : n < 10 ^ width) :
    (padded width n).toList.length = width := by
  have short := (Nat.length_toDigits_le_iff (by decide) positive).mpr fits
  rw [toList_padded, List.length_append, List.length_replicate]
  omega

theorem isDigit_of_mem_padded {width n : Nat} {c : Char} (member : c ∈ (padded width n).toList) :
    c.isDigit = true := by
  rw [toList_padded] at member
  rcases List.mem_append.mp member with zero | digit
  · rw [List.eq_of_mem_replicate zero]
    rfl
  · exact Nat.isDigit_of_mem_toDigits (by decide) (by decide) digit

/-- Zeros in front do not change the number that digits denote. -/
theorem digitsValue_padded (width n : Nat) : digitsValue (padded width n).toList = n := by
  show Nat.ofDigitChars 10 (padded width n).toList 0 = n
  rw [toList_padded, Nat.ofDigitChars_append, Nat.ofDigitChars_replicate_zero, Nat.mul_zero,
    Nat.ofDigitChars_toDigits (by decide) (by decide)]

/-! ## Reading -/

/-- No digit is a blank. -/
theorem isBlank_of_isDigit {c : Char} (digit : c.isDigit = true) : isBlank c = false := by
  simp only [Char.isDigit, Bool.and_eq_true, decide_eq_true_eq, ge_iff_le,
    UInt32.le_iff_toNat_le] at digit
  obtain ⟨above, below⟩ : 48 ≤ c.toNat ∧ c.toNat ≤ 57 := digit
  simp only [isBlank, Bool.or_eq_false_iff, Bool.and_eq_false_iff, decide_eq_false_iff_not,
    beq_eq_false_iff_ne]
  omega

theorem dropBlanks_cons {c : Char} (visible : isBlank c = false) (rest : List Char) :
    dropBlanks (c :: rest) = c :: rest := by
  rw [dropBlanks, List.dropWhile_cons, visible, if_neg Bool.false_ne_true]

/-- Digits are not skipped. -/
theorem dropBlanks_digits {digits : List Char} (all : ∀ c ∈ digits, c.isDigit = true)
    (nonempty : digits ≠ []) (rest : List Char) :
    dropBlanks (digits ++ rest) = digits ++ rest := by
  cases digits with
  | nil => exact absurd rfl nonempty
  | cons d ds => exact dropBlanks_cons (isBlank_of_isDigit (all d List.mem_cons_self)) _

namespace Timestamp

/-- A row of digits is read up to its end, if it is as long as it may be or something
else follows. -/
theorem readDigits?_append {most : Nat} {digits rest : List Char}
    (all : ∀ c ∈ digits, c.isDigit = true) (nonempty : digits ≠ [])
    (fits : digits.length ≤ most)
    (ends : (rest.take (most - digits.length)).takeWhile Char.isDigit = []) :
    readDigits? most (digits ++ rest) = some (digits, rest) := by
  have row : ((digits ++ rest).take most).takeWhile Char.isDigit = digits := by
    rw [List.take_append, List.take_of_length_le fits, List.takeWhile_append_of_pos all, ends,
      List.append_nil]
  have some : digits.isEmpty = false := List.isEmpty_eq_false_iff.mpr nonempty
  simp only [readDigits?, row, some, Bool.false_eq_true, if_false, List.drop_left]

theorem padded_ne_nil {width n : Nat} (positive : 0 < width) (fits : n < 10 ^ width) :
    (padded width n).toList ≠ [] := by
  rw [← List.length_pos_iff, length_padded positive fits]
  exact positive

/-- A number that fits its width is read back, whatever follows. -/
theorem readDigits?_padded {width n : Nat} (positive : 0 < width) (fits : n < 10 ^ width)
    (rest : List Char) :
    readDigits? width ((padded width n).toList ++ rest) = some ((padded width n).toList, rest) := by
  have length := length_padded positive fits
  refine readDigits?_append (fun _ => isDigit_of_mem_padded) (padded_ne_nil positive fits)
    (Nat.le_of_eq length) ?_
  rw [length, Nat.sub_self, List.take_zero]
  rfl

theorem readNumber?_padded {width n : Nat} (positive : 0 < width) (fits : n < 10 ^ width)
    (rest : List Char) :
    readNumber? width ((padded width n).toList ++ rest) = some (n, rest) := by
  rw [readNumber?, dropBlanks_digits (fun _ => isDigit_of_mem_padded)
    (padded_ne_nil positive fits), readDigits?_padded positive fits, Option.map_some]
  simp only [digitsValue_padded]

theorem readMark?_cons {c : Char} (visible : isBlank c = false) (rest : List Char) :
    readMark? c (c :: rest) = some rest := by
  rw [readMark?, dropBlanks_cons visible]
  exact if_pos rfl

end Timestamp
end RankedSearch
