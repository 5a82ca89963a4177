import Mathlib.Algebra.Group.Nat.Defs
import Mathlib.Data.List.TakeWhile
import Mathlib.Tactic.SplitIfs
import RankedSearch.Simulation.Options

/-!
# Numerals in variables

A numeral is a row of decimal digits, with a plus sign in front at will; it may have any
number of leading zeros (`Denotes`). It is read digit by digit, and reading stops as soon
as the digits so far denote more than a word holds. Digits only ever make a number larger,
so this happens exactly if the row of digits in front denotes too large a number, whatever
follows it (`readDigits_eq`). Hence exactly the numerals of words are read
(`readWord_eq_ok_iff`), and why another text is refused can be told from the text alone
(`readWord_eq_error_iff`).
-/

set_option autoImplicit false

namespace RankedSearch
namespace Simulation

variable {s : String} {n : Nat} {w : UInt64} {fault : NumberFault}

/-! ## Rows of digits -/

/-- The number that a row of digits denotes. -/
def rowValue (digits : List Char) : Nat := Nat.ofDigitChars 10 digits 0

/-- More digits denote no smaller number. -/
theorem le_ofDigitChars (n : Nat) (cs : List Char) : n ≤ Nat.ofDigitChars 10 cs n := by
  rw [Nat.ofDigitChars_eq_ofDigitChars_zero]
  calc
    n ≤ 10 ^ cs.length * n := Nat.le_mul_of_pos_left n (Nat.pow_pos (by decide))
    _ ≤ 10 ^ cs.length * n + Nat.ofDigitChars 10 cs 0 := Nat.le_add_right _ _

/-- The row of digits in front decides on a number that is too large, and otherwise the
rest decides on an invalid digit. -/
theorem readDigits_eq {cs : List Char} (small : n < UInt64.size) :
    readDigits n cs =
      if UInt64.size ≤ Nat.ofDigitChars 10 (cs.takeWhile Char.isDigit) n then .error .tooLarge
      else if cs.all Char.isDigit then .ok (Nat.ofDigitChars 10 cs n)
      else .error .invalidDigit := by
  fun_induction readDigits n cs with
  | case1 n => simp [Nat.not_le_of_lt small]
  | case2 n c rest digit next fits ih =>
      rw [ih fits, List.takeWhile_cons_of_pos digit, Nat.ofDigitChars_cons, Nat.ofDigitChars_cons]
      simp [digit, next]
  | case3 n c rest digit next exceeds =>
      have large := le_ofDigitChars next (rest.takeWhile Char.isDigit)
      rw [List.takeWhile_cons_of_pos digit, Nat.ofDigitChars_cons, if_pos]
      exact Nat.le_trans (Nat.le_of_not_lt exceeds) large
  | case4 n c rest other =>
      simp [List.takeWhile_cons_of_neg other, Nat.not_le_of_lt small, other]

/-! ## Numerals -/

/-- A text without a plus sign in front. -/
def unsigned (s : String) : List Char :=
  match s.toList with
  | '+' :: digits => digits
  | cs => cs

/-- A text is a numeral of a number: one or more digits, with a plus sign in front at will. -/
structure Denotes (s : String) (n : Nat) : Prop where
  nonempty : unsigned s ≠ []
  digits : ∀ c ∈ unsigned s, c.isDigit = true
  value : rowValue (unsigned s) = n

/-- A text is a numeral of a number that a word holds. -/
def IsNumeral (s : String) : Prop := ∃ n, n < UInt64.size ∧ Denotes s n

/-- Why a text is no numeral of a word. -/
def faultOf (s : String) : NumberFault :=
  if s.toList = [] then .empty
  else if UInt64.size ≤ rowValue ((unsigned s).takeWhile Char.isDigit) then .tooLarge
  else .invalidDigit

/-- A text is read as its digits, unless there are none. -/
theorem readWord_eq_readDigits (s : String) :
    readWord s =
      if s.toList = [] then .error .empty
      else if unsigned s = [] then .error .invalidDigit
      else (readDigits 0 (unsigned s)).map UInt64.ofNat := by
  rw [readWord, unsigned]
  split <;> simp_all

theorem readWord_eq (s : String) :
    readWord s =
      if s.toList = [] then .error .empty
      else if unsigned s = [] then .error .invalidDigit
      else if UInt64.size ≤ rowValue ((unsigned s).takeWhile Char.isDigit) then .error .tooLarge
      else if (unsigned s).all Char.isDigit then .ok (UInt64.ofNat (rowValue (unsigned s)))
      else .error .invalidDigit := by
  rw [readWord_eq_readDigits, readDigits_eq (by decide), rowValue, rowValue]
  split_ifs <;> rfl

theorem unsigned_of_empty (empty : s.toList = []) : unsigned s = [] := by
  rw [unsigned, empty]

/-! ## Numerals of words are read -/

theorem readWord_of_denotes (denotes : Denotes s n) (fits : n < UInt64.size) :
    readWord s = .ok (UInt64.ofNat n) := by
  rw [readWord_eq, if_neg (mt unsigned_of_empty denotes.nonempty), if_neg denotes.nonempty,
    List.takeWhile_eq_self_iff.mpr denotes.digits, denotes.value,
    if_neg (Nat.not_le_of_lt fits), if_pos (List.all_eq_true.mpr denotes.digits)]

theorem denotes_of_readWord (accepted : readWord s = .ok w) : Denotes s w.toNat := by
  rw [readWord_eq] at accepted
  split_ifs at accepted with empty sign large digits
  rw [List.all_eq_true] at digits
  rw [List.takeWhile_eq_self_iff.mpr digits] at large
  refine ⟨sign, digits, ?_⟩
  rw [← Except.ok.inj accepted, UInt64.toNat_ofNat_of_lt' (Nat.lt_of_not_le large)]

theorem readWord_eq_ok_iff : readWord s = .ok w ↔ Denotes s w.toNat := by
  refine ⟨denotes_of_readWord, fun denotes => ?_⟩
  rw [readWord_of_denotes denotes w.toNat_lt, UInt64.ofNat_toNat]

theorem isNumeral_iff : IsNumeral s ↔ ∃ w, readWord s = .ok w := by
  constructor
  · rintro ⟨n, fits, denotes⟩
    exact ⟨_, readWord_of_denotes denotes fits⟩
  · rintro ⟨w, accepted⟩
    exact ⟨w.toNat, w.toNat_lt, denotes_of_readWord accepted⟩

/-! ## Other texts are refused -/

theorem eq_faultOf_of_readWord (refused : readWord s = .error fault) : fault = faultOf s := by
  rw [readWord_eq] at refused
  rw [faultOf]
  split_ifs at refused with empty sign large digits
  · rw [if_pos empty]
    exact (Except.error.inj refused).symm
  · -- A lone sign has no digits in front, which is a small number.
    rw [if_neg empty, sign, if_neg (by decide)]
    exact (Except.error.inj refused).symm
  · rw [if_neg empty, if_pos large]
    exact (Except.error.inj refused).symm
  · rw [if_neg empty, if_neg large]
    exact (Except.error.inj refused).symm

theorem readWord_eq_error_iff :
    readWord s = .error fault ↔ ¬ IsNumeral s ∧ fault = faultOf s := by
  rw [isNumeral_iff]
  constructor
  · intro refused
    refine ⟨?_, eq_faultOf_of_readWord refused⟩
    rintro ⟨w, accepted⟩
    rw [refused] at accepted
    cases accepted
  · rintro ⟨unread, rfl⟩
    cases answer : readWord s with
    | ok w => exact absurd ⟨w, answer⟩ unread
    | error fault => rw [eq_faultOf_of_readWord answer]

/-! ## Numbers in variables -/

section Rewording

variable {ε ε' α : Type} {x : Except ε α} {reword : ε → ε'}

theorem mapError_eq_ok_iff {a : α} : x.mapError reword = .ok a ↔ x = .ok a := by
  cases x <;> simp [Except.mapError]

theorem mapError_eq_error_iff {e' : ε'} :
    x.mapError reword = .error e' ↔ ∃ e, x = .error e ∧ e' = reword e := by
  cases x <;> simp [Except.mapError, @eq_comm _ e']

end Rewording

theorem readNumber_eq_ok_iff : readNumber s = .ok w ↔ Denotes s w.toNat := by
  rw [readNumber, mapError_eq_ok_iff, readWord_eq_ok_iff]

theorem readNumber_eq_error_iff {reason : OptionReason} :
    readNumber s = .error reason ↔ ¬ IsNumeral s ∧ reason = .number (faultOf s) := by
  rw [readNumber, mapError_eq_error_iff]
  simp only [readWord_eq_error_iff, and_assoc, exists_and_left, exists_eq_left]

end Simulation
end RankedSearch
