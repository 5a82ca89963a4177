import Mathlib.Algebra.Ring.Nat
import Mathlib.Order.Monotone.Basic
import RankedSearch.Proofs.ScoreOrder

/-!
# Exact values

A word has two readings: its place among all words, by which scores are ranked,
and the number that it stands for, in units of `2 ^ (-1074)`. A larger magnitude
stands for a larger number (`magnitudeUnits_strictMono`), so the two readings
differ at the zeros only, and a score has no negative zero. Ranking by place is
therefore ranking by number (`Score.le_iff_units_le`).

Negation is exact (`units_negate`), and dropping the sign of a zero changes no
number (`units_unsignZero`).
-/

set_option autoImplicit false

namespace RankedSearch

namespace Binary64

/-- The magnitudes of one exponent stand for equally spaced numbers. -/
theorem magnitudeUnits_eq (exponent fraction : Nat) (short : fraction < exponentWeight) :
    magnitudeUnits (exponentWeight * exponent + fraction) =
      if exponent = 0 then fraction else (exponentWeight + fraction) * 2 ^ (exponent - 1) := by
  have positive : 0 < exponentWeight := by decide
  rw [magnitudeUnits, Nat.mul_add_div positive, Nat.div_eq_of_lt short, Nat.mul_add_mod,
    Nat.mod_eq_of_lt short, Nat.add_zero]
  simp only [Nat.shiftLeft_eq]

/-- The next magnitude stands for a larger number. -/
theorem magnitudeUnits_lt_succ (magnitude : Nat) :
    magnitudeUnits magnitude < magnitudeUnits (magnitude + 1) := by
  have short : magnitude % exponentWeight < exponentWeight := Nat.mod_lt _ (by decide)
  have whole := Nat.div_add_mod magnitude exponentWeight
  generalize magnitude / exponentWeight = exponent at whole
  generalize magnitude % exponentWeight = fraction at whole short
  subst whole
  have spacing : 0 < 2 ^ (exponent - 1) := Nat.two_pow_pos _
  rcases Nat.lt_or_ge (fraction + 1) exponentWeight with within | last
  · rw [Nat.add_assoc, magnitudeUnits_eq _ _ within, magnitudeUnits_eq _ _ short]
    split
    · exact Nat.lt_succ_self fraction
    · exact Nat.mul_lt_mul_of_pos_right (Nat.lt_succ_self _) spacing
  · -- The exponent goes up, and with it the spacing doubles.
    have next : exponentWeight * exponent + fraction + 1 =
        exponentWeight * (exponent + 1) + 0 := by
      rw [Nat.mul_succ]
      omega
    rw [next, magnitudeUnits_eq (exponent + 1) 0 (by decide), magnitudeUnits_eq _ _ short,
      if_neg (Nat.succ_ne_zero exponent), Nat.add_sub_cancel, Nat.add_zero]
    split
    · rename_i zero
      rw [zero, Nat.pow_zero, Nat.mul_one]
      exact short
    · rename_i nonzero
      have doubled : 2 ^ exponent = 2 * 2 ^ (exponent - 1) := by
        rw [← Nat.pow_succ', Nat.succ_eq_add_one, Nat.sub_add_cancel (Nat.pos_of_ne_zero nonzero)]
      rw [doubled, ← Nat.mul_assoc]
      exact Nat.mul_lt_mul_of_pos_right (by omega) spacing

theorem magnitudeUnits_strictMono : StrictMono magnitudeUnits :=
  strictMono_nat_of_lt_succ magnitudeUnits_lt_succ

/-- Only a zero stands for zero. -/
theorem magnitudeUnits_pos {magnitude : Nat} (nonzero : magnitude ≠ 0) :
    0 < magnitudeUnits magnitude :=
  (Nat.zero_le _).trans_lt (magnitudeUnits_strictMono (Nat.pos_of_ne_zero nonzero))

/-- A negative word other than the negative zero has a magnitude. -/
theorem magnitude_ne_zero {x : Binary64} (negative : x.isNegative = true)
    (nonzero : x ≠ negativeZero) : x.magnitude ≠ 0 := by
  intro none
  refine nonzero (totalKey_injective ?_)
  rw [totalKey, if_pos negative, none]
  rfl

/-- Apart from the negative zero, words rank as the numbers that they stand for. -/
theorem totalKey_le_iff_units_le {x y : Binary64} (left : x ≠ negativeZero)
    (right : y ≠ negativeZero) : x.totalKey ≤ y.totalKey ↔ x.units ≤ y.units := by
  have ascending := magnitudeUnits_strictMono.le_iff_le (a := x.magnitude) (b := y.magnitude)
  have descending := magnitudeUnits_strictMono.le_iff_le (a := y.magnitude) (b := x.magnitude)
  cases leftSign : x.isNegative with
  | false =>
      cases rightSign : y.isNegative with
      | false =>
          simp only [totalKey, units, leftSign, rightSign, Bool.false_eq_true, if_false]
          omega
      | true =>
          have below := magnitudeUnits_pos (magnitude_ne_zero rightSign right)
          simp only [totalKey, units, leftSign, rightSign, Bool.false_eq_true, if_false, if_true]
          omega
  | true =>
      have below := magnitudeUnits_pos (magnitude_ne_zero leftSign left)
      cases rightSign : y.isNegative with
      | false =>
          simp only [totalKey, units, leftSign, rightSign, Bool.false_eq_true, if_false, if_true]
          omega
      | true =>
          simp only [totalKey, units, leftSign, rightSign, if_true]
          omega

/-! ## Changes of sign -/

/-- Negation adds the weight of the sign bit and drops the carry. -/
theorem toNat_bits_negate (x : Binary64) :
    x.negate.bits.toNat = (x.bits.toNat + signWeight) % 2 ^ 64 :=
  UInt64.toNat_add x.bits 0x8000000000000000

@[simp] theorem magnitude_negate (x : Binary64) : x.negate.magnitude = x.magnitude := by
  have bound := x.bits.toNat_lt
  rw [magnitude, magnitude, toNat_bits_negate]
  simp only [signWeight]
  omega

@[simp] theorem isNegative_negate (x : Binary64) : x.negate.isNegative = !x.isNegative := by
  have bound := x.bits.toNat_lt
  rw [isNegative, isNegative, toNat_bits_negate, ← decide_not, decide_eq_decide]
  simp only [signWeight]
  omega

@[simp] theorem isFinite_negate (x : Binary64) : x.negate.isFinite = x.isFinite := by
  rw [isFinite, isFinite, magnitude_negate]

/-- A negated word stands for the opposite number. -/
@[simp] theorem units_negate (x : Binary64) : x.negate.units = -x.units := by
  simp only [units, magnitude_negate, isNegative_negate]
  cases x.isNegative with
  | false => rfl
  | true => exact (Int.neg_neg _).symm

/-- Both zeros stand for zero. -/
@[simp] theorem units_unsignZero (x : Binary64) : x.unsignZero.units = x.units := by
  unfold unsignZero
  split
  · rename_i zero
    rw [zero]
    decide
  · rfl

end Binary64

namespace Score

/-- **Scores rank as the numbers that they stand for.** -/
theorem le_iff_units_le {a b : Score} : a ≤ b ↔ a.word.units ≤ b.word.units :=
  Binary64.totalKey_le_iff_units_le a.ne_negativeZero b.ne_negativeZero

end Score

/-- A word is the least of several by the number that it stands for, or there are
none. -/
def Binary64.LeastOf (least : Option Binary64) (words : List Binary64) : Prop :=
  (least = none ↔ words = []) ∧
    ∀ w, least = some w → w ∈ words ∧ ∀ v ∈ words, w.units ≤ v.units

theorem Binary64.leastOf_min? (scores : List Score) :
    LeastOf (scores.min?.map Score.word) (scores.map Score.word) := by
  constructor
  · rw [Option.map_eq_none_iff, List.min?_eq_none_iff, List.map_eq_nil_iff]
  · intro w least
    obtain ⟨s, found, rfl⟩ := Option.map_eq_some_iff.mp least
    obtain ⟨member, lower⟩ := List.min?_eq_some_iff.mp found
    refine ⟨List.mem_map_of_mem member, fun v inside => ?_⟩
    obtain ⟨t, other, rfl⟩ := List.mem_map.mp inside
    exact Score.le_iff_units_le.mp (lower t other)

end RankedSearch
