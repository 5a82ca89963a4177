import Mathlib.Algebra.Order.Field.Power
import Mathlib.Algebra.Order.Ring.Rat
import Mathlib.Tactic.Ring
import RankedSearch.Proofs.Admission
import RankedSearch.Proofs.ExactValue

/-!
# Ranking is numeric

What a word stands for is told by its fields: a sign, an exponent and a fraction
(`Binary64.value`). The exponent of all ones is that of the infinities and of what
is not a number; every other word has a rational value, a whole number of the least
positive one (`Binary64.value_eq`).

A trial of any finite word is completed with that word, a negative zero apart
(`Score.Stores`), and two completed trials compare as their values do
(`Score.compare_eq_iff`). So a history is in numeric order, and its entries tie exactly
if their values are equal (`History.ranking_is_numeric`).
-/

set_option autoImplicit false

namespace RankedSearch

namespace Binary64

/-! ## Fields -/

/-- The eleven exponent bits. -/
def exponent (x : Binary64) : Nat := x.bits.toNat / 2 ^ 52 % 2 ^ 11

/-- The fifty-two fraction bits. -/
def fraction (x : Binary64) : Nat := x.bits.toNat % 2 ^ 52

/-- All exponent bits are set and no fraction bit is. -/
def IsInfinity (x : Binary64) : Prop := x.exponent = 2047 ∧ x.fraction = 0

/-- All exponent bits are set and some fraction bit is. -/
def IsNotNumber (x : Binary64) : Prop := x.exponent = 2047 ∧ x.fraction ≠ 0

instance (x : Binary64) : Decidable x.IsInfinity := inferInstanceAs (Decidable (_ ∧ _))

instance (x : Binary64) : Decidable x.IsNotNumber := inferInstanceAs (Decidable (_ ∧ _))

/-- The number that a finite word stands for. A zero exponent is that of the zeros and
the subnormal numbers, which have no leading one. -/
def value (x : Binary64) : ℚ :=
  (if x.isNegative then -1 else 1) *
    if x.exponent = 0 then (x.fraction : ℚ) / 2 ^ 52 * 2 ^ (-1022 : ℤ)
    else (1 + (x.fraction : ℚ) / 2 ^ 52) * 2 ^ ((x.exponent : ℤ) - 1023)

theorem fraction_lt (x : Binary64) : x.fraction < exponentWeight :=
  Nat.mod_lt _ (by decide)

/-- The magnitude is the exponent in front of the fraction. -/
theorem magnitude_eq (x : Binary64) :
    x.magnitude = exponentWeight * x.exponent + x.fraction := by
  simp only [magnitude, exponent, fraction, signWeight, exponentWeight]
  omega

theorem isFinite_iff (x : Binary64) : x.isFinite = true ↔ x.exponent ≠ 2047 := by
  have short := x.fraction_lt
  have range : x.exponent < 2 ^ 11 := Nat.mod_lt _ (by decide)
  rw [isFinite, decide_eq_true_iff, magnitude_eq]
  simp only [exponentWeight, infinityMagnitude] at short ⊢
  omega

/-- A word is finite unless it is an infinity or not a number. -/
theorem isFinite_eq_false_iff (x : Binary64) :
    x.isFinite = false ↔ x.IsNotNumber ∨ x.IsInfinity := by
  rw [← Bool.not_eq_true, isFinite_iff, not_not, IsNotNumber, IsInfinity, ← and_or_left]
  exact (and_iff_left (ne_or_eq x.fraction 0)).symm

/-- The least positive value. -/
def unit : ℚ := 2 ^ (-1074 : ℤ)

theorem unit_pos : 0 < unit := zpow_pos two_pos _

/-- The values of an exponent begin a power of two above the least one. -/
theorem two_zpow_eq (above : Nat) :
    (2 : ℚ) ^ ((above : ℤ) - 1022) = 2 ^ above * (2 ^ 52 * unit) := by
  have exponents : (above : ℤ) - 1022 = above + ((52 : ℕ) + -1074) := by omega
  rw [exponents, zpow_add₀ two_ne_zero, zpow_add₀ two_ne_zero, zpow_natCast, zpow_natCast, unit]

/-- A word stands for a whole number of the least positive value. -/
theorem value_eq (x : Binary64) : x.value = x.units * unit := by
  have magnitude : (if x.exponent = 0 then (x.fraction : ℚ) / 2 ^ 52 * 2 ^ (-1022 : ℤ)
      else (1 + (x.fraction : ℚ) / 2 ^ 52) * 2 ^ ((x.exponent : ℤ) - 1023)) =
      (magnitudeUnits x.magnitude : ℚ) * unit := by
    rw [magnitude_eq, magnitudeUnits_eq _ _ x.fraction_lt]
    split
    · have subnormal : (2 : ℚ) ^ (-1022 : ℤ) = 2 ^ 0 * (2 ^ 52 * unit) := two_zpow_eq 0
      rw [subnormal]
      ring
    · rename_i nonzero
      have normal : (2 : ℚ) ^ ((x.exponent : ℤ) - 1023) =
          2 ^ (x.exponent - 1) * (2 ^ 52 * unit) := by
        rw [← two_zpow_eq]
        congr 1
        omega
      rw [normal]
      push_cast [exponentWeight]
      ring
  rw [value, magnitude, units]
  cases x.isNegative with
  | false => simp
  | true => simp

/-- Values compare as the whole numbers do. -/
theorem value_le_iff {x y : Binary64} : x.value ≤ y.value ↔ x.units ≤ y.units := by
  rw [value_eq, value_eq, mul_le_mul_iff_left₀ unit_pos, Int.cast_le]

/-- Both zeros have the same value. -/
@[simp] theorem value_unsignZero (x : Binary64) : x.unsignZero.value = x.value := by
  rw [value_eq, value_eq, units_unsignZero]

end Binary64

namespace Score

variable {a b s t : Score} {x y : Binary64}

/-! ## Scores by value -/

/-- The number by which a trial is ranked. -/
def value (s : Score) : ℚ := s.word.value

theorem value_le : a.value ≤ b.value ↔ a ≤ b :=
  Binary64.value_le_iff.trans le_iff_units_le.symm

theorem value_lt : a.value < b.value ↔ a < b := by
  rw [← not_le, ← not_le, value_le]

/-- Two scores of the same value are the same word. -/
theorem value_injective : Function.Injective value := by
  intro a b same
  exact le_antisymm (value_le.mp same.le) (value_le.mp same.ge)

/-- Scores compare as their values do. -/
theorem compare_eq_iff (order : Ordering) :
    a.compare b = order ↔ order.Compares a.value b.value := by
  have places : a.compare b = order ↔ order.Compares a.word.totalKey b.word.totalKey :=
    compare_iff _ _
  rw [places]
  cases order with
  | lt =>
      show a.word.totalKey < b.word.totalKey ↔ a.value < b.value
      rw [← not_le, ← not_le]
      exact not_congr value_le.symm
  | eq =>
      show a.word.totalKey = b.word.totalKey ↔ a.value = b.value
      rw [Binary64.totalKey_injective.eq_iff, word_injective.eq_iff, value_injective.eq_iff]
  | gt =>
      show b.word.totalKey < a.word.totalKey ↔ b.value < a.value
      rw [← not_le, ← not_le]
      exact not_congr value_le.symm

/-- A trial that is completed with the word `x` has the score `s`. -/
def Stores (s : Score) (x : Binary64) : Prop :=
  ∀ now summary, ∃ o, Outcome.completed now x summary = .ok o ∧ o.score = some s

theorem stores_iff : s.Stores x ↔ ofWord? x = some s := by
  constructor
  · intro stores
    obtain ⟨o, completed, scored⟩ := stores ⟨0, 0⟩ ""
    rw [Outcome.completed] at completed
    split at completed
    · rename_i t found
      cases completed
      cases scored
      exact found
    · cases completed
  · intro found now summary
    exact ⟨_, by rw [Outcome.completed, found], rfl⟩

theorem Stores.word_eq (stores : s.Stores x) : s.word = x.unsignZero := by
  have found := stores_iff.mp stores
  rw [ofWord?] at found
  split at found
  · cases found
    rfl
  · cases found

theorem Stores.value_eq (stores : s.Stores x) : s.value = x.value := by
  rw [value, stores.word_eq, Binary64.value_unsignZero]

/-- A trial is completed with every word that is a number and no infinity. -/
theorem exists_stores (finite : ¬ (x.IsNotNumber ∨ x.IsInfinity)) : ∃ s : Score, s.Stores x := by
  rw [← Binary64.isFinite_eq_false_iff, Bool.not_eq_false] at finite
  exact ⟨_, stores_iff.mpr (dif_pos finite)⟩

end Score

/-- An infinity or what is not a number is no score. -/
theorem Outcome.completed_of_not_finite {x : Binary64} (special : x.IsNotNumber ∨ x.IsInfinity)
    (now : Timestamp) (summary : String) :
    completed now x summary = .error (.nonFiniteScore x) := by
  have infinite := x.isFinite_eq_false_iff.mpr special
  simp [completed, Score.ofWord?, infinite]

/-- The value by which an outcome is ranked, if it is complete. -/
def Outcome.value? (o : Outcome) : Option ℚ := o.score.map Score.value

namespace History

variable {h : History} {os : List Outcome}

/-! ## Histories by value -/

namespace Retains

/-- Entries ascend by value, and by arrival where values are equal. -/
theorem ascending (retains : h.Retains os) :
    h.entries.Pairwise fun e f => e.score.value < f.score.value ∨
      e.score.value = f.score.value ∧ e.arrival < f.arrival := by
  refine retains.ranked.imp ?_
  intro e f before
  rw [Score.value_lt, Score.value_injective.eq_iff]
  exact Entry.rank_lt.mp before

theorem map_value?_all (retains : h.Retains os) :
    h.all.map Outcome.value? = (h.entries.map fun e => e.score.value).map some := by
  rw [all, List.map_map, List.map_map]
  refine List.map_congr_left ?_
  intro e member
  show (e.outcome.score).map Score.value = some e.score.value
  rw [retains.score_outcome member]
  rfl

theorem values_sorted (retains : h.Retains os) :
    (h.entries.map fun e => e.score.value).Pairwise fun v w => v ≤ w :=
  List.pairwise_map.mpr (retains.sorted.imp Score.value_le.mpr)

end Retains

/-- **Ranking is numeric.** No trial is completed with an infinity or with what is not a
number. Every other word is stored as it is, except that a negative zero is stored as the
positive one, and two stored scores compare as the values of the words that were given:
every subnormal number and both zeros included. So whatever a fresh history was handed,
two of its entries tie exactly if their values are equal, ties stand in order of arrival,
and the values of what it retains ascend. -/
theorem ranking_is_numeric :
    (∀ x now summary, x.IsNotNumber ∨ x.IsInfinity →
      Outcome.completed now x summary = .error (.nonFiniteScore x)) ∧
    (∀ x : Binary64, ¬ (x.IsNotNumber ∨ x.IsInfinity) → ∃ s : Score, s.Stores x ∧
      s.word = if x = Binary64.negativeZero then Binary64.zero else x) ∧
    (∀ (a b : Binary64) (s t : Score), s.Stores a → t.Stores b →
      (s.compare t = .lt ↔ a.value < b.value) ∧
      (s.compare t = .eq ↔ a.value = b.value) ∧
      (s.compare t = .gt ↔ b.value < a.value) ∧
      (s.le t = true ↔ a.value ≤ b.value)) ∧
    ∀ (owner : Option ExperimentId) (capacity : Nat) (os : List Outcome),
      let h := (empty owner capacity).addAll os
      (∀ e ∈ h.entries, e.outcome.score = some e.score) ∧
      (∀ e ∈ h.entries, ∀ f ∈ h.entries,
        (e.score.compare f.score = .eq ↔ e.score.value = f.score.value)) ∧
      (h.entries.Pairwise fun e f => e.score.value < f.score.value ∨
        e.score.value = f.score.value ∧ e.arrival < f.arrival) ∧
      ∃ values : List ℚ, h.all.map Outcome.value? = values.map some ∧
        values.Pairwise fun v w => v ≤ w := by
  refine ⟨?_, ?_, ?_, ?_⟩
  · intro x now summary special
    exact Outcome.completed_of_not_finite special now summary
  · intro x finite
    obtain ⟨s, stores⟩ := Score.exists_stores finite
    exact ⟨s, stores, stores.word_eq⟩
  · intro a b s t first second
    rw [← first.value_eq, ← second.value_eq, Score.value_le, Score.le_eq_true]
    exact ⟨Score.compare_eq_iff .lt, Score.compare_eq_iff .eq, Score.compare_eq_iff .gt, Iff.rfl⟩
  · intro owner capacity os h
    have retains : h.Retains os := retains_addAll owner capacity os
    refine ⟨fun e member => retains.score_outcome member, ?_, retains.ascending, ?_⟩
    · intro e _ f _
      exact Score.compare_eq_iff .eq
    · exact ⟨_, retains.map_value?_all, retains.values_sorted⟩

/-! ### Around zero -/

namespace Sample

/-- The word behind the positive zero. -/
def least : Binary64 := ⟨1⟩

def notNumber : Binary64 := ⟨0x7FF8000000000000⟩

/-- The trial of a word, or an aborted one if the word is not finite. -/
def tried (x : Binary64) (summary : String) : Outcome :=
  (Outcome.completed ⟨0, 0⟩ x summary).toOption.getD (Outcome.incomplete ⟨0, 0⟩ summary)

end Sample

/-- Both zeros have the value zero and tie, and the least subnormal number ranks behind
them. -/
theorem zeros_tie_before_least_subnormal :
    (Outcome.completed ⟨0, 0⟩ Sample.notNumber "lost" =
      .error (.nonFiniteScore Sample.notNumber)) ∧
    (∃ s t u : Score, s.Stores Binary64.negativeZero ∧ t.Stores Binary64.zero ∧
      u.Stores Sample.least ∧ s.compare t = .eq ∧ t.compare u = .lt) ∧
    let h := (empty none 3).addAll [Sample.tried Sample.least "least",
      Sample.tried Binary64.zero "zero", Sample.tried Binary64.negativeZero "negative zero"]
    h.all.map Outcome.summary = ["zero", "negative zero", "least"] ∧
      ∃ values : List ℚ, h.all.map Outcome.value? = values.map some ∧
        values.Pairwise fun v w => v ≤ w := by
  obtain ⟨refused, stored, compared, histories⟩ := ranking_is_numeric
  obtain ⟨s, minus, _⟩ := stored Binary64.negativeZero (by decide)
  obtain ⟨t, plus, _⟩ := stored Binary64.zero (by decide)
  obtain ⟨u, least, _⟩ := stored Sample.least (by decide)
  have bothZero : Binary64.negativeZero.value = Binary64.zero.value :=
    (Binary64.value_unsignZero Binary64.negativeZero).symm
  have above : Binary64.zero.value < Sample.least.value := by
    rw [← not_le, Binary64.value_le_iff]
    decide
  refine ⟨refused _ _ _ (by decide), ?_, by decide +kernel, ?_⟩
  · exact ⟨s, t, u, minus, plus, least, (compared _ _ s t minus plus).2.1.mpr bothZero,
      (compared _ _ t u plus least).1.mpr above⟩
  · exact (histories none 3 _).2.2.2

end History
end RankedSearch
