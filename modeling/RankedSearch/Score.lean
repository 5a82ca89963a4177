import RankedSearch.Binary64.Basic

/-!
# Scores

A score is the number by which trials are ranked; lower is better. It is a
finite word other than the negative zero, so the total order of words is the
numeric order on scores and two scores tie exactly when they are the same word.
`Score.ofWord?` is the only way from a raw word to a score: it refuses what is
not finite and stores a negative zero as the positive one.
-/

set_option autoImplicit false

namespace RankedSearch

/-- A finite number with a single zero. -/
structure Score where
  word : Binary64
  isFinite : word.isFinite = true
  ne_negativeZero : word ≠ Binary64.negativeZero
  deriving DecidableEq

namespace Score

/-- Removing the sign of a zero leaves no negative zero. -/
theorem unsignZero_ne_negativeZero (x : Binary64) : x.unsignZero ≠ Binary64.negativeZero := by
  unfold Binary64.unsignZero
  split
  · decide
  · assumption

/-- Removing the sign of a zero keeps a word finite. -/
theorem isFinite_unsignZero {x : Binary64} (h : x.isFinite = true) :
    x.unsignZero.isFinite = true := by
  unfold Binary64.unsignZero
  split
  · decide
  · exact h

/-- The score of a raw word, if the word is finite. -/
def ofWord? (x : Binary64) : Option Score :=
  if h : x.isFinite = true then
    some ⟨x.unsignZero, isFinite_unsignZero h, unsignZero_ne_negativeZero x⟩
  else none

/-- Scores compare by the total order of their words. -/
def compare (a b : Score) : Ordering :=
  Ord.compare a.word.totalKey b.word.totalKey

/-- Whether a trial of score `a` ranks no worse than one of score `b`. -/
def le (a b : Score) : Bool :=
  decide (a.word.totalKey ≤ b.word.totalKey)

/-- The lower of two scores. -/
def min (a b : Score) : Score :=
  if a.le b then a else b

end Score
end RankedSearch
