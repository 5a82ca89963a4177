/-!
# Binary64 words

Raw metric values and scores are 64-bit words in the interchange format of
double-precision numbers: a sign bit, eleven exponent bits and fifty-two
fraction bits. This module reads a word as a sign and a 63-bit magnitude and
gives the operations that ranking needs: the finiteness test, negation, the
removal of the negative zero and the total order of words. No arithmetic of a
floating-point unit is involved.

Every finite word is a whole number of units of `2 ^ (-1074)`, the least
positive word. `Binary64.units` is that number, so the exact value of a word is
an integer and two words compare as their units do.
-/

set_option autoImplicit false

namespace RankedSearch

/-- A double-precision number as its sixty-four bits. -/
structure Binary64 where
  bits : UInt64
  deriving DecidableEq, Inhabited

namespace Binary64

/-! ## Sign and magnitude -/

/-- The weight of the sign bit, `2 ^ 63`. -/
def signWeight : Nat := 0x8000000000000000

/-- The weight of the lowest exponent bit, `2 ^ 52`. -/
def exponentWeight : Nat := 0x10000000000000

/-- The magnitude of an infinity; the magnitudes above it are those of the NaNs. -/
def infinityMagnitude : Nat := 0x7ff0000000000000

/-- The word without its sign bit. -/
def magnitude (x : Binary64) : Nat :=
  x.bits.toNat % signWeight

/-- Whether the sign bit is set. -/
def isNegative (x : Binary64) : Bool :=
  decide (signWeight ≤ x.bits.toNat)

/-- The word with the given sign bit and magnitude. -/
def ofMagnitude (negative : Bool) (magnitude : Nat) : Binary64 :=
  ⟨UInt64.ofNat (if negative then signWeight + magnitude else magnitude)⟩

/-- A word is finite when its exponent bits are not all ones. -/
def isFinite (x : Binary64) : Bool :=
  decide (x.magnitude < infinityMagnitude)

/-- A word is a NaN when its magnitude exceeds that of an infinity. -/
def isNaN (x : Binary64) : Bool :=
  decide (infinityMagnitude < x.magnitude)

/-- The positive zero. -/
def zero : Binary64 := ⟨0⟩

/-- The negative zero. -/
def negativeZero : Binary64 := ⟨0x8000000000000000⟩

/-! ## Operations -/

/-- Negation flips the sign bit: the sum with its weight drops the carry. -/
def negate (x : Binary64) : Binary64 :=
  ⟨x.bits + 0x8000000000000000⟩

/-- The word itself, except that the negative zero becomes the positive one. -/
def unsignZero (x : Binary64) : Binary64 :=
  if x = negativeZero then zero else x

/-- The place of a word in the total order of words. Negative words come
first, by falling magnitude, so the negative zero is just below the positive
one. -/
def totalKey (x : Binary64) : Int :=
  if x.isNegative then -(x.magnitude : Int) - 1 else (x.magnitude : Int)

/-! ## Exact value -/

/-- The number of units of `2 ^ (-1074)` that a finite magnitude stands for. -/
def magnitudeUnits (magnitude : Nat) : Nat :=
  let exponent := magnitude / exponentWeight
  let fraction := magnitude % exponentWeight
  if exponent = 0 then fraction else (exponentWeight + fraction) <<< (exponent - 1)

/-- The exact value of a finite word in units of `2 ^ (-1074)`. -/
def units (x : Binary64) : Int :=
  if x.isNegative then -(magnitudeUnits x.magnitude : Int)
  else (magnitudeUnits x.magnitude : Int)

end Binary64
end RankedSearch
