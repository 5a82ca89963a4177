import RankedSearch.Binary64.Basic

/-!
# Rounding to the nearest word

A decimal numeral or an integer names an exact ratio of natural numbers.
`Binary64.ofRatio` is the word nearest to such a ratio; of two words at the same
distance it is the one with the even magnitude, and a ratio beyond the greatest
finite word becomes an infinity.
-/

set_option autoImplicit false

namespace RankedSearch
namespace Binary64

/-- The whole number nearest to `num / den`, the even one of two at the same distance. -/
def roundHalfEven (num den : Nat) : Nat :=
  let quotient := num / den
  let twice := 2 * (num % den)
  if twice < den then quotient
  else if den < twice then quotient + 1
  else quotient + quotient % 2

/-- The word nearest to `num / den`, with the given sign.

The ratio is counted in units of `2 ^ (-1074)` and cut to fifty-three binary
places. Such a significand, with the exponent of its last place added on top,
is the magnitude itself, because a significand of fifty-three places already
carries one into the exponent bits. -/
def ofRatio (negative : Bool) (num den : Nat) : Binary64 :=
  let scaled := num <<< 1074
  let lastPlace := Nat.log2 (scaled / den) - 52
  let significand := roundHalfEven scaled (den <<< lastPlace)
  ofMagnitude negative (min infinityMagnitude (lastPlace * exponentWeight + significand))

/-- The word nearest to an integer. -/
def ofInt (n : Int) : Binary64 :=
  ofRatio (decide (n < 0)) n.natAbs 1

/-- The word nearest to `digits * 10 ^ exponent`, with the given sign. -/
def ofDecimal (negative : Bool) (digits : Nat) (exponent : Int) : Binary64 :=
  if digits = 0 then ofMagnitude negative 0
  else ofRatio negative (digits * Nat.pow 10 exponent.toNat) (Nat.pow 10 (-exponent).toNat)

end Binary64
end RankedSearch
