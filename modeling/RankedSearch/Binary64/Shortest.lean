import RankedSearch.Binary64.Basic

/-!
# The shortest decimal that reads back

The numbers that round to a finite word form an interval: it reaches half-way
to the words of the next smaller and the next larger magnitude, and has its ends
exactly when the magnitude is even. `Binary64.shortest` is the decimal of fewest
significant digits in that interval; of several it is the one nearest to the
word, and of two at the same distance the larger one.

All comparisons are between natural numbers, counted in halves of the unit
`2 ^ (-1074)`.
-/

set_option autoImplicit false

namespace RankedSearch

/-- The decimal number `digits * 10 ^ exponent`. -/
structure Decimal where
  digits : Nat
  exponent : Int
  deriving DecidableEq, Inhabited

namespace Decimal

/-- Twice the decimal in units of `2 ^ (-1074)`, over a power of ten. -/
def halfUnits (d : Decimal) : Nat × Nat :=
  ((d.digits * Nat.pow 10 d.exponent.toNat) <<< 1075, Nat.pow 10 (-d.exponent).toNat)

/-- Trailing zeros of the digits move into the exponent. -/
def strip : Nat → Decimal → Decimal
  | 0, d => d
  | fuel + 1, d =>
    if d.digits ≠ 0 ∧ d.digits % 10 = 0 then strip fuel ⟨d.digits / 10, d.exponent + 1⟩ else d

/-- The number of decimal digits of a natural number; zero has none. -/
def digitCount (n : Nat) : Nat :=
  if n = 0 then 0 else (toString n).length

end Decimal

namespace Binary64

/-- Whether a decimal rounds to the magnitude `m`. -/
def readsBack (m : Nat) (d : Decimal) : Bool :=
  let (num, den) := d.halfUnits
  let low := (magnitudeUnits (m - 1) + magnitudeUnits m) * den
  let high := (magnitudeUnits m + magnitudeUnits (m + 1)) * den
  if m % 2 = 0 then decide (low ≤ num ∧ num ≤ high) else decide (low < num ∧ num < high)

/-- The least exponent `k` with `m`'s value below `10 ^ k`. -/
def decimalScale (m : Nat) : Int :=
  let units := magnitudeUnits m
  let whole := units >>> 1074
  if whole ≠ 0 then (Decimal.digitCount whole : Int)
  else
    -- the value is below one: count the zeros behind the decimal point
    let places := (units * Nat.pow 10 400) >>> 1074
    (Decimal.digitCount places : Int) - 400

/-- The two neighbours of `m`'s value with an exponent of `exponent`. -/
def neighbours (m : Nat) (exponent : Int) : Decimal × Decimal :=
  let num := magnitudeUnits m * Nat.pow 10 (-exponent).toNat
  let den := Nat.pow 10 exponent.toNat <<< 1074
  (⟨num / den, exponent⟩, ⟨num / den + 1, exponent⟩)

/-- Of the two neighbours, the nearer one that reads back, if any does. -/
def candidate (m : Nat) (exponent : Int) : Option Decimal :=
  let (below, above) := neighbours m exponent
  match readsBack m below, readsBack m above with
  | true, true =>
    let (low, den) := below.halfUnits
    let (high, _) := above.halfUnits
    if low + high ≤ 4 * magnitudeUnits m * den then some above else some below
  | true, false => some below
  | false, true => some above
  | false, false => none

/-- The shortest decimal that rounds to the magnitude `m`. Seventeen digits
always suffice; should none read back, the exact value is given. -/
def shortest (m : Nat) : Decimal :=
  let scale := decimalScale m
  let exact : Decimal := ⟨(magnitudeUnits m * Nat.pow 10 1074) >>> 1074, -1074⟩
  let found := (List.range 17).findSome? fun (n : Nat) => candidate m (scale - (n : Int) - 1)
  Decimal.strip 1100 (found.getD exact)

end Binary64
end RankedSearch
