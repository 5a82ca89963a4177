import RankedSearch.Binary64.Shortest

/-!
# Written forms of a word

Messages write a word with the fewest digits that read back and never with an
exponent: `-2.25`, `0.000001`, `100000000000000000000000`. Interchange text
writes the same digits, marks whole numbers by `.0`, and uses an exponent from
`10 ^ 16` upwards and below `10 ^ (-5)`.
-/

set_option autoImplicit false

namespace RankedSearch

/-- `n` zeros. -/
def zeros (n : Nat) : String :=
  String.ofList (List.replicate n '0')

namespace Decimal

/-- The decimal without exponent; `whole` is put behind a number without fraction. -/
def positional (whole : String) (d : Decimal) : String :=
  let digits := toString d.digits
  if 0 ≤ d.exponent then digits ++ zeros d.exponent.toNat ++ whole
  else
    let places := (-d.exponent).toNat
    if digits.length ≤ places then "0." ++ zeros (places - digits.length) ++ digits
    else
      let point := digits.length - places
      String.ofList (digits.toList.take point) ++ "." ++ String.ofList (digits.toList.drop point)

/-- The decimal with one digit in front of the point and an exponent. -/
def scientific (d : Decimal) : String :=
  let digits := (toString d.digits).toList
  let exponent := d.exponent + (digits.length : Int) - 1
  let fraction := if digits.length ≤ 1 then "" else "." ++ String.ofList (digits.drop 1)
  String.ofList (digits.take 1) ++ fraction ++ "e" ++ toString exponent

end Decimal

namespace Binary64

/-- The sign of a word as it is written. -/
def signText (x : Binary64) : String :=
  if x.isNegative then "-" else ""

/-- The word as messages write it. -/
def text (x : Binary64) : String :=
  if x.isNaN then "NaN"
  else if x.magnitude = infinityMagnitude then x.signText ++ "inf"
  else if x.magnitude = 0 then x.signText ++ "0"
  else x.signText ++ (shortest x.magnitude).positional ""

/-- A finite word as interchange text writes it. -/
def numeral (x : Binary64) : String :=
  if x.magnitude = 0 then x.signText ++ "0.0"
  else
    let d := shortest x.magnitude
    let scale := d.exponent + (toString d.digits).length
    x.signText ++ if -5 < scale ∧ scale ≤ 16 then d.positional ".0" else d.scientific

end Binary64
end RankedSearch
