/-!
# Experiment identifiers

An identifier is thirty-two hexadecimal digits. It is written in lower case with
hyphens after the digits 8, 12, 16 and 20. Four forms are read: the bare
digits, the hyphenated form, the hyphenated form in braces, and the hyphenated
form behind `urn:uuid:`; letters of either case are accepted.
-/

set_option autoImplicit false

namespace RankedSearch

/-- The identifier of an experiment. -/
structure ExperimentId where
  digits : List (Fin 16)
  length_digits : digits.length = 32
  deriving DecidableEq

namespace ExperimentId

/-- A hexadecimal digit in lower case. -/
def digitChar (d : Fin 16) : Char :=
  if d.val < 10 then Char.ofNat (48 + d.val) else Char.ofNat (87 + d.val)

/-- The hexadecimal digit of a character. -/
def ofDigitChar? (c : Char) : Option (Fin 16) :=
  let n := c.toNat
  if h : 48 ≤ n ∧ n ≤ 57 then some ⟨n - 48, by omega⟩
  else if h : 97 ≤ n ∧ n ≤ 102 then some ⟨n - 87, by omega⟩
  else if h : 65 ≤ n ∧ n ≤ 70 then some ⟨n - 55, by omega⟩
  else none

/-- The identifier made of exactly thirty-two characters. -/
def ofSimple? (cs : List Char) : Option ExperimentId :=
  match cs.mapM ofDigitChar? with
  | some ds => if h : ds.length = 32 then some ⟨ds, h⟩ else none
  | none => none

/-- The characters of the hyphenated form. -/
def hyphenated (cs : List Char) : List Char :=
  cs.take 8 ++ '-' :: (cs.drop 8).take 4 ++ '-' :: (cs.drop 12).take 4 ++
    '-' :: (cs.drop 16).take 4 ++ '-' :: cs.drop 20

/-- The identifier in hyphenated form. -/
def ofHyphenated? (cs : List Char) : Option ExperimentId :=
  match cs[8]?, cs[13]?, cs[18]?, cs[23]? with
  | some '-', some '-', some '-', some '-' =>
    ofSimple? (cs.take 8 ++ (cs.drop 9).take 4 ++ (cs.drop 14).take 4 ++ (cs.drop 19).take 4 ++
      cs.drop 24)
  | _, _, _, _ => none

/-- The identifier between braces. -/
def ofBraced? (cs : List Char) : Option ExperimentId :=
  match cs.getLast? with
  | some '\x7d' => if cs.length = 38 then ofHyphenated? (cs.drop 1).dropLast else none
  | _ => none

/-- Whether characters spell `urn:uuid:` in letters of either case. -/
def isUrnHead (cs : List Char) : Bool := cs.map Char.toLower == "urn:uuid:".toList

/-- The identifier that a text denotes. -/
def ofText? (s : String) : Option ExperimentId :=
  match s.toList with
  | '\x7b' :: rest => ofBraced? ('\x7b' :: rest)
  | cs =>
    if cs.length = 32 then ofSimple? cs
    else if cs.length = 36 then ofHyphenated? cs
    else if cs.length = 45 ∧ isUrnHead (cs.take 9) = true then ofHyphenated? (cs.drop 9)
    else none

/-- The written form of an identifier. -/
def text (id : ExperimentId) : String :=
  String.ofList (hyphenated (id.digits.map digitChar))

/-- The identifier of all zeros. -/
def nil : ExperimentId := ⟨List.replicate 32 0, by simp⟩

/-- The identifier that ends in the hexadecimal digits of `n`. -/
def ofNat (n : Nat) : ExperimentId :=
  ⟨(List.range 32).reverse.map fun k => ⟨(n >>> (4 * k)) % 16, Nat.mod_lt _ (by decide)⟩,
    by simp⟩

/-- A digit of the identifier of a random number, counted from the end: one digit
tells that the number is random, and one of the others has only four values. -/
def randomDigit (n k : Nat) : Fin 16 :=
  let digit := (n >>> (4 * k)) % 16
  if k = 19 then 4
  else if k = 15 then ⟨8 + digit % 4, by omega⟩
  else ⟨digit, Nat.mod_lt _ (by decide)⟩

/-- The identifier of a random number. -/
def ofRandom (n : Nat) : ExperimentId :=
  ⟨(List.range 32).reverse.map (randomDigit n), by simp⟩

end ExperimentId
end RankedSearch
