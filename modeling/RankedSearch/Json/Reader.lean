import RankedSearch.Binary64.Rounding
import RankedSearch.Json.Basic

/-!
# Reading interchange text

A numeral without fraction and exponent is an integer if a signed or an unsigned
64-bit word holds it and it is not a negative zero; every other numeral is the
nearest binary word. Of several fields of the same name the last one counts.

Readers take the characters that are left and give back those that they leave.
Their first argument bounds the number of nested calls; the length of the text
is always enough.
-/

set_option autoImplicit false

namespace RankedSearch
namespace Json

/-- The text without the blanks in front. -/
def skipBlanks (cs : List Char) : List Char :=
  cs.dropWhile fun c => c == ' ' || c == '\n' || c == '\r' || c == '\t'

/-! ## Texts -/

/-- The value of a hexadecimal digit. -/
def hexValue? (c : Char) : Option Nat :=
  if '0' ≤ c ∧ c ≤ '9' then some (c.toNat - 48)
  else if 'a' ≤ c ∧ c ≤ 'f' then some (c.toNat - 87)
  else if 'A' ≤ c ∧ c ≤ 'F' then some (c.toNat - 55)
  else none

/-- The value of four hexadecimal digits. -/
def readUnit? : List Char → Option (Nat × List Char)
  | a :: b :: c :: d :: rest => do
    let digits ← [a, b, c, d].mapM hexValue?
    pure (digits.foldl (fun n d => 16 * n + d) 0, rest)
  | _ => none

/-- The character of one escaped 16-bit unit, or of two that belong together. -/
def readEscapedUnit? (cs : List Char) : Option (Char × List Char) := do
  let (high, rest) ← readUnit? cs
  if 0xd800 ≤ high ∧ high < 0xdc00 then
    match rest with
    | '\\' :: 'u' :: rest =>
      let (low, rest) ← readUnit? rest
      if 0xdc00 ≤ low ∧ low < 0xe000 then
        pure (Char.ofNat (0x10000 + (high - 0xd800) * 0x400 + (low - 0xdc00)), rest)
      else none
    | _ => none
  else if 0xdc00 ≤ high ∧ high < 0xe000 then none
  else pure (Char.ofNat high, rest)

/-- The character that stands for itself behind a backslash, or for a control character. -/
def escapedChar? : Char → Option Char
  | '\x22' => some '\x22'
  | '\x5c' => some '\x5c'
  | '/' => some '/'
  | 'b' => some (Char.ofNat 8)
  | 'f' => some (Char.ofNat 12)
  | 'n' => some '\n'
  | 'r' => some '\r'
  | 't' => some '\t'
  | _ => none

/-- The rest of a text up to its closing quote; `done` is what has been read, last first. -/
def readText? : Nat → List Char → List Char → Option (String × List Char)
  | 0, _, _ => none
  | _, _, [] => none
  | fuel + 1, done, c :: cs =>
    if c = '\x22' then some (String.ofList done.reverse, cs)
    else if c = '\x5c' then
      match cs with
      | 'u' :: rest => (readEscapedUnit? rest).bind fun (d, rest) => readText? fuel (d :: done) rest
      | e :: rest => (escapedChar? e).bind fun d => readText? fuel (d :: done) rest
      | [] => none
    else if c.toNat < 32 then none
    else readText? fuel (c :: done) cs

/-! ## Numbers -/

/-- The number that a row of digits denotes. -/
def natOfDigits (digits : List Char) : Nat :=
  digits.foldl (fun n c => 10 * n + (c.toNat - 48)) 0

/-- The row of digits in front of a text, and the rest. -/
def spanDigits (cs : List Char) : List Char × List Char :=
  (cs.takeWhile Char.isDigit, cs.dropWhile Char.isDigit)

/-- The digits of a fraction, if there is one. -/
def readFraction? : List Char → Option (List Char × List Char)
  | '.' :: cs =>
    let (digits, rest) := spanDigits cs
    if digits.isEmpty then none else some (digits, rest)
  | cs => some ([], cs)

/-- An exponent, if there is one. -/
def readExponent? (cs : List Char) : Option (Option Int × List Char) :=
  match cs with
  | 'e' :: rest | 'E' :: rest =>
    let (negative, rest) := match rest with
      | '-' :: rest => (true, rest)
      | '+' :: rest => (false, rest)
      | rest => (false, rest)
    let (digits, rest) := spanDigits rest
    let value : Int := natOfDigits digits
    if digits.isEmpty then none else some (some (if negative then -value else value), rest)
  | cs => some (none, cs)

/-- Whether a numeral of digits alone counts as an integer. -/
def isWordSized (negative : Bool) (n : Nat) : Bool :=
  if negative then decide (0 < n) && decide (n ≤ 9223372036854775808)
  else decide (n < 18446744073709551616)

/-- A number. -/
def readNumber? (cs : List Char) : Option (Json × List Char) := do
  let (negative, cs) := match cs with
    | '-' :: rest => (true, rest)
    | cs => (false, cs)
  let (whole, cs) := spanDigits cs
  if whole.isEmpty || (whole.head? == some '0' && decide (1 < whole.length)) then none
  else
    let (fraction, cs) ← readFraction? cs
    let (exponent, cs) ← readExponent? cs
    let n := natOfDigits whole
    if fraction.isEmpty && exponent.isNone && isWordSized negative n then
      pure (.integer (if negative then -(n : Int) else n), cs)
    else
      let scale := exponent.getD 0 - fraction.length
      pure (.real (Binary64.ofDecimal negative (natOfDigits (whole ++ fraction)) scale), cs)

/-! ## Values -/

mutual

/-- A value. -/
def readValue? : Nat → List Char → Option (Json × List Char)
  | 0, _ => none
  | fuel + 1, cs =>
    match skipBlanks cs with
    | 'n' :: 'u' :: 'l' :: 'l' :: rest => some (.null, rest)
    | 't' :: 'r' :: 'u' :: 'e' :: rest => some (.bool true, rest)
    | 'f' :: 'a' :: 'l' :: 's' :: 'e' :: rest => some (.bool false, rest)
    | '\x22' :: rest => (readText? (rest.length + 1) [] rest).map fun (s, rest) => (.text s, rest)
    | '[' :: rest =>
      match skipBlanks rest with
      | ']' :: rest => some (.array [], rest)
      | rest => (readElements? fuel rest).map fun (js, rest) => (.array js, rest)
    | '\x7b' :: rest =>
      match skipBlanks rest with
      | '\x7d' :: rest => some (.object [], rest)
      | rest => (readFields? fuel [] rest).map fun (fields, rest) => (.object fields, rest)
    | cs => readNumber? cs

/-- The elements of an array up to its end. -/
def readElements? : Nat → List Char → Option (List Json × List Char)
  | 0, _ => none
  | fuel + 1, cs => do
    let (j, rest) ← readValue? fuel cs
    match skipBlanks rest with
    | ']' :: rest => pure ([j], rest)
    | ',' :: rest =>
      let (js, rest) ← readElements? fuel rest
      pure (j :: js, rest)
    | _ => none

/-- The fields of an object up to its end, behind those that have been read. -/
def readFields? : Nat → List (String × Json) → List Char →
    Option (List (String × Json) × List Char)
  | 0, _, _ => none
  | fuel + 1, fields, cs =>
    match skipBlanks cs with
    | '\x22' :: rest => do
      let (name, rest) ← readText? (rest.length + 1) [] rest
      match skipBlanks rest with
      | ':' :: rest =>
        let (j, rest) ← readValue? fuel rest
        let fields := insertField fields name j
        match skipBlanks rest with
        | '\x7d' :: rest => pure (fields, rest)
        | ',' :: rest => readFields? fuel fields rest
        | _ => none
      | _ => none
    | _ => none

end

/-- The value that a text denotes. -/
def ofText? (s : String) : Option Json := do
  let cs := s.toList
  let (j, rest) ← readValue? (cs.length + 1) cs
  if (skipBlanks rest).isEmpty then pure j else none

end Json
end RankedSearch
