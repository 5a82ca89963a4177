import RankedSearch.Time.Timestamp

/-!
# Written timestamps

A timestamp is written as `YYYY-MM-DDTHH:MM:SS`, the least of zero, three, six
or nine digits of the second that is exact, and `Z`. Years outside four digits
carry a sign.

Reading is more liberal. White space may stand in front of each number and each
mark; numbers may be shorter; date and time are parted by a `T` of either case
or a space; the zone is a `Z` of either case, `UTC`, or an offset of hours and
minutes, which is taken off. Digits of the second beyond the ninth are dropped,
and the second sixty is a leap second.
-/

set_option autoImplicit false

namespace RankedSearch

/-- The characters with the white-space property. -/
def isBlank (c : Char) : Bool :=
  let n := c.toNat
  (9 ≤ n && n ≤ 13) || n == 0x20 || n == 0x85 || n == 0xa0 || n == 0x1680 ||
    (0x2000 ≤ n && n ≤ 0x200a) || n == 0x2028 || n == 0x2029 || n == 0x202f || n == 0x205f ||
    n == 0x3000

/-- A text without the white space in front. -/
def dropBlanks (cs : List Char) : List Char :=
  cs.dropWhile isBlank

/-- The value of a decimal digit. -/
def digitValue (c : Char) : Nat :=
  c.toNat - '0'.toNat

/-- The number that a row of decimal digits denotes. -/
def digitsValue (cs : List Char) : Nat :=
  cs.foldl (fun n c => 10 * n + digitValue c) 0

/-- A decimal numeral of `n`, filled up to `width` digits by zeros in front. -/
def padded (width n : Nat) : String :=
  let digits := toString n
  String.ofList (List.replicate (width - digits.length) '0') ++ digits

namespace Timestamp

/-! ## Writing -/

/-- The year of a date in writing. -/
def yearText (year : Int) : String :=
  if 0 ≤ year ∧ year ≤ 9999 then padded 4 year.toNat
  else (if year < 0 then "-" else "+") ++ padded 4 year.natAbs

/-- The digits of a fraction of a second, as few groups of three as are exact. -/
def fractionText (nanos : Nat) : String :=
  if nanos = 0 then ""
  else if nanos % 1000000 = 0 then "." ++ padded 3 (nanos / 1000000)
  else if nanos % 1000 = 0 then "." ++ padded 6 (nanos / 1000)
  else "." ++ padded 9 nanos

/-- A timestamp in writing. -/
def text (t : Timestamp) : String :=
  let date := t.date
  let second := t.secondOfDay.toNat
  let leap := if t.isLeapSecond then 1 else 0
  yearText date.year ++ "-" ++ padded 2 date.month ++ "-" ++ padded 2 date.day ++ "T" ++
    padded 2 (second / 3600) ++ ":" ++ padded 2 (second / 60 % 60) ++ ":" ++
    padded 2 (second % 60 + leap) ++ fractionText (t.nanos - leap * nanosPerSecond) ++ "Z"

/-! ## Reading -/

/-- A row of one to `most` digits. -/
def readDigits? (most : Nat) (cs : List Char) : Option (List Char × List Char) :=
  let digits := (cs.take most).takeWhile Char.isDigit
  if digits.isEmpty then none else some (digits, cs.drop digits.length)

/-- A number of one to `most` digits, with white space allowed in front. -/
def readNumber? (most : Nat) (cs : List Char) : Option (Nat × List Char) :=
  (readDigits? most (dropBlanks cs)).map fun (digits, rest) => (digitsValue digits, rest)

/-- A year: four digits at most, or any number of them behind a sign. -/
def readYear? (cs : List Char) : Option (Int × List Char) :=
  match dropBlanks cs with
  | '-' :: rest =>
    (readDigits? rest.length rest).map fun (ds, rest) => (-(digitsValue ds : Int), rest)
  | '+' :: rest =>
    (readDigits? rest.length rest).map fun (ds, rest) => ((digitsValue ds : Int), rest)
  | rest => (readDigits? 4 rest).map fun (ds, rest) => ((digitsValue ds : Int), rest)

/-- The mark `c`, with white space allowed in front. -/
def readMark? (c : Char) (cs : List Char) : Option (List Char) :=
  match dropBlanks cs with
  | d :: rest => if c = d then some rest else none
  | [] => none

/-- The fraction of a second in nanoseconds, if one is written. -/
def readFraction? : List Char → Option (Nat × List Char)
  | '.' :: cs => do
    let (digits, rest) ← readDigits? 9 cs
    let nanos := digitsValue digits * Nat.pow 10 (9 - digits.length)
    pure (nanos, rest.dropWhile Char.isDigit)
  | cs => some (0, cs)

/-- The offset of a zone from universal time in seconds: two digits of hours and
two of minutes, with colons or white space between. -/
def readOffset? (negative : Bool) : List Char → Option (Int × List Char)
  | h :: k :: cs =>
    match cs.dropWhile fun c => c == ':' || isBlank c with
    | m :: n :: rest =>
      if h.isDigit && k.isDigit && m.isDigit && n.isDigit && decide (m.toNat < '6'.toNat) then
        let seconds : Int := (digitsValue [h, k] : Int) * 3600 + (digitsValue [m, n] : Int) * 60
        some (if negative then -seconds else seconds, rest)
      else none
    | _ => none
  | _ => none

/-- The zone of a written time as its offset in seconds. -/
def readZone? (cs : List Char) : Option (Int × List Char) :=
  match dropBlanks cs with
  | 'Z' :: rest | 'z' :: rest => some (0, rest)
  | '+' :: rest => readOffset? false rest
  | '-' :: rest | '\u2212' :: rest => readOffset? true rest
  | u :: t :: c :: rest =>
    if [u.toLower, t.toLower, c.toLower] = ['u', 't', 'c'] then some (0, rest) else none
  | _ => none

/-- The first and the last year that can be represented. -/
def yearIsRepresentable (year : Int) : Bool :=
  decide (-262143 ≤ year) && decide (year ≤ 262142)

/-- The moment of a date and a time of day in a zone, if there is one. -/
def ofParts? (date : Date) (hour minute second nanos : Nat) (offset : Int) : Option Timestamp :=
  let leap := if second = 60 then 1 else 0
  let secondOfDay := hour * 3600 + minute * 60 + (second - leap)
  let moment : Timestamp :=
    ⟨date.toDayNumber * secondsPerDay + secondOfDay - offset, nanos + leap * nanosPerSecond⟩
  if date.isValid && decide (hour ≤ 23) && decide (minute ≤ 59) && decide (second ≤ 60) &&
      decide (offset.natAbs < secondsPerDay) && yearIsRepresentable date.year &&
      yearIsRepresentable moment.date.year then some moment else none

/-- The moment that a text denotes, if it denotes one. -/
def ofText? (s : String) : Option Timestamp := do
  let (year, cs) ← readYear? s.toList
  let cs ← readMark? '-' cs
  let (month, cs) ← readNumber? 2 cs
  let cs ← readMark? '-' cs
  let (day, cs) ← readNumber? 2 cs
  let cs ← match cs with
    | 'T' :: rest | 't' :: rest | ' ' :: rest => some rest
    | _ => none
  let (hour, cs) ← readNumber? 2 cs
  let cs ← readMark? ':' cs
  let (minute, cs) ← readNumber? 2 cs
  let cs ← readMark? ':' cs
  let (second, cs) ← readNumber? 2 cs
  let (nanos, cs) ← readFraction? cs
  let (offset, cs) ← readZone? cs
  if (dropBlanks cs).isEmpty then ofParts? ⟨year, month, day⟩ hour minute second nanos offset
  else none

end Timestamp
end RankedSearch
