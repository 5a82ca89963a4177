import RankedSearch.Time.Calendar

/-!
# Timestamps and spans

A timestamp is a moment of universal time to the nanosecond. A leap second is
written into the nanoseconds of the second before it: they then count from
`10 ^ 9` upwards. The difference of two timestamps is a signed number of
nanoseconds.
-/

set_option autoImplicit false

namespace RankedSearch

/-- The nanoseconds of a second. -/
def nanosPerSecond : Nat := 1000000000

/-- The seconds of a day. -/
def secondsPerDay : Nat := 86400

/-- A moment of universal time: seconds since 1970 and nanoseconds. -/
structure Timestamp where
  seconds : Int
  nanos : Nat
  deriving DecidableEq, Inhabited

namespace Timestamp

/-- The second of the day. -/
def secondOfDay (t : Timestamp) : Int :=
  t.seconds % secondsPerDay

/-- The date of a moment. -/
def date (t : Timestamp) : Date :=
  Date.ofDayNumber (t.seconds / secondsPerDay)

/-- The last part of a leap second. -/
def isLeapSecond (t : Timestamp) : Bool :=
  decide (nanosPerSecond ≤ t.nanos)

/-- The nanoseconds from `start` to `finish`. A leap second between two times
of day is one second more than their difference. -/
def nanosBetween (start finish : Timestamp) : Int :=
  let leap : Int :=
    if start.secondOfDay < finish.secondOfDay ∧ start.isLeapSecond = true then 1
    else if finish.secondOfDay < start.secondOfDay ∧ finish.isLeapSecond = true then -1
    else 0
  (finish.seconds - start.seconds + leap) * nanosPerSecond +
    ((finish.nanos : Int) - (start.nanos : Int))

/-- The moment a number of nanoseconds later; no leap second is inserted. -/
def advance (t : Timestamp) (nanos : Nat) : Timestamp :=
  let total := t.nanos + nanos
  ⟨t.seconds + (total / nanosPerSecond : Nat), total % nanosPerSecond⟩

end Timestamp

/-- A signed span of time in nanoseconds. -/
structure Span where
  nanos : Int
  deriving DecidableEq

namespace Span

/-- The whole seconds of a span; the fraction is dropped. -/
def seconds (s : Span) : Int := s.nanos.tdiv 1000000000

/-- The whole milliseconds of a span; the fraction is dropped. -/
def millis (s : Span) : Int := s.nanos.tdiv 1000000

/-- The nanoseconds of a span, if a signed 64-bit word holds them. -/
def wordNanos? (s : Span) : Option Int :=
  if -9223372036854775808 ≤ s.nanos ∧ s.nanos ≤ 9223372036854775807 then some s.nanos else none

end Span
end RankedSearch
