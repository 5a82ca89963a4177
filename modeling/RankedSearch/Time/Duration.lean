import RankedSearch.Time.Timestamp

/-!
# Durations and the monotonic clock

A time limit is a duration: seconds as a 64-bit word and less than a second of
nanoseconds. The clock that measures it is monotonic; its instants have signed
64-bit seconds, so an instant plus a duration need not exist.
-/

set_option autoImplicit false

namespace RankedSearch

/-- A length of time that is not negative. -/
structure Duration where
  seconds : UInt64
  nanos : UInt32
  nanos_lt : nanos.toNat < nanosPerSecond
  deriving DecidableEq

namespace Duration

/-- No time at all. -/
def zero : Duration := ⟨0, 0, by decide⟩

/-- A duration of whole seconds. -/
def ofSeconds (seconds : UInt64) : Duration := ⟨seconds, 0, by decide⟩

/-- The duration of some seconds and any number of nanoseconds: a second's
worth of these is carried, unless the seconds would overflow. -/
def ofParts? (seconds : UInt64) (nanos : UInt32) : Option Duration :=
  let total := seconds.toNat + nanos.toNat / nanosPerSecond
  if total < 18446744073709551616 then
    let rest := nanos.toNat % nanosPerSecond
    have rest_lt : rest < nanosPerSecond := Nat.mod_lt _ (by decide)
    have rest_word : rest < UInt32.size :=
      Nat.lt_trans rest_lt (by decide)
    some ⟨UInt64.ofNat total, UInt32.ofNat rest, by
      rw [UInt32.toNat_ofNat_of_lt' rest_word]; exact rest_lt⟩
  else none

/-- A duration in nanoseconds. -/
def toNanos (d : Duration) : Nat :=
  d.seconds.toNat * nanosPerSecond + d.nanos.toNat

end Duration

/-- A reading of the monotonic clock in nanoseconds. -/
structure Instant where
  nanos : Nat
  deriving DecidableEq, Inhabited

namespace Instant

/-- The nanoseconds that no instant reaches: those of `2 ^ 63` seconds. -/
def limit : Nat := 9223372036854775808 * nanosPerSecond

/-- The instant a duration later, if the clock can represent it. -/
def after? (now : Instant) (d : Duration) : Option Instant :=
  if now.nanos + d.toNanos < limit then some ⟨now.nanos + d.toNanos⟩ else none

/-- The instant a number of nanoseconds later. -/
def advance (now : Instant) (nanos : Nat) : Instant :=
  ⟨now.nanos + nanos⟩

/-- Whether the clock has reached an instant. -/
def reached (deadline now : Instant) : Bool :=
  decide (deadline.nanos ≤ now.nanos)

end Instant
end RankedSearch
