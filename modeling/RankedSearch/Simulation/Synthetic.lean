import RankedSearch.Binary64.Rounding
import RankedSearch.Script.Step

/-!
# Synthetic sources

A stand-in for a real search. The attempts of a source take a few milliseconds
each; a few of them fail, some are aborted, and the others measure a raw value
between zero and one.

What an attempt comes to is drawn by the generator of the source. Which generator
that is makes no difference here: the draws are given, one record for each attempt
(`Draw`), and a record holds only numbers that can be drawn. So a source may also
fail several times in a row.
-/

set_option autoImplicit false

namespace RankedSearch
namespace Simulation

/-! ## Draws -/

/-- The parts of one in which random numbers between zero and one are drawn: `2 ^ 53`. -/
def parts : Nat := 9007199254740992

/-- What is drawn for one attempt of a source that searches a number of folds. -/
structure Draw (folds : Nat) where
  /-- The milliseconds that the attempt takes, less one. -/
  wait : Fin 9
  /-- It decides on failure and abortion. -/
  roll : Fin parts
  /-- The depth of the tree, less one. -/
  depth : Fin 31
  /-- The raw value. -/
  raw : Fin parts
  fold : Fin folds

/-- The number of folds that a source draws from. -/
def folds (slot : Slot) : Nat := max slot.foldCount.toNat 1

theorem folds_pos (slot : Slot) : 0 < folds slot := Nat.le_max_right _ _

/-- The nanoseconds of a millisecond. -/
def nanosPerMilli : Nat := 1000000

namespace Draw

variable {folds : Nat}

/-- Whether an attempt fails: two in a hundred do. -/
def fails (d : Draw folds) : Bool := decide (100 * d.roll.val < 2 * parts)

/-- Whether an attempt that does not fail is aborted: five in a hundred are. -/
def isAborted (d : Draw folds) : Bool := decide (100 * d.roll.val < 7 * parts)

/-- The nanoseconds that an attempt takes: one to nine milliseconds. -/
def workNanos (d : Draw folds) : Nat := (1 + d.wait.val) * nanosPerMilli

/-- The raw value that an attempt measures, below one. -/
def rawValue (d : Draw folds) : Binary64 := Binary64.ofRatio false d.raw.val parts

end Draw

/-! ## Attempts -/

/-- The answer of a source to an attempt between two moments. -/
def answer (metric : Metric) (slot : Slot) (d : Draw (folds slot)) (started finished : Timestamp) :
    TrialResult :=
  let depth := toString (1 + d.depth.val)
  let summary := "RandomTree -depth " ++ depth
  if d.fails then .failure (.search "synthetic evaluation failure")
  else if d.isAborted then .outcome (Outcome.incomplete finished summary)
  else
    match Outcome.completed finished (metric.toScore d.rawValue) summary with
    | .error e => .failure (.outcome e)
    | .ok outcome =>
      let provenance := { Provenance.unknown with classifierArgs := ["-depth", depth] }
      let fold := UInt32.ofNat d.fold.val
      .outcome ((((outcome.withProvenance provenance).withTiming started finished).withFold
        fold).withSeed slot.seed)

/-! ## Sources -/

/-- A synthetic source of a slot. -/
structure Source where
  slot : Slot
  metric : Metric
  /-- What is drawn for its attempts, one after the other. -/
  draws : Nat → Draw (folds slot)
  /-- The reading of the clock when the first attempt begins. -/
  clock : Instant
  /-- The time of day when the first attempt begins. -/
  time : Timestamp

namespace Source

/-- The time of day at a reading of the clock. -/
def timeAt (s : Source) (now : Instant) : Timestamp :=
  s.time.advance (now.nanos - s.clock.nanos)

/-- A number of attempts; the first has the given number and begins at `start`. -/
def stepsFrom (s : Source) : Nat → Nat → Instant → List Script.Step
  | 0, _, _ => []
  | count + 1, attempt, start =>
    let d := s.draws attempt
    let finish := start.advance d.workNanos
    .produce finish (answer s.metric s.slot d (s.timeAt start) (s.timeAt finish)) ::
      stepsFrom s count (attempt + 1) finish

/-- The number of attempts that matter: an attempt takes at least a millisecond,
so after the deadline there is at most the one that was begun before it. -/
def attempts (s : Source) (trials : Nat) : Nat :=
  match s.slot.deadline with
  | some deadline => min trials ((deadline.nanos - s.clock.nanos) / nanosPerMilli + 1)
  | none => trials

/-- The script of a source that has a number of trials to attempt. -/
def script (s : Source) (trials : Nat) : List Script.Step :=
  s.stepsFrom (s.attempts trials) 0 s.clock

end Source
end Simulation
end RankedSearch
