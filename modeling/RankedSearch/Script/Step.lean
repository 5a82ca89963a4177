import RankedSearch.Metric
import RankedSearch.Outcome
import RankedSearch.Worker.Basic

/-!
# Scripted trial sources

A scripted source plays a list of steps, one for each call; past the end it has
nothing more to try. A step delivers a trial, fails, panics or ends. Before it
delivers a trial it may do something that others notice: set the flag, make the
caller stop or drop the run, or let time pass.
-/

set_option autoImplicit false

namespace RankedSearch
namespace Script

/-! ## Trials by description -/

/-- The seed of a described trial: a given one, or that of the worker's slot. -/
inductive SeedChoice where
  | fixed (seed : UInt64)
  | slot
  deriving DecidableEq

/-- A description of a trial. -/
structure TrialSpec where
  /-- The raw value that was measured; an aborted trial has none. -/
  raw : Option Binary64
  /-- The metric of the raw value; without one the value is a score already. -/
  metric : Option Metric
  summary : String
  seed : SeedChoice
  artifact : Artifact
  deriving DecidableEq

/-- The ranking number of a raw value. -/
def TrialSpec.score (spec : TrialSpec) (raw : Binary64) : Binary64 :=
  match spec.metric with
  | some metric => metric.toScore raw
  | none => raw

/-- The outcome of a described trial in a slot of the given seed. -/
def TrialSpec.build (spec : TrialSpec) (now : Timestamp) (slotSeed : UInt64) :
    Except OutcomeError Outcome := do
  let outcome ← match spec.raw with
    | none => pure (Outcome.incomplete now spec.summary)
    | some raw => Outcome.completed now (spec.score raw) spec.summary
  let seed := match spec.seed with
    | .fixed seed => seed
    | .slot => slotSeed
  pure ((outcome.withSeed seed).withArtifact spec.artifact)

/-! ## Steps -/

/-- What a source does before it delivers a trial. -/
inductive Effect where
  | plain
  /-- It sets the flag. -/
  | raiseFlag
  /-- It delivers the trial only if the flag is not set, and else ends. -/
  | endIfFlagged
  /-- It makes the caller's request to stop arrive. -/
  | requestStop
  /-- It makes the caller drop the run. -/
  | dropRun
  /-- It waits for the deadline. -/
  | awaitDeadline
  /-- It works until the clock reaches an instant. -/
  | workUntil (finish : Instant)
  deriving DecidableEq

/-- What a scripted source does in one call. -/
inductive Step where
  | deliver (effect : Effect) (trial : TrialSpec)
  /-- It works until an instant and then gives a known answer. -/
  | produce (finish : Instant) (answer : TrialResult)
  | finish
  | fail (e : TrialError)
  | panic (p : Panic)
  deriving DecidableEq

/-- The answer of a source that delivers a described trial: a trial that cannot
be built is a failed attempt. -/
def delivery (trial : TrialSpec) (now : Timestamp) (slotSeed : UInt64) : TrialResult :=
  match trial.build now slotSeed with
  | .ok outcome => .outcome outcome
  | .error e => .failure (.outcome e)

namespace Step

/-- What the source does before it answers. -/
def effect : Step → Effect
  | .deliver effect _ => effect
  | .produce moment _ => .workUntil moment
  | .finish | .fail _ | .panic _ => .plain

/-- The answer of the source, given whether the flag is set. -/
def result (step : Step) (flagged : Bool) (now : Timestamp) (slotSeed : UInt64) : TrialResult :=
  match step with
  | .deliver .endIfFlagged trial =>
    if flagged then .exhausted else delivery trial now slotSeed
  | .deliver _ trial => delivery trial now slotSeed
  | .produce _ answer => answer
  | .finish => .exhausted
  | .fail e => .failure e
  | .panic p => .panic p

end Step
end Script
end RankedSearch
