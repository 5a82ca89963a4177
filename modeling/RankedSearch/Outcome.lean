import RankedSearch.Artifact
import RankedSearch.Failure
import RankedSearch.Score
import RankedSearch.Time.Timestamp

/-!
# Trial outcomes

An outcome is the record of one trial. It is complete when it has a score, and
only `Outcome.completed` gives it one, so every complete outcome has a finite
score. Everything else is bookkeeping that ranking never reads.
-/

set_option autoImplicit false

namespace RankedSearch

/-- How an artifact was produced. -/
structure Provenance where
  searchMethod : Option String
  searchArgs : List String
  evalMethod : Option String
  evalArgs : List String
  classifierArgs : List String
  deriving DecidableEq

/-- Nothing is known about the production. -/
def Provenance.unknown : Provenance := ⟨none, [], none, [], []⟩

/-- One finished or aborted trial. -/
structure Outcome where
  /-- The ranking score; an aborted trial has none. -/
  score : Option Score
  summary : String
  artifact : Artifact
  provenance : Provenance
  startedAt : Timestamp
  finishedAt : Timestamp
  fold : UInt32
  seed : UInt64
  /-- The raw line that a tuner reported, if any. -/
  resultLine : Option String
  deriving DecidableEq

namespace Outcome

/-- An outcome that was built at the moment `now` and has no bookkeeping yet. -/
def ofScore (now : Timestamp) (score : Option Score) (summary : String) : Outcome :=
  ⟨score, summary, Artifact.none, Provenance.unknown, now, now, 0, 0, none⟩

/-- A finished trial. A word that is not finite is no score. -/
def completed (now : Timestamp) (score : Binary64) (summary : String) :
    Except OutcomeError Outcome :=
  match Score.ofWord? score with
  | some s => .ok (ofScore now (some s) summary)
  | none => .error (.nonFiniteScore score)

/-- A trial that produced no usable score. -/
def incomplete (now : Timestamp) (summary : String) : Outcome :=
  ofScore now none summary

/-- Whether the trial produced a score. -/
def isComplete (o : Outcome) : Bool := o.score.isSome

/-- The time that the trial took, possibly negative. -/
def duration (o : Outcome) : Span := ⟨Timestamp.nanosBetween o.startedAt o.finishedAt⟩

/-! ## Bookkeeping -/

/-- The outcome with another artifact. -/
def withArtifact (o : Outcome) (artifact : Artifact) : Outcome := { o with artifact := artifact }

/-- The outcome with another provenance. -/
def withProvenance (o : Outcome) (provenance : Provenance) : Outcome :=
  { o with provenance := provenance }

/-- The outcome with other times. -/
def withTiming (o : Outcome) (startedAt finishedAt : Timestamp) : Outcome :=
  { o with startedAt := startedAt, finishedAt := finishedAt }

/-- The outcome with another fold. -/
def withFold (o : Outcome) (fold : UInt32) : Outcome := { o with fold := fold }

/-- The outcome with another seed. -/
def withSeed (o : Outcome) (seed : UInt64) : Outcome := { o with seed := seed }

/-- The outcome with a result line. -/
def withResultLine (o : Outcome) (line : String) : Outcome := { o with resultLine := some line }

end Outcome
end RankedSearch
