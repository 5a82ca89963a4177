import RankedSearch.Binary64.Basic
import RankedSearch.Experiment.Id
import RankedSearch.Time.Timestamp

/-!
# Experiment status

The externally visible state of an experiment: the stage of its life and the
counts of its workers and trials. The `mark` operations record what happens;
each writes its own fields only.
-/

set_option autoImplicit false

namespace RankedSearch

/-- The stages in the life of an experiment. -/
inductive ExperimentState where
  | notStarted
  | running
  | draining
  | finalized
  deriving DecidableEq, Inhabited

namespace ExperimentState

/-- Every stage once, in order. -/
def all : List ExperimentState := [.notStarted, .running, .draining, .finalized]

/-- The name of a stage. -/
def name : ExperimentState → String
  | .notStarted => "NotStarted"
  | .running => "Running"
  | .draining => "Draining"
  | .finalized => "Finalized"

end ExperimentState

/-- The state of an experiment with its counts, which are words in memory like those of the
workers. -/
structure ExperimentStatus where
  id : ExperimentId
  state : ExperimentState
  workersLaunched : Nat
  workersFailed : Nat
  trialsRecorded : Nat
  trialsFailed : Nat
  bestScore : Option Binary64
  cancelled : Bool
  startedAt : Option Timestamp
  finishedAt : Option Timestamp
  deriving DecidableEq

namespace ExperimentStatus

/-- An experiment that has not started. -/
def new (id : ExperimentId) : ExperimentStatus :=
  ⟨id, .notStarted, 0, 0, 0, 0, none, false, none, none⟩

/-- The experiment starts at a moment. -/
def markRunning (s : ExperimentStatus) (now : Timestamp) : ExperimentStatus :=
  { s with state := .running, startedAt := some now }

/-- The workers are being collected. -/
def markDraining (s : ExperimentStatus) : ExperimentStatus := { s with state := .draining }

/-- The experiment ends at a moment with a best score, or with none. -/
def markFinalized (s : ExperimentStatus) (now : Timestamp) (best : Option Binary64) :
    ExperimentStatus :=
  { s with state := .finalized, finishedAt := some now, bestScore := best }

/-- The experiment was interrupted. -/
def markCancelled (s : ExperimentStatus) : ExperimentStatus := { s with cancelled := true }

/-- Whether the experiment is in its last stage. -/
def isFinalized (s : ExperimentStatus) : Bool := s.state == .finalized

end ExperimentStatus
end RankedSearch
