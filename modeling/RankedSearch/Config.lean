import RankedSearch.Files.Tree
import RankedSearch.History
import RankedSearch.Metric
import RankedSearch.Time.Duration

/-!
# Search configurations

The settings of one search. A configuration is checked before anything is done
with it; of several faults the first in the order of `Config.validate` is
reported.
-/

set_option autoImplicit false

namespace RankedSearch

/-- The errors in a row after which a worker gives up, unless configured. -/
def defaultMaxConsecutiveFailures : UInt32 := 3

/-- The settings of a search. -/
structure Config where
  /-- The number of workers. -/
  parallelRuns : UInt64
  /-- The seed of the first worker; the others count up from it. -/
  seed : UInt64
  /-- The number of folds, handed through to the trial sources. -/
  foldCount : UInt32
  /-- The number of outcomes that the history retains. -/
  historyCapacity : UInt64
  /-- The metric that the sources report in; scores arrive already converted. -/
  metric : Metric
  /-- The time that the whole search may take. -/
  timeLimit : Option Duration
  maxConsecutiveFailures : UInt32
  /-- Rank the baseline only and launch no worker. -/
  skipSearch : Bool
  /-- The directory for the scratch directories of the workers. -/
  workRoot : Option String
  deriving DecidableEq

namespace Config

/-- The settings unless others are chosen. -/
def default : Config :=
  { parallelRuns := 1
    seed := 123
    foldCount := 10
    historyCapacity := UInt64.ofNat History.defaultCapacity
    metric := Metric.default
    timeLimit := none
    maxConsecutiveFailures := defaultMaxConsecutiveFailures
    skipSearch := false
    workRoot := none }

/-- The number of slots that the search prepares. -/
def slotCount (c : Config) : Nat :=
  if c.skipSearch then 0 else c.parallelRuns.toNat

/-- The seed of a worker; it wraps at the end of the word. -/
def workerSeed (c : Config) (index : Nat) : UInt64 :=
  c.seed + UInt64.ofNat index

/-- Checks a configuration, given what paths lead to. -/
def validate (c : Config) (stat : String → Except IoError FileKind) : Except SearchError Unit :=
  if c.parallelRuns = 0 ∧ c.skipSearch = false then .error (.config .noWorkers)
  else if c.historyCapacity = 0 then .error (.config .noCapacity)
  else if c.maxConsecutiveFailures = 0 then .error (.config .noFailureLimit)
  else
    match c.workRoot with
    | none => .ok ()
    | some root =>
      match stat root with
      | .error e => .error (.io e)
      | .ok .directory => .ok ()
      | .ok .other => .error (.config (.workRootNotDirectory root))

end Config
end RankedSearch
