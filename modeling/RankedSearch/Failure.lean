import RankedSearch.Binary64.Text
import RankedSearch.ErrorNumber

/-!
# Failures and their messages

What can go wrong while outcomes are built, trials are attempted, slots are
prepared and a search is configured. Each kind of failure is a type of its
causes, and `message` is its one wording.
-/

set_option autoImplicit false

namespace RankedSearch

/-! ## Failures of the operating system -/

/-- A failed access to files: an error number of the system, a stated reason,
or either of them at a path. -/
inductive IoError where
  | code (number : Int)
  | stated (reason : String)
  | atPath (cause : IoError) (path : String)
  deriving DecidableEq

namespace IoError

/-- A character inside a quoted path. -/
def quotedChar : Char → String
  | '\x22' => "\\\""
  | '\x5c' => "\\\\"
  | '\n' => "\\n"
  | '\r' => "\\r"
  | '\t' => "\\t"
  | '\x00' => "\\0"
  | c => c.toString

/-- A path in double quotes. -/
def quoted (path : String) : String :=
  "\"" ++ String.join (path.toList.map quotedChar) ++ "\""

/-- The wording of a failed access. -/
def message : IoError → String
  | .code number => s!"{ErrorNumber.description number} (os error {number})"
  | .stated reason => reason
  | .atPath cause path => s!"{cause.message} at path {quoted path}"

/-- There is an entry of the name already. -/
def alreadyExists : IoError := .code 17

/-- No such file or directory. -/
def notFound : IoError := .code 2

/-- A component of the path is no directory. -/
def notDirectory : IoError := .code 20

/-- A component of the path, or the whole path, is too long. -/
def nameTooLong : IoError := .code 36

/-- The path cannot be handed to the system because it holds a NUL character. -/
def nulInPath : IoError := .stated "file name contained an unexpected NUL byte"

end IoError

/-! ## Failures of outcomes and trials -/

/-- Why an outcome cannot be built or interpreted. -/
inductive OutcomeError where
  | nonFiniteScore (score : Binary64)
  | unknownMetric (name : String)
  deriving DecidableEq

/-- The wording of a faulty outcome. -/
def OutcomeError.message : OutcomeError → String
  | .nonFiniteScore score => s!"Completed trial has a non-finite score: {score.text}"
  | .unknownMetric name => s!"Unknown evaluation metric: {name}"

/-- Why a trial source could not complete an attempt. -/
inductive TrialError where
  | search (reason : String)
  | outcome (cause : OutcomeError)
  | io (cause : IoError)
  deriving DecidableEq

/-- The wording of a failed attempt. -/
def TrialError.message : TrialError → String
  | .search reason => s!"Search procedure failed: {reason}"
  | .outcome cause => s!"Malformed outcome: {cause.message}"
  | .io cause => s!"IO error: {cause.message}"

/-! ## Failures of preparation and configuration -/

/-- Why the slot of a worker could not be set up. -/
structure PreparationError where
  worker : Nat
  reason : String
  deriving DecidableEq

/-- The wording of a failed preparation. -/
def PreparationError.message (e : PreparationError) : String :=
  s!"Worker {e.worker} could not be prepared: {e.reason}"

/-- Why a configuration is refused. -/
inductive ConfigFault where
  | noWorkers
  | noCapacity
  | noFailureLimit
  | workRootNotDirectory (path : String)
  | stated (reason : String)
  deriving DecidableEq

/-- The wording of a configuration fault. -/
def ConfigFault.message : ConfigFault → String
  | .noWorkers => "parallel_runs must be at least 1"
  | .noCapacity => "history_capacity must be at least 1"
  | .noFailureLimit => "max_consecutive_failures must be at least 1"
  | .workRootNotDirectory path => s!"work_root {path} is not a directory"
  | .stated reason => reason

/-- Why a search does not start. -/
inductive SearchError where
  | config (fault : ConfigFault)
  | io (cause : IoError)
  deriving DecidableEq

/-- The wording of a refused search. -/
def SearchError.message : SearchError → String
  | .config fault => s!"Configuration error: {fault.message}"
  | .io cause => s!"IO error: {cause.message}"

/-! ## Panics -/

/-- What a panicking source leaves behind. -/
inductive Panic where
  | text (message : String)
  | other
  deriving DecidableEq

/-- The wording of a panic in a report; a payload that is no text has a fixed one. -/
def Panic.message : Panic → String
  | .text message => message
  | .other => "worker panicked"

end RankedSearch
