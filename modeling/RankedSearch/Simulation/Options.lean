import RankedSearch.Config

/-!
# Simulation options

A simulation takes its options from variables, each of which may be set to any
text. A number is a row of decimal digits, with a plus sign in front at will,
that an unsigned 64-bit word holds; a metric is given by its name. The variables
are read one after the other, and the first whose text is not understood decides
the fault. A variable that is not set leaves its option as it is by default. The
two variables that name directories take any text.
-/

set_option autoImplicit false

namespace RankedSearch
namespace Simulation

/-! ## Faults -/

/-- Why a text is no unsigned 64-bit number. -/
inductive NumberFault where
  | empty
  | invalidDigit
  | tooLarge
  deriving DecidableEq

/-- The wording of a faulty number. -/
def NumberFault.message : NumberFault → String
  | .empty => "cannot parse integer from empty string"
  | .invalidDigit => "invalid digit found in string"
  | .tooLarge => "number too large to fit in target type"

/-- Why the text of a variable is not understood. -/
inductive OptionReason where
  | number (fault : NumberFault)
  | metric (cause : OutcomeError)
  deriving DecidableEq

/-- The wording of a reason. -/
def OptionReason.message : OptionReason → String
  | .number fault => fault.message
  | .metric cause => cause.message

/-- A variable whose text is not understood. -/
structure OptionFault where
  key : String
  value : String
  reason : OptionReason
  deriving DecidableEq

/-- The wording of a faulty variable. -/
def OptionFault.message (e : OptionFault) : String :=
  s!"{e.key}={e.value}: {e.reason.message}"

/-! ## Values -/

/-- The value of a row of digits that follows digits of the value `n`. A
character that is no digit is found before the digits in front of it and itself
are found to be too many. -/
def readDigits (n : Nat) : List Char → Except NumberFault Nat
  | [] => .ok n
  | c :: rest =>
    if c.isDigit then
      let next := 10 * n + (c.toNat - 48)
      if next < UInt64.size then readDigits next rest else .error .tooLarge
    else .error .invalidDigit

/-- The number that a text denotes. -/
def readWord (s : String) : Except NumberFault UInt64 :=
  match s.toList with
  | [] => .error .empty
  | ['+'] => .error .invalidDigit
  | '+' :: digits => (readDigits 0 digits).map UInt64.ofNat
  | digits => (readDigits 0 digits).map UInt64.ofNat

/-- The number that the text of a variable denotes. -/
def readNumber (s : String) : Except OptionReason UInt64 :=
  (readWord s).mapError .number

/-- The metric that the text of a variable names. -/
def readMetric (s : String) : Except OptionReason Metric :=
  match Metric.ofName? s with
  | some metric => .ok metric
  | none => .error (.metric (.unknownMetric s))

/-! ## Variables -/

/-- The option of one variable. -/
def ofVariable {α : Type} (environment : String → Option String) (key : String)
    (read : String → Except OptionReason α) (unset : α) : Except OptionFault α :=
  match environment key with
  | none => .ok unset
  | some value => (read value).mapError fun reason => ⟨key, value, reason⟩

/-- A time limit of whole seconds; zero is no limit. -/
def timeLimit (seconds : UInt64) : Option Duration :=
  if seconds = 0 then none else some (Duration.ofSeconds seconds)

/-- The options of a simulation. -/
structure Options where
  config : Config
  /-- The number of trials that every worker attempts. -/
  trials : UInt64
  /-- The directory for temporary files. -/
  temporary : String
  deriving DecidableEq

namespace Options

/-- The variables that are read. -/
def variableNames : List String :=
  ["TOURNEY_WORKERS", "TOURNEY_SEED", "TOURNEY_CAPACITY", "TOURNEY_METRIC",
    "TOURNEY_TIME_LIMIT_SECS", "TOURNEY_WORK_ROOT", "TOURNEY_TRIALS", "TMPDIR"]

/-- The number of workers unless another is given. -/
def defaultWorkers : UInt64 := 4

/-- The number of trials of a worker unless another is given. -/
def defaultTrials : UInt64 := 200

/-- The directory for temporary files unless another is given. -/
def defaultTemporary : String := "/tmp"

/-- The options that variables give. -/
def read (environment : String → Option String) : Except OptionFault Options := do
  let base := Config.default
  let workers ← ofVariable environment "TOURNEY_WORKERS" readNumber defaultWorkers
  let seed ← ofVariable environment "TOURNEY_SEED" readNumber base.seed
  let capacity ← ofVariable environment "TOURNEY_CAPACITY" readNumber base.historyCapacity
  let metric ← ofVariable environment "TOURNEY_METRIC" readMetric base.metric
  let limit ← ofVariable environment "TOURNEY_TIME_LIMIT_SECS" readNumber 0
  let trials ← ofVariable environment "TOURNEY_TRIALS" readNumber defaultTrials
  pure
    { config :=
        { base with
          parallelRuns := workers
          seed := seed
          historyCapacity := capacity
          metric := metric
          timeLimit := timeLimit limit
          workRoot := environment "TOURNEY_WORK_ROOT" }
      trials := trials
      temporary := (environment "TMPDIR").getD defaultTemporary }

/-- The directory for the scratch directories of the workers. -/
def root (o : Options) : String := o.config.workRoot.getD o.temporary

end Options
end Simulation
end RankedSearch
