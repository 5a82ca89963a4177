import RankedSearch.Config
import RankedSearch.Interchange.Experiment

/-!
# Configurations in interchange

A configuration is a record; its time limit is a closed record of seconds and
nanoseconds, in which a second's worth of nanoseconds is carried.
-/

set_option autoImplicit false

namespace RankedSearch

namespace Duration

/-- A duration as an interchange value. -/
def toJson (d : Duration) : Json :=
  .object [("secs", Json.ofNat d.seconds.toNat), ("nanos", Json.ofNat d.nanos.toNat)]

/-- The fields of a written duration. -/
def record : List Decoder.Field :=
  [Decoder.field "secs" Decoder.word64, Decoder.field "nanos" Decoder.word32]

/-- Decodes a duration. -/
def ofJson : Decoder Duration := fun j => do
  let entries ← Decoder.fields true record j
  let seconds ← Decoder.required entries "secs" Decoder.word64
  let nanos ← Decoder.required entries "nanos" Decoder.word32
  match ofParts? seconds nanos with
  | some d => .ok d
  | none => .error .mismatch

end Duration

namespace Config

/-- A configuration as an interchange value. -/
def toJson (c : Config) : Json :=
  .object
    [("parallel_runs", Json.ofNat c.parallelRuns.toNat),
      ("seed", Json.ofNat c.seed.toNat),
      ("fold_count", Json.ofNat c.foldCount.toNat),
      ("history_capacity", Json.ofNat c.historyCapacity.toNat),
      ("metric", c.metric.toJson),
      ("time_limit", Json.ofOption Duration.toJson c.timeLimit),
      ("max_consecutive_failures", Json.ofNat c.maxConsecutiveFailures.toNat),
      ("skip_search", .bool c.skipSearch),
      ("work_root", Json.ofOption Json.text c.workRoot)]

/-- The fields of a written configuration. -/
def record : List Decoder.Field :=
  [Decoder.field "parallel_runs" Decoder.word64,
    Decoder.field "seed" Decoder.word64,
    Decoder.field "fold_count" Decoder.word32,
    Decoder.field "history_capacity" Decoder.word64,
    Decoder.field "metric" Metric.ofJson,
    Decoder.field "time_limit" (Decoder.nullable Duration.ofJson),
    Decoder.field "max_consecutive_failures" Decoder.word32,
    Decoder.field "skip_search" Decoder.bool,
    Decoder.field "work_root" (Decoder.nullable Decoder.text)]

/-- Decodes a configuration. -/
def ofJson : Decoder Config := fun j => do
  let entries ← Decoder.fields false record j
  let parallelRuns ← Decoder.required entries "parallel_runs" Decoder.word64
  let seed ← Decoder.required entries "seed" Decoder.word64
  let foldCount ← Decoder.required entries "fold_count" Decoder.word32
  let historyCapacity ← Decoder.required entries "history_capacity" Decoder.word64
  let metric ← Decoder.required entries "metric" Metric.ofJson
  let timeLimit ← Decoder.optional entries "time_limit" Duration.ofJson
  let maxConsecutiveFailures ← Decoder.required entries "max_consecutive_failures" Decoder.word32
  let skipSearch ← Decoder.required entries "skip_search" Decoder.bool
  let workRoot ← Decoder.optional entries "work_root" Decoder.text
  pure ⟨parallelRuns, seed, foldCount, historyCapacity, metric, timeLimit,
    maxConsecutiveFailures, skipSearch, workRoot⟩

end Config
end RankedSearch
