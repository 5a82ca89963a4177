import RankedSearch.Experiment.Status
import RankedSearch.Json.Decode
import RankedSearch.Metric
import RankedSearch.Time.Rfc3339

/-!
# Metrics and experiments in interchange

A metric and a stage of an experiment are written by name, an identifier and a
timestamp as text, and the status of an experiment as a record.
-/

set_option autoImplicit false

namespace RankedSearch

namespace Metric

/-- A metric as an interchange value. -/
def toJson (m : Metric) : Json := .text m.variantName

/-- Decodes a metric. -/
def ofJson : Decoder Metric := Decoder.choice (all.map fun m => (m.variantName, m))

end Metric

namespace ExperimentId

/-- An identifier as an interchange value. -/
def toJson (id : ExperimentId) : Json := .text id.text

/-- Decodes an identifier. -/
def ofJson : Decoder ExperimentId := Decoder.accepted Decoder.text ofText?

end ExperimentId

namespace Timestamp

/-- A timestamp as an interchange value. -/
def toJson (t : Timestamp) : Json := .text t.text

/-- Decodes a timestamp. -/
def ofJson : Decoder Timestamp := Decoder.accepted Decoder.text ofText?

end Timestamp

namespace ExperimentState

/-- A stage as an interchange value. -/
def toJson (s : ExperimentState) : Json := .text s.name

/-- Decodes a stage. -/
def ofJson : Decoder ExperimentState := Decoder.choice (all.map fun s => (s.name, s))

end ExperimentState

namespace ExperimentStatus

/-- A status as an interchange value. -/
def toJson (s : ExperimentStatus) : Json :=
  .object
    [("id", s.id.toJson),
      ("state", s.state.toJson),
      ("workers_launched", Json.ofNat s.workersLaunched),
      ("workers_failed", Json.ofNat s.workersFailed),
      ("trials_recorded", Json.ofNat s.trialsRecorded),
      ("trials_failed", Json.ofNat s.trialsFailed),
      ("best_score", Json.ofOption Json.ofWord s.bestScore),
      ("cancelled", .bool s.cancelled),
      ("started_at", Json.ofOption Timestamp.toJson s.startedAt),
      ("finished_at", Json.ofOption Timestamp.toJson s.finishedAt)]

/-- The fields of a written status. -/
def record : List Decoder.Field :=
  [Decoder.field "id" ExperimentId.ofJson,
    Decoder.field "state" ExperimentState.ofJson,
    Decoder.field "workers_launched" Decoder.natural,
    Decoder.field "workers_failed" Decoder.natural,
    Decoder.field "trials_recorded" Decoder.natural,
    Decoder.field "trials_failed" Decoder.natural,
    Decoder.field "best_score" (Decoder.nullable Decoder.number),
    Decoder.field "cancelled" Decoder.bool,
    Decoder.field "started_at" (Decoder.nullable Timestamp.ofJson),
    Decoder.field "finished_at" (Decoder.nullable Timestamp.ofJson)]

/-- Decodes a status. -/
def ofJson : Decoder ExperimentStatus := fun j => do
  let entries ← Decoder.fields false record j
  let id ← Decoder.required entries "id" ExperimentId.ofJson
  let state ← Decoder.required entries "state" ExperimentState.ofJson
  let workersLaunched ← Decoder.required entries "workers_launched" Decoder.natural
  let workersFailed ← Decoder.required entries "workers_failed" Decoder.natural
  let trialsRecorded ← Decoder.required entries "trials_recorded" Decoder.natural
  let trialsFailed ← Decoder.required entries "trials_failed" Decoder.natural
  let bestScore ← Decoder.optional entries "best_score" Decoder.number
  let cancelled ← Decoder.required entries "cancelled" Decoder.bool
  let startedAt ← Decoder.optional entries "started_at" Timestamp.ofJson
  let finishedAt ← Decoder.optional entries "finished_at" Timestamp.ofJson
  pure ⟨id, state, workersLaunched, workersFailed, trialsRecorded, trialsFailed, bestScore,
    cancelled, startedAt, finishedAt⟩

end ExperimentStatus
end RankedSearch
