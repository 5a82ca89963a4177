import RankedSearch.Json.Decode
import RankedSearch.Worker.Report

/-!
# Worker reports in interchange

The end of a worker is a variant, whose contents, if it has any, are the reason;
a report is a record.
-/

set_option autoImplicit false

namespace RankedSearch

namespace WorkerExit

/-- The end of a worker as an interchange value. -/
def toJson : WorkerExit → Json
  | .exhausted => .text "Exhausted"
  | .cancelled => .text "Cancelled"
  | .timedOut => .text "TimedOut"
  | .failed reason => .object [("Failed", .text reason)]
  | .panicked reason => .object [("Panicked", .text reason)]
  | .prepareFailed reason => .object [("PrepareFailed", .text reason)]

/-- The names of the ends of a worker. -/
def variantNames : List String :=
  ["Exhausted", "Cancelled", "TimedOut", "Failed", "Panicked", "PrepareFailed"]

/-- The end of a worker of a given name and contents. -/
def ofVariant (name : String) (contents : Option Json) : Except DecodeError WorkerExit :=
  match name with
  | "Exhausted" => Decoder.bare .exhausted contents
  | "Cancelled" => Decoder.bare .cancelled contents
  | "TimedOut" => Decoder.bare .timedOut contents
  | "Failed" => Decoder.holding .failed Decoder.text contents
  | "Panicked" => Decoder.holding .panicked Decoder.text contents
  | "PrepareFailed" => Decoder.holding .prepareFailed Decoder.text contents
  | other => .error (.unknownVariant other variantNames)

/-- Decodes the end of a worker. -/
def ofJson : Decoder WorkerExit := fun j => do
  let (name, contents) ← Decoder.variant j
  ofVariant name contents

end WorkerExit

namespace WorkerReport

/-- A report as an interchange value. -/
def toJson (r : WorkerReport) : Json :=
  .object
    [("worker_index", Json.ofNat r.workerIndex),
      ("seed", Json.ofNat r.seed.toNat),
      ("exit", r.exit.toJson),
      ("recorded", Json.ofNat r.recorded),
      ("ignored", Json.ofNat r.ignored),
      ("failures", Json.ofNat r.failures),
      ("best_score", Json.ofOption Json.ofWord r.bestScore)]

/-- The fields of a written report. -/
def record : List Decoder.Field :=
  [Decoder.field "worker_index" Decoder.natural,
    Decoder.field "seed" Decoder.word64,
    Decoder.field "exit" WorkerExit.ofJson,
    Decoder.field "recorded" Decoder.natural,
    Decoder.field "ignored" Decoder.natural,
    Decoder.field "failures" Decoder.natural,
    Decoder.field "best_score" (Decoder.nullable Decoder.number)]

/-- Decodes a report. -/
def ofJson : Decoder WorkerReport := fun j => do
  let entries ← Decoder.fields false record j
  let workerIndex ← Decoder.required entries "worker_index" Decoder.natural
  let seed ← Decoder.required entries "seed" Decoder.word64
  let exit ← Decoder.required entries "exit" WorkerExit.ofJson
  let recorded ← Decoder.required entries "recorded" Decoder.natural
  let ignored ← Decoder.required entries "ignored" Decoder.natural
  let failures ← Decoder.required entries "failures" Decoder.natural
  let bestScore ← Decoder.optional entries "best_score" Decoder.number
  pure ⟨workerIndex, seed, exit, recorded, ignored, failures, bestScore⟩

end WorkerReport
end RankedSearch
