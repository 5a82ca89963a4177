import RankedSearch.Interchange.Experiment
import RankedSearch.Interchange.Outcome
import RankedSearch.Interchange.Worker
import RankedSearch.Json.Text
import RankedSearch.Simulation.Search

/-!
# Endings of a simulation

A simulation ends with a report on the standard output, with the description of
an error, or with a panic. An error is described by its headline, followed by its
causes; several causes are numbered, and further lines of a cause are indented
like its first.
-/

set_option autoImplicit false

namespace RankedSearch
namespace Simulation

/-! ## Error texts -/

/-- A cause as it stands below a headline, behind a label or blanks of its width. -/
def indented (label : String) (cause : String) : String :=
  let blanks := String.ofList (List.replicate label.length ' ')
  label ++ Json.separated ("\n" ++ blanks) (cause.splitOn "\n")

/-- The label of the cause of a number. -/
def causeLabel (number : Nat) : String :=
  let digits := toString number
  String.ofList (List.replicate (5 - digits.length) ' ') ++ digits ++ ": "

/-- The causes of an error as they stand below its headline. -/
def listedCauses : List String → List String
  | [cause] => [indented "    " cause]
  | causes => causes.zipIdx.map fun (cause, number) => indented (causeLabel number) cause

/-- The description of an error. -/
def errorText (headline : String) (causes : List String) : String :=
  if causes.isEmpty then "Error: " ++ headline
  else
    "Error: " ++ headline ++ "\n\nCaused by:\n" ++ Json.separated "\n" (listedCauses causes)

/-- The refusal of a search with what caused it. -/
def causesOf (e : SearchError) : List String :=
  match e with
  | .config _ => [e.message]
  | .io cause => [e.message, cause.message]

/-! ## Endings -/

/-- How a simulation ends. -/
inductive Ending where
  /-- An option is not understood. -/
  | misread (fault : OptionFault)
  /-- The search does not start. -/
  | refused (cause : SearchError)
  | panicked (p : Panic)
  | reported (run : Run) (report : SearchReport)
  deriving DecidableEq

/-- How a run ends a simulation. A run that nobody leaves is finished when its
workers have ended, so it has a report or it panicked. -/
def Ending.ofRun (run : Run) : Ending :=
  match run.stage with
  | .finished report => .reported run report
  | .draining (.unwound p) | .drained (.unwound p) => .panicked p
  | _ => .panicked .other

/-- The ending of a simulation of given options. -/
def Ending.ofOptions (o : Options) (site : Site) : Ending :=
  match perform o site with
  | .error e => .refused e
  | .ok run => .ofRun run

/-- The ending of a simulation that takes its options from variables. The place of the
simulation is looked at once the options are known. -/
def simulate {m : Type → Type} [Monad m] (environment : String → Option String)
    (observe : Options → m Site) : m Ending :=
  match Options.read environment with
  | .error fault => pure (.misread fault)
  | .ok o => do
    let site ← observe o
    pure (.ofOptions o site)

namespace Ending

/-- The exit code of a simulation. -/
def exitCode : Ending → UInt32
  | .misread _ | .refused _ => 1
  | .panicked _ => 101
  | .reported _ _ => 0

/-- What a simulation complains of. -/
def complaint? : Ending → Option String
  | .misread fault => some (errorText fault.message [])
  | .refused cause => some (errorText "search failed" (causesOf cause))
  | .panicked p => some p.message
  | .reported _ _ => none

/-- The summary of a finished run. -/
def summary (run : Run) (report : SearchReport) : Json :=
  let history := run.crew.registry.history report.history
  let rawBest := history.bestScore?.map fun s => run.config.metric.fromScore s.word
  .object
    [("status", report.status.toJson),
      ("workers", .array (report.workers.map WorkerReport.toJson)),
      ("retained", Json.ofNat history.size),
      ("evicted", Json.ofNat history.evicted),
      ("best", Json.ofOption Outcome.toJson history.best?),
      ("best_raw_metric", Json.ofOption Json.ofWord rawBest)]

/-- What a simulation prints. -/
def output? : Ending → Option String
  | .reported run report => some (summary run report).pretty
  | _ => none

/-- The nanoseconds between the start and the end of the simulated run. -/
def elapsedNanos : Ending → Nat
  | .reported _ report =>
    match report.status.startedAt, report.status.finishedAt with
    | some start, some finish => (Timestamp.nanosBetween start finish).toNat
    | _, _ => 0
  | _ => 0

end Ending
end Simulation
end RankedSearch
