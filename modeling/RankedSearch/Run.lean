import RankedSearch.Crew
import RankedSearch.Experiment.Status
import RankedSearch.Registry.Command

/-!
# Runs

A run is one orchestrated search. It checks its configuration, ranks the
baseline, prepares a slot for every worker and launches those that could be
prepared. Then it joins the workers, in the order in which they happen to end,
and may be interrupted once meanwhile; when all are joined it takes the history
out of the registry and reports.

The caller may also drop a run before it has reported, and preparing a slot or
setting the deadline may panic. Then the workers are asked to stop, and a
detached task joins them and takes the history out of the registry. Only when a
run is dropped where no such task can live does the history leave the registry
at once.

As for crews, `Run.step` is the effect of one event, and what the outside world
decides comes with the event: the fate of a preparation, the moment of an
interruption or of a drop, and what other clients do to the registry. The flag of
the run is also in other hands. Whoever prepares the source of a slot gets it with
the slot, and may set it at any moment.

A run lives inside a runtime that outlives it. So a worker that is joined has ended
by itself or by a panic, and none is lost on the way.
-/

set_option autoImplicit false

namespace RankedSearch

/-- What becomes of the preparation of a slot. Whether the factory of the sources sets the
flag meanwhile is an event of its own. -/
inductive Preparation where
  /-- There is a scratch directory and a source. -/
  | ready (workDir : String)
  /-- There is no scratch directory. -/
  | noDirectory (e : IoError)
  /-- There is a scratch directory, but no source. -/
  | refused (workDir : String) (e : TrialError)
  /-- There is a scratch directory, but preparing the source panicked. -/
  | panicked (workDir : String) (p : Panic)
  deriving DecidableEq

/-- How a run was left without a report. -/
inductive Departure where
  /-- The caller dropped it. -/
  | dropped
  /-- It panicked. -/
  | unwound (p : Panic)
  deriving DecidableEq

/-- A run that does not start, with the registry as it is left. -/
structure Refusal where
  cause : SearchError
  registry : Registry
  deriving DecidableEq

/-- What a finished run hands to its caller. -/
structure SearchReport where
  status : ExperimentStatus
  /-- The history of the run, or an empty one of no experiment. -/
  history : Handle
  /-- One report for each slot, by index. -/
  workers : List WorkerReport
  deriving DecidableEq

/-- The stages of a run. -/
inductive RunStage where
  /-- The caller waits: slots are prepared, then workers joined. -/
  | searching
  /-- The caller has left; the workers are still to be joined. -/
  | draining (d : Departure)
  /-- The caller has left and the workers are joined. -/
  | drained (d : Departure)
  /-- The caller has left and nobody joins the workers. -/
  | abandoned
  | finished (report : SearchReport)
  deriving DecidableEq

/-- An orchestrated search. The workers of its crew stand in the order of their
slots; a slot that could not be prepared has a worker that never started. -/
structure Run where
  config : Config
  status : ExperimentStatus
  crew : Crew
  deadline : Option Instant
  /-- The slots that need not be joined any more. -/
  joined : List Nat
  /-- The reports of these slots, in the order of joining. -/
  reports : List WorkerReport
  /-- Whether the interruption has been taken. -/
  interrupted : Bool
  stage : RunStage
  deriving DecidableEq

/-- What can happen to a run. -/
inductive RunEvent where
  /-- The next slot is prepared. -/
  | prepared (p : Preparation)
  | crew (e : CrewEvent)
  /-- The worker of a slot has ended and is joined. -/
  | joined (slot : Nat)
  /-- The caller's request to stop is taken. -/
  | interrupted
  /-- The factory of the sources sets the flag, or somebody to whom it has passed it on. -/
  | raised
  /-- The report is made at a moment. -/
  | finished (now : Timestamp)
  /-- The caller drops the run, in a place where a detached task can live or not. -/
  | dropped (attended : Bool)
  /-- The detached task has joined all workers. -/
  | drained
  /-- Another client uses the registry. -/
  | elsewhere (command : Registry.Command)
  deriving DecidableEq

namespace Run

/-- The identifier of the run's experiment. -/
def id (r : Run) : ExperimentId := r.status.id

/-- The panic of a deadline that the clock cannot represent. -/
def deadlinePanic : Panic := .text "overflow when adding duration to instant"

/-! ## Starting -/

/-- The registry after the baseline, if there is one, has been ranked. -/
def rankBaseline (config : Config) (id : ExperimentId) (registry : Registry) :
    Option Outcome → Registry
  | none => registry
  | some baseline =>
    let (h, registry) := registry.obtainWith id config.historyCapacity.toNat
    (registry.add h baseline).2

/-- A run that has ranked its baseline and set its deadline, at a reading of
the clock and of the time. -/
def opened (config : Config) (id : ExperimentId) (registry : Registry) (baseline : Option Outcome)
    (now : Instant) (time : Timestamp) : Run :=
  let registry := rankBaseline config id registry baseline
  let run : Run :=
    { config := config
      status := (ExperimentStatus.new id).markRunning time
      crew := ⟨registry, false, now, []⟩
      deadline := none
      joined := []
      reports := []
      interrupted := false
      stage := .searching }
  match config.timeLimit with
  | none => run
  | some limit =>
    match now.after? limit with
    | some deadline => { run with deadline := some deadline }
    | none =>
      { run with
        crew := { run.crew with flagged := true }
        stage := .draining (.unwound deadlinePanic) }

/-- Starts a run, if its configuration is valid; otherwise nothing is done. -/
def start (config : Config) (stat : String → Except IoError FileKind) (id : ExperimentId)
    (registry : Registry) (baseline : Option Outcome) (now : Instant) (time : Timestamp) :
    Except Refusal Run :=
  match config.validate stat with
  | .error e => .error ⟨e, registry⟩
  | .ok () => .ok (opened config id registry baseline now time)

/-! ## Preparing slots -/

/-- The slot that is prepared next. -/
def nextSlot (r : Run) (workDir : String) : Slot :=
  let index := r.crew.members.length
  ⟨r.id, index, r.config.workerSeed index, r.config.foldCount, workDir, r.deadline⟩

/-- Whether every slot has been prepared. -/
def allPrepared (r : Run) : Bool := decide (r.config.slotCount ≤ r.crew.members.length)

/-- The run with one more worker in its crew. -/
def enlist (r : Run) (w : Worker) : Run :=
  { r with crew := { r.crew with members := r.crew.members ++ [w] } }

/-- The next slot gets a worker that starts. -/
def launch (r : Run) (workDir : String) : Run :=
  let worker := ((Worker.new (r.nextSlot workDir) r.crew.registry).withHistoryCapacity
    r.config.historyCapacity.toNat).withMaxConsecutiveFailures r.config.maxConsecutiveFailures
  let r := r.enlist worker
  { r with status := { r.status with workersLaunched := r.status.workersLaunched + 1 } }

/-- The next slot stays without a worker that starts. -/
def giveUpSlot (r : Run) (workDir reason : String) : Run :=
  let slot := r.nextSlot workDir
  let e : PreparationError := ⟨slot.index, reason⟩
  let worker := Worker.unprepared slot e.message
  let r := r.enlist worker
  { r with
    joined := r.joined ++ [slot.index]
    reports := r.reports ++ worker.report?.toList }

/-- The run when its caller is gone and a detached task takes over. -/
def depart (r : Run) (d : Departure) : Run :=
  { r with crew := { r.crew with flagged := true }, stage := .draining d }

/-- The effect of a preparation. -/
def prepare (r : Run) (p : Preparation) : Option Run :=
  if r.stage = .searching ∧ r.allPrepared = false then
    some <|
      match p with
      | .ready workDir => r.launch workDir
      | .noDirectory e => r.giveUpSlot "" e.message
      | .refused workDir e => r.giveUpSlot workDir e.message
      | .panicked _ p => r.depart (.unwound p)
  else none

/-! ## Joining and leaving -/

/-- Whether workers are joined at present. -/
def joins (r : Run) : Bool :=
  match r.stage with
  | .searching => r.allPrepared
  | .draining _ => true
  | _ => false

/-- Joins the worker of a slot, if it has ended. Its report is its own, or that of the
panic that ended it. -/
def join (r : Run) (i : Nat) : Option Run :=
  if r.joins = true ∧ i ∉ r.joined then do
    let w ← r.crew.members[i]?
    let report ← w.report?
    pure { r with joined := r.joined ++ [i], reports := r.reports ++ [report] }
  else none

/-- Whether every worker has been joined. -/
def allJoined (r : Run) : Bool :=
  (List.range r.crew.members.length).all fun i => r.joined.contains i

/-- Takes the request to stop; it is taken once. -/
def interrupt (r : Run) : Option Run :=
  if r.stage = .searching ∧ r.allPrepared = true ∧ r.interrupted = false then
    some { r with
      crew := { r.crew with flagged := true }
      status := r.status.markCancelled
      interrupted := true }
  else none

/-- The factory sets the flag. A run that skips its search has no use for a factory. -/
def raise (r : Run) : Option Run :=
  if r.config.skipSearch = false then some { r with crew := { r.crew with flagged := true } }
  else none

/-- The registry without the history of the run. -/
def withoutEntry (r : Run) : Run :=
  { r with crew := { r.crew with registry := (r.crew.registry.poll r.id).2 } }

/-- The caller drops the run. -/
def drop (r : Run) (attended : Bool) : Option Run :=
  if r.stage = .searching ∧ r.allPrepared = true then
    some <|
      if attended then r.depart .dropped
      else
        let r := r.withoutEntry
        { r with crew := { r.crew with flagged := true }, stage := .abandoned }
  else none

/-- The detached task ends. -/
def drain (r : Run) : Option Run :=
  match r.stage with
  | .draining d =>
    if r.allJoined then some { r.withoutEntry with stage := .drained d } else none
  | _ => none

/-! ## Reporting -/

/-- The history to report: the one that was taken out of the registry, unless
there was none or nothing is retained in it. -/
def reportedHistory (registry : Registry) (polled : Option Handle) : Handle × Registry :=
  match polled with
  | some h => if (registry.history h).isEmpty then registry.sentinel else (h, registry)
  | none => registry.sentinel

/-- The status with the sums over the reports of all slots. -/
def tallied (status : ExperimentStatus) (reports : List WorkerReport) : ExperimentStatus :=
  { status with
    trialsRecorded := WorkerReport.total WorkerReport.recorded reports
    trialsFailed := WorkerReport.total WorkerReport.failures reports
    workersFailed := (reports.filter fun report => report.exit.isAbnormal).length }

/-- Makes the report, when all workers are joined. -/
def finish (r : Run) (now : Timestamp) : Option Run :=
  if r.stage = .searching ∧ r.allPrepared = true ∧ r.allJoined = true then
    let workers := WorkerReport.sortByIndex r.reports
    let (polled, registry) := r.crew.registry.poll r.id
    let (history, registry) := reportedHistory registry polled
    let best := (registry.history history).bestScore?.map Score.word
    let status := (tallied r.status.markDraining workers).markFinalized now best
    some { r with
      status := status
      crew := { r.crew with registry := registry }
      stage := .finished ⟨status, history, workers⟩ }
  else none

/-! ## Events -/

/-- Whether a command touches the history of an experiment. -/
def concerns (registry : Registry) (id : ExperimentId) : Registry.Command → Bool
  | .obtain other | .obtainWith other _ | .get other | .poll other | .contains other => other == id
  | .add h _ | .view h => (registry.history h).owner == some id
  | .sentinel => false

/-- The effect of an event. -/
def step (r : Run) : RunEvent → Option Run
  | .prepared p => r.prepare p
  | .crew e => (r.crew.step e).map fun crew => { r with crew := crew }
  | .joined i => r.join i
  | .interrupted => r.interrupt
  | .raised => r.raise
  | .finished now => r.finish now
  | .dropped attended => r.drop attended
  | .drained => r.drain
  | .elsewhere command =>
    if concerns r.crew.registry r.id command then none
    else some { r with crew := { r.crew with registry := (r.crew.registry.execute command).2 } }

/-- The effect of several events, one after the other. -/
def steps (r : Run) : List RunEvent → Option Run
  | [] => some r
  | e :: es => (r.step e).bind fun r => r.steps es

/-- The effect of an event, or none if it cannot happen. -/
def attempt (r : Run) (e : RunEvent) : Run := (r.step e).getD r

/-- The report of a finished run. -/
def report? (r : Run) : Option SearchReport :=
  match r.stage with
  | .finished report => some report
  | _ => none

/-- The contents of the history that a finished run reports. -/
def reported? (r : Run) : Option History :=
  r.report?.map fun report => r.crew.registry.history report.history

/-- The best outcome that a finished run reports. -/
def best? (r : Run) : Option Outcome := r.reported?.bind History.best?

/-- Whether a finished run has a result. -/
def hasResult (r : Run) : Bool := r.reported?.any fun h => !h.isEmpty

end Run
end RankedSearch
