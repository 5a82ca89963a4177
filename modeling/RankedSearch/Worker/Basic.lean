import RankedSearch.Config
import RankedSearch.Registry.Basic
import RankedSearch.Worker.Report

/-!
# Workers

A worker pulls trials from a source, one at a time, and hands each outcome to
the history of its experiment. At the head of its loop it looks at the flag that
asks it to stop and then at the clock; if neither stops it, it calls its source.
An outcome is taken to the history in two steps, because the history is shared:
first the history is looked up, and made if it is missing, then the outcome is
added.

A worker is described here by what it knows itself. Everything that others can
change is an argument: the flag, the clock, the answer of the source, the history
found and the admission.
-/

set_option autoImplicit false

namespace RankedSearch

/-- What a call to a trial source ends with. -/
inductive TrialResult where
  | outcome (o : Outcome)
  /-- The source has nothing more to try. -/
  | exhausted
  | failure (e : TrialError)
  | panic (p : Panic)
  deriving DecidableEq

/-- What a worker knows of its slot in a search. -/
structure Slot where
  experiment : ExperimentId
  index : Nat
  seed : UInt64
  foldCount : UInt32
  /-- The scratch directory of the worker. -/
  workDir : String
  deadline : Option Instant
  deriving DecidableEq

/-- Whether the deadline of a slot, if it has one, has passed. -/
def Slot.deadlinePassed (s : Slot) (now : Instant) : Bool :=
  match s.deadline with
  | some deadline => deadline.reached now
  | none => false

/-- What a worker is about to do. -/
inductive Phase where
  /-- It looks at the flag next. -/
  | head
  /-- It has seen the flag unset and looks at the clock next. -/
  | unflagged
  /-- Its source is working. -/
  | calling
  /-- Its source has returned an outcome; the history is looked up next. -/
  | holding (o : Outcome)
  /-- The history is known; the outcome is added next. -/
  | admitting (h : Handle) (o : Outcome)
  | stopped (exit : WorkerExit)
  | panicked (p : Panic)
  deriving DecidableEq

/-- The counts of a worker. They are words in memory, and a worker is taken to count fewer
than `2 ^ 64` trials. -/
structure Tally where
  recorded : Nat
  ignored : Nat
  failures : Nat
  best : Option Score
  deriving DecidableEq

namespace Tally

/-- Nothing has been counted. -/
def zero : Tally := ⟨0, 0, 0, none⟩

/-- The lower of two scores that may be missing. -/
def better : Option Score → Option Score → Option Score
  | some best, some score => some (best.min score)
  | some best, none => some best
  | none, score => score

/-- Counts an outcome by its admission. -/
def credit (t : Tally) (admission : Admission) (score : Option Score) : Tally :=
  if admission = .ignored then { t with ignored := t.ignored + 1 }
  else { t with recorded := t.recorded + 1, best := better t.best score }

/-- Counts a failed attempt. -/
def fail (t : Tally) : Tally := { t with failures := t.failures + 1 }

end Tally

/-- A worker in the middle of its work. -/
structure Worker where
  slot : Slot
  /-- The capacity of the history, if this worker has to make it. -/
  historyCapacity : Nat
  maxConsecutiveFailures : UInt32
  tally : Tally
  /-- The number of errors since the last outcome. -/
  consecutiveFailures : UInt32
  phase : Phase
  deriving DecidableEq

namespace Worker

/-- A worker that starts with the capacity of a registry and the common failure limit. -/
def new (slot : Slot) (registry : Registry) : Worker :=
  ⟨slot, registry.historyCapacity, defaultMaxConsecutiveFailures, Tally.zero, 0, .head⟩

/-- The worker with another capacity for the history that it makes. -/
def withHistoryCapacity (w : Worker) (capacity : Nat) : Worker :=
  { w with historyCapacity := capacity }

/-- The worker with another failure limit; a limit of zero acts as one. -/
def withMaxConsecutiveFailures (w : Worker) (limit : UInt32) : Worker :=
  { w with maxConsecutiveFailures := max limit 1 }

/-- The place of a worker whose slot could not be set up. -/
def unprepared (slot : Slot) (reason : String) : Worker :=
  ⟨slot, 0, 1, Tally.zero, 0, .stopped (.prepareFailed reason)⟩

/-- The worker in another phase. -/
def inPhase (w : Worker) (phase : Phase) : Worker := { w with phase := phase }

/-- Whether the worker does nothing any more. -/
def hasEnded (w : Worker) : Bool :=
  match w.phase with
  | .stopped _ | .panicked _ => true
  | _ => false

/-- Whether the worker has ever been launched. -/
def wasLaunched (w : Worker) : Bool :=
  match w.phase with
  | .stopped (.prepareFailed _) => false
  | _ => true

/-! ## Steps -/

/-- The worker looks at the flag. -/
def lookAtFlag (w : Worker) (flagged : Bool) : Option Worker :=
  match w.phase with
  | .head => some (w.inPhase (if flagged then .stopped .cancelled else .unflagged))
  | _ => none

/-- The worker looks at the clock. -/
def lookAtClock (w : Worker) (now : Instant) : Option Worker :=
  match w.phase with
  | .unflagged =>
    some (w.inPhase (if w.slot.deadlinePassed now then .stopped .timedOut else .calling))
  | _ => none

/-- The worker after a failed attempt: it gives up when the limit is reached. -/
def afterFailure (w : Worker) (e : TrialError) : Worker :=
  let row := w.consecutiveFailures + 1
  { w with
    tally := w.tally.fail
    consecutiveFailures := row
    phase := if w.maxConsecutiveFailures ≤ row then .stopped (.failed e.message) else .head }

/-- The source of the worker answers. -/
def receive (w : Worker) (result : TrialResult) : Option Worker :=
  match w.phase with
  | .calling => some <|
    match result with
    | .outcome o => { w with consecutiveFailures := 0, phase := .holding o }
    | .exhausted => w.inPhase (.stopped .exhausted)
    | .failure e => w.afterFailure e
    | .panic p => w.inPhase (.panicked p)
  | _ => none

/-- The worker has found the history of its experiment. -/
def obtain (w : Worker) (h : Handle) : Option Worker :=
  match w.phase with
  | .holding o => some (w.inPhase (.admitting h o))
  | _ => none

/-- The worker learns what became of the outcome that it added. -/
def credit (w : Worker) (admission : Admission) : Option Worker :=
  match w.phase with
  | .admitting _ o => some { w with tally := w.tally.credit admission o.score, phase := .head }
  | _ => none

/-! ## The end -/

/-- The report of an ended worker. A worker that panicked has told nobody its
counts, so they are reported as zero. -/
def report? (w : Worker) : Option WorkerReport :=
  match w.phase with
  | .stopped exit =>
    some ⟨w.slot.index, w.slot.seed, exit, w.tally.recorded, w.tally.ignored, w.tally.failures,
      w.tally.best.map Score.word⟩
  | .panicked p => some (WorkerReport.blank w.slot.index w.slot.seed (.panicked p.message))
  | _ => none

end Worker
end RankedSearch
