import RankedSearch.Binary64.Basic

/-!
# Worker reports

What is known about a worker in the end: how it ended, how many of its trials
were recorded, ignored and failed, and the best score that it found itself.
-/

set_option autoImplicit false

namespace RankedSearch

/-- How a worker ended. -/
inductive WorkerExit where
  /-- The source had nothing more to try. -/
  | exhausted
  | cancelled
  | timedOut
  /-- Too many errors in a row; holds the last one. -/
  | failed (reason : String)
  /-- The source panicked. -/
  | panicked (reason : String)
  /-- The slot could not be set up, so the worker was never launched. -/
  | prepareFailed (reason : String)
  deriving DecidableEq

namespace WorkerExit

/-- Whether a worker ended by a fault. -/
def isAbnormal : WorkerExit → Bool
  | .failed _ | .panicked _ | .prepareFailed _ => true
  | .exhausted | .cancelled | .timedOut => false

end WorkerExit

/-- The end of a worker with its counts. They are words in memory, and the workers of a run
are taken to count fewer than `2 ^ 64` trials together. -/
structure WorkerReport where
  workerIndex : Nat
  seed : UInt64
  exit : WorkerExit
  recorded : Nat
  ignored : Nat
  failures : Nat
  bestScore : Option Binary64
  deriving DecidableEq

namespace WorkerReport

/-- The report of a worker of which no trial is known. -/
def blank (workerIndex : Nat) (seed : UInt64) (exit : WorkerExit) : WorkerReport :=
  ⟨workerIndex, seed, exit, 0, 0, 0, none⟩

/-- The sum of a count over reports. -/
def total (count : WorkerReport → Nat) (reports : List WorkerReport) : Nat :=
  reports.foldr (fun report sum => count report + sum) 0

/-- Inserts a report in front of the first one of a higher index. -/
def insertByIndex (report : WorkerReport) : List WorkerReport → List WorkerReport
  | [] => [report]
  | next :: rest =>
    if report.workerIndex ≤ next.workerIndex then report :: next :: rest
    else next :: insertByIndex report rest

/-- Reports in the order of their indices; equal indices keep their order. -/
def sortByIndex (reports : List WorkerReport) : List WorkerReport :=
  reports.foldr insertByIndex []

end WorkerReport
end RankedSearch
