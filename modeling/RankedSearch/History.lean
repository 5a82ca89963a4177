import RankedSearch.Experiment.Id
import RankedSearch.Outcome

/-!
# Bounded histories

A history keeps the best trials of one experiment. Its entries are sorted by
score, equal scores in order of arrival, and there are never more of them than
its capacity. Every complete outcome is entered, at the place found by
bisection; if that makes one entry too many, the last one is dropped. Incomplete
outcomes are only counted.

Each entry carries the number of its arrival among the complete outcomes. Two
entries of a history are the same stored outcome exactly when these numbers
agree.
-/

set_option autoImplicit false

namespace RankedSearch

/-! ## Bisection -/

/-- The first index of the interval from `lo` to `hi` at which `p` fails, found
by halving the interval at most `fuel` times. -/
def bisect (p : Nat → Bool) : Nat → Nat → Nat → Nat
  | 0, lo, _ => lo
  | fuel + 1, lo, hi =>
    if lo < hi then
      let middle := lo + (hi - lo) / 2
      if p middle then bisect p fuel (middle + 1) hi else bisect p fuel lo middle
    else lo

/-- The number of leading elements that satisfy `p`, when all that do stand in front. -/
def partitionPoint {α : Type} (p : α → Bool) (xs : List α) : Nat :=
  bisect (fun i => (xs[i]?.map p).getD false) xs.length 0 xs.length

/-! ## Entries and admissions -/

/-- A stored outcome with its score and the number of its arrival. -/
structure Entry where
  score : Score
  arrival : Nat
  outcome : Outcome
  deriving DecidableEq

/-- What became of an outcome that was handed to a history. -/
inductive Admission where
  /-- An incomplete outcome; only counted. -/
  | ignored
  /-- Stored without exceeding the capacity. -/
  | retained
  /-- Stored, and the entry that ranked last was dropped for it. -/
  | retainedEvicting
  /-- The outcome itself ranked last on a full history. -/
  | rejected
  deriving DecidableEq

/-- The best trials of an experiment. The counts are words in memory, and a history is taken
to be handed fewer than `2 ^ 64` outcomes. -/
structure History where
  /-- The experiment; the empty value that stands for no result has none. -/
  owner : Option ExperimentId
  capacity : Nat
  entries : List Entry
  /-- The number of complete outcomes handed in so far. -/
  arrivals : Nat
  evicted : Nat
  ignored : Nat
  deriving DecidableEq

namespace History

/-- The capacity of a history unless another is given. -/
def defaultCapacity : Nat := 30

/-- An empty history. A capacity of zero is raised to one. -/
def empty (owner : Option ExperimentId) (capacity : Nat) : History :=
  ⟨owner, max capacity 1, [], 0, 0, 0⟩

/-- The empty history of an experiment. -/
def new (id : ExperimentId) (capacity : Nat) : History := empty (some id) capacity

/-- The history of no experiment, which stands for a run without result. -/
def sentinel : History := empty none defaultCapacity

/-! ## Adding outcomes -/

/-- The place of a score: behind every entry that ranks no worse. -/
def place (h : History) (score : Score) : Nat :=
  partitionPoint (fun e => e.score.le score) h.entries

/-- Enters a complete outcome of the given score. -/
def enter (h : History) (score : Score) (outcome : Outcome) : Admission × History :=
  let entered := h.entries.insertIdx (h.place score) ⟨score, h.arrivals, outcome⟩
  let next := { h with entries := entered, arrivals := h.arrivals + 1 }
  if entered.length ≤ h.capacity then (.retained, next)
  else
    let admission := match entered.getLast? with
      | some last => if last.arrival = h.arrivals then .rejected else .retainedEvicting
      | none => .retainedEvicting
    (admission, { next with entries := entered.dropLast, evicted := h.evicted + 1 })

/-- Hands an outcome to a history. -/
def add (h : History) (outcome : Outcome) : Admission × History :=
  match outcome.score with
  | none => (.ignored, { h with ignored := h.ignored + 1 })
  | some score => h.enter score outcome

/-- Hands several outcomes to a history, one after the other. -/
def addAll (h : History) (outcomes : List Outcome) : History :=
  outcomes.foldl (fun h o => (h.add o).2) h

/-! ## Reading -/

/-- The retained outcomes, best first. -/
def all (h : History) : List Outcome := h.entries.map Entry.outcome

/-- The entry that ranks first. -/
def first? (h : History) : Option Entry := h.entries.head?

/-- The best outcome. -/
def best? (h : History) : Option Outcome := h.first?.map Entry.outcome

/-- The score of the best outcome. -/
def bestScore? (h : History) : Option Score := h.best?.bind Outcome.score

/-- The number of retained outcomes. -/
def size (h : History) : Nat := h.entries.length

/-- Whether no outcome is retained. -/
def isEmpty (h : History) : Bool := h.entries.isEmpty

/-- Whether this is a history of no experiment. -/
def isSentinel (h : History) : Bool := h.owner.isNone

end History
end RankedSearch
