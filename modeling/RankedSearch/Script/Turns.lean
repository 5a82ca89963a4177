import RankedSearch.Run
import RankedSearch.Script.Step

/-!
# Workers in turns

One scheduler for a crew whose sources are scripted. Every worker first looks at
the flag and the clock and then waits in the call to its source. The waiting
workers get turns. A turn is one step of the script, all that the worker does with
the answer, and its next looks; then it waits again or has ended. The turns
follow a given order, in which workers that have ended are skipped; when the
order is used up, the first waiting worker gets each turn.

A turn is a list of events, so whatever holds of every interleaving holds of
this one.
-/

set_option autoImplicit false

namespace RankedSearch
namespace Script

/-- The counts of a history and the score of its best outcome. -/
structure Glimpse where
  size : Nat
  evicted : Nat
  ignored : Nat
  best : Option Score
  deriving DecidableEq

/-- A glimpse of a history. -/
def Glimpse.of (h : History) : Glimpse := ⟨h.size, h.evicted, h.ignored, h.bestScore?⟩

/-- What a source finds when it starts a step. -/
structure TraceEntry where
  /-- The index of the worker's slot. -/
  worker : Nat
  step : Step
  /-- The live history of the experiment, if there is one. -/
  history : Option Glimpse
  flagged : Bool
  deriving DecidableEq

/-- The script of every worker and what has been played so far. -/
structure Play where
  scripts : List (List Step)
  /-- What has been played, last first. -/
  past : List TraceEntry
  deriving DecidableEq

namespace Play

/-- Nothing has been played. -/
def ofScripts (scripts : List (List Step)) : Play := ⟨scripts, []⟩

/-- What has been played, in order. -/
def trace (p : Play) : List TraceEntry := p.past.reverse

/-- The next step of a worker; past the end of its script it ends. -/
def nextStep (p : Play) (i : Nat) : Step :=
  ((p.scripts[i]?.getD []).head?).getD .finish

/-- The play after a worker of a crew has started its next step. -/
def played (p : Play) (c : Crew) (i : Nat) : Play :=
  match c.members[i]? with
  | none => p
  | some w =>
    let glimpse := (c.registry.historyOf? w.slot.experiment).map Glimpse.of
    let entry : TraceEntry := ⟨w.slot.index, p.nextStep i, glimpse, c.flagged⟩
    ⟨p.scripts.set i ((p.scripts[i]?.getD []).tail), entry :: p.past⟩

/-- The number of turns after which every worker has ended. -/
def turnBound (p : Play) (workers : Nat) : Nat :=
  p.scripts.foldr (fun script sum => script.length + sum) workers

end Play

/-! ## Events of a turn -/

/-- The looks of a worker at the flag and at the clock. -/
def lookEvents (i : Nat) : List CrewEvent := [.flagSeen i, .clockSeen i]

/-- What a step does to a crew before the source answers. -/
def effectEvents (c : Crew) (i : Nat) : Effect → List CrewEvent
  | .raiseFlag => [.flagRaised i]
  | .awaitDeadline =>
    match (c.members[i]?).bind fun w => w.slot.deadline with
    | some deadline => [.elapsed (deadline.nanos - c.now.nanos)]
    | none => []
  | .workUntil finish => [.elapsed (finish.nanos - c.now.nanos)]
  | _ => []

/-- A worker's turn with a step, up to its next looks. -/
def turnEvents (c : Crew) (i : Nat) (step : Step) (now : Timestamp) : List CrewEvent :=
  let seed := ((c.members[i]?).map fun w => w.slot.seed).getD 0
  effectEvents c i step.effect ++
    [.answered i (step.result c.flagged now seed), .obtained i, .added i] ++ lookEvents i

/-- The workers that wait in a call to their source. -/
def waiting (c : Crew) : List Nat :=
  (c.members.zipIdx.filter fun (w, _) => decide (w.phase = .calling)).map Prod.snd

/-- The worker of the next turn, with the rest of the order. -/
def nextTurn (c : Crew) (order : List Nat) : Option (Nat × List Nat) :=
  let live := waiting c
  match order.dropWhile fun i => !live.contains i with
  | i :: rest => some (i, rest)
  | [] => live.head?.map fun i => (i, [])

/-! ## A crew on its own -/

/-- A crew that plays turns until no worker waits, at most `fuel` of them. -/
def playCrew (now : Timestamp) : Nat → List Nat → Crew × Play → Crew × Play
  | 0, _, state => state
  | fuel + 1, order, (c, p) =>
    match nextTurn c order with
    | none => (c, p)
    | some (i, rest) =>
      let next := (turnEvents c i (p.nextStep i) now).foldl Crew.attempt c
      playCrew now fuel rest (next, p.played c i)

/-- A worker that runs on its own with a scripted source. -/
def playAlone (now : Timestamp) (c : Crew) (script : List Step) : Crew × Play :=
  let p := Play.ofScripts [script]
  playCrew now (p.turnBound 1) [] ((lookEvents 0).foldl Crew.attempt c, p)

/-! ## A run -/

/-- What a step does to a run before anything else. -/
def callerEvents (stoppable : Bool) : Effect → List RunEvent
  | .requestStop => if stoppable then [.interrupted] else []
  | .dropRun => [.dropped true]
  | _ => []

/-- The run after a turn of one of its workers. -/
def runTurn (stoppable : Bool) (now : Timestamp) (i : Nat) (step : Step) (r : Run) : Run :=
  let r := (callerEvents stoppable step.effect).foldl Run.attempt r
  ((turnEvents r.crew i step now).map RunEvent.crew).foldl Run.attempt r

/-- A run that plays turns until no worker waits, at most `fuel` of them. -/
def playRun (stoppable : Bool) (now : Timestamp) : Nat → List Nat → Run × Play → Run × Play
  | 0, _, state => state
  | fuel + 1, order, (r, p) =>
    match nextTurn r.crew order with
    | none => (r, p)
    | some (i, rest) =>
      playRun stoppable now fuel rest (runTurn stoppable now i (p.nextStep i) r, p.played r.crew i)

/-- The run after all its workers have looked at the flag and the clock. -/
def openingLooks (r : Run) : Run :=
  (((List.range r.crew.members.length).flatMap lookEvents).map RunEvent.crew).foldl Run.attempt r

/-- The run after the ended workers have been joined and what can be concluded
has been concluded. -/
def conclude (now : Timestamp) (r : Run) : Run :=
  let joins := (List.range r.crew.members.length).map RunEvent.joined
  (joins ++ [RunEvent.finished now, RunEvent.drained]).foldl Run.attempt r

end Script
end RankedSearch
