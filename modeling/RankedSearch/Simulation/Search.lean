import RankedSearch.Files.Scratch
import RankedSearch.Script.Turns
import RankedSearch.Simulation.Options
import RankedSearch.Simulation.Synthetic

/-!
# Simulated searches

A simulated search is a run whose sources are synthetic. Time is simulated too:
the clock stands still while the workers are prepared and is moved on by the
attempts. The workers attempt their trials side by side, so the next turn goes to
the worker whose attempt is finished first.
-/

set_option autoImplicit false

namespace RankedSearch
namespace Simulation

/-- What a simulation finds where and when it takes place. -/
structure Site where
  /-- The identifier of the experiment. -/
  id : ExperimentId
  /-- What a path leads to. -/
  stat : String → Except IoError FileKind
  /-- The error with which no directory of a name can be made in a directory, if any. -/
  refusal? : String → String → Option IoError
  /-- The directory that relative paths start from. -/
  working : String
  /-- What is drawn for the attempts in a slot, one after the other. -/
  draws : (slot : Slot) → Nat → Draw (folds slot)
  /-- The reading of the clock at the start. -/
  clock : Instant
  /-- The time of day at the start. -/
  time : Timestamp

/-- The time of day at a reading of the clock. -/
def Site.timeAt (site : Site) (now : Instant) : Timestamp :=
  site.time.advance (now.nanos - site.clock.nanos)

/-! ## Preparation -/

/-- What becomes of the preparation of a slot under an absolute root. -/
def preparation (site : Site) (root : String) (index : Nat) : Preparation :=
  let workDir := Scratch.path root index
  match site.refusal? root (Scratch.name index) with
  | some e => .noDirectory (.atPath e workDir)
  | none => .ready workDir

/-- Prepares a number of slots. -/
def prepareSlots (site : Site) (root : String) : Nat → Run → Run
  | 0, r => r
  | count + 1, r =>
    let p := preparation site root r.crew.members.length
    prepareSlots site root count (r.attempt (.prepared p))

/-- The run after all its slots have been prepared, unless it has been left already. -/
def prepared (o : Options) (site : Site) (r : Run) : Run :=
  if r.stage = .searching then
    prepareSlots site (Path.absolute site.working o.root) r.config.slotCount r
  else r

/-! ## Turns -/

/-- The script of the source of a worker; one that has ended needs none. -/
def scriptOf (o : Options) (site : Site) (w : Worker) : List Script.Step :=
  if w.hasEnded then []
  else
    (Source.mk w.slot o.config.metric (site.draws w.slot) site.clock site.time).script
      o.trials.toNat

/-- The instant at which a step is finished, if it says so. -/
def finishOf? (step : Script.Step) : Option Instant :=
  match step.effect with
  | .workUntil finish => some finish
  | _ => none

/-- The workers in the order in which their steps are finished. -/
def turnOrder (scripts : List (List Script.Step)) : List Nat :=
  let finishes := scripts.zipIdx.flatMap fun (script, i) =>
    (script.filterMap finishOf?).map fun finish => (finish.nanos, i)
  (finishes.mergeSort fun a b => decide (a.1 ≤ b.1)).map Prod.snd

/-! ## The whole search -/

/-- The run of a simulated search, if its configuration is valid. -/
def perform (o : Options) (site : Site) : Except SearchError Run := do
  let run ← (Run.start o.config site.stat site.id Registry.global none site.clock
    site.time).mapError Refusal.cause
  let run := Script.openingLooks (prepared o site run)
  let scripts := run.crew.members.map (scriptOf o site)
  let play := Script.Play.ofScripts scripts
  let (run, _) := Script.playRun false site.time (play.turnBound run.crew.members.length)
    (turnOrder scripts) (run, play)
  pure (Script.conclude (site.timeAt run.crew.now) run)

end Simulation
end RankedSearch
