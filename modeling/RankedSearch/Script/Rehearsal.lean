import RankedSearch.Files.Scratch
import RankedSearch.Files.Tree
import RankedSearch.Script.Turns

/-!
# Rehearsals

A rehearsal is a whole run with scripted preparations and sources, in a
directory tree. Each slot first gets a scratch directory under the work root, or
under the directory for temporary files; the directory lives until the worker of
the slot has ended. A rehearsal shows what the run did and, besides, what the
preparations and the sources saw.
-/

set_option autoImplicit false

namespace RankedSearch
namespace Script

/-- The scripted preparation of a slot. -/
inductive SlotPlan where
  | ready
  /-- The work root is removed first, with all that is in it. -/
  | removeRoot
  | refuse (e : TrialError)
  | panic (p : Panic)
  deriving DecidableEq

/-- How the caller leaves a run before any worker has started. -/
inductive EarlyEnd where
  /-- The request to stop is there from the beginning. -/
  | stop
  /-- The run is dropped, in a place where a detached task can live or not. -/
  | drop (attended : Bool)
  deriving DecidableEq

/-- What a run is rehearsed with. -/
structure Rehearsal where
  config : Config
  id : ExperimentId
  registry : Registry
  baseline : Option Outcome
  /-- The preparation of each slot, by index. -/
  plan : Nat → SlotPlan
  /-- The script of the source of each slot. -/
  script : Slot → List Step
  /-- The order of the first turns. -/
  order : List Nat
  /-- Whether the caller can ask the run to stop. -/
  stoppable : Bool
  earlyEnd : Option EarlyEnd
  tree : FileTree
  /-- The directory for temporary files. -/
  temporary : String
  /-- The reading of the clock at the start. -/
  clock : Instant
  /-- The time of day at the start. -/
  time : Timestamp

/-- What the preparation of a slot sees. -/
structure Visit where
  slot : Slot
  flagged : Bool
  /-- Whether the scratch directory exists, is like no other, and has the path of an
  entry of the root as configured. -/
  directoryOk : Bool

/-- The nanoseconds that preparing a slot takes. -/
def preparationNanos : Nat := 100000

/-- A run whose slots are being prepared. -/
structure Setting where
  run : Run
  tree : FileTree
  visits : List Visit

namespace Rehearsal

/-- The directory under which scratch directories are made, as it is configured. -/
def givenRoot (h : Rehearsal) : String := h.config.workRoot.getD h.temporary

/-- The directory under which scratch directories are made, from the root of the tree. -/
def root (h : Rehearsal) : String := Path.absolute h.tree.workingPath h.givenRoot

/-- The scripts of the workers of a crew; one that has ended needs none. -/
def scripts (h : Rehearsal) (c : Crew) : List (List Step) :=
  c.members.map fun w => if w.hasEnded then [] else h.script w.slot

/-- Whether the scratch directory that has just been made is as it should be. -/
def checkDirectory (h : Rehearsal) (s : Setting) (tree : FileTree) (index : Nat) : Bool :=
  let path := Scratch.path h.root index
  (match tree.stat path with
    | .ok .directory => true
    | _ => false) &&
    !(s.visits.any fun v => v.slot.workDir == path) && Path.isEntryOf path h.givenRoot &&
    (Scratch.name index).startsWith Scratch.nameStart

/-- Prepares the next slot as planned. -/
def prepareSlot (h : Rehearsal) (s : Setting) : Setting :=
  let run := s.run.attempt (.crew (.elapsed preparationNanos))
  let index := run.crew.members.length
  let workDir := Scratch.path h.root index
  match s.tree.makeDirectory h.root (Scratch.name index) with
  | .error e => { s with run := run.attempt (.prepared (.noDirectory (.atPath e workDir))) }
  | .ok tree =>
    let visit : Visit :=
      ⟨run.nextSlot workDir, run.crew.flagged, h.checkDirectory s tree index⟩
    let visits := s.visits ++ [visit]
    match h.plan index with
    | .ready => ⟨run.attempt (.prepared (.ready workDir)), tree, visits⟩
    | .removeRoot =>
      let tree := match h.config.workRoot with
        | some root => tree.remove root
        | none => tree
      ⟨run.attempt (.prepared (.ready workDir)), tree, visits⟩
    | .refuse e => ⟨run.attempt (.prepared (.refused workDir e)), tree.remove workDir, visits⟩
    | .panic p => ⟨run.attempt (.prepared (.panicked workDir p)), tree.remove workDir, visits⟩

/-- Prepares slots until all are prepared or the run is left, at most `fuel` of them. -/
def prepareSlots (h : Rehearsal) : Nat → Setting → Setting
  | 0, s => s
  | fuel + 1, s =>
    if s.run.stage = .searching ∧ s.run.allPrepared = false then
      h.prepareSlots fuel (h.prepareSlot s)
    else s

/-- The run after its caller has left it early, if it does and a worker was launched. -/
def leaveEarly (h : Rehearsal) (r : Run) : Run :=
  if r.status.workersLaunched = 0 then r
  else
    match h.earlyEnd with
    | none => r
    | some .stop => if h.stoppable then r.attempt .interrupted else r
    | some (.drop attended) => r.attempt (.dropped attended)

end Rehearsal

/-- What came out of a rehearsal. -/
structure Outturn where
  run : Run
  visits : List Visit
  trace : List TraceEntry
  /-- The live history of the run when its last worker ended. -/
  lastHistory : Option History
  /-- Whether no scratch directory is left. -/
  directoriesRemoved : Bool

/-- Rehearses a run, if its configuration is valid. -/
def Rehearsal.perform (h : Rehearsal) : Except Refusal Outturn := do
  let run ← Run.start h.config h.tree.stat h.id h.registry h.baseline h.clock h.time
  let set := h.prepareSlots h.config.slotCount ⟨run, h.tree, []⟩
  let run := openingLooks (h.leaveEarly set.run)
  let play := Play.ofScripts (h.scripts run.crew)
  let (run, play) :=
    playRun h.stoppable h.time (play.turnBound run.crew.members.length) h.order (run, play)
  let tree := set.visits.foldl (fun tree v => tree.remove v.slot.workDir) set.tree
  let removed := set.visits.all fun v =>
    match tree.stat v.slot.workDir with
    | .error _ => true
    | .ok _ => false
  let finish := h.time.advance (run.crew.now.nanos - h.clock.nanos)
  pure ⟨conclude finish run, set.visits, play.trace, run.crew.registry.historyOf? run.id, removed⟩

end Script
end RankedSearch
