import RankedSearch.Worker.Basic

/-!
# Crews

A crew is a number of workers together with what they share: the registry, the
flag that asks them to stop, and the clock. `Crew.step` is the effect of one
event. The events say which worker moves and what its source answers, so every
interleaving of the workers is a list of events, and nothing else is left open.

An event that cannot happen in a state has no next state. The flag is never
taken back and the clock never runs backwards, because no event does either.
-/

set_option autoImplicit false

namespace RankedSearch

/-- Workers and what they share. -/
structure Crew where
  registry : Registry
  /-- Whether the workers have been asked to stop. -/
  flagged : Bool
  now : Instant
  members : List Worker
  deriving DecidableEq

/-- What can happen to a crew. Numbers are places in the list of its workers. -/
inductive CrewEvent where
  /-- A worker looks at the flag. -/
  | flagSeen (worker : Nat)
  /-- A worker looks at the clock. -/
  | clockSeen (worker : Nat)
  /-- The source that a worker has called sets the flag. -/
  | flagRaised (worker : Nat)
  /-- The source that a worker has called answers. -/
  | answered (worker : Nat) (result : TrialResult)
  /-- A worker that holds an outcome looks up the history. -/
  | obtained (worker : Nat)
  /-- A worker adds its outcome to the history that it found. -/
  | added (worker : Nat)
  /-- Time passes. -/
  | elapsed (nanos : Nat)
  deriving DecidableEq

namespace Crew

/-- A worker changes itself only. -/
def update (c : Crew) (i : Nat) (f : Worker → Option Worker) : Option Crew := do
  let w ← c.members[i]?
  let w' ← f w
  pure { c with members := c.members.set i w' }

/-- A worker looks up the history of its experiment. -/
def lookUp (c : Crew) (i : Nat) : Option Crew := do
  let w ← c.members[i]?
  let (h, registry) := c.registry.obtainWith w.slot.experiment w.historyCapacity
  let w' ← w.obtain h
  pure { c with registry := registry, members := c.members.set i w' }

/-- A worker adds the outcome that it holds to the history that it has found. -/
def addHeld (c : Crew) (i : Nat) : Option Crew := do
  let w ← c.members[i]?
  match w.phase with
  | .admitting h o =>
    let (admission, registry) := c.registry.add h o
    let w' ← w.credit admission
    pure { c with registry := registry, members := c.members.set i w' }
  | _ => none

/-- The effect of an event. -/
def step (c : Crew) : CrewEvent → Option Crew
  | .flagSeen i => c.update i fun w => w.lookAtFlag c.flagged
  | .clockSeen i => c.update i fun w => w.lookAtClock c.now
  | .flagRaised i =>
    match c.members[i]?.map Worker.phase with
    | some .calling => some { c with flagged := true }
    | _ => none
  | .answered i result => c.update i fun w => w.receive result
  | .obtained i => c.lookUp i
  | .added i => c.addHeld i
  | .elapsed nanos => some { c with now := c.now.advance nanos }

/-- The effect of several events, one after the other. -/
def steps (c : Crew) : List CrewEvent → Option Crew
  | [] => some c
  | e :: es => (c.step e).bind fun c => c.steps es

/-- The effect of an event, or none if it cannot happen. -/
def attempt (c : Crew) (e : CrewEvent) : Crew := (c.step e).getD c

/-- The reports of the workers that have ended, in order. -/
def reports (c : Crew) : List WorkerReport := c.members.filterMap Worker.report?

end Crew
end RankedSearch
