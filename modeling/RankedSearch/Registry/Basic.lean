import RankedSearch.History

/-!
# Registries

A registry shares histories between the workers of an experiment. It holds at
most one live history for each experiment; asking for one creates it if there is
none, and polling takes it out. Histories live on as long as someone holds a
handle to them, so the registry keeps every history that was ever made and a
handle is its place in that list: two handles are to the same history exactly
when they are equal.
-/

set_option autoImplicit false

namespace RankedSearch

/-- A reference to a shared history. -/
structure Handle where
  place : Nat
  deriving DecidableEq, Inhabited

/-- Histories by experiment. -/
structure Registry where
  /-- The capacity given to histories unless the caller gives another. -/
  historyCapacity : Nat
  /-- Whether this is the registry that the whole process shares. -/
  processWide : Bool
  /-- Every history that was ever made here, in order of creation. -/
  histories : List History
  /-- The histories that can be found by experiment. -/
  live : List (ExperimentId × Handle)
  deriving DecidableEq

namespace Registry

/-- An empty registry whose histories have a given capacity by default. -/
def withCapacity (capacity : Nat) : Registry := ⟨capacity, false, [], []⟩

/-- An empty registry. -/
def new : Registry := withCapacity History.defaultCapacity

/-- The registry that the whole process shares, while it is empty. -/
def global : Registry := { new with processWide := true }

/-! ## Looking up -/

/-- The live history of an experiment. -/
def get? (r : Registry) (id : ExperimentId) : Option Handle :=
  (r.live.find? fun entry => entry.1 == id).map Prod.snd

/-- Whether an experiment has a live history. -/
def contains (r : Registry) (id : ExperimentId) : Bool := (r.get? id).isSome

/-- The number of live histories. -/
def size (r : Registry) : Nat := r.live.length

/-- Whether there is no live history. -/
def isEmpty (r : Registry) : Bool := r.live.isEmpty

/-- The contents of the history behind a handle. -/
def history (r : Registry) (h : Handle) : History :=
  r.histories[h.place]?.getD History.sentinel

/-- The contents of the live history of an experiment. -/
def historyOf? (r : Registry) (id : ExperimentId) : Option History :=
  (r.get? id).map r.history

/-! ## Creating and removing -/

/-- Makes a history that no experiment finds. -/
def allocate (r : Registry) (h : History) : Handle × Registry :=
  (⟨r.histories.length⟩, { r with histories := r.histories ++ [h] })

/-- The live history of an experiment; if there is none, a new one of the given capacity. -/
def obtainWith (r : Registry) (id : ExperimentId) (capacity : Nat) : Handle × Registry :=
  match r.get? id with
  | some h => (h, r)
  | none =>
    let (h, r) := r.allocate (History.new id capacity)
    (h, { r with live := r.live ++ [(id, h)] })

/-- The live history of an experiment; if there is none, a new one. -/
def obtain (r : Registry) (id : ExperimentId) : Handle × Registry :=
  r.obtainWith id r.historyCapacity

/-- Takes the live history of an experiment out of the registry. -/
def poll (r : Registry) (id : ExperimentId) : Option Handle × Registry :=
  (r.get? id, { r with live := r.live.filter fun entry => !(entry.1 == id) })

/-- A new history that stands for no result. -/
def sentinel (r : Registry) : Handle × Registry := r.allocate History.sentinel

/-! ## Adding through handles -/

/-- Hands an outcome to the history behind a handle. -/
def add (r : Registry) (h : Handle) (outcome : Outcome) : Admission × Registry :=
  let (admission, next) := (r.history h).add outcome
  (admission, { r with histories := r.histories.set h.place next })

end Registry
end RankedSearch
