import RankedSearch.Registry.Basic

/-!
# Registry commands

The operations that a client performs on a registry, as data: a client is a
sequence of commands, and `Registry.execute` answers each of them.
-/

set_option autoImplicit false

namespace RankedSearch
namespace Registry

/-- What a client may ask of a registry. -/
inductive Command where
  | obtain (id : ExperimentId)
  | obtainWith (id : ExperimentId) (capacity : Nat)
  | get (id : ExperimentId)
  | poll (id : ExperimentId)
  | sentinel
  | contains (id : ExperimentId)
  | add (handle : Handle) (outcome : Outcome)
  | view (handle : Handle)
  deriving DecidableEq

/-- What a registry answers. -/
inductive Reply where
  | handle (h : Option Handle)
  | admission (a : Admission)
  | contents (h : History)
  | truth (b : Bool)
  deriving DecidableEq

/-- The answer to a command, and the registry afterwards. -/
def execute (r : Registry) : Command → Reply × Registry
  | .obtain id => let (h, r) := r.obtain id; (.handle (some h), r)
  | .obtainWith id capacity => let (h, r) := r.obtainWith id capacity; (.handle (some h), r)
  | .get id => (.handle (r.get? id), r)
  | .poll id => let (h, r) := r.poll id; (.handle h, r)
  | .sentinel => let (h, r) := r.sentinel; (.handle (some h), r)
  | .contains id => (.truth (r.contains id), r)
  | .add h outcome => let (a, r) := r.add h outcome; (.admission a, r)
  | .view h => (.contents (r.history h), r)

/-- The answers to a sequence of commands, and the registry after the last. -/
def executeAll (r : Registry) : List Command → List Reply × Registry
  | [] => ([], r)
  | c :: cs =>
    let (reply, r) := r.execute c
    let (replies, r) := executeAll r cs
    (reply :: replies, r)

end Registry
end RankedSearch
