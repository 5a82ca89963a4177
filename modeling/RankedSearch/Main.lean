import RankedSearch.Simulation.Ending
import Std.Time.DateTime.Timestamp

/-!
# The command line

Simulates a search with the options that the environment gives and prints its
summary. This module only observes the machine and prints: it reads the variables
and the clocks, looks at the work root, supplies the draws of a generator, and waits
until the simulated time has passed.
-/

set_option autoImplicit false

namespace RankedSearch
namespace Simulation

/-- The number of a system error. -/
def errorNumber? : IO.Error → Option UInt32
  | .alreadyExists _ n _ | .otherError n _ | .resourceBusy n _ | .resourceVanished n _
  | .unsupportedOperation n _ | .hardwareFault n _ | .unsatisfiedConstraints n _
  | .illegalOperation n _ | .protocolError n _ | .timeExpired n _ | .interrupted _ n _
  | .noFileOrDirectory _ n _ | .invalidArgument _ n _ | .permissionDenied _ n _
  | .resourceExhausted _ n _ | .inappropriateType _ n _ | .noSuchThing _ n _ => some n
  | .unexpectedEof | .userError _ => none

/-- A failed access to files, as the search knows it. -/
def ofSystemError (e : IO.Error) : IoError :=
  match errorNumber? e with
  | some n => .code n.toNat
  | none => .stated (toString e)

/-- What a path leads to. A directory has itself as an entry, so that entry cannot
be made; a failure of another kind at a path that exists shows a file. -/
def observeKind (path : String) : IO (Except IoError FileKind) := do
  if path.isEmpty then return .error .notFound
  match ← (IO.FS.createDir (path ++ "/.")).toBaseIO, ← (IO.FS.realPath path).toBaseIO with
  | .ok _, _ | .error (.alreadyExists _ _ _), _ => return .ok .directory
  | .error _, .ok _ => return .ok .other
  | .error e, .error _ => return .error (ofSystemError e)

/-- Makes and removes a directory to see whether another one refuses it. -/
def observeRefusal (root : String) : IO (Option IoError) := do
  let path := Scratch.path root ((← IO.monoNanosNow) % 1000000)
  match ← (IO.FS.createDir path).toBaseIO with
  | .error e => return some (ofSystemError e)
  | .ok _ =>
    IO.FS.removeDir path
    return none

/-- A random identifier. -/
def randomId : IO ExperimentId := do
  let bytes ← IO.getRandomBytes 16
  return .ofRandom (bytes.toList.foldl (fun n b => n * 256 + b.toNat) 0)

/-- The time of day. -/
def timeOfDay : IO Timestamp := do
  let now ← Std.Time.Timestamp.now
  return ⟨now.val.second.val, now.val.nano.val.toNat⟩

/-- The draws of the standard generator. It is seeded for each attempt, so that equal seeds
of slots give equal draws. -/
def drawsOf (slot : Slot) (attempt : Nat) : Draw (folds slot) :=
  let generator := mkStdGen (hash (slot.seed, attempt)).toNat
  let (wait, generator) := randNat generator 0 8
  let (roll, generator) := randNat generator 0 (parts - 1)
  let (depth, generator) := randNat generator 0 30
  let (raw, generator) := randNat generator 0 (parts - 1)
  let (fold, _) := randNat generator 0 (folds slot - 1)
  { wait := Fin.ofNat 9 wait
    roll := ⟨roll % parts, Nat.mod_lt _ (by decide)⟩
    depth := Fin.ofNat 31 depth
    raw := ⟨raw % parts, Nat.mod_lt _ (by decide)⟩
    fold := ⟨fold % folds slot, Nat.mod_lt _ (folds_pos slot)⟩ }

/-- What a simulation finds on this machine. -/
def observeSite (o : Options) : IO Site := do
  let working := toString (← IO.currentDir)
  let kind ← observeKind o.root
  let refusal ← observeRefusal (Path.absolute working o.root)
  return {
    id := ← randomId
    stat := fun _ => kind
    refusal? := fun _ _ => refusal
    working := working
    draws := drawsOf
    clock := ⟨← IO.monoNanosNow⟩
    time := ← timeOfDay }

/-- The variables of the environment that a simulation reads. -/
def readVariables : IO (String → Option String) := do
  let values ← Options.variableNames.mapM fun name => do return (name, ← IO.getEnv name)
  return fun name => (values.find? fun entry => entry.1 == name).bind Prod.snd

/-- Waits for a number of nanoseconds, up to the longest wait there is. -/
def pause (nanos : Nat) : IO Unit :=
  IO.sleep (UInt32.ofNat (min (nanos / nanosPerMilli) 4294967295))

end Simulation
end RankedSearch

open RankedSearch Simulation in
/-- Runs a simulation. -/
def main : IO UInt32 := do
  let ending ← simulate (← readVariables) observeSite
  pause ending.elapsedNanos
  if let some text := ending.output? then IO.println text
  if let some text := ending.complaint? then IO.eprintln text
  return ending.exitCode
