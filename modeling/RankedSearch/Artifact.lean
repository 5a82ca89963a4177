/-!
# Artifacts

An artifact is a handle to whatever a trial produced. The handle is shared,
never copied: a produced artifact has a serial number of its own, which its
copies keep, so two handles are of the same artifact exactly when their serial
numbers agree. The empty handles are all the same.
-/

set_option autoImplicit false

namespace RankedSearch

/-- What a trial can leave behind. -/
inductive Payload where
  | number (value : UInt64)
  | text (value : String)
  deriving DecidableEq

/-- A shared handle to a payload, or to nothing. -/
structure Artifact where
  cell : Option (Nat × Payload)
  deriving DecidableEq

namespace Artifact

/-- The handle to nothing. -/
def none : Artifact := ⟨Option.none⟩

/-- The handle to a newly produced payload. -/
def make (serial : Nat) (payload : Payload) : Artifact := ⟨some (serial, payload)⟩

/-- Whether the handle is to nothing. -/
def isNone (a : Artifact) : Bool := a.cell.isNone

/-- Whether two handles are of the same artifact. -/
def same (a b : Artifact) : Bool :=
  a.cell.map Prod.fst == b.cell.map Prod.fst

/-- The payload, if it is a number. -/
def number? (a : Artifact) : Option UInt64 :=
  match a.cell with
  | some (_, .number value) => some value
  | _ => Option.none

/-- The payload, if it is a text. -/
def text? (a : Artifact) : Option String :=
  match a.cell with
  | some (_, .text value) => some value
  | _ => Option.none

/-- A description that does not look into the payload. -/
def describe (a : Artifact) : String :=
  if a.isNone then "Artifact(none)" else "Artifact(..)"

end Artifact
end RankedSearch
