import RankedSearch.Files.Path

/-!
# Scratch directories

Every slot gets a directory of its own, directly under the work root or, if none is
configured, under the directory for temporary files. Its name tells where it comes
from and holds the index of the slot, and its path does not depend on the working
directory.
-/

set_option autoImplicit false

namespace RankedSearch
namespace Scratch

/-- The common beginning of the names. -/
def nameStart : String := "tourney-"

/-- The name of the scratch directory of a slot. -/
def name (index : Nat) : String :=
  let digits := toString index
  nameStart ++ String.ofList (List.replicate (6 - digits.length) '0') ++ digits

/-- The path of the scratch directory of a slot under an absolute root. -/
def path (root : String) (index : Nat) : String := Path.join root (name index)

end Scratch
end RankedSearch
