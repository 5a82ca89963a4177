/-!
# Paths

A path is a text whose components are separated by slashes. An absolute path
starts with one; any other is followed from the working directory. Empty
components and single dots lead nowhere, so paths that differ in them only are
spelled alike.
-/

set_option autoImplicit false

namespace RankedSearch
namespace Path

/-- Whether a path is followed from the root. -/
def isAbsolute (path : String) : Bool := path.startsWith "/"

/-- The path of an entry of a directory. -/
def join (directory name : String) : String :=
  if directory.isEmpty || directory.endsWith "/" then directory ++ name
  else directory ++ "/" ++ name

/-- A path that does not depend on the working directory. -/
def absolute (working path : String) : String :=
  if isAbsolute path then path else join working path

/-- The components of a path that lead somewhere. -/
def components (path : String) : List String :=
  (path.splitOn "/").filter fun component => !(component == "" || component == ".")

/-- Whether a path is spelled as that of an entry of a directory. -/
def isEntryOf (path directory : String) : Bool :=
  isAbsolute path == isAbsolute directory && (components path).dropLast == components directory

end Path
end RankedSearch
