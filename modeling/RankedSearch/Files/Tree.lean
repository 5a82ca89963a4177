import RankedSearch.Failure
import RankedSearch.Files.Path

/-!
# Directory trees

A search may be told to put the scratch directories of its workers under a
directory. A directory tree says which directories there are and what accesses
to a path fail with: a path is followed component by component, `.` and `..`
keep their meaning, and the first component that is no directory, is too long or
does not exist decides the error. A directory may refuse new entries.
-/

set_option autoImplicit false

namespace RankedSearch

/-- What a path leads to. -/
inductive FileKind where
  | directory
  | other
  deriving DecidableEq

/-- A file, or a directory with its entries and the error, if any, with which it
refuses new ones. -/
inductive FileNode where
  | file
  | directory (refusal : Option IoError) (entries : List (String × FileNode))

namespace FileNode

/-- The kind of a node. -/
def kind : FileNode → FileKind
  | .file => .other
  | .directory _ _ => .directory

/-- The entries of a node; a file has none. -/
def entries : FileNode → List (String × FileNode)
  | .file => []
  | .directory _ es => es

/-- The node with other entries; a file stays as it is. -/
def withEntries (es : List (String × FileNode)) : FileNode → FileNode
  | .file => .file
  | .directory refusal _ => .directory refusal es

/-- Changes the node at a location below this one. -/
def modifyAt (f : FileNode → FileNode) : List String → FileNode → FileNode
  | [], node => f node
  | name :: rest, node =>
    node.withEntries (node.entries.map fun entry =>
      if entry.1 == name then (entry.1, modifyAt f rest entry.2) else entry)

end FileNode

/-- A tree of directories with the location that relative paths start from. -/
structure FileTree where
  root : FileNode
  working : List String

namespace FileTree

/-- The path of the location that relative paths start from. -/
def workingPath (t : FileTree) : String :=
  t.working.foldl Path.join "/"

/-- The longest name of an entry, in bytes. -/
def maxNameLength : Nat := 255

/-- The least length of a path, in bytes, that is refused at once. -/
def pathLengthLimit : Nat := 4096

/-- A place reached while following a path: the names on the way to it, last
first, with the nodes they lead to. -/
abbrev Trail := List (String × FileNode)

/-- Follows one component from the end of a trail in a tree of the given root. -/
def step (root : FileNode) (trail : Trail) (component : String) : Except IoError Trail :=
  let current := ((trail.head?).map Prod.snd).getD root
  match current with
  | .file => .error .notDirectory
  | .directory _ entries =>
    if component == "" || component == "." then .ok trail
    else if component == ".." then .ok trail.tail
    else if maxNameLength < component.utf8ByteSize then .error .nameTooLong
    else
      match entries.find? fun entry => entry.1 == component with
      | some entry => .ok (entry :: trail)
      | none => .error .notFound

/-- Follows a path to its end. -/
def follow (t : FileTree) (path : String) : Except IoError Trail :=
  if path.toList.contains '\x00' then .error .nulInPath
  else if pathLengthLimit ≤ path.utf8ByteSize then .error .nameTooLong
  else if path.isEmpty then .error .notFound
  else
    let components := path.splitOn "/"
    let start := if Path.isAbsolute path then [] else t.working
    (start ++ components).foldlM (step t.root) []

/-- The node at the end of a trail. -/
def nodeAt (t : FileTree) (trail : Trail) : FileNode :=
  ((trail.head?).map Prod.snd).getD t.root

/-- What a path leads to. -/
def stat (t : FileTree) (path : String) : Except IoError FileKind :=
  (t.follow path).map fun trail => (t.nodeAt trail).kind

/-- Makes an empty directory in a directory. -/
def makeDirectory (t : FileTree) (parent name : String) : Except IoError FileTree := do
  if pathLengthLimit ≤ (Path.join parent name).utf8ByteSize then .error .nameTooLong
  else
    let trail ← t.follow parent
    match t.nodeAt trail with
    | .file => .error .notDirectory
    | .directory (some refusal) _ => .error refusal
    | .directory none entries =>
      if (entries.find? fun entry => entry.1 == name).isSome then .error .alreadyExists
      else
        let location := (trail.map Prod.fst).reverse
        let insert := fun (node : FileNode) =>
          node.withEntries (node.entries ++ [(name, .directory none [])])
        .ok { t with root := t.root.modifyAt insert location }

/-- The error with which no directory of a name can be made in a directory, if any. -/
def refusal? (t : FileTree) (parent name : String) : Option IoError :=
  match t.makeDirectory parent name with
  | .error e => some e
  | .ok _ => none

/-- Removes what a path leads to with all that is below it, if it exists. -/
def remove (t : FileTree) (path : String) : FileTree :=
  match t.follow path with
  | .ok ((name, _) :: parents) =>
    let location := (parents.map Prod.fst).reverse
    let erase := fun (node : FileNode) =>
      node.withEntries (node.entries.filter fun entry => !(entry.1 == name))
    { t with root := t.root.modifyAt erase location }
  | _ => t

end FileTree
end RankedSearch
