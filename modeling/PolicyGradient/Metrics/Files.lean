import PolicyGradient.Failure

/-!
A tree of directories and files, as far as training writes to it.

A location is a text of names with slashes between them.  It is followed name by name from the
root, so that every name before the last one has to be a directory.  What lies above the root is
there, but is no part of the tree.
-/

namespace PolicyGradient

/-- The names on the way from the root. -/
abbrev Path : Type :=
  List String

/-- What lies at a path. -/
inductive Node
  | directory
  | file (content : String)
  deriving DecidableEq, Repr

/-- The nodes below the root. -/
structure Files where
  nodes : List (Path × Node)
  deriving DecidableEq, Repr

namespace Files

/-- No files. -/
def empty : Files :=
  ⟨[]⟩

/-- The node at a path; the root and those above it are directories. -/
def find? (files : Files) (path : Path) : Option Node :=
  if path.all (· == "..") then some .directory
  else (files.nodes.find? fun node => node.1 == path).map (·.2)

/-- The files with the node at a path replaced. -/
def insert (files : Files) (path : Path) (node : Node) : Files :=
  ⟨files.nodes.filter (fun other => other.1 != path) ++ [(path, node)]⟩

/-- The names in a location. -/
def names (location : String) : List String :=
  location.splitOn "/"

/-- A name that leads nowhere else. -/
def isBlank (name : String) : Bool :=
  name == "" || name == "."

/-- A location without the blank names at its ends. -/
def trimmed (location : String) : String :=
  "/".intercalate (((names location).dropWhile isBlank).reverse.dropWhile isBlank).reverse

/-- A location that a file system takes: not too long, and without the character that ends it. -/
def isLocation (location : String) : Bool :=
  location.utf8ByteSize < 4096 && ! location.contains '\x00'

/-- A name that a directory can hold. -/
def isName (name : String) : Bool :=
  ! isBlank name && name != ".." && name.utf8ByteSize < 256

/-- Where a name leads from a directory: blank names to the directory itself, two dots to its
parent. -/
def child (dir : Path) (name : String) : Path :=
  if isBlank name then dir
  else if name ≠ ".." then dir ++ [name]
  else if dir.all (· == "..") then dir ++ [".."]
  else dir.dropLast

/-- Follow names that have to be directories. -/
def enter (files : Files) : (dir : Path) → List String → Outcome Path
  | dir, [] => .ok dir
  | dir, name :: others =>
      let next := child dir name
      match files.find? next with
      | some .directory => enter files next others
      | _ => failWith .files

/-- A name at the end of a location can be made a directory: slashes may follow it, dots may not,
as they would have to be looked up in it. -/
def canCreate (name : String) (others : List String) : Bool :=
  isName name && ! (others.all isBlank && others.contains ".")

/-- Follow names and create the directories that are missing, up to a name that is a file or cannot
be created. -/
def createFrom : (files : Files) → (dir : Path) → List String → Outcome Unit × Files
  | files, _, [] => (.ok (), files)
  | files, dir, name :: others =>
      let next := child dir name
      match files.find? next with
      | some .directory => createFrom files next others
      | some (.file _) => (failWith .files, files)
      | none =>
          if canCreate name others then createFrom (files.insert next .directory) next others
          else (failWith .files, files)

/-- Create a directory and those above it; what exists stays. -/
def createDirectories (files : Files) (location : String) : Outcome Unit × Files :=
  if isLocation location then createFrom files [] (names location)
  else (failWith .files, files)

/-- The path of a file to write to.  Its directory has to exist, and no directory may stand in its
place. -/
def locate (files : Files) (location : String) : Outcome Path := do
  let parts := names location
  let name := parts.getLast?.getD ""
  let dir ← files.enter [] parts.dropLast
  let path := child dir name
  if isLocation location && isName name && files.find? path != some .directory then
    return path
  else
    failWith .files

/-- The content of a file; nothing where there is none. -/
def content (files : Files) (path : Path) : String :=
  match files.find? path with
  | some (.file text) => text
  | _ => ""

/-- A line without the carriage return at its end, if there is one. -/
def dropReturn (line : String) : String :=
  if line.endsWith "\r" then (line.dropEnd 1).toString else line

/-- The lines of a text.  A line break ends a line, and may have a carriage return before it; what
follows the last break is a line if it is not empty. -/
def lines (text : String) : List String :=
  let parts := text.splitOn "\n"
  let rest := parts.getLast?.getD ""
  parts.dropLast.map dropReturn ++ (if rest = "" then [] else [rest])

/-- What lies below the root. -/
def tree (files : Files) : List (Path × Node) :=
  files.nodes.filter fun node => node.1.head? != some ".."

/-- Append to a file, which is created if it is missing. -/
def append (files : Files) (path : Path) (text : String) : Files :=
  files.insert path (.file (files.content path ++ text))

theorem find?_insert_self (files : Files) {path : Path} (node : Node)
    (h : path.all (· == "..") = false) : (files.insert path node).find? path = some node := by
  have hnone : (files.nodes.filter fun other => other.1 != path).find?
      (fun other => other.1 == path) = none := by
    rw [List.find?_eq_none]
    intro other hmem
    have hne := (List.mem_filter.mp hmem).2
    simpa using hne
  simp [find?, insert, h, List.find?_append, hnone]

/-- Appending adds just the text. -/
theorem content_append (files : Files) {path : Path} (text : String)
    (h : path.all (· == "..") = false) :
    (files.append path text).content path = files.content path ++ text := by
  rw [append, content, find?_insert_self files _ h]

end Files

end PolicyGradient
