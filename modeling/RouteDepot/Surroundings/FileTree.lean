import RouteDepot.Surroundings

/-! # File trees

A tree of directories and files, read by paths that start at its root. A path is walked name by name; each name
but the last has to lead to a directory. Above the root, and at absolute paths, lies a directory in which
nothing is found.
-/

namespace RouteDepot

/-- Files and directories by the names on the way from the root; the directories on the way to a file need not be
listed. -/
structure FileTree where
  files : List (List String × List UInt8) := []
  directories : List (List String) := []

namespace FileTree

/-- The names in a path. -/
def names (path : String) : List String := (Text.pieces '/' path).filter fun name => !name.isEmpty && name != "."

/-- The tree with a file at a path, or with a directory at a path that ends in a slash. -/
def place (t : FileTree) (path : String) (content : List UInt8) : FileTree :=
  if path.toList.getLast? = some '/' then { t with directories := names path :: t.directories }
  else { t with files := (names path, content) :: t.files }

/-- Where a walk along a path stands. -/
inductive Place where
  | outside
  | inside (names : List String)
  deriving DecidableEq, Repr

/-- The content of the file at a place. -/
def file? (t : FileTree) : Place → Option (List UInt8)
  | .outside => none
  | .inside names => t.files.lookup names

/-- Whether anything stands below the root at a place. -/
def holds (t : FileTree) (place : List String) : Bool :=
  t.files.any (fun (names, _) => place.isPrefixOf names) || t.directories.any place.isPrefixOf

/-- The most bytes that a name in a path may have. -/
def nameLimit : Nat := 255

/-- The bytes of a path that are too many. -/
def pathLimit : Nat := 4096

/-- One step of a walk. -/
def step (t : FileTree) (place : Place) (name : String) : Except FileFault Place :=
  if (t.file? place).isSome then .error .notDirectory
  else if name.isEmpty || name == "." then .ok place
  else if name == ".." then
    match place with
    | .outside | .inside [] => .ok .outside
    | .inside names => .ok (.inside names.dropLast)
  else if nameLimit < name.utf8ByteSize then .error .nameTooLong
  else match place with
    | .outside => .error .missing
    | .inside names => if t.holds (names ++ [name]) then .ok (.inside (names ++ [name])) else .error .missing

/-- What is read at a path. -/
def read (t : FileTree) (path : String) : Except FileFault (List UInt8) :=
  if path.toList.contains '\x00' then .error .zeroInPath
  else if path.isEmpty then .error .missing
  else if pathLimit ≤ path.utf8ByteSize then .error .nameTooLong
  else do
    let start := if path.toList.head? = some '/' then Place.outside else .inside []
    let place ← (Text.pieces '/' path).foldlM t.step start
    match t.file? place with
    | some content => .ok content
    | none => .error .isDirectory

end FileTree

end RouteDepot
