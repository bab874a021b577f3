/-!
# Files

The command line reads and writes text files. It does so through two operations, so that it runs
on the files of a computer as well as on those of a `Directory` in memory.

* `CommandLine.FileAccess` — reading and writing in some monad.
* `CommandLine.Directory` — a tree of files in memory, with `Directory.read?` and
  `Directory.write?`.
-/

namespace ShaderGraph.CommandLine

/-- Reading and writing text files by path. A failure comes with its reason. -/
class FileAccess (m : Type → Type) where
  /-- The content of a file, if it is a text. -/
  read : String → m (Except String String)
  /-- Gives a file a new content and creates it if necessary. -/
  write : String → String → m (Except String Unit)

/-- A file in memory: its path from the root of the tree and its content, which is a text or
    else `none`. -/
structure File where
  path : List String
  content? : Option String
deriving DecidableEq, Repr

/-- A tree of files in memory. Its directories are those that contain a file, and the root. -/
structure Directory where
  files : List File := []
deriving DecidableEq, Repr

namespace Directory

/-! ### Paths -/

/-- The names in a path, between its slashes. -/
def names (path : String) : List String := (path.toList.splitOn '/').map String.ofList

/-- Whether there is a directory at a path from the root. -/
def isDirectory (d : Directory) (path : List String) : Bool :=
  path.isEmpty || d.files.any fun file => path.isPrefixOf file.path && path != file.path

/-- The path from the root of the file that `names` leads to, from the directory at `base`. All
    names but the last lead through directories, and none leads out of the tree. -/
def walk (d : Directory) (base : List String) : List String → Option (List String)
  | [] => none
  | "" :: rest | "." :: rest => d.walk base rest
  | ".." :: rest => if base.isEmpty then none else d.walk base.dropLast rest
  | [name] => if d.isDirectory (base ++ [name]) then none else some (base ++ [name])
  | name :: rest =>
    if d.isDirectory (base ++ [name]) then d.walk (base ++ [name]) rest else none

/-- The path from the root of the file at `path`. -/
def resolve (d : Directory) (path : String) : Option (List String) :=
  if path.toList.head? = some '/' then none else d.walk [] (names path)

/-! ### Contents -/

/-- The text in the file at `path`, if there is one. -/
def read? (d : Directory) (path : String) : Option String := do
  let path ← d.resolve path
  let file ← d.files.find? (·.path == path)
  file.content?

/-- The tree after a text has been put into the file at `path`, if that is possible. -/
def write? (d : Directory) (path text : String) : Option Directory := do
  let path ← d.resolve path
  let file : File := { path, content? := some text }
  if d.files.any (·.path == path) then
    return { files := d.files.map fun f => if f.path = path then file else f }
  else
    return { files := d.files ++ [file] }

/-- Reading and writing with a directory as the state. -/
instance : FileAccess (StateM Directory) where
  read path := do
    match (← get).read? path with
    | some text => return .ok text
    | none => return .error "cannot read the file"
  write path text := do
    match (← get).write? path text with
    | some d =>
      set d
      return .ok ()
    | none => return .error "cannot write the file"

end Directory

end ShaderGraph.CommandLine
