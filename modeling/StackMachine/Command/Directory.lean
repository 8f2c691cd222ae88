import StackMachine.Command.Process

/-!
# A directory

The files that a process finds below the directory it works in, and the one change that it can make
to them: writing an executable. Paths are resolved component by component, so that a file in the
place of a directory is told from a file that is missing; what lies outside of the directory is not
known.
-/

namespace StackMachine.Command

/-- What a name in a directory stands for. -/
inductive Entry where
  | file (content : ByteArray)
  | directory

/-- The entries of a directory by the components of their paths. -/
structure Directory where
  entries : List (List String × Entry) := []

/-- Where a path leads. -/
inductive Place where
  /-- To this path in the directory; nothing need stand there. -/
  | inside (path : List String)
  /-- To a directory above it. -/
  | outside

namespace Directory

/-- What stands at a path. -/
def entry? (d : Directory) (path : List String) : Option Entry :=
  if path = [] then some .directory else (d.entries.find? (·.1 == path)).map (·.2)

/-- Puts an entry at a path in place of the one that stands there. -/
def set (d : Directory) (path : List String) (entry : Entry) : Directory :=
  ⟨(path, entry) :: d.entries.filter (·.1 != path)⟩

/-- The directories that a path leads through, the outermost first. -/
def ancestors (path : List String) : List (List String) := (List.range path.length).map path.take

/-- Puts an entry at a path. The directories that are missing on the way there are made, and they
stay when the entry is removed. -/
def put (d : Directory) (path : List String) (entry : Entry) : Directory :=
  (ancestors path).foldl (fun d p => if (d.entry? p).isSome then d else d.set p .directory) d
    |>.set path entry

/-- Takes the entry at a path away. -/
def remove (d : Directory) (path : List String) : Directory :=
  ⟨d.entries.filter (·.1 != path)⟩

/-- The number of bytes that a name may have. -/
def nameLimit : Nat := 255

/-- The number of bytes that a path may have. -/
def pathLimit : Nat := 4095

/-- Follows one component of a path. A name is measured when it is looked up, so whatever is wrong
with the way to it comes first. -/
def follow (d : Directory) (place : Place) (component : String) : Except FileFault Place :=
  match place with
  | .outside =>
    if ["", ".", ".."].contains component then .ok .outside
    else if nameLimit < component.utf8ByteSize then .error .nameTooLong
    else .error .notFound
  | .inside path =>
    match d.entry? path with
    | none => .error .notFound
    | some (.file _) => .error .notDirectory
    | some .directory =>
      if component = "" ∨ component = "." then .ok place
      else if component = ".." then .ok (if path = [] then .outside else .inside path.dropLast)
      else if nameLimit < component.utf8ByteSize then .error .nameTooLong
      else .ok (.inside (path ++ [component]))

/-- Where the components of a path lead. -/
def walk (d : Directory) (path : String) (components : List String) : Except FileFault Place :=
  if pathLimit < path.utf8ByteSize then .error .nameTooLong
  else components.foldlM d.follow (if path.startsWith "/" then .outside else .inside [])

/-- Where a path leads. -/
def resolve (d : Directory) (path : String) : Except FileFault Place :=
  d.walk path (path.splitOn "/")

/-- Where a path leads if it is that of a file to be made. One that ends in a slash is that of a
directory, whatever stands there, and only the way to it is followed. -/
def resolveNew (d : Directory) (path : String) : Except FileFault Place :=
  let components := path.splitOn "/"
  if path.endsWith "/" then
    d.walk path ((components.reverse.dropWhile (· = "")).tail.reverse ++ ["."])
  else d.walk path components

/-- The file at a path as a process finds it. -/
def view (d : Directory) (path : String) : FileView :=
  match d.resolve path with
  | .error fault => .closed fault
  | .ok .outside => .unreadable .isDirectory
  | .ok (.inside components) =>
    match d.entry? components with
    | none => .closed .notFound
    | some .directory => .unreadable .isDirectory
    | some (.file content) => .bytes content

/-- The path of a file to be written, which is emptied first. -/
def create (d : Directory) (path : String) : Except FileFault (List String × Directory) :=
  match d.resolveNew path with
  | .error fault => .error fault
  | .ok .outside => .error .isDirectory
  | .ok (.inside components) =>
    match d.entry? components with
    | some .directory => .error .isDirectory
    | _ => .ok (components, d.set components (.file .empty))

/-- The bytes of a file, none if it cannot be read. -/
def contentOf (d : Directory) (path : String) : ByteArray :=
  match d.view path with
  | .bytes content => content
  | _ => .empty

/-- Writes an executable that carries a file. The output is emptied before the file is read, so a
file that is written onto itself is carried as an empty one. -/
def embed (d : Directory) (host : ByteArray) (file output : String) : Outcome × Directory :=
  match d.create output with
  | .error fault => (.ofFailure (.cannotCreate output fault), d)
  | .ok (path, d) =>
    let source := d.contentOf file
    ({ stderr := embedReport file output source.size },
      d.set path (.file (Payload.embed host source)))

end Directory

end StackMachine.Command
