import AsmDialect.Stream.Basic
import AsmDialect.Text.Quoted
/-!
# Files

The files and directories of a machine, and what opening one of them by its path leads to. A path is
followed name by name, from the root or from the working directory: an empty name and `.` stay in
place, `..` goes up, and any other name goes down. Each name but the last has to lead to a directory
and the last to something to read from. Besides plain files, of which all is known by their bytes,
there can be pipes, devices and files that fail: all that is known of these is what reading them
brings.
-/

namespace AsmDialect

/-- What a name leads to. -/
inductive Node where
  | directory
  /-- A plain file. -/
  | file (bytes : Source)
  /-- Anything else to read from. -/
  | stream (s : Stream)
deriving DecidableEq, Repr

/-- The room in memory that a machine has for a block, if nothing else is known of it: as many bytes
as a process has addresses on the usual machines of 64 bits. -/
def defaultRoom : Nat := Nat.pow 2 47

/-- The files and directories of a machine, and what else bears on reading them. -/
structure FileSet where
  /-- What there is, under the names that lead to it from the root. -/
  entries : List (List String × Node) := []
  /-- The names that lead from the root to the working directory. -/
  workingDirectory : List String := []
  /-- The room in memory that there is for a block of a file. -/
  room : Nat := defaultRoom
deriving Repr

/-- Why a file cannot be opened. -/
inductive OpenCause where
  | notFound
  | isDirectory
  | notDirectory
  | nameTooLong
  /-- The path has a NUL in it, so no file system can have been asked. -/
  | embeddedNul
deriving DecidableEq, Repr

/-- A path with the reason why it cannot be opened. -/
structure OpenError where
  path : String
  cause : OpenCause
deriving DecidableEq, Repr

/-- What is reported of a file that cannot be opened. -/
def OpenError.message (e : OpenError) : String :=
  match e.cause with
  | .notFound => s!"[Errno 2] No such file or directory: {Text.quoted e.path}"
  | .isDirectory => s!"[Errno 21] Is a directory: {Text.quoted e.path}"
  | .notDirectory => s!"[Errno 20] Not a directory: {Text.quoted e.path}"
  | .nameTooLong => s!"[Errno 36] File name too long: {Text.quoted e.path}"
  | .embeddedNul => "embedded null byte"

namespace FileSet

/-- The names in a path, with those that are empty. -/
def names (path : String) : List String := (path.toList.splitOn '/').map String.ofList

/-- The names that lead to where a name leads from a place. There is nothing above the root but the
root. -/
def step (name : String) (place : List String) : List String :=
  if name = "" || name = "." then place
  else if name = ".." then place.dropLast
  else place ++ [name]

/-- The places that names lead through, one for each name. -/
def trail (place : List String) : List String → List (List String)
  | [] => []
  | name :: rest => step name place :: trail (step name place) rest

/-- The place that a path starts from. -/
def start (fs : FileSet) (path : String) : List String :=
  if path.startsWith "/" then [] else fs.workingDirectory

/-- What every system has at its root: two directories, and in one of them a device that has no
bytes to give. -/
def systemNode? : List String → Option Node
  | ["dev"] => some .directory
  | ["dev", "null"] => some (.file [])
  | ["tmp"] => some .directory
  | _ => none

/-- What is at a place. All the way to the working directory there are directories. -/
def node? (fs : FileSet) (place : List String) : Option Node :=
  if place.isPrefixOf fs.workingDirectory then some .directory
  else (fs.entries.lookup place).or (systemNode? place)

/-- The set with a node more. A directory that is already there stays as it is. -/
def put (fs : FileSet) (n : Node) (place : List String) : FileSet :=
  if n = .directory && (fs.node? place).isSome then fs
  else { fs with entries := (place, n) :: fs.entries.filter (·.1 ≠ place) }

/-- The set with a node more at the end of a path, and directories all the way to it. -/
def insert (fs : FileSet) (path : String) (n : Node) : FileSet :=
  let trail := trail (fs.start path) (names path)
  let prepared := trail.dropLast.foldl (fun fs place => fs.put .directory place) fs
  match trail.getLast? with
  | some place => prepared.put n place
  | none => prepared

/-- The longest name a directory can hold, in bytes. -/
def nameLimit : Nat := 255

/-- The longest path that can be followed, in bytes. -/
def pathLimit : Nat := 4095

/-- The stream that opening a node gives, unless it is a directory. -/
def stream? (fs : FileSet) : Node → Option Stream
  | .directory => none
  | .file bytes => some (.holding (.file fs.room) bytes)
  | .stream s => some s

/-- Follows names from a place to something to read from. -/
def follow (fs : FileSet) (place : List String) : List String → Except OpenCause Stream
  | [] =>
    match fs.node? place with
    | none => .error .notFound
    | some node =>
      match fs.stream? node with
      | none => .error .isDirectory
      | some s => .ok s
  | name :: rest =>
    match fs.node? place with
    | none => .error .notFound
    | some .directory =>
      if nameLimit < name.utf8ByteSize then .error .nameTooLong
      else follow fs (step name place) rest
    | some _ => .error .notDirectory

/-- The stream that opening a path gives. -/
def opened (fs : FileSet) (path : String) : Except OpenError Stream :=
  let result :=
    if path.contains (Char.ofNat 0) then .error .embeddedNul
    else if path = "" then .error .notFound
    else if pathLimit < path.utf8ByteSize then .error .nameTooLong
    else fs.follow (fs.start path) (names path)
  result.mapError fun cause => ⟨path, cause⟩

/-- A pipe that is known by its number. -/
example (s : Stream) :
    ({ entries := [(["dev", "fd"], .directory), (["dev", "fd", "3"], .stream s)] } : FileSet).opened
      "/dev/fd/3" = .ok s := by
  have hnul : "/dev/fd/3".contains (Char.ofNat 0) = false := by simp
  have hroot : "/dev/fd/3".startsWith "/" = true := by simp
  rw [opened, hnul, start, hroot]
  rfl

end FileSet

end AsmDialect
