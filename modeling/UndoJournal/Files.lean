import Std.Data.HashMap

/-!
# Paths and files

A path is a text whose components stand between slashes. It is followed from the root if it begins
with a slash and from the working directory otherwise; an empty component and a single dot lead
nowhere else, and two dots lead up.

`Files` are what a program can read and write: regular files with their bytes, and directories. A
path is followed component by component (`Files.step`), so a path that goes through something that
is no directory fails even if it comes back afterwards. A path that is too long as a whole is not
followed at all.

The name of the working directory is not known, and neither is how deep it is, so a `Place` is
reached from the root or from some level at or above the working directory. These anchors are
directories, and there is nothing in them but what is written there.

Writing a file makes the directories that it is to stand in. **What was made stays**, also when a
later component makes the writing fail.
-/

namespace UndoJournal

/-! ### Paths -/

namespace Path

/-- The number of bytes from which on a path is too long. -/
def limit : Nat := 4096

/-- The number of bytes of the longest name. -/
def longestName : Nat := 255

/-- Whether a path begins at the root. -/
def isRooted (path : String) : Bool := path.toList.head? == some '/'

/-- The path of something under a directory; a path that begins at the root stays as it is. -/
def join (directory path : String) : String :=
  if isRooted path || directory == "" then path
  else if directory.toList.getLast? == some '/' then directory ++ path
  else directory ++ "/" ++ path

/-- The components of a path; a slash at the end leaves an empty one. -/
def components (path : String) : List String := path.splitOn "/"

/-- Whether a component leads nowhere else: it is empty or a single dot. -/
def isIdle (component : String) : Bool := component == "" || component == "."

/-- The name that a path ends in, unless it leads up there. -/
def name? (path : String) : Option String :=
  ((components path).reverse.find? fun c => !isIdle c).filter (· != "..")

/-- What stands behind the last dot of a name, unless the dot is its first character. -/
def extension? (name : String) : Option String :=
  match name.toList.reverse.span (· != '.') with
  | (_, []) => none
  | (_, [_]) => none
  | (behind, _) => some (String.ofList behind.reverse)

end Path

/-! ### Nodes and errors -/

/-- What a name in a directory stands for. -/
inductive FileNode where
  /-- A regular file with its bytes. -/
  | regular (bytes : ByteArray)
  /-- A directory. -/
  | directory

/-- Why a file could not be read or written. -/
inductive FileError where
  /-- There is no such thing. -/
  | missing
  /-- It is a directory. -/
  | isDirectory
  /-- The path goes through something that is no directory. -/
  | notDirectory
  /-- The path is too long, or one of its components is too long for a name. -/
  | nameTooLong
  /-- The path has a character that no path can have. -/
  | badPath
  /-- Its bytes are no text. -/
  | notText
  /-- The system refused for a reason of its own. -/
  | other (reason : String)
deriving DecidableEq

/-- The text of the error. -/
def FileError.message : FileError → String
  | missing => "No such file or directory (os error 2)"
  | isDirectory => "Is a directory (os error 21)"
  | notDirectory => "Not a directory (os error 20)"
  | nameTooLong => "File name too long (os error 36)"
  | badPath => "file name contained an unexpected NUL byte"
  | notText => "stream did not contain valid UTF-8"
  | other reason => reason

/-- The text that the bytes of a file are. -/
def textOf (bytes : ByteArray) : Except FileError String :=
  match String.fromUTF8? bytes with
  | some text => .ok text
  | none => .error .notText

/-! ### Places -/

/-- A directory that is always there. -/
inductive Anchor where
  /-- The working directory, or the one that many levels above it. -/
  | above (levels : Nat)
  /-- The root. -/
  | root
deriving DecidableEq, Hashable

/-- Where a file is. -/
structure Place where
  /-- The directory to begin at. -/
  anchor : Anchor
  /-- The names that lead there, the last one first. -/
  names : List String
deriving DecidableEq, Hashable

namespace Place

/-- The directory a place is in; nothing is above the root. -/
def up : Place → Place
  | ⟨anchor, _ :: names⟩ => ⟨anchor, names⟩
  | ⟨.above levels, []⟩ => ⟨.above (levels + 1), []⟩
  | ⟨.root, []⟩ => ⟨.root, []⟩

/-- The place of a name in a directory. -/
def down (place : Place) (name : String) : Place := { place with names := name :: place.names }

/-- Where a path begins. -/
def start (path : String) : Place := ⟨if Path.isRooted path then .root else .above 0, []⟩

end Place

/-! ### Files -/

/-- What a program can read and write. -/
structure Files where
  /-- What was made, by its place. -/
  nodes : Std.HashMap Place FileNode

namespace Files

/-- No files, and no directories but those that are always there. -/
def empty : Files := ⟨∅⟩

/-- What is at a place. -/
def node? (files : Files) (place : Place) : Option FileNode :=
  if place.names.isEmpty then some .directory else files.nodes[place]?

/-- Put something at a place. -/
def put (files : Files) (place : Place) (node : FileNode) : Files :=
  ⟨files.nodes.insert place node⟩

/-- Whether a place is a directory. -/
def isDirectory (files : Files) (place : Place) : Bool :=
  match files.node? place with
  | some .directory => true
  | _ => false

/-- Follow one component of a path. -/
def step (files : Files) (here : Place) (component : String) : Except FileError Place :=
  if !files.isDirectory here then .error .notDirectory
  else if Path.isIdle component then .ok here
  else if component = ".." then .ok here.up
  else if Path.longestName < component.utf8ByteSize then .error .nameTooLong
  else
    match files.node? (here.down component) with
    | none => .error .missing
    | some _ => .ok (here.down component)

/-- The components of a path that can be followed. -/
def components (path : String) : Except FileError (List String) :=
  if path.isEmpty then .error .missing
  else if path.toList.contains '\x00' then .error .badPath
  else if Path.limit ≤ path.utf8ByteSize then .error .nameTooLong
  else .ok (Path.components path)

/-! ### Reading -/

/-- The place that a path leads to. -/
def find (files : Files) (path : String) : Except FileError Place := do
  let components ← components path
  components.foldlM files.step (.start path)

/-- The bytes of the file at a path. -/
def readBytes (files : Files) (path : String) : Except FileError ByteArray := do
  let place ← files.find path
  match files.node? place with
  | some (.regular bytes) => .ok bytes
  | _ => .error .isDirectory

/-- The text of the file at a path. -/
def read (files : Files) (path : String) : Except FileError String := do
  let bytes ← files.readBytes path
  textOf bytes

/-! ### Writing -/

/-- Follow components to a directory and make those that are missing. -/
def reach : Files → Place → List String → Except FileError Place × Files
  | files, here, [] => (if files.isDirectory here then .ok here else .error .notDirectory, files)
  | files, here, component :: rest =>
    match files.step here component with
    | .ok next => reach files next rest
    | .error .missing =>
      reach (files.put (here.down component) .directory) (here.down component) rest
    | .error e => (.error e, files)

/-- The place for a file of a name in a directory. -/
def room (files : Files) (here : Place) (name : String) : Except FileError Place :=
  if Path.isIdle name || name == ".." then .error .isDirectory
  else
    match files.step here name with
    | .ok place => if files.isDirectory place then .error .isDirectory else .ok place
    | .error .missing => .ok (here.down name)
    | .error e => .error e

/-- Make a directory and all that it is in. -/
def makeDirectory (files : Files) (path : String) : Except FileError Unit × Files :=
  match components path with
  | .error e => (.error e, files)
  | .ok components =>
    let (reached, files) := files.reach (.start path) components
    (reached.map fun _ => (), files)

/-- Write a file, after making the directories that it is in. -/
def writeBytes (files : Files) (path : String) (bytes : ByteArray) :
    Except FileError Unit × Files :=
  match components path with
  | .error e => (.error e, files)
  | .ok components =>
    match files.reach (.start path) components.dropLast with
    | (.error e, files) => (.error e, files)
    | (.ok here, files) =>
      match files.room here (components.getLastD "") with
      | .error e => (.error e, files)
      | .ok place => (.ok (), files.put place (.regular bytes))

/-- Write the file at a path with a text, after making the directories that it is in. -/
def write (files : Files) (path text : String) : Except FileError Unit × Files :=
  files.writeBytes path text.toUTF8

/-- The files with some bytes at some paths, and directories at the paths that have none; what
cannot be made is left out. -/
def ofList (entries : List (String × Option ByteArray)) : Files :=
  entries.foldl (fun files (path, bytes) =>
    match bytes with
    | none => (files.makeDirectory path).2
    | some bytes => (files.writeBytes path bytes).2) empty

end Files

end UndoJournal
