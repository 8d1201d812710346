import UndoJournal.CommandLine.Run

/-!
# The program

Reads the files that a request names, lets the library say what to print, and prints it: what was
asked for to the standard output, and why nothing came of it to the standard error.
-/

namespace UndoJournal.CommandLine

/-- The library's name for a failure of the system. -/
def fileErrorOf : IO.Error → FileError
  | .noFileOrDirectory _ _ _ => .missing
  | .inappropriateType _ code details =>
    if code = 21 then .isDirectory else if code = 20 then .notDirectory else .other details
  | e => .other (toString e)

/-- The text of a file on disk. -/
def readFromDisk (path : String) : BaseIO (Except FileError String) := do
  match ← (IO.FS.readBinFile path).toBaseIO with
  | .ok bytes => return textOf bytes
  | .error e => return .error (fileErrorOf e)

/-- The texts of files on disk, each under its path. -/
def readAllFromDisk (paths : List String) :
    BaseIO (List (String × Except FileError String)) :=
  paths.mapM fun path => do return (path, ← readFromDisk path)

/-- Print what arguments come to when they ask for nothing the program does. -/
def explain (u : Usage) : IO UInt32 := do
  if u.exitCode = 0 then IO.println u.problem else IO.eprintln u.problem
  return u.exitCode.toUInt32

/-- Do what arguments ask for. -/
def start (arguments : List String) : IO UInt32 := do
  match read arguments with
  | .error u => explain u
  | .ok request =>
    let texts ← readAllFromDisk request.paths
    match perform (fun path => (texts.lookup path).getD (.error .missing)) request with
    | .ok text =>
      IO.print text
      return 0
    | .error e =>
      IO.eprintln (programName ++ ": " ++ e.message)
      return e.exitCode.toUInt32

end UndoJournal.CommandLine

/-- The program. -/
def main (arguments : List String) : IO UInt32 := UndoJournal.CommandLine.start arguments
