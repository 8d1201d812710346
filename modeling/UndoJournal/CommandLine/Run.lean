import UndoJournal.CommandLine.Arguments
import UndoJournal.Replay
import UndoJournal.Script.Reader
import UndoJournal.Settings.Load

/-!
# What the program does

Replaying loads the settings first, then the script, and prints its report only when the whole
replay went well. Checking settings prints them as TOML under a comment line. The files are reached
through a function `read`, so that what is printed depends on nothing but their texts.
-/

namespace UndoJournal

/-- Why the program failed. -/
inductive RunError where
  /-- The script could not be read. -/
  | unreadable (path : String) (reason : FileError)
  /-- The settings could not be loaded. -/
  | settings (e : SettingsError)
  /-- A line of the script is no command. -/
  | script (line : Nat) (message : String)
  /-- A step of the script failed. -/
  | action (line : Nat) (e : SessionError)
  /-- The replay was cut short. -/
  | fault (f : Fault)
deriving DecidableEq

namespace RunError

/-- The text of the error. -/
def message : RunError → String
  | unreadable path reason => "cannot read " ++ path ++ ": " ++ reason.message
  | settings e => e.message
  | script line message => "line " ++ toString line ++ ": " ++ message
  | action line e => "line " ++ toString line ++ ": " ++ e.message
  | fault f => f.message

/-- The exit code of the program. -/
def exitCode : RunError → Nat
  | unreadable _ _ => 1
  | script _ _ => 2
  | settings _ => 3
  | action _ _ => 4
  | fault _ => 101

/-- A line of a script that is no command, as a failure of the program. -/
def ofScript (e : ScriptError) : RunError := .script e.line e.problem.message

end RunError

namespace CommandLine

/-- The steps of the script in a text. -/
def scriptOf (text : String) : Except RunError (List ScriptStep) :=
  match Script.read text with
  | .ok steps => .ok steps
  | .error e => .error (.ofScript e)

/-- The report of a replay that went well. -/
def reportOf (o : Outcome Session (Except ReplayStop ReplayReport)) :
    Except RunError ReplayReport :=
  match o.result with
  | .error f => .error (.fault f)
  | .ok (.error stop) => .error (.action stop.line stop.error)
  | .ok (.ok report) => .ok report

/-- The settings in the file at a path, or the defaults. -/
def settingsAt (read : String → Except FileError String) (path : Option String) :
    Except RunError Settings :=
  match path with
  | none => .ok {}
  | some path =>
    match Settings.load read path with
    | .ok s => .ok s
    | .error e => .error (.settings e)

/-- The text of the script at a path. -/
def scriptTextAt (read : String → Except FileError String) (path : String) :
    Except RunError String :=
  match read path with
  | .ok text => .ok text
  | .error reason => .error (.unreadable path reason)

/-- What the program prints for a request. -/
def perform (read : String → Except FileError String) : Request → Except RunError String
  | .run script settings json guides => do
    let settings ← settingsAt read settings
    let text ← scriptTextAt read script
    let steps ← scriptOf text
    let report ← reportOf (replay steps settings guides)
    .ok (if json then report.json.pretty ++ "\n" else report.text)
  | .checkSettings file => do
    let settings ← settingsAt read (some file)
    .ok ("# " ++ file ++ " is valid\n" ++ settings.toToml)

end CommandLine

end UndoJournal
