import UndoJournal.Text
import UndoJournal.Files

/-!
# Golden transcripts

A **golden transcript** is the text that a scenario is expected to produce, kept in a file under a
comment line; lines that begin with a hash sign are comments and not part of it.
`Transcript.check` compares what was produced with the golden transcript, or writes it as the new
one when it is asked to **bless**. A golden transcript that is missing or empty passes, unless it is
enforced; one that is there and cannot be read, or cannot be written, is an error.
-/

namespace UndoJournal.Transcript

/-- How a check ended. -/
inductive Verdict where
  /-- What was produced is what was expected. -/
  | pass
  /-- It is not. -/
  | fail
  /-- It is the new golden transcript. -/
  | blessed
deriving DecidableEq

/-- How checks are to be made. -/
structure Mode where
  /-- Whether what was produced becomes the golden transcript. -/
  bless : Bool := false
  /-- Whether a missing golden transcript fails. -/
  enforce : Bool := false
deriving DecidableEq

/-- The finding of a check. -/
structure Finding where
  /-- The name of the scenario. -/
  scenario : String
  /-- How the check ended. -/
  verdict : Verdict
  /-- What was expected. -/
  expected : List String
  /-- What was produced. -/
  actual : List String
  /-- The first line that differs, among those that both have. -/
  mismatch : Option Nat
deriving DecidableEq

/-- Whether the value of a variable switches something on. -/
def isOn (value : String) : Bool := value == "1" || value.toLower == "true"

/-- The mode that variables of the environment ask for. -/
def Mode.ofEnvironment (lookup : String → Option String) : Mode where
  bless := (lookup "BLESS").any isOn
  enforce := (lookup "EVLOG_GOLDEN_ENFORCE").any isOn || (lookup "CI").any isOn

/-- The comment line above a golden transcript. -/
def header : String := "# Golden transcript - regenerate with BLESS=1"

/-- The path of the golden transcript of a scenario, under a base directory. -/
def path (base scenario : String) : String :=
  Path.join (Path.join (Path.join base "tests") "golden") (scenario ++ ".txt")

/-- The text of the file for a golden transcript. -/
def encode (lines : List String) : String := header ++ "\n" ++ Text.joinLines lines ++ "\n"

/-- The golden transcript in the text of a file. -/
def decode (text : String) : List String :=
  ((Text.lines text.toList).filter fun line => line.head? != some '#').map String.ofList

/-- The golden transcript in the file at a path; one that is missing is empty. -/
def load (files : Files) (path : String) : Except FileError (List String) :=
  match files.read path with
  | .ok text => .ok (decode text)
  | .error .missing => .ok []
  | .error e => .error e

/-- The first place at which two lists differ, as far as the shorter one goes. -/
def firstDifference? : List String → List String → Option Nat
  | x :: xs, y :: ys => if x = y then (firstDifference? xs ys).map (· + 1) else some 0
  | _, _ => none

/-- Compare what was produced with what was expected. -/
def compare (mode : Mode) (actual expected : List String) : Verdict × Option Nat :=
  if expected.isEmpty then
    (if mode.enforce then .fail else .pass, none)
  else
    match firstDifference? actual expected with
    | some index => (.fail, some index)
    | none => (if actual.length = expected.length then .pass else .fail, none)

/-- The finding of a comparison: its verdict, both lists and the first line in which they differ. -/
def judge (mode : Mode) (scenario : String) (actual expected : List String) : Finding :=
  let (verdict, mismatch) := compare mode actual expected
  ⟨scenario, verdict, expected, actual, mismatch⟩

/-- Check what a scenario produced against its golden transcript under a base directory, or bless
it. The files afterwards come along. -/
def check (mode : Mode) (base scenario : String) (actual : List String) (files : Files) :
    Except FileError Finding × Files :=
  if mode.bless then
    let (written, files) := files.write (path base scenario) (encode actual)
    (written.map fun _ => ⟨scenario, .blessed, actual, actual, none⟩, files)
  else
    ((load files (path base scenario)).map (judge mode scenario actual), files)

namespace Finding

/-- Whether nothing failed. -/
def isPass (f : Finding) : Bool := f.verdict != .fail

/-- The line at a place, or a mark for its absence. -/
private def lineAt (lines : List String) (index : Nat) : String := lines.getD index "<none>"

/-- What a failed check says after the name of the scenario. -/
def failure (f : Finding) : String :=
  if f.expected.isEmpty then "missing golden file"
  else
    match f.mismatch with
    | some index =>
      "mismatch at line " ++ toString (index + 1) ++ "\n  expected: " ++
        lineAt f.expected index ++ "\n  actual:   " ++ lineAt f.actual index
    | none =>
      toString f.expected.length ++ " lines expected, " ++ toString f.actual.length ++ " produced"

/-- The summary of a check for a reader. -/
def summary (f : Finding) : String :=
  match f.verdict with
  | .pass => "PASS: " ++ f.scenario
  | .blessed => "BLESSED: " ++ f.scenario
  | .fail => "FAIL: " ++ f.scenario ++ " - " ++ f.failure

end Finding

end UndoJournal.Transcript
