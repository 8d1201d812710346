import UndoJournal.Script.Basic
import UndoJournal.Text

/-!
# Reading scripts

A line of a script is read without the blanks around it. It is skipped if nothing is left or if it
begins with a hash sign; otherwise it is one command. **The first line that is no command ends the
reading**, and its number and its problem are all that is told.
-/

namespace UndoJournal

/-- A line of a script that is no command. -/
structure ScriptError where
  /-- The number of the line, counted from one. -/
  line : Nat
  /-- What is wrong with it. -/
  problem : ScriptProblem
deriving DecidableEq

namespace Command

/-- A command of one word, if nothing stands behind the word. -/
def bare (word rest : List Char) (c : Command) : Except ScriptProblem Command :=
  if rest.isEmpty then .ok c else .error (.takesNothing (String.ofList word))

/-- A command about the row at a place. -/
def aboutRow (word rest : List Char) (c : Nat → Command) : Except ScriptProblem Command :=
  match Text.natural? rest with
  | some row => .ok (c row)
  | none => .error (.badRow (String.ofList word) (String.ofList rest))

/-- The commit of what stands behind the word: a kind, which has no blanks, and a description. -/
def ofCommit (rest : List Char) : Except ScriptProblem Command :=
  match Text.splitAtBlank? rest with
  | none => .error .incompleteCommit
  | some (kind, behind) =>
    let description := Text.trim behind
    if description.isEmpty then .error .incompleteCommit
    else .ok (.commit (String.ofList kind) (String.ofList description))

/-- The first word of a line without blanks around it, and what stands behind the word. -/
def wordOf (line : List Char) : List Char × List Char :=
  match Text.splitAtBlank? line with
  | none => (line, [])
  | some (word, behind) => (word, Text.trim behind)

/-- The command on a line without blanks around it. -/
def ofLine (line : List Char) : Except ScriptProblem Command :=
  let (word, rest) := wordOf line
  match String.ofList word with
  | "commit" => ofCommit rest
  | "undo" => bare word rest .undo
  | "redo" => bare word rest .redo
  | "clear-undo" => bare word rest .clearUndo
  | "clear-redo" => bare word rest .clearRedo
  | "show" => bare word rest .snapshot
  | "click" => aboutRow word rest .click
  | "collapse" => aboutRow word rest .collapse
  | "expand" => aboutRow word rest .expand
  | other => .error (.unknownWord other)

end Command

namespace Script

/-- Whether a line without blanks around it is skipped. -/
def isSkipped (line : List Char) : Bool := line.isEmpty || line.head? == some '#'

/-- The steps on lines of which the first has that number. -/
def readFrom (number : Nat) : List (List Char) → Except ScriptError (List ScriptStep)
  | [] => .ok []
  | raw :: lines =>
    let line := Text.trim raw
    if isSkipped line then
      readFrom (number + 1) lines
    else
      match Command.ofLine line with
      | .error problem => .error ⟨number, problem⟩
      | .ok c => do
        let steps ← readFrom (number + 1) lines
        .ok (⟨number, c⟩ :: steps)

/-- The steps of a script. -/
def read (text : String) : Except ScriptError (List ScriptStep) :=
  readFrom 1 (Text.lines text.toList)

end Script

end UndoJournal
