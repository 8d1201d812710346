/-!
# Scripts

A script drives a session, one `Command` a line. Every command has one written form,
`Command.text`; reading scripts is the matter of `Script/Reader`.
-/

namespace UndoJournal

/-- One command of a script. -/
inductive Command where
  /-- Commit an event in the document. -/
  | commit (kind description : String)
  /-- Undo in the document. -/
  | undo
  /-- Redo in the document. -/
  | redo
  /-- Forget what can be undone. -/
  | clearUndo
  /-- Forget what can be redone. -/
  | clearRedo
  /-- Click the row at a place. -/
  | click (row : Nat)
  /-- Collapse the run of the row at a place. -/
  | collapse (row : Nat)
  /-- Expand the run of the row at a place. -/
  | expand (row : Nat)
  /-- Keep a snapshot of the session. -/
  | snapshot
deriving DecidableEq

/-- A command is written as its word and what belongs to it, with blanks between. -/
def Command.text : Command → String
  | commit kind description => "commit " ++ kind ++ " " ++ description
  | undo => "undo"
  | redo => "redo"
  | clearUndo => "clear-undo"
  | clearRedo => "clear-redo"
  | click row => "click " ++ toString row
  | collapse row => "collapse " ++ toString row
  | expand row => "expand " ++ toString row
  | snapshot => "show"

/-- A command and the line it stands on, counted from one. -/
structure ScriptStep where
  /-- The number of the line. -/
  line : Nat
  /-- The command on it. -/
  command : Command
deriving DecidableEq

/-- What is wrong with a line of a script. -/
inductive ScriptProblem where
  /-- Something stands behind a word that takes nothing. -/
  | takesNothing (word : String)
  /-- A commit lacks its kind or its description. -/
  | incompleteCommit
  /-- What stands behind the word is not the place of a row. -/
  | badRow (word given : String)
  /-- The line begins with a word that is no command. -/
  | unknownWord (word : String)
deriving DecidableEq

/-- The text of a problem. -/
def ScriptProblem.message : ScriptProblem → String
  | takesNothing word => "`" ++ word ++ "` takes no arguments"
  | incompleteCommit => "`commit` needs a kind and a description"
  | badRow word given => "`" ++ word ++ "` needs a row number, got `" ++ given ++ "`"
  | unknownWord word => "unknown command `" ++ word ++ "`"

end UndoJournal
