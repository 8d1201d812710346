import UndoJournal.Session.Basic

/-!
# Acting in a session

The user of a session can act on the document, which is what any program does, or on the screen. An
act on the screen answers with the error that the navigator met on the way, if it met one.
-/

namespace UndoJournal

/-- Why an act on the screen of a session failed. -/
inductive SessionError where
  /-- The screen refused it. -/
  | view (e : ViewError)
  /-- The navigator could not follow it. -/
  | history (e : HistoryError)
deriving DecidableEq

namespace SessionError

/-- The name of the error. -/
def word : SessionError → String
  | view e => e.word
  | history e => e.word

/-- The text of the error. -/
def message : SessionError → String
  | view e => e.message
  | history e => e.message

end SessionError

namespace Session

/-- Commit an event in the document. -/
def commit (kind description : String) : Action Session Event := audience.commit kind description

/-- Undo in the document; `false` if there is nothing to undo. -/
def undo : Action Session Bool := audience.undo

/-- Redo in the document; `false` if there is nothing to redo. -/
def redo : Action Session Bool := audience.redo

/-- Forget what can be undone. -/
def clearUndo : Action Session Unit := audience.clearUndo

/-- Forget what can be redone. -/
def clearRedo : Action Session Unit := audience.clearRedo

/-- Do something on the screen, and answer with the navigator's error if it met one. -/
def attempt {α : Type} (x : Action Session (Except ViewError α)) :
    Action Session (Except SessionError α) := do
  match ← x with
  | .error e => pure (.error (.view e))
  | .ok a =>
    match ← Navigator.takeError navigatorLens with
    | some e => pure (.error (.history e))
    | none => pure (.ok a)

/-- Click the row at a place. -/
def click (row : Nat) : Action Session (Except SessionError Unit) :=
  attempt (stage.wiring.click row)

/-- Expand the run of the row at a place; whether it was collapsed comes along. -/
def expand (row : Nat) : Action Session (Except SessionError Bool) :=
  attempt (stage.wiring.expandRow row)

/-- Collapse the run of the row at a place; whether it was expanded comes along. -/
def collapse (row : Nat) : Action Session (Except SessionError Bool) :=
  attempt (stage.wiring.collapseRow row)

end Session

end UndoJournal
