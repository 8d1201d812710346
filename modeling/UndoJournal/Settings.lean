import UndoJournal.Text

/-!
# Settings

Every tunable of a journal and of the view that follows it. `Settings.problems` lists what is wrong
with some settings, one sentence a problem; settings without problems are valid.
-/

namespace UndoJournal

/-- The texts a user sees besides the descriptions of events. -/
structure Labels where
  /-- Label of the row in front of the first event. -/
  unchanged : String := "[Unchanged]"
  /-- The verb for undoing. -/
  undo : String := "Undo"
  /-- The verb for redoing. -/
  redo : String := "Redo"
  /-- What stands between a verb and the description of an event. -/
  separator : String := ": "
deriving DecidableEq

/-- How a view follows the cursor. -/
structure ViewSettings where
  /-- Whether a run is collapsed once the cursor leaves it. -/
  collapseOnLeave : Bool := true
  /-- Whether the current row is scrolled into view. -/
  scrollToCurrent : Bool := true
  /-- Whether there is a row in front of the first event. -/
  showSentinel : Bool := true
deriving DecidableEq

/-- The settings of a journal and of the views that follow it. -/
structure Settings where
  /-- Whether consecutive events of one kind are grouped. -/
  grouping : Bool := true
  /-- The texts a user sees. -/
  labels : Labels := {}
  /-- How a view follows the cursor. -/
  view : ViewSettings := {}
deriving DecidableEq

namespace Settings

/-- Whether a label has nothing but blanks. -/
def isBlankLabel (label : String) : Bool := (Text.trim label.toList).isEmpty

/-- What is wrong with the settings, one sentence a problem. -/
def problems (s : Settings) : List String :=
  [("unchanged", s.labels.unchanged), ("undo", s.labels.undo), ("redo", s.labels.redo)].filterMap
    fun (name, label) =>
      if isBlankLabel label then some ("labels." ++ name ++ " must not be empty") else none

end Settings

end UndoJournal
