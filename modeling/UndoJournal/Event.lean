/-!
# Events

An `Event` is one undoable change of a document, as the document's undo engine reports it. The
engine numbers events; an undo or redo notice carries the number of the commit it reverts or
repeats, which is how a journal checks that it steps over the event the engine means.
-/

namespace UndoJournal

/-- The number an undo engine gives to a committed event. -/
structure EventId where
  /-- The number itself. -/
  raw : Nat
deriving DecidableEq

/-- An event number is written with a leading hash sign. -/
def EventId.text (id : EventId) : String :=
  "#" ++ toString id.raw

/-- One undoable change. Consecutive events of one `kind` are grouped when they are shown. -/
structure Event where
  /-- The engine's number for the event. -/
  id : EventId
  /-- The action category, such as a move or a deletion. -/
  kind : String
  /-- What the user reads. -/
  description : String
deriving DecidableEq

end UndoJournal
