import UndoJournal.Session.Basic

/-!
# Snapshots

A `Snapshot` is what a session looks like from outside at one moment. `Session.agrees` says whether
document and journal agree, which they do unless somebody went around the document.
-/

namespace UndoJournal

/-- Cursor, verbs, journal, screen and document of a session at one moment. -/
structure Snapshot where
  /-- Where the cursor is. -/
  current : Position
  /-- The state of the undo verb. -/
  undo : Verb
  /-- The state of the redo verb. -/
  redo : Verb
  /-- The journal as it is shown. -/
  rows : List JournalRow
  /-- The lines on the screen. -/
  view : List String
  /-- The descriptions of the applied events, oldest first. -/
  applied : List String
deriving DecidableEq

namespace Session

/-- The journal of the session. -/
def journal (s : Session) : Journal := s.desk.journal

/-- The screen of the session. -/
def screen (s : Session) : Screen := s.desk.around.screen

/-- The snapshot of a session. -/
def snapshot (s : Session) : Except Fault Snapshot := do
  let redo ← s.journal.redoVerb
  let rows ← s.journal.rows
  .ok {
    current := s.journal.cursor
    undo := s.journal.undoVerb
    redo := redo
    rows := rows
    view := s.screen.widget.outline.renderLines
    applied := s.document.applied.map Event.description }

/-- Whether two lists of events have the same numbers as far as the shorter one goes. -/
private def sameNumbers (xs ys : List Event) : Bool := (xs.zip ys).all fun (x, y) => x.id == y.id

/-- Whether the cursor is right behind the document's applied events, in the same order. -/
def agrees (s : Session) : Except Fault Bool := do
  let ordinal ← s.journal.timeline.ordinal s.journal.cursor
  .ok (ordinal == s.document.applied.length &&
    sameNumbers (s.journal.timeline.toList.map Entry.event) s.document.applied)

/-- The picture of the session in reports. -/
def inspect (s : Session) : String :=
  Inspect.openRecord "Session"
    [("document", Inspect.shared s.document.inspect),
      ("log", Inspect.shared (s.journal.inspect s.desk.attached.isSome)),
      ("sync", s.screen.link.inspectHandle)]

end Session

end UndoJournal
