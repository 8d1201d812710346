import UndoJournal.Timeline.Edit
import UndoJournal.Settings
import UndoJournal.Note

/-!
# The journal

A `Journal` keeps the history of one document as a timeline and a cursor. A document's undo engine
sends it a `Notice` for every commit, undo, redo and clear; `Journal.hear` files the notice and
says, as a `Reaction`, what the journal became, what it reports and which `CursorUpdate` a follower
has to be told. The journal **traces** the engine and is no gate on it: a notice that does not fit
what the journal expects is reported and changes nothing.

Undo and redo notices can be muted, for a caller that drives a cascade of its own and places the
cursor afterwards; commits and clears are always heard.
-/

namespace UndoJournal

/-- What an undo engine says it did. -/
inductive Notice where
  /-- An event was committed. -/
  | committed (event : Event)
  /-- An event was undone. -/
  | undone (event : Event)
  /-- An event was redone. -/
  | redone (event : Event)
  /-- Every event that could be undone was forgotten. -/
  | undoCleared
  /-- Every event that could be redone was forgotten. -/
  | redoCleared
deriving DecidableEq

/-- Why a follower is told about the cursor. -/
inductive Cause where
  | commit
  | undo
  | redo
  | clearUndo
  | clearRedo
  /-- The follower was just attached. -/
  | attach
  /-- The whole state is told again. -/
  | resync
deriving DecidableEq

/-- The name of a cause in reports. -/
def Cause.word : Cause → String
  | commit => "Commit"
  | undo => "Undo"
  | redo => "Redo"
  | clearUndo => "ClearUndo"
  | clearRedo => "ClearRedo"
  | attach => "Attach"
  | resync => "Resync"

/-- What a follower is told, together with the timeline as it is now. -/
structure CursorUpdate where
  /-- Where the cursor was. -/
  previous : Position
  /-- Where the cursor is. -/
  current : Position
  /-- Why the follower is told. -/
  cause : Cause
  /-- Whether entries may have come or gone since the last update. -/
  reshaped : Bool
  /-- The run that the cursor has just left, if it still has entries behind its head. -/
  left : Option Nat
deriving DecidableEq

/-- Whether a verb can be used, and its label. -/
structure Verb where
  /-- Whether there is an event to undo or redo. -/
  enabled : Bool
  /-- The bare verb, or the verb with the description of the event. -/
  label : String
deriving DecidableEq

/-- How to get the cursor to some position. -/
inductive Walk where
  /-- It is there already. -/
  | stay
  /-- Undo that many events. -/
  | undo (steps : Nat)
  /-- Redo that many events. -/
  | redo (steps : Nat)
deriving DecidableEq

/-- One line of the journal as it is shown. -/
structure JournalRow where
  /-- Where the entry sits. -/
  node : Address
  /-- The lasting identity of the entry. -/
  id : EntryId
  /-- `0` for heads and `1` for the entries behind them. -/
  depth : Nat
  /-- The kind of the event. -/
  kind : String
  /-- The description of the event. -/
  description : String
  /-- The number of entries behind the entry in its run. -/
  childCount : Nat
  /-- Whether the cursor is on the entry. -/
  isCurrent : Bool
  /-- Whether the entry is behind the cursor. -/
  isRedo : Bool
deriving DecidableEq

/-- The history of one document and the cursor in it. -/
structure Journal where
  /-- The committed events. -/
  timeline : Timeline
  /-- The last event that is applied. -/
  cursor : Position
  /-- The settings the journal was made with. -/
  settings : Settings
  /-- Whether undo and redo notices are ignored. -/
  muted : Bool
deriving DecidableEq

/-- The journal that a notice leaves, with what is to be reported and told about it. -/
structure Reaction where
  /-- The journal afterwards. -/
  journal : Journal
  /-- What the journal reports. -/
  notes : List Note
  /-- What a follower is to be told, if anything. -/
  update : Option CursorUpdate

namespace Journal

/-- A journal without history. -/
def empty (settings : Settings) : Journal :=
  ⟨.empty settings.grouping, .start, settings, false⟩

/-! ### Queries -/

/-- The head of the run that the cursor is inside, when it is behind that head. -/
def parent? (j : Journal) : Option Address :=
  (j.cursor.address?.filter Address.isChild).map Address.head

/-- What the cursor is on. -/
def currentNode? (j : Journal) : Option Run := j.cursor.address?.bind j.timeline.get?

/-- Whether there is an event to undo. -/
def undoable (j : Journal) : Bool := !j.cursor.isStart

/-- Whether there is an event to redo. -/
def redoable (j : Journal) : Bool := j.cursor != j.timeline.lastPosition

/-- The event that the next undo reverts. -/
def undoEvent? (j : Journal) : Option Event := j.currentNode?.map fun run => run.head.event

/-- The event that the next redo applies again. -/
def redoEvent? (j : Journal) : Except Fault (Option Event) := do
  let following ← j.timeline.next j.cursor
  .ok (((following.bind Position.address?).bind j.timeline.get?).map fun run => run.head.event)

/-- The verb for an event, or the bare verb. -/
def verbFor (j : Journal) (verb : String) : Option Event → Verb
  | some event => ⟨true, verb ++ j.settings.labels.separator ++ event.description⟩
  | none => ⟨false, verb⟩

/-- The state of the undo verb. -/
def undoVerb (j : Journal) : Verb := j.verbFor j.settings.labels.undo j.undoEvent?

/-- The state of the redo verb. -/
def redoVerb (j : Journal) : Except Fault Verb := do
  let event ← j.redoEvent?
  .ok (j.verbFor j.settings.labels.redo event)

/-- Whether nothing in the journal is applied. -/
def isPristine (j : Journal) : Bool := j.cursor.isStart

/-- The row of a placed entry that is the `ordinal`-th, seen from a cursor at ordinal `cursor`. -/
def rowOf (cursor : Nat) (p : Placed) (ordinal : Nat) : JournalRow where
  node := p.address
  id := p.entry.id
  depth := p.depth
  kind := p.entry.event.kind
  description := p.entry.event.description
  childCount := p.childCount
  isCurrent := ordinal == cursor
  isRedo := cursor < ordinal

/-- The journal as it is shown, in commit order. -/
def rows (j : Journal) : Except Fault (List JournalRow) := do
  let cursor ← j.timeline.ordinal j.cursor
  .ok ((j.timeline.placed.zipIdx 1).map fun (p, ordinal) => rowOf cursor p ordinal)

/-- How to get the cursor to `target`. -/
def stepsTo (j : Journal) (target : Position) : Except Fault Walk := do
  let delta ← j.timeline.distance j.cursor target
  .ok (if delta = 0 then .stay
    else if delta < 0 then .undo delta.natAbs
    else .redo delta.natAbs)

/-! ### Moving the cursor -/

/-- Ignore or heed undo and redo notices. -/
def mute (j : Journal) (muted : Bool) : Journal := { j with muted := muted }

/-- Put the cursor on a position that the timeline has; no follower is told. -/
def place (j : Journal) (p : Position) : Except Fault Reaction :=
  if j.timeline.contains p then
    .ok ⟨{ j with cursor := p },
      [.event .trace "cursor placed" [("from", j.cursor.text), ("to", p.text)]], none⟩
  else
    .error (.misplacedCursor p)

/-- The run that a move from `previous` to `current` leaves, if it has entries behind its head. -/
def leftBy (t : Timeline) (previous current : Position) : Option Nat := do
  let group ← previous.group?
  if current.group? = some group then none
  else if t.hasChildren group then some group
  else none

/-- What a follower is told of the whole state, without a move. -/
def standing (j : Journal) (cause : Cause) : CursorUpdate :=
  ⟨j.cursor, j.cursor, cause, true, none⟩

/-- A notice that changes nothing, reported. -/
def ignoring (j : Journal) (level : Level) (message : String) (fields : List Field) : Reaction :=
  ⟨j, [.event level message fields], none⟩

/-- A move of the cursor by an undo or a redo. -/
def moved (j : Journal) (p : Position) (cause : Cause) (word : String) (event : Event) :
    Reaction :=
  ⟨{ j with cursor := p },
    [.event .debug word [("from", j.cursor.text), ("to", p.text), ("event_id", event.id.text)]],
    some ⟨j.cursor, p, cause, false, leftBy j.timeline j.cursor p⟩⟩

/-- Hear that an event was undone: it has to be the one under the cursor. -/
def hearUndone (j : Journal) (event : Event) : Except Fault Reaction :=
  if j.muted then
    .ok (j.ignoring .trace "undo ignored, notifications blocked" [("event_id", event.id.text)])
  else
    match j.undoEvent? with
    | none => .ok (j.ignoring .warn "undo notified with nothing to undo"
        [("event_id", event.id.text)])
    | some expected =>
      if expected.id ≠ event.id then
        .ok (j.ignoring .warn "undo notified for an event that is not at the cursor"
          [("event_id", event.id.text), ("expected", expected.id.text)])
      else do
        let target ← j.timeline.prev j.cursor
        .ok (j.moved (target.getD .start) .undo "undo" event)

/-- Hear that an event was redone: it has to be the one behind the cursor. -/
def hearRedone (j : Journal) (event : Event) : Except Fault Reaction :=
  if j.muted then
    .ok (j.ignoring .trace "redo ignored, notifications blocked" [("event_id", event.id.text)])
  else do
    match ← j.redoEvent? with
    | none => .ok (j.ignoring .warn "redo notified with nothing to redo"
        [("event_id", event.id.text)])
    | some expected =>
      if expected.id ≠ event.id then
        .ok (j.ignoring .warn "redo notified for an event that is not next"
          [("event_id", event.id.text), ("expected", expected.id.text)])
      else do
        let target ← j.timeline.next j.cursor
        .ok (j.moved (target.getD j.cursor) .redo "redo" event)

/-- The report of a filed commit. -/
def filedNote (event : Event) (filed : Filed) : Note :=
  match filed.placement with
  | .newRun => .event .debug "commit"
      [("node", filed.address.text), ("event_id", event.id.text), ("kind", event.kind)]
  | .joined head => .event .debug "commit extends run"
      [("node", filed.address.text), ("head", head.text), ("event_id", event.id.text),
        ("kind", event.kind)]

/-- Hear that an event was committed: what could be redone is dropped, and the event is filed. -/
def hearCommitted (j : Journal) (event : Event) : Except Fault Reaction := do
  let (dropping, kept) ←
    if j.redoable then do
      let (dropped, kept) ← j.timeline.truncateAfter j.cursor
      .ok ([Note.event .debug "redo tail discarded by commit"
        [("at", j.cursor.text), ("dropped", toString dropped)]], kept)
    else
      .ok ([], j.timeline)
  let (filed, timeline) := kept.append event
  let current := Position.on filed.address
  .ok ⟨{ j with timeline := timeline, cursor := current },
    dropping ++ [filedNote event filed],
    some ⟨j.cursor, current, .commit, true, leftBy timeline j.cursor current⟩⟩

/-- The fields of a report about forgotten entries. -/
def droppedFields (dropped : Nat) (timeline : Timeline) : List Field :=
  [("dropped", toString dropped), ("remaining", toString timeline.size)]

/-- Hear that everything up to the cursor was forgotten. -/
def hearUndoCleared (j : Journal) : Except Fault Reaction := do
  let (dropped, timeline) ← j.timeline.truncateThrough j.cursor
  .ok ⟨{ j with timeline := timeline, cursor := .start },
    [.event .debug "undo history cleared" (droppedFields dropped timeline)],
    some ⟨j.cursor, .start, .clearUndo, decide (0 < dropped), none⟩⟩

/-- Hear that everything behind the cursor was forgotten. -/
def hearRedoCleared (j : Journal) : Except Fault Reaction := do
  let (dropped, timeline) ← j.timeline.truncateAfter j.cursor
  .ok ⟨{ j with timeline := timeline },
    [.event .debug "redo history cleared" (droppedFields dropped timeline)],
    some ⟨j.cursor, j.cursor, .clearRedo, decide (0 < dropped), none⟩⟩

/-- Hear a notice. -/
def hear (j : Journal) : Notice → Except Fault Reaction
  | .committed event => j.hearCommitted event
  | .undone event => j.hearUndone event
  | .redone event => j.hearRedone event
  | .undoCleared => j.hearUndoCleared
  | .redoCleared => j.hearRedoCleared

end Journal

end UndoJournal
