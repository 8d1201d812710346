import UndoJournal.Timeline.Basic
import UndoJournal.Settings

/-!
# Outlines

An `Outline` is the state of a tree widget that shows a timeline: which runs are expanded, which row
is selected, and how far it is scrolled. Expansion and selection are kept by the identity of
entries and not by their addresses, so they stay with an event whose address shifts.

The rows are the **sentinel**, which stands for "nothing applied", and one row per entry. The rows
that can be seen are the sentinel, if it is wanted, every head, and the entries behind the heads of
expanded runs.
-/

namespace UndoJournal

/-- The style of the lines that connect an entry with the head of its run. -/
inductive Guides where
  | ascii
  | unicode
  | rounded
deriving DecidableEq

/-- What a row stands for, whatever its place. -/
inductive RowKey where
  /-- The row in front of all entries. -/
  | sentinel
  /-- The entry of that identity. -/
  | entry (id : EntryId)
deriving DecidableEq

/-- A row of an outline. -/
structure Row where
  /-- What the row stands for. -/
  key : RowKey
  /-- The position that the row stands for. -/
  position : Position
  /-- What the user reads. -/
  label : String
  /-- The number of entries at or before the row. -/
  ordinal : Nat
  /-- The number of entries behind the row's entry in its run. -/
  childCount : Nat
  /-- Whether the row is the last one behind a head. -/
  endsRun : Bool
deriving DecidableEq

/-- A row as it can be seen. -/
structure VisibleRow where
  /-- The place among the rows that can be seen. -/
  index : Nat
  /-- The position that the row stands for. -/
  position : Position
  /-- What the user reads. -/
  label : String
  /-- `0` for the sentinel and heads, `1` for the entries behind them. -/
  depth : Nat
  /-- The number of entries behind the row's entry in its run. -/
  childCount : Nat
  /-- Whether the run is expanded that the row heads. -/
  expanded : Bool
  /-- Whether the row is selected. -/
  selected : Bool
deriving DecidableEq

/-- The state of a tree widget that shows a timeline. -/
structure Outline where
  /-- The timeline as it was when it was last shown. -/
  shown : Timeline
  /-- The heads of the expanded runs, each once. -/
  expanded : List EntryId
  /-- The selected row. -/
  selected : Option RowKey
  /-- Whether the sentinel can be seen. -/
  showSentinel : Bool
  /-- The label of the sentinel. -/
  unchangedLabel : String
  /-- The style of the connecting lines. -/
  guides : Guides
  /-- The number of rows that fit on the screen, `0` for all. -/
  viewport : Nat
  /-- The place of the first row on the screen among the rows that can be seen. -/
  scrollOffset : Nat
deriving DecidableEq

/-- Whether the row is that of an entry behind a head. -/
def Row.isChild (r : Row) : Bool :=
  match r.position with
  | .start => false
  | .on a => a.isChild

/-- The row of a placed entry that is the `ordinal`-th. -/
def Row.ofPlaced (p : Placed) (ordinal : Nat) : Row where
  key := .entry p.entry.id
  position := .on p.address
  label := p.entry.event.description
  ordinal := ordinal
  childCount := p.childCount
  endsRun := p.endsRun

namespace Outline

/-- An outline that shows nothing yet. -/
def empty (settings : Settings) (guides : Guides) (viewport : Nat) : Outline where
  shown := .empty settings.grouping
  expanded := []
  selected := none
  showSentinel := settings.view.showSentinel
  unchangedLabel := settings.labels.unchanged
  guides := guides
  viewport := viewport
  scrollOffset := 0

/-- The row in front of all entries. -/
def sentinel (o : Outline) : Row := ⟨.sentinel, .start, o.unchangedLabel, 0, 0, false⟩

/-- The rows of the entries of a timeline, in order. -/
def rowsOf (t : Timeline) : List Row :=
  (t.placed.zipIdx 1).map fun (p, ordinal) => Row.ofPlaced p ordinal

/-- All rows, in order. -/
def rows (o : Outline) : List Row := o.sentinel :: rowsOf o.shown

/-- The row that stands for something. -/
def row? (o : Outline) (key : RowKey) : Option Row := o.rows.find? fun r => r.key == key

/-- The row at a position. -/
def rowAt? (o : Outline) (p : Position) : Option Row := o.rows.find? fun r => r.position == p

/-- Whether the run at an index is expanded. -/
def isExpanded (o : Outline) (group : Nat) : Bool :=
  match o.shown.head? group with
  | none => false
  | some e => o.expanded.contains e.id

/-- Whether a row can be seen. -/
def isVisible (o : Outline) (r : Row) : Bool :=
  match r.key, r.position with
  | .sentinel, _ => o.showSentinel
  | .entry _, .start => true
  | .entry _, .on a => !a.isChild || o.isExpanded a.group

/-- The rows that can be seen, in order. -/
def visible (o : Outline) : List Row := o.rows.filter o.isVisible

/-- The place of a row among those that can be seen. -/
def visibleIndex? (o : Outline) (key : RowKey) : Option Nat :=
  o.visible.findIdx? fun r => r.key == key

/-- The position of the selected row. -/
def selectedPosition? (o : Outline) : Option Position :=
  (o.selected.bind o.row?).map Row.position

/-- The ordinal of the selected row, or that of the sentinel. -/
def currentOrdinal (o : Outline) : Nat :=
  match o.selected.bind o.row? with
  | none => 0
  | some r => r.ordinal

/-- A row as it can be seen at a place. -/
def display (o : Outline) (r : Row) (index : Nat) : VisibleRow where
  index := index
  position := r.position
  label := r.label
  depth := if r.isChild then 1 else 0
  childCount := r.childCount
  expanded :=
    match r.position with
    | .start => false
    | .on a => !a.isChild && o.isExpanded a.group
  selected := o.selected == some r.key

/-- The rows that can be seen, each with what is shown of it. -/
def visibleRows (o : Outline) : List VisibleRow :=
  o.visible.zipIdx.map fun (r, index) => o.display r index

end Outline

end UndoJournal
