import UndoJournal.Widget

/-!
# A bench for the widget

A `WidgetBench` has a timeline, a widget that sees it only when its rows are shown anew, and
listeners that write down each call with what the widget looked like from inside the call.
-/

namespace UndoJournal

/-- A call of a listener. -/
structure Heard where
  /-- The index of the listener. -/
  listener : Nat
  /-- The signal. -/
  signal : Signal
  /-- The position of the selected row at that time. -/
  selected : Option Position
  /-- The number of rows that could be seen at that time. -/
  visible : Nat
deriving DecidableEq

/-- A widget with everything that is needed to drive it. -/
structure WidgetBench where
  /-- The timeline. -/
  timeline : Timeline
  /-- The widget; the listeners are the indices of their handles. -/
  widget : Widget Nat
  /-- The handles of the listeners. -/
  handles : List Connection
  /-- The calls, oldest first. -/
  heard : List Heard

namespace WidgetBench

/-- A widget that shows nothing yet, beside an empty timeline. -/
def empty (grouping : Bool) (o : Outline) : WidgetBench := ⟨.empty grouping, ⟨o, .empty⟩, [], []⟩

/-- The timeline as a part of the bench. -/
def timelineLens : Lens WidgetBench Timeline := ⟨timeline, fun t b => { b with timeline := t }⟩

/-- The wiring of the widget. -/
def wiring : Wiring WidgetBench Nat where
  widget := ⟨widget, fun w b => { b with widget := w }⟩
  call listener signal := Action.modify fun b =>
    { b with
      heard := b.heard ++
        [⟨listener, signal, b.widget.outline.selectedPosition?, b.widget.outline.visible.length⟩] }

/-- Connect a listener. -/
def connect (kind : SignalKind) (b : WidgetBench) : WidgetBench :=
  let (c, hub) := b.widget.hub.connect kind b.handles.length
  { b with widget := { b.widget with hub := hub }, handles := b.handles ++ [c] }

/-- Block or unblock the listener at an index. -/
def block (index : Nat) (blocked : Bool) (b : WidgetBench) : WidgetBench :=
  match b.handles[index]? with
  | none => b
  | some c => { b with widget := { b.widget with hub := b.widget.hub.setBlocked c blocked } }

/-- Let go of the handle at an index, which disconnects its listener. -/
def drop (index : Nat) (b : WidgetBench) : WidgetBench :=
  match b.handles[index]? with
  | none => b
  | some c => { b with
      widget := { b.widget with hub := b.widget.hub.disconnect c }
      handles := b.handles.set index c.unlink }

end WidgetBench

end UndoJournal
