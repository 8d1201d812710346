import UndoJournal.Outline.Edit
import UndoJournal.Outline.Picture
import UndoJournal.Inspect

/-!
# Widgets

A `Widget` is an outline together with the hub of those who listen to it. Whatever it is asked to
do, it takes on its new state, reports, and then fires its signals one by one; each emission calls
its receivers in order. What a call does is up to a `Wiring`, so one widget serves many states.
-/

namespace UndoJournal

/-- An outline and its listeners. -/
structure Widget (κ : Type) where
  /-- What is shown. -/
  outline : Outline
  /-- Who listens. -/
  hub : Hub κ

/-- Where a state keeps a widget, and what calling one of its listeners does. -/
structure Wiring (σ κ : Type) where
  /-- The widget as a part of the state. -/
  widget : Lens σ (Widget κ)
  /-- Call a listener with a signal. -/
  call : κ → Signal → Action σ Unit

/-- Fire a signal into a hub: the receivers are chosen first and called then. -/
def Hub.emit {σ κ : Type} (hub : Lens σ (Hub κ)) (call : κ → Signal → Action σ Unit)
    (signal : Signal) : Action σ Unit := do
  let s ← Action.get
  let receivers := (hub.get s).receivers signal
  Action.note .trace "view signal"
    [("signal", Inspect.signal signal), ("receivers", toString receivers.length)]
  Action.each (fun listener => call listener signal) receivers

namespace Widget

/-- The hub as a part of the widget. -/
def hubLens {κ : Type} : Lens (Widget κ) (Hub κ) := ⟨hub, fun h w => { w with hub := h }⟩

/-- The outline as a part of the widget. -/
def outlineLens {κ : Type} : Lens (Widget κ) Outline :=
  ⟨outline, fun o w => { w with outline := o }⟩

/-- The picture of a widget in reports. -/
def inspect {κ : Type} (w : Widget κ) : String :=
  let key : RowKey → String
    | .sentinel => "Sentinel"
    | .entry id => Inspect.wrapped "Node" (Inspect.wrapped "NodeId" (toString id.raw))
  Inspect.record "HistoryTree"
    [("rows", toString w.outline.rows.length), ("expanded", toString w.outline.expanded.length),
      ("selected", Inspect.optional (w.outline.selected.map key)),
      ("connections", toString w.hub.size)]

end Widget

namespace Wiring

variable {σ κ : Type}

/-- Carry out a response: take on its state, report its notes, fire its signals. -/
def enact (w : Wiring σ κ) (r : Response) : Action σ Unit := do
  Action.modify ((w.widget.comp Widget.outlineLens).set r.outline)
  Action.report r.notes
  Action.each (Hub.emit (w.widget.comp Widget.hubLens) w.call) r.signals

/-- The outline of the widget. -/
def outline (w : Wiring σ κ) : Action σ Outline := do
  let s ← Action.get
  pure (w.widget.get s).outline

/-- Carry out what a program asks. -/
def perform (w : Wiring σ κ) (command : ViewCommand) : Action σ (Except ViewError Unit) := do
  match (← w.outline).perform command with
  | .error e => pure (.error e)
  | .ok r => do
    w.enact r
    pure (.ok ())

/-- Carry out a click on a row. -/
def click (w : Wiring σ κ) (index : Nat) : Action σ (Except ViewError Unit) := do
  match (← w.outline).click index with
  | .error e => pure (.error e)
  | .ok r => do
    w.enact r
    pure (.ok ())

/-- Carry out what a user does to an expander. -/
def use (w : Wiring σ κ) (gesture : Outline → Except ViewError (Bool × Response)) :
    Action σ (Except ViewError Bool) := do
  match gesture (← w.outline) with
  | .error e => pure (.error e)
  | .ok (changed, r) => do
    w.enact r
    pure (.ok changed)

/-- Carry out the expansion of a row. -/
def expandRow (w : Wiring σ κ) (index : Nat) : Action σ (Except ViewError Bool) :=
  w.use fun o => o.expandRow index

/-- Carry out the collapse of a row. -/
def collapseRow (w : Wiring σ κ) (index : Nat) : Action σ (Except ViewError Bool) :=
  w.use fun o => o.collapseRow index

/-- Carry out a click on an expander. -/
def toggleRow (w : Wiring σ κ) (index : Nat) : Action σ (Except ViewError Bool) :=
  w.use fun o => o.toggleRow index

end Wiring

end UndoJournal
