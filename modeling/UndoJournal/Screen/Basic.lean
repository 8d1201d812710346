import UndoJournal.Screen.Link
import UndoJournal.Screen.Traffic
import UndoJournal.Widget

/-!
# Screens

A `Screen` is a widget, the link that makes it follow a journal, and optionally a record of the
traffic between the two. The link listens to the widget for the kinds of signals that somebody wants
to handle; a signal that is not suppressed becomes a `UserAct`.
-/

namespace UndoJournal

/-- Who listens to the widget of a screen. -/
inductive Listener where
  /-- The link of the screen. -/
  | link
  /-- Somebody else, known by a number. -/
  | other (number : Nat)
deriving DecidableEq

/-- What a user did, as far as anybody has to react. -/
inductive UserAct where
  /-- A row was selected. -/
  | select (position : Position)
  /-- A run was expanded. -/
  | expand (group : Nat)
  /-- A run was collapsed. -/
  | collapse (group : Nat)
deriving DecidableEq

/-- What a signal says a user did, if it says so. -/
def Signal.userAct? : Signal → Option UserAct
  | .selectionChanged (some p) => some (.select p)
  | .selectionChanged none => none
  | .rowExpanded group => some (.expand group)
  | .rowCollapsed group => some (.collapse group)

/-- Which kinds of signals somebody wants to handle. -/
structure Handlers where
  /-- Whether selections are handled. -/
  select : Bool := true
  /-- Whether expansions are handled. -/
  expand : Bool := true
  /-- Whether collapses are handled. -/
  collapse : Bool := true
deriving DecidableEq

/-- A widget, the link that makes it follow a journal, and the traffic between the two. -/
structure Screen where
  /-- What is shown, and who listens. -/
  widget : Widget Listener
  /-- The record of the traffic, if there is one. -/
  traffic : Option Traffic
  /-- What makes the widget follow a journal. -/
  link : Link

namespace Handlers

/-- The kinds of signals that are handled, in order of connection. -/
def kinds (h : Handlers) : List SignalKind :=
  (if h.select then [.selectionChanged] else []) ++ (if h.expand then [.rowExpanded] else []) ++
    (if h.collapse then [.rowCollapsed] else [])

/-- The picture of the handlers in reports. -/
def inspect (h : Handlers) : String :=
  Inspect.record "ViewHandlers"
    [("on_selection_changed", Inspect.bool h.select), ("on_row_expanded", Inspect.bool h.expand),
      ("on_row_collapsed", Inspect.bool h.collapse)]

end Handlers

namespace Screen

/-- The widget as a part of the screen. -/
def widgetLens : Lens Screen (Widget Listener) := ⟨widget, fun w s => { s with widget := w }⟩

/-- The link as a part of the screen. -/
def linkLens : Lens Screen Link := ⟨link, fun l s => { s with link := l }⟩

/-- Connect one listener of the link for each kind of signals. -/
def connectAll (hub : Hub Listener) : List SignalKind → List Connection × Hub Listener
  | [] => ([], hub)
  | kind :: kinds =>
    let (c, hub) := hub.connect kind .link
    let (cs, hub) := connectAll hub kinds
    (c :: cs, hub)

/-- A screen around an outline, with a fresh link that listens for what is handled. -/
def assemble (settings : ViewSettings) (handlers : Handlers) (traffic : Option Traffic)
    (o : Outline) : Screen :=
  let (connections, hub) := connectAll .empty handlers.kinds
  ⟨⟨o, hub⟩, traffic, .fresh settings connections⟩

/-- The report of a screen that was just assembled. -/
def assembledNote (s : Screen) : Note :=
  .event .debug "view sync connected" [("callbacks", toString s.link.connections.length)]

/-! ### Handling the link -/

/-- Change the link. -/
def onLink (f : Link → Link) (s : Screen) : Screen := { s with link := f s.link }

/-- Skip updates from now on. -/
def pause : Screen → Screen := onLink fun l => { l with paused := true }

/-- Follow updates from now on. -/
def resume : Screen → Screen := onLink fun l => { l with paused := false }

/-- Block or unblock the listeners of the link. -/
def blockListeners (blocked : Bool) (s : Screen) : Screen :=
  { s with
    widget := { s.widget with
      hub := s.link.connections.foldl (fun h c => h.setBlocked c blocked) s.widget.hub } }

/-- The screen after its link is gone: the link's listeners are out of the hub. -/
def disconnected (s : Screen) : Screen :=
  { s with
    widget := { s.widget with hub := s.link.connections.foldl Hub.disconnect s.widget.hub }
    link := { s.link with disconnected := true, connections := [] } }

/-- Disconnect the link for good. -/
def disconnect : Action Screen Unit := do
  let s ← Action.get
  if s.link.disconnected then pure ()
  else do
    Action.modify disconnected
    Action.note .debug "view sync disconnected" []

/-- Write a signal into the record of the traffic. -/
def overhear (signal : Signal) (s : Screen) : Screen :=
  { s with traffic := s.traffic.map fun t => t.overhear signal }

/-- Make the next call of an operation go wrong. -/
def plant (op : ViewOp) (breakage : Breakage) (s : Screen) : Screen :=
  { s with traffic := s.traffic.map fun t => t.plant op breakage }

/-- Whether a view call is going on. -/
def inCall (s : Screen) : Bool :=
  match s.traffic with
  | none => false
  | some t => t.inCall

/-- The recorded calls, and the screen with an empty record. -/
def drain (s : Screen) : List ViewCall × Screen :=
  match s.traffic with
  | none => ([], s)
  | some t => (t.calls, { s with traffic := some { t with calls := [] } })

/-! ### Pictures in reports -/

/-- The picture of the view with the record around it. -/
def inspectView (s : Screen) : String :=
  match s.traffic with
  | none => s.widget.inspect
  | some t => Inspect.record "RecordingView" [("inner", s.widget.inspect), ("log", t.inspect)]

/-- The picture of the link with its view. -/
def inspectLink (s : Screen) : String :=
  Inspect.record "ViewSync"
    [("view", s.inspectView), ("config", Link.inspectSettings s.link.settings),
      ("connections", toString s.link.connections.length)]

end Screen

end UndoJournal
