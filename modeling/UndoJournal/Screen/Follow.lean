import UndoJournal.Screen.Basic

/-!
# How a screen follows a journal

A `Stage` says where a state keeps a screen and how it responds to the acts of a user. An update of
the cursor is carried out under a guard, so **what the view fires in answer to a push is not taken
for an act of the user**. A push goes as follows.

1. If entries may have come or gone, or the link is stale, all rows are shown anew.
2. The runs that were left are collapsed, then the current node is expanded to, selected and
   scrolled to, or the selection is cleared (`Link.plan`).
3. The first command that fails ends the push; its error is the answer, and the link is stale.

A fault leaves the guards lowered, and everything else as it was met.
-/

namespace UndoJournal

/-- Where a state keeps a screen, and how it responds to the acts of a user. -/
structure Stage (σ : Type) where
  /-- The screen as a part of the state. -/
  screen : Lens σ Screen
  /-- Respond to an act of the user. -/
  respond : UserAct → Action σ Unit

namespace Stage

variable {σ : Type}

/-- The screen. -/
def look (st : Stage σ) : Action σ Screen := do
  let s ← Action.get
  pure (st.screen.get s)

/-- Change the screen. -/
def change (st : Stage σ) (f : Screen → Screen) : Action σ Unit :=
  Action.modify (st.screen.modify f)

/-- Call a listener of the widget: the link writes the signal down and responds to it, unless
signals are suppressed. -/
def call (st : Stage σ) (listener : Listener) (signal : Signal) : Action σ Unit :=
  match listener with
  | .other _ => pure ()
  | .link => do
    st.change (Screen.overhear signal)
    let s ← st.look
    if s.link.suppressed then
      Action.note .trace "view signal suppressed" [("signal", Inspect.signal signal)]
    else
      match signal.userAct? with
      | none => pure ()
      | some act => st.respond act

/-- The wiring of the widget of the screen. -/
def wiring (st : Stage σ) : Wiring σ Listener := ⟨st.screen.comp Screen.widgetLens, st.call⟩

/-- Change the record of the traffic, if there is one. -/
def onTraffic (f : Traffic → Traffic) (s : Screen) : Screen :=
  { s with traffic := s.traffic.map f }

/-- Send a command through the record of the traffic, where it may be made to go wrong. -/
def perform (st : Stage σ) (command : ViewCommand) : Action σ (Except ViewError Unit) := do
  st.change (onTraffic fun t => t.write command.call)
  let s ← st.look
  let breakage := s.traffic.bind fun t => t.breakageOf command.op
  st.change (onTraffic fun t => t.spend command.op)
  match breakage with
  | some .error => pure (.error (.backend ("injected " ++ command.op.word ++ " failure")))
  | some .collapse => Action.fail (.brokenView command.op)
  | none =>
    Action.bracket (st.screen.modify (onTraffic Traffic.enter))
      (st.screen.modify (onTraffic Traffic.leave)) (st.wiring.perform command)

/-- Send commands one after the other, up to the first that fails. -/
def performAll (st : Stage σ) : List ViewCommand → Action σ (Except ViewError Unit)
  | [] => pure (.ok ())
  | command :: commands => do
    match ← st.perform command with
    | .error e => pure (.error e)
    | .ok () => performAll st commands

/-- Show all rows anew if that is due. -/
def refresh (st : Stage σ) (t : Timeline) (update : CursorUpdate) :
    Action σ (Except ViewError Unit) := do
  let s ← st.look
  if update.reshaped || s.link.stale then
    match ← st.perform (.rebuild t) with
    | .error e => pure (.error e)
    | .ok () => do
      st.change (Screen.onLink fun l => { l with stale := false })
      pure (.ok ())
  else
    pure (.ok ())

/-- Carry out an update, once it is clear that it is not to be skipped. -/
def push (st : Stage σ) (t : Timeline) (update : CursorUpdate) :
    Action σ (Except ViewError Unit) := do
  match ← st.refresh t update with
  | .error e => pure (.error e)
  | .ok () => do
    let s ← st.look
    st.change (Screen.onLink Link.planned)
    st.performAll (s.link.plan t update)

/-- The span of a push. -/
def pushSpan (update : CursorUpdate) : Span where
  level := .debug
  name := "evlog.view_push"
  fields :=
    [("cause", update.cause.word), ("current", update.current.text),
      ("rebuild", Inspect.bool update.reshaped)]

/-- Carry out an update and say how it went. -/
def pushed (st : Stage σ) (t : Timeline) (update : CursorUpdate) :
    Action σ (Except ViewError Unit) := do
  match ← st.push t update with
  | .error e => do
    st.change (Screen.onLink fun l => { l with stale := true })
    pure (.error e)
  | .ok () => do
    Action.note .debug "view synced"
      [("from", update.previous.text), ("to", update.current.text)]
    pure (.ok ())

/-- Follow an update of the cursor. -/
def follow (st : Stage σ) (t : Timeline) (update : CursorUpdate) :
    Action σ (Except ViewError Unit) := do
  let s ← st.look
  if s.link.disconnected then
    pure (.error .disconnected)
  else if s.link.paused then do
    st.change (Screen.onLink fun l => l.skip t update)
    Action.note .trace "view push skipped, paused" [("cause", update.cause.word)]
    pure (.ok ())
  else
    Action.within (pushSpan update)
      (Action.bracket (st.screen.modify (Screen.onLink Link.raise))
        (st.screen.modify (Screen.onLink Link.lower)) (st.pushed t update))

/-- Disconnect the link of the screen for good. -/
def disconnect (st : Stage σ) : Action σ Unit := Action.zoom st.screen Screen.disconnect

end Stage

end UndoJournal
