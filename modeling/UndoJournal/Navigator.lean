import UndoJournal.Screen.Basic
import UndoJournal.Desk

/-!
# The navigator

A `Navigator` turns the acts of a user in a view into undo and redo steps of the document.

* Selecting a row **walks** the document there, one step at a time.
* Collapsing the run whose head the cursor is on steps to the end of that run, with notices muted,
  and then places the cursor.
* Expanding the run that the cursor is in tells the view the whole state again, so that it shows
  the real current event.

The document is reached through the `Controls`; it sends its notices to the journal in the usual
way. A walk stops at the first step that the document refuses. While a navigator is **busy** it
drops further acts, and once it is gone it ignores them.
-/

namespace UndoJournal

/-- The direction of a step. -/
inductive Direction where
  | undo
  | redo
deriving DecidableEq

/-- The word for a direction. -/
def Direction.word : Direction → String
  | undo => "undo"
  | redo => "redo"

/-- The name of a direction in pictures. -/
def Direction.name : Direction → String
  | undo => "Undo"
  | redo => "Redo"

/-- Why the document did not get where the user wanted it. -/
inductive HistoryError where
  /-- It refused a step after so many of those requested. -/
  | engineRefused (step : Direction) (done requested : Nat)
  /-- It made all steps and the cursor is elsewhere. -/
  | walkDiverged (target reached : Position)
  /-- The journal has no such position. -/
  | unknownTarget (target : Position)
deriving DecidableEq

namespace HistoryError

/-- The name of the error. -/
def word : HistoryError → String
  | engineRefused _ _ _ => "EngineRefused"
  | walkDiverged _ _ => "WalkDiverged"
  | unknownTarget _ => "UnknownTarget"

/-- The text of the error. -/
def message : HistoryError → String
  | engineRefused step done requested =>
    "engine refused to " ++ step.word ++ " after " ++ toString done ++ " of " ++
      toString requested ++ " steps"
  | walkDiverged target reached => "walk to " ++ target.text ++ " ended at " ++ reached.text
  | unknownTarget target => target.text ++ " is not in the log"

/-- The picture of the error in reports. -/
def inspect : HistoryError → String
  | engineRefused step done requested =>
    Inspect.record "EngineRefused"
      [("step", step.name), ("done", toString done), ("requested", toString requested)]
  | walkDiverged target reached =>
    Inspect.record "WalkDiverged"
      [("target", Inspect.position target), ("reached", Inspect.position reached)]
  | unknownTarget target => Inspect.wrapped "UnknownTarget" (Inspect.position target)

end HistoryError

/-- Whether a navigator can act. -/
inductive Presence where
  /-- It can. -/
  | idle
  /-- It is acting. -/
  | busy
  /-- It is no longer there. -/
  | gone
deriving DecidableEq

/-- What turns the acts of a user into steps of the document. -/
structure Navigator where
  /-- Whether it can act. -/
  presence : Presence
  /-- The last error of an act, until it is taken. -/
  lastError : Option HistoryError
deriving DecidableEq

/-- How a navigator reaches the journal and the document in a state. -/
structure Controls (σ : Type) where
  /-- The journal as a part of the state. -/
  journal : Lens σ Journal
  /-- Tell the follower of the journal the whole state again. -/
  resync : Action σ Unit
  /-- Make the document undo one event; `false` if it refuses. -/
  undo : Action σ Bool
  /-- Make the document redo one event; `false` if it refuses. -/
  redo : Action σ Bool

/-- The picture of a way to go in reports. -/
def Walk.inspect : Walk → String
  | stay => "Stay"
  | undo steps => Inspect.wrapped "Undo" (toString steps)
  | redo steps => Inspect.wrapped "Redo" (toString steps)

/-- The picture of a journal in reports. -/
def Journal.inspect (j : Journal) (attached : Bool) : String :=
  Inspect.record "EventLog"
    [("events", toString j.timeline.size), ("groups", toString j.timeline.runs.length),
      ("current", Inspect.position j.cursor), ("notifications_blocked", Inspect.bool j.muted),
      ("attached", Inspect.bool attached)]

namespace Controls

variable {σ : Type}

/-- The journal. -/
def look (c : Controls σ) : Action σ Journal := do
  let s ← Action.get
  pure (c.journal.get s)

/-- One step in a direction. -/
def step (c : Controls σ) : Direction → Action σ Bool
  | .undo => c.undo
  | .redo => c.redo

/-- So many steps in a direction, when `done` of those requested were made before. -/
def march (c : Controls σ) (d : Direction) (requested : Nat) :
    Nat → Nat → Action σ (Except HistoryError Unit)
  | _, 0 => pure (.ok ())
  | done, remaining + 1 => do
    if ← c.step d then do
      Action.note .trace "history step"
        [("step", d.word), ("done", toString (done + 1)), ("requested", toString requested)]
      march c d requested (done + 1) remaining
    else
      pure (.error (.engineRefused d done requested))

/-- Go a way. -/
def go (c : Controls σ) : Walk → Action σ (Except HistoryError Unit)
  | .stay => pure (.ok ())
  | .undo steps => c.march .undo steps 0 steps
  | .redo steps => c.march .redo steps 0 steps

/-- Walk the document to a position; the way that was gone comes along. -/
def select (c : Controls σ) (target : Position) : Action σ (Except HistoryError Walk) := do
  let j ← c.look
  if !j.timeline.contains target then
    pure (.error (.unknownTarget target))
  else do
    let walk ← Action.ofExcept (j.stepsTo target)
    Action.note .debug "history selection" [("target", target.text), ("walk", walk.inspect)]
    match ← c.go walk with
    | .error e => pure (.error e)
    | .ok () => do
      let reached := (← c.look).cursor
      if reached = target then pure (.ok walk) else pure (.error (.walkDiverged target reached))

/-- How many steps a march made, by how it went. -/
def stepsMade (children : Nat) : Except HistoryError Unit → Nat
  | .ok () => children
  | .error (.engineRefused _ done _) => done
  | .error _ => 0

/-- Step through a run from its head, with notices muted, and place the cursor. -/
def stepThrough (c : Controls σ) (group children : Nat) :
    Action σ (Except HistoryError Bool) := do
  let result ←
    Action.bracket (c.journal.modify fun j => j.mute true) (c.journal.modify fun j => j.mute false)
      (c.march .redo children 0 children)
  match stepsMade children result with
  | 0 => pure ()
  | done + 1 => Action.zoom c.journal (Journal.placing (.on (.ofChild group done)))
  match result with
  | .ok () => pure (.ok true)
  | .error e => pure (.error e)

/-- React to the collapse of a run: if the cursor is on its head, step to its end. Whether any step
was to be made comes along. -/
def collapse (c : Controls σ) (group : Nat) : Action σ (Except HistoryError Bool) := do
  let j ← c.look
  if j.cursor ≠ .on (.ofHead group) then pure (.ok false)
  else
    match j.timeline.runs[group]? with
    | none => pure (.ok false)
    | some run =>
      if run.rest.isEmpty then pure (.ok false)
      else do
        Action.note .debug "collapse steps through run"
          [("group", toString group), ("children", toString run.rest.length)]
        c.stepThrough group run.rest.length

/-- React to the expansion of a run: if the cursor is in it, tell the view the whole state again.
Whether it was comes along. -/
def expand (c : Controls σ) (group : Nat) : Action σ (Except HistoryError Bool) := do
  let j ← c.look
  if j.cursor.group? = some group then do
    Action.note .trace "expanded run holds cursor, resyncing" [("group", toString group)]
    c.resync
    pure (.ok true)
  else
    pure (.ok false)

/-- React to an act of the user; only whether it failed matters. -/
def act (c : Controls σ) : UserAct → Action σ (Except HistoryError Unit)
  | .select p => do pure ((← c.select p).map fun _ => ())
  | .collapse group => do pure ((← c.collapse group).map fun _ => ())
  | .expand group => do pure ((← c.expand group).map fun _ => ())

end Controls

/-- The name of an act in reports. -/
def UserAct.word : UserAct → String
  | select _ => "selection_changed"
  | expand _ => "row_expanded"
  | collapse _ => "row_collapsed"

namespace Navigator

variable {σ α : Type}

/-- A navigator that has not acted yet. -/
def fresh : Navigator := ⟨.idle, none⟩

/-- The report of an act that finds no navigator. -/
def goneNote (act : UserAct) : Note :=
  .event .trace "undo history gone, signal ignored" [("signal", act.word)]

/-- The report of an act that finds the navigator busy. -/
def busyNote (act : UserAct) : Note :=
  .event .warn "undo history busy, signal dropped" [("signal", act.word)]

/-- Let the navigator act: it is busy until that is over, whether or not it met a fault. -/
def acting (l : Lens σ Navigator) (x : Action σ α) : Action σ α :=
  Action.bracket (l.modify fun n => { n with presence := .busy })
    (l.modify fun n => { n with presence := .idle }) x

/-- React to an act of the user and keep its error in mind, if the navigator is free to. -/
def handle (l : Lens σ Navigator) (c : Controls σ) (act : UserAct) : Action σ Unit := do
  let s ← Action.get
  match (l.get s).presence with
  | .gone => Action.report [goneNote act]
  | .busy => Action.report [busyNote act]
  | .idle =>
    acting l do
      match ← c.act act with
      | .ok () => pure ()
      | .error e => do
        Action.note .warn "history action failed" [("signal", act.word), ("error", e.message)]
        Action.modify (l.modify fun n => { n with lastError := some e })

/-- What happens to an act of the user that comes while the journal is being used: a navigator that
is free to act would use the journal again. -/
def interrupt (l : Lens σ Navigator) (act : UserAct) : Action σ Unit := do
  let s ← Action.get
  match (l.get s).presence with
  | .gone => Action.report [goneNote act]
  | .busy => Action.report [busyNote act]
  | .idle => Action.fail .reentered

/-- Take the last error. -/
def takeError (l : Lens σ Navigator) : Action σ (Option HistoryError) := do
  let s ← Action.get
  Action.modify (l.modify fun n => { n with lastError := none })
  pure (l.get s).lastError

/-- The picture of a navigator in reports, with that of the journal it reads. -/
def inspect (n : Navigator) (journal : String) : String :=
  Inspect.openRecord "UndoHistory"
    [("log", Inspect.shared journal),
      ("last_error", Inspect.optional (n.lastError.map HistoryError.inspect))]

end Navigator

end UndoJournal
