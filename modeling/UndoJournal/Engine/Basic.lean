import UndoJournal.Navigator

/-!
# Undo engines

An `Engine` is whatever makes undo and redo steps: at each call it may refuse, or move, and a move
may or may not come with an event that the journal is to be told of. An `EngineDesk` puts a journal,
an engine and a navigator together, so that the navigator can be studied with engines that refuse,
keep silent, or tell of the wrong event.
-/

namespace UndoJournal

/-- What an engine does when it is asked for a step. -/
inductive Reply where
  /-- It makes no step. -/
  | refused
  /-- It makes the step, and the journal is told of the event if there is one. -/
  | moved (told : Option Event)
deriving DecidableEq

/-- Something that makes undo and redo steps. -/
structure Engine (ε : Type) where
  /-- Make a step in a direction. -/
  step : Direction → ε → Reply × ε

/-- The notice of a step in a direction. -/
def Direction.notice : Direction → Event → Notice
  | .undo, e => .undone e
  | .redo, e => .redone e

/-- A journal with its follower, an engine, and the navigator between them. -/
structure EngineDesk (φ ω ε : Type) where
  /-- The journal and its follower. -/
  desk : Desk φ ω
  /-- The state of the engine. -/
  engine : ε
  /-- The navigator. -/
  navigator : Navigator

namespace EngineDesk

variable {φ ω ε : Type}

/-- The desk as a part. -/
def deskLens : Lens (EngineDesk φ ω ε) (Desk φ ω) := ⟨desk, fun d r => { r with desk := d }⟩

/-- The navigator as a part of a desk with an engine. -/
def navigatorLens : Lens (EngineDesk φ ω ε) Navigator :=
  ⟨navigator, fun n r => { r with navigator := n }⟩

/-- Make a step with the engine and pass on what it tells; `false` if it refuses. -/
def step (f : Following φ ω) (e : Engine ε) (d : Direction) :
    Action (EngineDesk φ ω ε) Bool := do
  let r ← Action.get
  let (reply, engine) := e.step d r.engine
  Action.modify fun r => { r with engine := engine }
  match reply with
  | .refused => pure false
  | .moved none => pure true
  | .moved (some event) => do
    Action.zoom deskLens (Desk.hear f (d.notice event))
    pure true

/-- How the navigator reaches the journal and the engine. -/
def controls (f : Following φ ω) (e : Engine ε) : Controls (EngineDesk φ ω ε) where
  journal := deskLens.comp Desk.journalLens
  resync := Action.zoom deskLens (Desk.resync f)
  undo := step f e .undo
  redo := step f e .redo

/-- Ask the navigator to do something, unless it is gone. -/
def ask {α : Type} (x : Action (EngineDesk φ ω ε) α) : Action (EngineDesk φ ω ε) (Option α) := do
  let r ← Action.get
  if r.navigator.presence = .gone then pure none
  else do
    let a ← Navigator.acting navigatorLens x
    pure (some a)

/-- Let the navigator handle an act of the user. -/
def handle (f : Following φ ω) (e : Engine ε) (act : UserAct) :
    Action (EngineDesk φ ω ε) Unit :=
  Navigator.handle navigatorLens (controls f e) act

/-- Let the navigator handle an act of the user in the middle of another. -/
def handleWhileBusy (f : Following φ ω) (e : Engine ε) (act : UserAct) :
    Action (EngineDesk φ ω ε) Unit := do
  match ← ask (handle f e act) with
  | some () => pure ()
  | none => handle f e act

/-- Let the navigator go away. -/
def dismiss (r : EngineDesk φ ω ε) : EngineDesk φ ω ε :=
  { r with navigator := { r.navigator with presence := .gone } }

end EngineDesk

end UndoJournal
