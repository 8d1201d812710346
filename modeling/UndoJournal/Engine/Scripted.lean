import UndoJournal.Engine.Basic

/-!
# A scripted engine

A `ScriptedEngine` has a list of events of which a beginning is applied, and makes steps along it.
It counts the steps that it is asked for and could make; past a limit it refuses them. While it is
mute it makes steps without telling of them.
-/

namespace UndoJournal

/-- An engine that steps along a list of events. -/
structure ScriptedEngine where
  /-- The events, in commit order. -/
  events : List Event
  /-- How many of them are applied. -/
  applied : Nat
  /-- The number of steps asked for since the limit was set. -/
  taken : Nat
  /-- The number of steps after which the engine refuses. -/
  limit : Option Nat
  /-- Whether the engine keeps its steps to itself. -/
  mute : Bool
  /-- The number of the next event. -/
  nextId : Nat
deriving DecidableEq

namespace ScriptedEngine

/-- An engine without events. -/
def empty : ScriptedEngine := ⟨[], 0, 0, none, false, 0⟩

/-- Whether one more step would be past the limit. -/
def exhausted (s : ScriptedEngine) : Bool :=
  match s.limit with
  | none => false
  | some limit => limit < s.taken + 1

/-- What the engine tells of a step through the event at an index. -/
def telling (s : ScriptedEngine) (index : Nat) : Reply :=
  .moved (if s.mute then none else s.events[index]?)

/-- Count a step, and make it unless it is past the limit. -/
def attempt (s : ScriptedEngine) (index applied : Nat) : Reply × ScriptedEngine :=
  let counted := { s with taken := s.taken + 1 }
  if s.exhausted then (.refused, counted)
  else (s.telling index, { counted with applied := applied })

/-- A step along the events. -/
def step (d : Direction) (s : ScriptedEngine) : Reply × ScriptedEngine :=
  match d with
  | .undo =>
    match s.applied with
    | 0 => (.refused, s)
    | n + 1 => s.attempt n n
  | .redo =>
    if s.events.length ≤ s.applied then (.refused, s)
    else s.attempt s.applied (s.applied + 1)

/-- The scripted engine as an engine. -/
def engine : Engine ScriptedEngine := ⟨step⟩

/-- Set the number of steps after which the engine refuses, and count from there. -/
def setLimit (limit : Option Nat) (s : ScriptedEngine) : ScriptedEngine :=
  { s with limit := limit, taken := 0 }

/-- Commit a new event behind the applied ones; the event comes along. -/
def commit (kind description : String) (s : ScriptedEngine) : Event × ScriptedEngine :=
  let e : Event := ⟨⟨s.nextId⟩, kind, description⟩
  (e, { s with
    events := s.events.take s.applied ++ [e], applied := s.applied + 1, nextId := s.nextId + 1 })

/-- Commit a new event and tell the journal, mute or not. -/
def commitAt {φ ω : Type} (f : Following φ ω) (kind description : String) :
    Action (EngineDesk φ ω ScriptedEngine) Unit := do
  let r ← Action.get
  let (e, engine) := r.engine.commit kind description
  Action.modify fun r => { r with engine := engine }
  Action.zoom EngineDesk.deskLens (Desk.hear f (.committed e))

end ScriptedEngine

end UndoJournal
