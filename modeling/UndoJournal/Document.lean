import UndoJournal.Observers.Registry
import UndoJournal.Inspect

/-!
# Documents

A `Document` is a document of which only the undo history is kept: the events that are applied and
those that were undone, on two stacks. It passes a notice of every change to its observers.

A change that goes through one event is made in two halves around the notice: the event leaves its
stack, the observers are told, and then it enters the other stack. **An event whose notice meets a
fault is therefore on neither stack** afterwards.
-/

namespace UndoJournal

/-- The undo history of a document and who observes it. -/
structure Document (ο : Type) where
  /-- The applied events, newest first. -/
  past : List Event
  /-- The undone events, the next to be redone first. -/
  future : List Event
  /-- The number of the next event. -/
  nextId : Nat
  /-- Who is told of changes. -/
  observers : Registry ο

/-- Where a state keeps a document, and how an observer of it is told of a notice. -/
structure Audience (σ ο : Type) where
  /-- The document as a part of the state. -/
  document : Lens σ (Document ο)
  /-- Tell an observer. -/
  deliver : ο → Notice → Action σ Unit

namespace Document

variable {ο : Type}

/-- A document without history and observers. -/
def empty : Document ο := ⟨[], [], 0, .empty⟩

/-- The applied events, oldest first. -/
def applied (d : Document ο) : List Event := d.past.reverse

/-- Whether there is an event to undo. -/
def canUndo (d : Document ο) : Bool := !d.past.isEmpty

/-- Whether there is an event to redo. -/
def canRedo (d : Document ο) : Bool := !d.future.isEmpty

/-- Register an observer; the number of the registration comes along. -/
def observe (observer : ο) (d : Document ο) : Nat × Document ο :=
  let (id, observers) := d.observers.add observer
  (id, { d with observers := observers })

/-- Remove a registration; whether there was one comes along. -/
def unobserve (id : Nat) (d : Document ο) : Bool × Document ο :=
  let (found, observers) := d.observers.remove id
  (found, { d with observers := observers })

/-- The document after a commit: what could be redone is forgotten. -/
def committed (e : Event) (d : Document ο) : Document ο :=
  { d with past := e :: d.past, future := [], nextId := d.nextId + 1 }

/-- The picture of a document in reports. -/
def inspect (d : Document ο) : String :=
  Inspect.record "FakeDocument"
    [("undo", toString d.past.length), ("redo", toString d.future.length),
      ("observers", toString d.observers.size)]

end Document

namespace Audience

variable {σ ο : Type}

/-- Look at the document. -/
def look (a : Audience σ ο) : Action σ (Document ο) := do
  let s ← Action.get
  pure (a.document.get s)

/-- Change the document. -/
def change (a : Audience σ ο) (f : Document ο → Document ο) : Action σ Unit :=
  Action.modify (a.document.modify f)

/-- Tell every observer. -/
def notify (a : Audience σ ο) (notice : Notice) : Action σ Unit := do
  let d ← a.look
  d.observers.notify a.deliver notice

/-- Commit a new event. -/
def commit (a : Audience σ ο) (kind description : String) : Action σ Event := do
  let d ← a.look
  let e : Event := ⟨⟨d.nextId⟩, kind, description⟩
  a.change (Document.committed e)
  Action.note .trace "document commit" [("event_id", e.id.text)]
  a.notify (.committed e)
  pure e

/-- Undo the newest applied event; `false` if there is none. -/
def undo (a : Audience σ ο) : Action σ Bool := do
  let d ← a.look
  match d.past with
  | [] => pure false
  | e :: past => do
    a.change fun d => { d with past := past }
    a.notify (.undone e)
    a.change fun d => { d with future := e :: d.future }
    pure true

/-- Redo the event that was undone last; `false` if there is none. -/
def redo (a : Audience σ ο) : Action σ Bool := do
  let d ← a.look
  match d.future with
  | [] => pure false
  | e :: future => do
    a.change fun d => { d with future := future }
    a.notify (.redone e)
    a.change fun d => { d with past := e :: d.past }
    pure true

/-- Forget the applied events. -/
def clearUndo (a : Audience σ ο) : Action σ Unit := do
  a.change fun d => { d with past := [] }
  a.notify .undoCleared

/-- Forget the undone events. -/
def clearRedo (a : Audience σ ο) : Action σ Unit := do
  a.change fun d => { d with future := [] }
  a.notify .redoCleared

end Audience

end UndoJournal
