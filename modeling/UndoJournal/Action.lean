import UndoJournal.Fault
import UndoJournal.Note

/-!
# Actions

An `Action σ α` acts on a state `σ`, reports `Note`s and gives an `α`, unless a `Fault` cuts it
short. **A fault undoes nothing**: the state it leaves is the state it was met in, and the notes
reported before it stand. What must be put back whatever happens is put back by `Action.bracket`.

A `Lens` picks a part of a state, and `Action.zoom` turns an action on the part into an action on
the whole.
-/

namespace UndoJournal

/-- What running an action leaves: its result or the fault that cut it short, the state it
reached, and what it reported. -/
structure Outcome (σ α : Type) where
  /-- The result, or the fault. -/
  result : Except Fault α
  /-- The state that was reached, after a fault too. -/
  state : σ
  /-- What was reported, in order. -/
  notes : List Note

/-- A part `τ` of a state `σ` that can be read and replaced. -/
structure Lens (σ τ : Type) where
  /-- Read the part. -/
  get : σ → τ
  /-- Replace the part. -/
  set : τ → σ → σ

namespace Lens

variable {σ τ υ : Type}

/-- The whole as a part of itself. -/
def whole : Lens σ σ := ⟨fun s => s, fun t _ => t⟩

/-- A part of a part. -/
def comp (outer : Lens σ τ) (inner : Lens τ υ) : Lens σ υ :=
  ⟨fun s => inner.get (outer.get s), fun u s => outer.set (inner.set u (outer.get s)) s⟩

/-- Change the part. -/
def modify (l : Lens σ τ) (f : τ → τ) (s : σ) : σ := l.set (f (l.get s)) s

end Lens

/-- A computation that acts on `σ`, reports notes, and gives an `α` or meets a fault. -/
def Action (σ α : Type) : Type := σ → Outcome σ α

namespace Action

variable {σ τ α β : Type}

/-- Run an action from a state. -/
def run (x : Action σ α) (s : σ) : Outcome σ α := x s

/-- Give a result and do nothing else. -/
protected def pure (a : α) : Action σ α := fun s => ⟨.ok a, s, []⟩

/-- Run one action, then the one its result chooses; a fault in the first skips the second. -/
protected def bind (x : Action σ α) (f : α → Action σ β) : Action σ β := fun s =>
  match (x s).result with
  | .error fault => ⟨.error fault, (x s).state, (x s).notes⟩
  | .ok a =>
    let rest := f a (x s).state
    ⟨rest.result, rest.state, (x s).notes ++ rest.notes⟩

instance : Monad (Action σ) where
  pure := Action.pure
  bind := Action.bind

/-- The state. -/
def get : Action σ σ := fun s => ⟨.ok s, s, []⟩

/-- Change the state. -/
def modify (f : σ → σ) : Action σ Unit := fun s => ⟨.ok (), f s, []⟩

/-- Meet a fault. -/
def fail (fault : Fault) : Action σ α := fun s => ⟨.error fault, s, []⟩

/-- The result of a lookup, or its fault. -/
def ofExcept (x : Except Fault α) : Action σ α := fun s => ⟨x, s, []⟩

/-- Report notes. -/
def report (notes : List Note) : Action σ Unit := fun s => ⟨.ok (), s, notes⟩

/-- Report one event. -/
def note (level : Level) (message : String) (fields : List Field) : Action σ Unit :=
  report [.event level message fields]

/-- Run an action with its notes inside a span. -/
def within (span : Span) (x : Action σ α) : Action σ α := fun s =>
  ⟨(x s).result, (x s).state, [.span span.level span.name span.fields (x s).notes]⟩

/-- Change the state by `enter`, run the action, and change the state by `leave` whether or not it
met a fault. -/
def bracket (enter leave : σ → σ) (x : Action σ α) : Action σ α := fun s =>
  ⟨(x (enter s)).result, leave (x (enter s)).state, (x (enter s)).notes⟩

/-- An action on a part of the state as an action on the whole. -/
def zoom (l : Lens σ τ) (x : Action τ α) : Action σ α := fun s =>
  ⟨(x (l.get s)).result, l.set (x (l.get s)).state s, (x (l.get s)).notes⟩

/-- Do something for each element of a list, in order. -/
def each (f : β → Action σ Unit) : List β → Action σ Unit
  | [] => Action.pure ()
  | b :: bs => Action.bind (f b) fun _ => each f bs

end Action

end UndoJournal
