import UndoJournal.Journal
import UndoJournal.Action
import UndoJournal.Inspect

/-!
# Fan-out to observers

A `Registry` keeps the observers of a document and passes each notice to all of them, in the order
in which they were registered. Each registration has a number of its own: one observer may be
registered several times, and a number that was removed is never used again.
-/

namespace UndoJournal

/-- Observers in order of registration. -/
structure Registry (ο : Type) where
  /-- Each registration with its number. -/
  entries : List (Nat × ο)
  /-- The number of the next registration. -/
  nextId : Nat

namespace Registry

variable {ο σ : Type}

/-- A registry without observers. -/
def empty : Registry ο := ⟨[], 0⟩

/-- Register an observer; the number of the registration comes along. -/
def add (r : Registry ο) (observer : ο) : Nat × Registry ο :=
  (r.nextId, ⟨r.entries ++ [(r.nextId, observer)], r.nextId + 1⟩)

/-- Remove a registration; whether there was one comes along. -/
def remove (r : Registry ο) (id : Nat) : Bool × Registry ο :=
  let kept := r.entries.filter fun e => e.1 != id
  (kept.length != r.entries.length, { r with entries := kept })

/-- The number of registrations. -/
def size (r : Registry ο) : Nat := r.entries.length

/-- The picture of a registry in reports. -/
def inspect (r : Registry ο) : String :=
  Inspect.record "CompositeUndoObserver" [("observers", toString r.size)]

/-- Pass a notice to every observer. -/
def notify (deliver : ο → Notice → Action σ Unit) (r : Registry ο) (notice : Notice) :
    Action σ Unit :=
  Action.each (fun e => deliver e.2 notice) r.entries

end Registry

end UndoJournal
