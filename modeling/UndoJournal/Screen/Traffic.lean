import UndoJournal.Outline.Edit
import UndoJournal.Inspect

/-!
# Traffic between a link and its view

A `Traffic` record lists what a link asked of its view and what the view fired, and remembers
whether a view call is going on. It also holds at most one planned **breakage**: the next call of
that operation answers an error, or breaks down, instead of reaching the view.
-/

namespace UndoJournal

/-- How a view call is made to go wrong. -/
inductive Breakage where
  /-- It answers an error. -/
  | error
  /-- It breaks down. -/
  | collapse
deriving DecidableEq

/-- One thing that passed between a link and its view. -/
inductive ViewCall where
  /-- The rows of that many entries were to be shown. -/
  | rebuild (size : Nat)
  /-- A row was to be selected. -/
  | select (node : Address)
  /-- Nothing was to be selected. -/
  | clearSelection
  /-- A row was to be made visible. -/
  | expandTo (node : Address)
  /-- A run was to be collapsed. -/
  | collapseGroup (group : Nat)
  /-- A row was to be scrolled to. -/
  | scrollTo (node : Address)
  /-- The view fired a signal, during a view call or not. -/
  | fired (signal : Signal) (duringCall : Bool)
deriving DecidableEq

/-- The call that a command makes. -/
def ViewCommand.call : ViewCommand → ViewCall
  | rebuild t => .rebuild t.size
  | select node => .select node
  | clearSelection => .clearSelection
  | expandTo node => .expandTo node
  | collapseGroup group => .collapseGroup group
  | scrollTo node => .scrollTo node

/-- What passed between a link and its view. -/
structure Traffic where
  /-- What passed, oldest first. -/
  calls : List ViewCall
  /-- The number of view calls that are going on. -/
  ongoing : Nat
  /-- The operation that is to go wrong next, and how. -/
  breakage : Option (ViewOp × Breakage)
deriving DecidableEq

namespace Traffic

/-- Nothing has passed. -/
def quiet : Traffic := ⟨[], 0, none⟩

/-- Whether a view call is going on. -/
def inCall (t : Traffic) : Bool := 0 < t.ongoing

/-- Write a call down. -/
def write (t : Traffic) (call : ViewCall) : Traffic := { t with calls := t.calls ++ [call] }

/-- Write a signal down. -/
def overhear (t : Traffic) (signal : Signal) : Traffic := t.write (.fired signal t.inCall)

/-- How a call of an operation is to go wrong, if at all. -/
def breakageOf (t : Traffic) (op : ViewOp) : Option Breakage :=
  match t.breakage with
  | some (target, breakage) => if target = op then some breakage else none
  | none => none

/-- The record after a call of an operation was made to go wrong, or was not. -/
def spend (t : Traffic) (op : ViewOp) : Traffic :=
  if (t.breakageOf op).isSome then { t with breakage := none } else t

/-- A view call begins. -/
def enter (t : Traffic) : Traffic := { t with ongoing := t.ongoing + 1 }

/-- A view call is over. -/
def leave (t : Traffic) : Traffic := { t with ongoing := t.ongoing - 1 }

/-- Make the next call of an operation go wrong. -/
def plant (t : Traffic) (op : ViewOp) (breakage : Breakage) : Traffic :=
  { t with breakage := some (op, breakage) }

/-- The picture of the record in reports. -/
def inspect (t : Traffic) : String :=
  Inspect.record "CallLog"
    [("calls", toString t.calls.length), ("in_call", Inspect.bool t.inCall)]

end Traffic

end UndoJournal
