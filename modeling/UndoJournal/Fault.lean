import UndoJournal.Position

/-!
# Faults, and what a view can refuse

A `Fault` cuts a computation short where going on would mean guessing: an address that names no
node, a view that was told to break down, or an object that is asked to act while it is in the
middle of acting. What was changed before the fault stays changed; `Action` says how.

A `ViewError` is an answer and not a fault: the one who asked the view hears of it and goes on.
-/

namespace UndoJournal

/-- The operations of a timeline that need an address of theirs to name a node. -/
inductive Lookup where
  | next
  | prev
  | ordinal
  | truncateAfter
  | truncateThrough
deriving DecidableEq

/-- The word for a lookup in a fault's message. -/
def Lookup.word : Lookup → String
  | next => "next"
  | prev => "prev"
  | ordinal => "ordinal"
  | truncateAfter => "truncate_after"
  | truncateThrough => "truncate_through"

/-- The six things a view can be asked to do. -/
inductive ViewOp where
  | rebuild
  | select
  | clearSelection
  | expandTo
  | collapseGroup
  | scrollTo
deriving DecidableEq

/-- The name of a view operation in messages. -/
def ViewOp.word : ViewOp → String
  | rebuild => "Rebuild"
  | select => "Select"
  | clearSelection => "ClearSelection"
  | expandTo => "ExpandTo"
  | collapseGroup => "CollapseGroup"
  | scrollTo => "ScrollTo"

/-- Why a computation was cut short. -/
inductive Fault where
  /-- A lookup met an address that names no node of a timeline of that many runs and events. -/
  | unknownAddress (lookup : Lookup) (address : Address) (groups events : Nat)
  /-- The cursor was to be placed where there is no node. -/
  | misplacedCursor (position : Position)
  /-- A view operation broke down because it was told to. -/
  | brokenView (op : ViewOp)
  /-- An object was used again before its own use of others had come back. -/
  | reentered
deriving DecidableEq

/-- The text of a fault. -/
def Fault.message : Fault → String
  | unknownAddress lookup a groups events =>
    "event log " ++ lookup.word ++ ": node " ++ a.text ++ " is not in the log (" ++
      toString groups ++ " groups, " ++ toString events ++ " events)"
  | misplacedCursor p => "event log set_current: " ++ p.text ++ " is not in the log"
  | brokenView op => "injected " ++ op.word ++ " panic"
  | reentered => "borrow"

/-! ### View errors -/

/-- Why a view did not do what it was asked. -/
inductive ViewError where
  /-- It has no row for the node. -/
  | unknownRow (node : Address)
  /-- It has no run at the index. -/
  | unknownGroup (group : Nat)
  /-- It shows no row at the index. -/
  | noVisibleRow (index : Nat)
  /-- It is no longer connected. -/
  | disconnected
  /-- Something behind it failed. -/
  | backend (reason : String)
deriving DecidableEq

namespace ViewError

/-- The name of the error. -/
def word : ViewError → String
  | unknownRow _ => "UnknownRow"
  | unknownGroup _ => "UnknownGroup"
  | noVisibleRow _ => "NoVisibleRow"
  | disconnected => "Disconnected"
  | backend _ => "Backend"

/-- The text of the error. -/
def message : ViewError → String
  | unknownRow node => "view has no row for node " ++ node.text
  | unknownGroup group => "view has no group " ++ toString group
  | noVisibleRow index => "view has no visible row " ++ toString index
  | disconnected => "view is disconnected"
  | backend reason => "view backend error: " ++ reason

end ViewError

end UndoJournal
