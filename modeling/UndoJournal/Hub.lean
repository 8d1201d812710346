import UndoJournal.Position
import UndoJournal.Action

/-!
# Signals and the hub

A view fires a `Signal` when its selection changes or a run is expanded or collapsed. A `Hub` keeps
the listeners: each has a slot for one kind of signal, can be blocked, and is reached through a
`Connection`. **An emission is a snapshot**: its receivers are the slots of the signal's kind that
are not blocked when it starts, in order of registration, whatever they do to the hub meanwhile.

Slot numbers are never used twice, so a connection only ever speaks about its own slot.
-/

namespace UndoJournal

/-- The kinds of signals a listener can ask for. -/
inductive SignalKind where
  | selectionChanged
  | rowExpanded
  | rowCollapsed
deriving DecidableEq

/-- The name of a kind of signal. -/
def SignalKind.word : SignalKind → String
  | selectionChanged => "SelectionChanged"
  | rowExpanded => "RowExpanded"
  | rowCollapsed => "RowCollapsed"

/-- What a view tells its listeners: that another row is selected, or that a run was expanded or
collapsed. -/
inductive Signal where
  /-- The selected row is another: that of a position, or none. -/
  | selectionChanged (position : Option Position)
  /-- The run at the index was expanded. -/
  | rowExpanded (group : Nat)
  /-- The run at the index was collapsed. -/
  | rowCollapsed (group : Nat)
deriving DecidableEq

/-- The listeners a signal goes to. -/
def Signal.kind : Signal → SignalKind
  | selectionChanged _ => .selectionChanged
  | rowExpanded _ => .rowExpanded
  | rowCollapsed _ => .rowCollapsed

/-- The place of one listener in a hub. -/
structure Slot (κ : Type) where
  /-- The number of the slot. -/
  id : Nat
  /-- The kind of signals it is for. -/
  kind : SignalKind
  /-- The listener. -/
  listener : κ
  /-- Whether signals pass it by. -/
  blocked : Bool

/-- The listeners of a view, in order of registration. -/
structure Hub (κ : Type) where
  /-- The slots in use. -/
  slots : List (Slot κ)
  /-- The number of the next slot. -/
  nextId : Nat

/-- A handle to a slot. A handle that is not linked speaks about no slot, whatever its number. -/
structure Connection where
  /-- The kind of signals it was made for. -/
  kind : SignalKind
  /-- The number of its slot. -/
  id : Nat
  /-- Whether it still refers to a hub. -/
  linked : Bool
deriving DecidableEq

/-- A handle that was never connected. -/
def Connection.detached (kind : SignalKind) : Connection := ⟨kind, 0, false⟩

/-- A handle after it was disconnected. -/
def Connection.unlink (c : Connection) : Connection := { c with linked := false }

namespace Hub

variable {κ σ : Type}

/-- A hub without listeners. -/
def empty : Hub κ := ⟨[], 0⟩

/-- Register a listener. -/
def connect (h : Hub κ) (kind : SignalKind) (listener : κ) : Connection × Hub κ :=
  (⟨kind, h.nextId, true⟩, ⟨h.slots ++ [⟨h.nextId, kind, listener, false⟩], h.nextId + 1⟩)

/-- The slot a handle refers to, if it is in use. -/
def slot? (h : Hub κ) (c : Connection) : Option (Slot κ) :=
  if c.linked then h.slots.find? fun s => s.id == c.id else none

/-- Whether the listener of a handle is registered. -/
def isConnected (h : Hub κ) (c : Connection) : Bool := (h.slot? c).isSome

/-- Whether the listener of a handle is registered and blocked. -/
def isBlocked (h : Hub κ) (c : Connection) : Bool :=
  match h.slot? c with
  | some s => s.blocked
  | none => false

/-- Block or unblock the listener of a handle. -/
def setBlocked (h : Hub κ) (c : Connection) (blocked : Bool) : Hub κ :=
  if c.linked then
    { h with
      slots := h.slots.map fun s => if s.id == c.id then { s with blocked := blocked } else s }
  else h

/-- Remove the listener of a handle. -/
def disconnect (h : Hub κ) (c : Connection) : Hub κ :=
  if c.linked then { h with slots := h.slots.filter fun s => s.id != c.id } else h

/-- The number of listeners. -/
def size (h : Hub κ) : Nat := h.slots.length

/-- The number of listeners for one kind of signal. -/
def count (h : Hub κ) (kind : SignalKind) : Nat := (h.slots.filter fun s => s.kind == kind).length

/-- The listeners that an emission of a signal started now would call. -/
def receivers (h : Hub κ) (signal : Signal) : List κ :=
  (h.slots.filter fun s => s.kind == signal.kind && !s.blocked).map Slot.listener

end Hub

end UndoJournal
