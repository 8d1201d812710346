/-!
# Addresses and positions

Committed events are kept in **runs**: a head event and the events of the same kind that followed
it. An `Address` names a node by the index of its run and, for all but the head, the index inside
the run. A `Position` is where the cursor of a journal can be: before every node, or on one.
-/

namespace UndoJournal

/-- Where a node sits: the run, and the place behind the run's head (`none` for the head). -/
structure Address where
  /-- Index of the run. -/
  group : Nat
  /-- Index behind the head of the run, `none` for the head itself. -/
  child : Option Nat
deriving DecidableEq

namespace Address

/-- The address of the head of a run. -/
def ofHead (group : Nat) : Address := ⟨group, none⟩

/-- The address of the node at `index` behind the head of a run. -/
def ofChild (group index : Nat) : Address := ⟨group, some index⟩

/-- Whether the address names a node behind a head. -/
def isChild (a : Address) : Bool := a.child.isSome

/-- The head of the run that the node belongs to. -/
def head (a : Address) : Address := ofHead a.group

/-- How many entries of its run lie at or before the node. -/
def reach (a : Address) : Nat :=
  match a.child with
  | none => 1
  | some i => i + 2

theorem reach_pos (a : Address) : 0 < a.reach := by
  unfold reach
  split <;> omega

/-- A head is written as the index of its run, another node as two indices and a colon. -/
def text (a : Address) : String :=
  match a.child with
  | none => toString a.group
  | some i => toString a.group ++ ":" ++ toString i

end Address

/-- A place for the cursor: before every node, or on a node, with everything up to and including
that node applied. -/
inductive Position where
  /-- Nothing is applied. -/
  | start
  /-- The node at the address is the last one applied. -/
  | on (address : Address)
deriving DecidableEq

namespace Position

/-- The node the position is on, if any. -/
def address? : Position → Option Address
  | start => none
  | on a => some a

/-- Whether nothing is applied. -/
def isStart : Position → Bool
  | start => true
  | on _ => false

/-- The run the position lies in, if any. -/
def group? (p : Position) : Option Nat := p.address?.map Address.group

/-- The word for the start, or the address. -/
def text : Position → String
  | start => "start"
  | on a => a.text

end Position

end UndoJournal
