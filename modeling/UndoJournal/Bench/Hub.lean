import UndoJournal.Widget

/-!
# A bench for the hub

A `HubBench` has a hub, the handles of every listener that was ever connected, and a **deed** for
some listeners: what the listener does to the hub in the middle of its first call. Every call is
written down, so that the order of nested emissions can be read off.

A listener has one deed at most and loses it with its first call, so the number of deeds left bounds
how deep emissions can nest.
-/

namespace UndoJournal

/-- What a listener does in the middle of its first call. -/
inductive Deed where
  /-- It disconnects the handle at an index. -/
  | disconnect (index : Nat)
  /-- It blocks or unblocks the handle at an index. -/
  | block (index : Nat) (blocked : Bool)
  /-- It connects a new listener without a deed. -/
  | connect (kind : SignalKind)
  /-- It fires a signal. -/
  | emit (signal : Signal)
deriving DecidableEq

/-- A hub with everything that is needed to drive it. -/
structure HubBench where
  /-- The hub; the listeners are the indices of their handles. -/
  hub : Hub Nat
  /-- Whether the hub is still there. -/
  present : Bool
  /-- The handle of each listener, as long as it is kept. -/
  handles : List (Option Connection)
  /-- The deed of each listener, until it is done. -/
  deeds : List (Option Deed)
  /-- The calls, oldest first. -/
  fired : List (Nat × Signal)

namespace HubBench

/-- A fresh hub. -/
def empty : HubBench := ⟨.empty, true, [], [], []⟩

/-- The hub as a part of the bench. -/
def hubLens : Lens HubBench (Hub Nat) := ⟨hub, fun h b => { b with hub := h }⟩

/-- The handle at an index, if it is kept. -/
def handle? (b : HubBench) (index : Nat) : Option Connection := (b.handles[index]?).join

/-- Connect a listener with or without a deed. -/
def connect (kind : SignalKind) (deed : Option Deed) (b : HubBench) : HubBench :=
  let (c, hub) := b.hub.connect kind b.handles.length
  { b with hub := hub, handles := b.handles ++ [some c], deeds := b.deeds ++ [deed] }

/-- Keep a handle that was never connected. -/
def connectNothing (kind : SignalKind) (b : HubBench) : HubBench :=
  { b with handles := b.handles ++ [some (.detached kind)], deeds := b.deeds ++ [none] }

/-- Block or unblock the handle at an index. -/
def block (index : Nat) (blocked : Bool) (b : HubBench) : HubBench :=
  match b.handle? index with
  | none => b
  | some c => { b with hub := b.hub.setBlocked c blocked }

/-- Disconnect the handle at an index and keep it. -/
def disconnect (index : Nat) (b : HubBench) : HubBench :=
  match b.handle? index with
  | none => b
  | some c => { b with hub := b.hub.disconnect c, handles := b.handles.set index (some c.unlink) }

/-- Let go of the handle at an index, which disconnects it. -/
def drop (index : Nat) (b : HubBench) : HubBench :=
  let b := b.disconnect index
  { b with handles := b.handles.set index none }

/-- Let go of the hub. -/
def dropHub (b : HubBench) : HubBench := { b with hub := .empty, present := false }

/-- Take the deed of a listener. -/
def takeDeed (index : Nat) : Action HubBench (Option Deed) := do
  let b ← Action.get
  Action.modify fun b => { b with deeds := b.deeds.set index none }
  pure (b.deeds[index]?).join

/-- Call a listener; deeds that fire signals nest at most `depth` deep. -/
def call : Nat → Nat → Signal → Action HubBench Unit
  | depth, index, signal => do
    Action.modify fun b => { b with fired := b.fired ++ [(index, signal)] }
    match ← takeDeed index, depth with
    | none, _ => pure ()
    | some (.disconnect k), _ => Action.modify (disconnect k)
    | some (.block k blocked), _ => Action.modify (block k blocked)
    | some (.connect kind), _ => Action.modify (connect kind none)
    | some (.emit _), 0 => pure ()
    | some (.emit inner), depth + 1 => Hub.emit hubLens (call depth) inner

/-- Fire a signal. -/
def emit (signal : Signal) : Action HubBench Unit := do
  let b ← Action.get
  Hub.emit hubLens (call (b.deeds.countP Option.isSome)) signal

/-- The picture of the hub in reports, while it is there. -/
def inspect (b : HubBench) : Option String :=
  if b.present then some (Inspect.record "SignalHub" [("connections", toString b.hub.size)])
  else none

/-- The picture of a handle in reports. -/
def inspectHandle (b : HubBench) (c : Connection) : String :=
  Inspect.record "Connection"
    [("kind", c.kind.word), ("connected", Inspect.bool (b.hub.isConnected c))]

end HubBench

end UndoJournal
