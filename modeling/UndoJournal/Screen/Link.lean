import UndoJournal.Journal
import UndoJournal.Outline.Edit
import UndoJournal.Inspect

/-!
# The link between a journal and a view

A `Link` is what a view that follows a journal remembers besides its rows. Its **suppression depth**
counts the guards that are alive; while there is one, what the view fires is not taken for an action
of the user. While the link is **paused** it skips updates, but keeps the heads of the runs that the
cursor leaves, so that the next update can collapse them. A **stale** link shows all rows anew with
the next update. A link that is **disconnected** stays so.

`Link.plan` says, as a list of commands, what an update asks of the view once the rows are right.
-/

namespace UndoJournal

/-- What a view that follows a journal remembers besides its rows. -/
structure Link where
  /-- How the view follows the cursor. -/
  settings : ViewSettings
  /-- The number of guards that are alive, which is taken to stay below `2 ^ 32`, the bound of a
  counter of 32 bits. -/
  depth : Nat
  /-- How many of the guards are held from outside. -/
  held : Nat
  /-- Whether updates are skipped. -/
  paused : Bool
  /-- Whether the next update shows all rows anew. -/
  stale : Bool
  /-- The heads of the runs left during a pause, by rising identity and each once. -/
  left : List EntryId
  /-- Whether the link is gone. -/
  disconnected : Bool
  /-- The handles of the listeners that the link has in the view's hub, by kind. -/
  connections : List Connection
deriving DecidableEq

namespace Link

/-- A fresh link. -/
def fresh (settings : ViewSettings) (connections : List Connection) : Link :=
  ⟨settings, 0, 0, false, true, [], false, connections⟩

/-- Whether what the view fires is not taken for an action of the user. -/
def suppressed (l : Link) : Bool := 0 < l.depth

/-- One more guard. -/
def raise (l : Link) : Link := { l with depth := l.depth + 1 }

/-- One guard less. -/
def lower (l : Link) : Link := { l with depth := l.depth - 1 }

/-- Take a guard from outside. -/
def hold (l : Link) : Link := { l.raise with held := l.held + 1 }

/-- Let go of a guard held from outside; whether there was one comes along. -/
def release (l : Link) : Bool × Link :=
  if l.held = 0 then (false, l) else (true, { l.lower with held := l.held - 1 })

/-- Put an identity among others that rise. -/
def insertId (id : EntryId) : List EntryId → List EntryId
  | [] => [id]
  | other :: ids =>
    if id.raw < other.raw then id :: other :: ids
    else if id.raw = other.raw then other :: ids
    else other :: insertId id ids

/-- Skip an update: all rows are to be shown anew, and the run that was left is kept in mind. -/
def skip (l : Link) (t : Timeline) (update : CursorUpdate) : Link :=
  { l with
    stale := true
    left :=
      match update.left.bind t.head? with
      | none => l.left
      | some e => insertId e.id l.left }

/-- Whether a run left during a pause is to be collapsed now. -/
def toCollapse (t : Timeline) (update : CursorUpdate) (group : Nat) : Bool :=
  update.current.group? != some group && update.left != some group && t.hasChildren group

/-- The runs left during a pause that are to be collapsed now, by rising identity of their heads:
those that still have entries behind their head and do not hold the cursor. -/
def missed (l : Link) (t : Timeline) (update : CursorUpdate) : List Nat :=
  l.left.filterMap fun id =>
    match t.find? id with
    | none => none
    | some a => if !a.isChild && toCollapse t update a.group then some a.group else none

/-- The runs that an update collapses. -/
def collapsing (l : Link) (t : Timeline) (update : CursorUpdate) : List Nat :=
  if l.settings.collapseOnLeave then
    l.missed t update ++ (update.left.toList.filter fun group => group < t.runs.length)
  else []

/-- What an update asks of a view about the cursor. -/
def following (l : Link) (current : Position) : List ViewCommand :=
  match current with
  | .start => [.clearSelection]
  | .on a =>
    [.expandTo a, .select a] ++ if l.settings.scrollToCurrent then [.scrollTo a] else []

/-- What an update asks of a view whose rows are right: collapse what was left, then show where the
cursor is. -/
def plan (l : Link) (t : Timeline) (update : CursorUpdate) : List ViewCommand :=
  (l.collapsing t update).map .collapseGroup ++ l.following update.current

/-- What was left during a pause is in the plan and no longer has to be kept in mind. -/
def planned (l : Link) : Link := if l.settings.collapseOnLeave then { l with left := [] } else l

/-! ### Pictures in reports -/

/-- The picture of the handle of a link. -/
def inspectHandle (l : Link) : String :=
  Inspect.record "SyncHandle"
    [("suppressed", Inspect.bool l.suppressed), ("paused", Inspect.bool l.paused),
      ("disconnected", Inspect.bool l.disconnected)]

/-- The picture of the settings of a link. -/
def inspectSettings (s : ViewSettings) : String :=
  Inspect.record "ViewConfig"
    [("collapse_on_leave", Inspect.bool s.collapseOnLeave),
      ("scroll_to_current", Inspect.bool s.scrollToCurrent),
      ("show_sentinel", Inspect.bool s.showSentinel)]

/-- The picture of the suppression depth. -/
def inspectFlag (l : Link) : String :=
  Inspect.record "SuppressionFlag" [("depth", toString l.depth)]

/-- The picture of a guard. -/
def inspectGuard (l : Link) : String :=
  Inspect.record "SuppressionGuard" [("depth", toString l.depth)]

/-- The picture of the newest guard held from outside. -/
def newestGuard? (l : Link) : Option String := if l.held = 0 then none else some l.inspectGuard

end Link

end UndoJournal
