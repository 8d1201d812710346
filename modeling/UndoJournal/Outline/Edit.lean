import UndoJournal.Outline.Basic
import UndoJournal.Hub
import UndoJournal.Fault

/-!
# What an outline can be asked to do

A program sends a `ViewCommand`; a user clicks a row or its expander. Either way the outline makes
all its changes first and then fires signals, so a `Response` says what it became, what it reports
and which signals are to be fired, in order. **A signal is fired for a change and for nothing
else**: asking for what is the case already is silent.

Collapsing a run whose hidden part holds the selection moves the selection to the head first.
-/

namespace UndoJournal

/-- A command that a program gives a view. -/
inductive ViewCommand where
  /-- Show a timeline in the place of the one before. -/
  | rebuild (timeline : Timeline)
  /-- Select the row of a node. -/
  | select (node : Address)
  /-- Select nothing. -/
  | clearSelection
  /-- Expand what hides the row of a node. -/
  | expandTo (node : Address)
  /-- Collapse the run at an index. -/
  | collapseGroup (group : Nat)
  /-- Scroll so that the row of a node is on the screen. -/
  | scrollTo (node : Address)
deriving DecidableEq

/-- Which of the six things a command asks for. -/
def ViewCommand.op : ViewCommand → ViewOp
  | rebuild _ => .rebuild
  | select _ => .select
  | clearSelection => .clearSelection
  | expandTo _ => .expandTo
  | collapseGroup _ => .collapseGroup
  | scrollTo _ => .scrollTo

/-- The outline that a command or a gesture leaves, with what is to be reported and fired about
it. -/
structure Response where
  /-- The outline afterwards. -/
  outline : Outline
  /-- What the outline reports. -/
  notes : List Note
  /-- The signals to be fired, in order. -/
  signals : List Signal

namespace Outline

/-- A response that changes nothing. -/
def unmoved (o : Outline) : Response := ⟨o, [], []⟩

/-- The report of an expander that was used. -/
def toggleNote (action source : String) (group : Nat) (changed : Bool) : Note :=
  .event .debug "history_tree.toggle"
    [("action", action), ("source", source), ("group", toString group),
      ("changed", if changed then "true" else "false")]

/-- Expand the run at an index, if there is one; whether that changed anything comes along. -/
def expand (o : Outline) (group : Nat) : Bool × Outline :=
  match o.shown.head? group with
  | none => (false, o)
  | some e =>
    if o.expanded.contains e.id then (false, o)
    else (true, { o with expanded := o.expanded ++ [e.id] })

/-- Take the head of the run at an index off the expanded heads; whether that changed anything
comes along. -/
def shut (o : Outline) (group : Nat) : Bool × Outline :=
  match o.shown.head? group with
  | none => (false, o)
  | some e =>
    (o.expanded.contains e.id, { o with expanded := o.expanded.filter fun id => id != e.id })

/-- Whether the selection is behind the head of the run at an index. -/
def selectsInside (o : Outline) (group : Nat) : Bool :=
  match o.selectedPosition? with
  | some (.on a) => a.isChild && a.group == group
  | _ => false

/-- Collapse the run at an index, for a user or a program; whether it was expanded comes along. -/
def collapse (o : Outline) (group : Nat) (source : String) : Bool × Response :=
  let (changed, shutOutline) := o.shut group
  let notes := [toggleNote "collapse" source group changed]
  if !changed then
    (false, ⟨o, notes, []⟩)
  else
    match shutOutline.shown.head? group with
    | some e =>
      if shutOutline.selectsInside group then
        (true, ⟨{ shutOutline with selected := some (.entry e.id) }, notes,
          [.selectionChanged (some (.on (.ofHead group))), .rowCollapsed group]⟩)
      else
        (true, ⟨shutOutline, notes, [.rowCollapsed group]⟩)
    | none => (true, ⟨shutOutline, notes, [.rowCollapsed group]⟩)

/-! ### Commands of a program -/

/-- Show another timeline: expansion and selection stay with the entries that are still there. -/
def rebuild (o : Outline) (t : Timeline) : Response :=
  let live := t.toList.map Entry.id
  let shownOutline : Outline :=
    { o with shown := t, expanded := o.expanded.filter fun id => live.contains id }
  let notes := [.event .debug "history_tree.rebuild" [("rows", toString t.size)]]
  match shownOutline.selected with
  | none => ⟨shownOutline, notes, []⟩
  | some key =>
    match shownOutline.row? key with
    | some _ => ⟨shownOutline, notes, []⟩
    | none => ⟨{ shownOutline with selected := none }, notes, [.selectionChanged none]⟩

/-- Select a row. -/
def choose (o : Outline) (r : Row) : List Signal × Outline :=
  (if o.selected = some r.key then [] else [.selectionChanged (some r.position)],
    { o with selected := some r.key })

/-- Select the row of a node. -/
def select (o : Outline) (node : Address) : Except ViewError Response :=
  match o.rowAt? (.on node) with
  | none => .error (.unknownRow node)
  | some r =>
    let (signals, chosen) := o.choose r
    .ok ⟨chosen, [], signals⟩

/-- Select nothing. -/
def clearSelection (o : Outline) : Response :=
  ⟨{ o with selected := none }, [],
    if o.selected.isSome then [.selectionChanged none] else []⟩

/-- Expand what hides the row of a node. -/
def expandTo (o : Outline) (node : Address) : Except ViewError Response :=
  match o.rowAt? (.on node) with
  | none => .error (.unknownRow node)
  | some _ =>
    if !node.isChild then .ok o.unmoved
    else
      let (changed, expandedOutline) := o.expand node.group
      if changed then
        .ok ⟨expandedOutline, [toggleNote "expand" "sync" node.group true],
          [.rowExpanded node.group]⟩
      else
        .ok o.unmoved

/-- Collapse the run at an index. -/
def collapseGroup (o : Outline) (group : Nat) : Except ViewError Response :=
  match o.shown.head? group with
  | none => .error (.unknownGroup group)
  | some _ => .ok (o.collapse group "sync").2

/-- Where to scroll so that a row is on the screen. -/
def scrolled (o : Outline) (index : Nat) : Nat :=
  if o.viewport = 0 then o.scrollOffset
  else if index < o.scrollOffset then index
  else if o.scrollOffset + o.viewport ≤ index then index + 1 - o.viewport
  else o.scrollOffset

/-- The place of a row, or that of the head of its run while the row is hidden. -/
def placeOrHead? (o : Outline) (node : Address) (key : RowKey) : Option Nat :=
  match o.visibleIndex? key with
  | some index => some index
  | none => (o.shown.head? node.group).bind fun e => o.visibleIndex? (.entry e.id)

/-- Scroll so that the row of a node is on the screen. -/
def scrollTo (o : Outline) (node : Address) : Except ViewError Response :=
  match o.rowAt? (.on node) with
  | none => .error (.unknownRow node)
  | some r =>
    match o.placeOrHead? node r.key with
    | none => .ok o.unmoved
    | some index => .ok { o.unmoved with outline := { o with scrollOffset := o.scrolled index } }

/-- Carry out a command, unless it names what the outline does not show. -/
def perform (o : Outline) : ViewCommand → Except ViewError Response
  | .rebuild t => .ok (o.rebuild t)
  | .select node => o.select node
  | .clearSelection => .ok o.clearSelection
  | .expandTo node => o.expandTo node
  | .collapseGroup group => o.collapseGroup group
  | .scrollTo node => o.scrollTo node

/-! ### Actions of a user -/

/-- Click the row at a place. -/
def click (o : Outline) (index : Nat) : Except ViewError Response :=
  match o.visible[index]? with
  | none => .error (.noVisibleRow index)
  | some r =>
    let (signals, chosen) := o.choose r
    .ok ⟨chosen,
      [.event .debug "history_tree.select"
        [("visible_index", toString index), ("source", "click")]], signals⟩

/-- The run that the row at a place can expand and collapse, if it can. -/
def expander? (o : Outline) (index : Nat) : Except ViewError (Option Nat) :=
  match o.visible[index]? with
  | none => .error (.noVisibleRow index)
  | some r => .ok (if r.isChild || r.childCount == 0 then none else r.position.group?)

/-- Expand the run of the row at a place; whether it was collapsed comes along. -/
def expandRow (o : Outline) (index : Nat) : Except ViewError (Bool × Response) :=
  match o.expander? index with
  | .error e => .error e
  | .ok none => .ok (false, o.unmoved)
  | .ok (some group) =>
    let (changed, expandedOutline) := o.expand group
    .ok (changed, ⟨expandedOutline, [toggleNote "expand" "user" index changed],
      if changed then [.rowExpanded group] else []⟩)

/-- Collapse the run of the row at a place; whether it was expanded comes along. -/
def collapseRow (o : Outline) (index : Nat) : Except ViewError (Bool × Response) :=
  match o.expander? index with
  | .error e => .error e
  | .ok none => .ok (false, o.unmoved)
  | .ok (some group) => .ok (o.collapse group "user")

/-- Click the expander of the row at a place; whether that changed anything comes along. -/
def toggleRow (o : Outline) (index : Nat) : Except ViewError (Bool × Response) :=
  match o.expander? index with
  | .error e => .error e
  | .ok none => .ok (false, o.unmoved)
  | .ok (some group) => if o.isExpanded group then o.collapseRow index else o.expandRow index

end Outline

end UndoJournal
