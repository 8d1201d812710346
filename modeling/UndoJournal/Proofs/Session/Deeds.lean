import UndoJournal.Proofs.Session.Telling

/-!
# What is done in a session

A `Session.Deed` is anything that can be done to a session from outside: to its document, by its
user, to the link of its screen, and by planning that a call of its view goes wrong. A deed answers
whether an act of the user failed, unless it meets a fault, and **what was done before a fault stays
done**: `Session.after` goes on from the state that a fault left.
-/

namespace UndoJournal

namespace Session

/-- What can be done to a session from outside. -/
inductive Deed where
  /-- Commit an event in the document. -/
  | commit (kind description : String)
  /-- Undo in the document. -/
  | undo
  /-- Redo in the document. -/
  | redo
  /-- Have the document forget what can be undone. -/
  | clearUndo
  /-- Have the document forget what can be redone. -/
  | clearRedo
  /-- Click the row at a place. -/
  | click (row : Nat)
  /-- Expand the run of the row at a place. -/
  | expand (row : Nat)
  /-- Collapse the run of the row at a place. -/
  | collapse (row : Nat)
  /-- Have the link skip updates. -/
  | pause
  /-- Have the link follow updates again. -/
  | resume
  /-- Block or unblock the listeners of the link. -/
  | block (blocked : Bool)
  /-- Take a guard from outside. -/
  | hold
  /-- Let go of a guard held from outside. -/
  | release
  /-- Disconnect the link. -/
  | disconnect
  /-- Make the next call of an operation of the view go wrong. -/
  | plant (op : ViewOp) (breakage : Breakage)
deriving DecidableEq

/-- Do something that answers nothing about an act of the user. -/
def quietly {α : Type} (x : Action Session α) : Action Session (Except SessionError Unit) := do
  let _ ← x
  pure (.ok ())

/-- Do an act of the user, whatever it answers besides an error. -/
def plainly {α : Type} (x : Action Session (Except SessionError α)) :
    Action Session (Except SessionError Unit) := do
  pure ((← x).map fun _ => ())

/-- Do a deed. -/
def perform : Deed → Action Session (Except SessionError Unit)
  | .commit kind description => quietly (commit kind description)
  | .undo => quietly undo
  | .redo => quietly redo
  | .clearUndo => quietly clearUndo
  | .clearRedo => quietly clearRedo
  | .click row => plainly (click row)
  | .expand row => plainly (expand row)
  | .collapse row => plainly (collapse row)
  | .pause => quietly (stage.change Screen.pause)
  | .resume => quietly (stage.change Screen.resume)
  | .block blocked => quietly (stage.change (Screen.blockListeners blocked))
  | .hold => quietly (stage.change (Screen.onLink Link.hold))
  | .release => quietly (stage.change (Screen.onLink fun l => l.release.2))
  | .disconnect => quietly stage.disconnect
  | .plant op breakage => quietly (stage.change (Screen.plant op breakage))

/-- A deed that plans no call to break down. -/
def Deed.Harmless (d : Deed) : Prop := ∀ op, d ≠ .plant op .collapse

/-- A session whose screen was attached to its journal. -/
def wired (settings : Settings) (o : Outline) : Session := (wire.run (unwired settings o)).state

/-- The session after some deeds, whichever of them met a fault. -/
def after (s : Session) : List Deed → Session
  | [] => s
  | d :: ds => after ((perform d).run s).state ds

variable {s : Session}

theorem after_append (s : Session) (ds ds' : List Deed) :
    s.after (ds ++ ds') = (s.after ds).after ds' := by
  induction ds generalizing s with
  | nil => rfl
  | cons d ds ih => exact ih _

@[simp] theorem gives_quietly {α : Type} {x : Action Session α}
    {post : Except SessionError Unit → Session → Prop} :
    (quietly x).Gives s post ↔ x.Gives s fun _ s' => post (.ok ()) s' := by
  simp only [quietly, Action.gives_bind, Action.gives_pure]

@[simp] theorem gives_plainly {α : Type} {x : Action Session (Except SessionError α)}
    {post : Except SessionError Unit → Session → Prop} :
    (plainly x).Gives s post ↔ x.Gives s fun answer s' => post (answer.map fun _ => ()) s' := by
  simp only [plainly, Action.gives_bind, Action.gives_pure]

/-- What is true of the state, whatever the result, is true of it after the deed. -/
theorem leaves_quietly {α : Type} {x : Action Session α} {p : Session → Prop}
    (h : x.Leaves s fun _ s' => p s') : (quietly x).Leaves s fun _ s' => p s' := by
  rw [quietly, Action.leaves_bind]
  refine h.mono ?_
  rintro (fault | a) s' hs' <;> exact hs'

theorem leaves_plainly {α : Type} {x : Action Session (Except SessionError α)}
    {p : Session → Prop} (h : x.Leaves s fun _ s' => p s') :
    (plainly x).Leaves s fun _ s' => p s' := by
  rw [plainly, Action.leaves_bind]
  refine h.mono ?_
  rintro (fault | a) s' hs' <;> exact hs'

/-- A document without applied events undoes nothing. -/
theorem gives_undo_of_nil (h : s.document.past = []) {post : Bool → Session → Prop} :
    undo.Gives s post ↔ post false s := by
  have hpast : (audience.document.get s).past = [] := h
  simp only [undo, Audience.undo, Audience.look, Action.gives_bind, Action.gives_get,
    Action.gives_pure, hpast]

/-- A document without undone events redoes nothing. -/
theorem gives_redo_of_nil (h : s.document.future = []) {post : Bool → Session → Prop} :
    redo.Gives s post ↔ post false s := by
  have hfuture : (audience.document.get s).future = [] := h
  simp only [redo, Audience.redo, Audience.look, Action.gives_bind, Action.gives_get,
    Action.gives_pure, hfuture]

end Session

end UndoJournal
