import UndoJournal.Journal
import UndoJournal.Action
import UndoJournal.Fault

/-!
# A journal with a follower

A `Desk` is a journal, at most one follower attached to it, and the surroundings that followers act
on. Followers are told of a `CursorUpdate` and the timeline and act on the surroundings alone: **the
journal is never in their reach**, and what they answer does not change it. An error a follower
answers is reported and dropped, so the document never hears of it.

Attaching replaces the follower that was there, which is told so, and tells the new one the whole
state. Detaching hands the follower back as it is.
-/

namespace UndoJournal

/-- How followers `φ` act on surroundings `ω`. -/
structure Following (φ ω : Type) where
  /-- Follow an update of the cursor in the timeline as it is now. -/
  follow : φ → Timeline → CursorUpdate → Action ω (Except ViewError Unit)
  /-- Hear that the journal lets go of the follower. -/
  detached : φ → Action ω Unit
  /-- Go away for good. -/
  dropped : φ → Action ω Unit

/-- A journal, the follower attached to it, and what followers act on. -/
structure Desk (φ ω : Type) where
  /-- The journal. -/
  journal : Journal
  /-- The follower that is told of updates. -/
  attached : Option φ
  /-- What followers act on. -/
  around : ω

/-- Put the cursor on a position that the journal has. -/
def Journal.placing (p : Position) : Action Journal Unit := do
  let j ← Action.get
  let r ← Action.ofExcept (j.place p)
  Action.modify fun _ => r.journal
  Action.report r.notes

namespace Desk

variable {φ ω : Type}

/-- A desk with an empty journal and no follower. -/
def empty (settings : Settings) (around : ω) : Desk φ ω := ⟨.empty settings, none, around⟩

/-- The journal as a part of the desk. -/
def journalLens : Lens (Desk φ ω) Journal := ⟨journal, fun j d => { d with journal := j }⟩

/-- The surroundings as a part of the desk. -/
def aroundLens : Lens (Desk φ ω) ω := ⟨around, fun w d => { d with around := w }⟩

/-- Tell the attached follower of an update; an error it answers is only reported. -/
def tell (f : Following φ ω) (update : CursorUpdate) : Action (Desk φ ω) Unit := do
  let d ← Action.get
  match d.attached with
  | none => pure ()
  | some follower =>
    match ← Action.zoom aroundLens (f.follow follower d.journal.timeline update) with
    | .ok () => pure ()
    | .error e =>
      Action.note .warn "view sync failed"
        [("error", e.message), ("cause", update.cause.word), ("current", update.current.text)]

/-- Carry out a reaction of the journal: take on its state, report its notes, tell the follower. -/
def enact (f : Following φ ω) (reaction : Except Fault Reaction) : Action (Desk φ ω) Unit := do
  let r ← Action.ofExcept reaction
  Action.modify fun d => { d with journal := r.journal }
  Action.report r.notes
  match r.update with
  | none => pure ()
  | some update => tell f update

/-- Hear a notice of the document. -/
def hear (f : Following φ ω) (notice : Notice) : Action (Desk φ ω) Unit := do
  let d ← Action.get
  enact f (d.journal.hear notice)

/-- Put the cursor on a position without telling the follower. -/
def place (p : Position) : Action (Desk φ ω) Unit := Action.zoom journalLens (Journal.placing p)

/-- Ignore or heed undo and redo notices. -/
def mute (muted : Bool) : Action (Desk φ ω) Unit :=
  Action.modify fun d => { d with journal := d.journal.mute muted }

/-- Tell the follower the whole state again. -/
def resync (f : Following φ ω) : Action (Desk φ ω) Unit := do
  let d ← Action.get
  tell f (d.journal.standing .resync)

/-- Let a follower go for good. -/
def letGo (f : Following φ ω) (follower : φ) : Action (Desk φ ω) Unit :=
  Action.zoom aroundLens do
    f.detached follower
    f.dropped follower

/-- Attach a follower in the place of the one before, and tell it the whole state. -/
def attach (f : Following φ ω) (follower : φ) : Action (Desk φ ω) Unit := do
  let d ← Action.get
  Action.modify fun d => { d with attached := some follower }
  match d.attached with
  | none => pure ()
  | some old => letGo f old
  Action.note .debug "view attached" [("current", d.journal.cursor.text)]
  tell f (d.journal.standing .attach)

/-- Detach the follower and hand it back as it is. -/
def detach : Action (Desk φ ω) (Option φ) := do
  let d ← Action.get
  match d.attached with
  | none => pure none
  | some follower => do
    Action.modify fun d => { d with attached := none }
    Action.note .debug "view detached" []
    pure (some follower)

/-- Start over with an empty journal of the same settings; the follower goes away with the old. -/
def renew (f : Following φ ω) : Action (Desk φ ω) Unit := do
  let d ← Action.get
  Action.modify fun d => { d with journal := .empty d.journal.settings, attached := none }
  match d.attached with
  | none => pure ()
  | some old => letGo f old

end Desk

end UndoJournal
