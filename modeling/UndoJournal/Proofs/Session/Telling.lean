import UndoJournal.Proofs.Desk.Telling
import UndoJournal.Proofs.Screen.Push
import UndoJournal.Session.Act

/-!
# What the document of a session sets off

In a session whose journal is the only observer of the document and whose screen is attached
(`Session.Linked`), a notice of the document changes the journal and the screen, and nothing else:
what it leaves is what the journal makes of it and what the screen alone makes of the update
(`Session.leaves_notify`). The navigator is not reached, so it never acts on a journal that is being
used.
-/

namespace UndoJournal

namespace Surroundings

private theorem lawful_screenLens : screenLens.Lawful :=
  ⟨fun _ _ => rfl, fun _ => rfl, fun _ _ _ => rfl⟩

/-- In the surroundings of a session too, following an update is a matter of the screen alone. -/
theorem follow_screen (t : Timeline) (u : CursorUpdate) :
    following.follow .screen t u = Action.zoom screenLens (Stage.alone.follow t u) :=
  Stage.follow_eq_zoom lawful_screenLens t u

end Surroundings

namespace Session

/-- The session with another journal and another screen. -/
def told (s : Session) (j : Journal) (screen : Screen) : Session :=
  { s with desk := { s.desk with journal := j, around := { s.desk.around with screen := screen } } }

/-- The journal is the only observer of the document, and the screen is attached to it. -/
structure Linked (s : Session) : Prop where
  attached : s.desk.attached = some .screen
  observed : ∃ id, s.document.observers.entries = [(id, .journal)]

variable {s : Session}

theorem Linked.told (h : s.Linked) (j : Journal) (screen : Screen) : (s.told j screen).Linked :=
  ⟨h.attached, h.observed⟩

/-- The screen is told of an update, and nothing else is touched. -/
theorem leaves_tell (h : s.desk.attached = some .screen) (u : CursorUpdate)
    {post : Except Fault Unit → Session → Prop} :
    (onDesk (Desk.tell Surroundings.following u)).Leaves s post ↔
      (Stage.alone.follow s.desk.journal.timeline u).Leaves s.desk.around.screen
        fun result screen => post (result.map fun _ => ()) (s.told s.desk.journal screen) := by
  rw [onDesk, Action.leaves_zoom, Desk.leaves_tell_of_some (d := deskLens.get s) h,
    Surroundings.follow_screen, Action.leaves_zoom]
  rfl

/-- The navigator has the screen told the whole state. -/
theorem leaves_resync (h : s.desk.attached = some .screen)
    {post : Except Fault Unit → Session → Prop} :
    controls.resync.Leaves s post ↔
      (Stage.alone.follow s.desk.journal.timeline (s.desk.journal.standing .resync)).Leaves
        s.desk.around.screen fun result screen =>
          post (result.map fun _ => ()) (s.told s.desk.journal screen) := by
  rw [← leaves_tell h (s.desk.journal.standing .resync)]
  simp only [controls, onDesk, Desk.resync, Action.leaves_zoom, Action.leaves_bind,
    Action.leaves_get]
  exact Iff.rfl

/-- What a notice leaves: the journal that heard it, and the screen that followed the update. -/
def Heard (s : Session) (notice : Notice) (post : Except Fault Unit → Session → Prop) : Prop :=
  match s.desk.journal.hear notice with
  | .error fault => post (.error fault) s
  | .ok r =>
    match r.update with
    | none => post (.ok ()) (s.told r.journal s.desk.around.screen)
    | some u => (Stage.alone.follow r.journal.timeline u).Leaves s.desk.around.screen
        fun result screen => post (result.map fun _ => ()) (s.told r.journal screen)

theorem leaves_hear (h : s.desk.attached = some .screen) (notice : Notice)
    {post : Except Fault Unit → Session → Prop} :
    (onDesk (Desk.hear Surroundings.following notice)).Leaves s post ↔ s.Heard notice post := by
  unfold Heard
  simp only [onDesk, Desk.hear, Action.leaves_zoom, Action.leaves_bind, Action.leaves_get]
  change (Desk.enact Surroundings.following (s.desk.journal.hear notice)).Leaves s.desk _ ↔ _
  rcases s.desk.journal.hear notice with fault | r
  · simp only [Desk.enact, Action.leaves_bind, Action.leaves_ofExcept]
    rfl
  · rw [Desk.leaves_enact]
    rcases hu : r.update with _ | u <;> simp only [hu]
    · rfl
    · exact leaves_tell (s := s.told r.journal s.desk.around.screen) h u

/-- **A notice of the document reaches the journal and the screen alone.** -/
theorem leaves_notify (h : s.Linked) (notice : Notice) {post : Except Fault Unit → Session → Prop} :
    (audience.notify notice).Leaves s post ↔ s.Heard notice post := by
  obtain ⟨id, hid⟩ := h.observed
  simp only [Audience.notify, Audience.look, Registry.notify, Action.leaves_bind,
    Action.leaves_get, Action.leaves_pure]
  change (Action.each (fun e => audience.deliver e.2 notice) s.document.observers.entries).Leaves s
    post ↔ _
  rw [hid, Action.each_singleton]
  exact leaves_hear h.attached notice

end Session

end UndoJournal
