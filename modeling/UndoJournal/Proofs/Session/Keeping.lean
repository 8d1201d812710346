import UndoJournal.Proofs.Journal.Update
import UndoJournal.Proofs.Session.Cascade
import UndoJournal.Proofs.Session.Telling

/-!
# What the acts of a user keep

Whatever a user does on the screen of a session, and however far the cascade gets that it sets off
through navigator, document, journal and screen, **the timeline stays what it was**: only the cursor
moves. A statement about a screen and a timeline that outlasts pushes of that timeline, signals and
changes of the outline that show no other timeline (`Screen.Lasts`) is therefore kept by every act
of the user, also where a fault cuts the cascade short (`Session.keeps_click` and its companions).
-/

namespace UndoJournal

/-- What is said of a timeline and a screen outlasts pushes of that timeline, signals, and changes
of the outline that show no other timeline. -/
structure Screen.Lasts (good : Timeline → Screen → Prop) : Prop where
  follow : ∀ t u s, good t s → (Stage.alone.follow t u).Leaves s fun _ s' => good t s'
  overhear : ∀ t s signal, good t s → good t (overhear signal s)
  outline : ∀ t s o, good t s → o.shown = s.widget.outline.shown →
    good t { s with widget := { s.widget with outline := o } }

namespace Session

/-- A session with that timeline, of whose screen something is said. -/
structure Holds (good : Timeline → Screen → Prop) (t : Timeline) (s : Session) : Prop where
  linked : s.Linked
  timeline : s.desk.journal.timeline = t
  good : good t s.desk.around.screen

variable {good : Timeline → Screen → Prop} {t : Timeline} {s : Session}

theorem Holds.told (h : s.Holds good t) {j : Journal} {screen : Screen} (hj : j.timeline = t)
    (hs : good t screen) : (s.told j screen).Holds good t :=
  ⟨h.linked.told j screen, hj, hs⟩

/-- What changes neither the observers, nor the desk but for cursor and muting, nor the screen. -/
theorem Holds.of_eq (h : s.Holds good t) {s' : Session}
    (hobs : s'.document.observers = s.document.observers)
    (hatt : s'.desk.attached = s.desk.attached)
    (ht : s'.desk.journal.timeline = s.desk.journal.timeline)
    (hs : s'.desk.around.screen = s.desk.around.screen) : s'.Holds good t :=
  ⟨⟨hatt ▸ h.linked.attached, hobs ▸ h.linked.observed⟩, ht ▸ h.timeline, hs ▸ h.good⟩

/-- Neither the stacks of the document nor the navigator matter. -/
private theorem Holds.aside {s' : Session} (h : s.Holds good t) (haside : Aside s s') :
    s'.Holds good t := by
  refine h.of_eq haside.observers ?_ ?_ ?_ <;> rw [haside.desk]

variable (hg : Screen.Lasts good)

include hg

/-- A notice that leaves the timeline as it is. -/
private theorem keeps_hear {notice : Notice}
    (ht : ∀ (j : Journal) r, j.hear notice = .ok r → r.journal.timeline = j.timeline) :
    Action.Keeps (Holds good t) (onDesk (Desk.hear Surroundings.following notice)) := by
  intro s h
  rw [leaves_hear h.linked.attached, Heard]
  rcases hr : s.desk.journal.hear notice with fault | r
  · exact h
  · have hj : r.journal.timeline = t := (ht _ r hr).trans h.timeline
    rcases hu : r.update with _ | u <;> simp only [hu]
    · exact h.told hj h.good
    · rw [hj]
      exact (hg.follow t u _ h.good).mono fun _ screen hs => h.told hj hs

private theorem keeps_resync :
    Action.Keeps (Holds good t) (onDesk (Desk.resync Surroundings.following)) := by
  intro s h
  refine (leaves_resync h.linked.attached).mpr ?_
  rw [h.timeline]
  exact (hg.follow t _ _ h.good).mono fun _ screen hs => h.told h.timeline hs

/-- **Nothing that the navigator does changes the timeline**, so what lasts is kept. -/
theorem endures_holds :
    Endures Surroundings.following Surroundings.following (Holds good t) where
  undone _ := .of_keeps (keeps_hear hg fun _ _ => Journal.timeline_of_hearUndone)
  redone _ := .of_keeps (keeps_hear hg fun _ _ => Journal.timeline_of_hearRedone)
  aside _ _ haside h := h.aside haside
  resync := .of_keeps (keeps_resync hg)
  mute _ _ h := h.of_eq rfl rfl rfl rfl
  place _ _ _ h _ _ := h.of_eq rfl rfl rfl rfl

theorem keeps_undo : Action.Keeps (Holds good t) audience.undo :=
  audienceVia_following ▸ (endures_holds hg).toStepsAlike.agree_undo.keeps

theorem keeps_redo : Action.Keeps (Holds good t) audience.redo :=
  audienceVia_following ▸ (endures_holds hg).toStepsAlike.agree_redo.keeps

/-! ### Acts of the user -/

private theorem bears_holds : stage.Bears (Holds good t) where
  overhear signal := Action.Keeps.modify fun s h =>
    h.told h.timeline (hg.overhear t _ signal h.good)
  respond act := by
    refine Action.Keeps.bind (fun s h => h.of_eq rfl rfl rfl rfl) fun _ => ?_
    exact controlsVia_following ▸ ((endures_holds hg).agree_handle act).keeps
  outline s o h ho := h.told h.timeline (hg.outline t _ o h.good ho)

omit hg in
private theorem keeps_attempt {α : Type} {x : Action Session (Except ViewError α)}
    (h : Action.Keeps (Holds good t) x) : Action.Keeps (Holds good t) (attempt x) :=
  (agree_attempt (fun _ _ haside hs => hs.aside haside) (.of_keeps h)).keeps

theorem keeps_click (row : Nat) : Action.Keeps (Holds good t) (click row) :=
  keeps_attempt ((bears_holds hg).keeps_click row)

theorem keeps_expand (row : Nat) : Action.Keeps (Holds good t) (expand row) :=
  keeps_attempt ((bears_holds hg).keeps_expandRow row)

theorem keeps_collapse (row : Nat) : Action.Keeps (Holds good t) (collapse row) :=
  keeps_attempt ((bears_holds hg).keeps_collapseRow row)

end Session

end UndoJournal
