import UndoJournal.Proofs.Screen.Abreast
import UndoJournal.Proofs.Session.Agreement
import UndoJournal.Proofs.Session.Suppression

/-!
# A session at rest

As long as nobody touches the link of its screen and no call of its view is planned to go wrong, a
session comes back to rest after whatever is done to its document or by its user
(`Session.AtRest`): document and journal are in step, the screen is abreast of the timeline, and
nothing keeps it from attending to its user.

What the view marks is then the cursor, with one exception that a collapse leaves behind: the cursor
is on the last entry of a run and the view marks its head (`Session.Aligned`). This module has the
deeds of the document (`Session.keeps_moored`), each of which tells the screen where the cursor is,
if it changes anything.
-/

namespace UndoJournal

namespace Session

open UndoJournal.Action (Agree)

/-- The outline that the screen of the session shows. -/
abbrev outline (s : Session) : Outline := s.desk.around.screen.widget.outline

/-- The view marks the cursor, or the head of a run whose last entry the cursor is on. -/
def Aligned (s : Session) : Prop :=
  s.outline.marked = s.desk.journal.cursor ∨
    ∃ group run, s.desk.journal.timeline.runs[group]? = some run ∧
      s.outline.marked = .on (.ofHead group) ∧
        s.desk.journal.cursor = .on (run.lastAddress group)

/-- The screen is attached, abreast of the timeline and aligned with the cursor, and the journal
traces some stack; this is not a matter of the document. -/
structure Moored (s : Session) : Prop where
  attached : s.desk.attached = some .screen
  traces : ∃ stack, s.desk.journal.Traces stack
  numbered : s.desk.journal.timeline.Numbered
  abreast : s.desk.around.screen.Abreast s.desk.journal.timeline
  aligned : s.Aligned

/-- What is true of a session between deeds that leave the link alone. -/
structure AtRest (s : Session) : Prop where
  step : s.InStep
  calm : s.Calm (.full {})
  moored : s.Moored

/-- A deed of the document, or of the user. -/
def Deed.ordinary : Deed → Bool
  | .commit _ _ | .undo | .redo | .clearUndo | .clearRedo => true
  | .click _ | .expand _ | .collapse _ => true
  | _ => false

theorem Deed.harmless_of_ordinary {d : Deed} (hd : d.ordinary = true) : d.Harmless := by
  rintro op rfl
  cases hd

/-- Ordinary deeds leave the attention alone. -/
theorem Deed.after_of_ordinary {d : Deed} (hd : d.ordinary = true) (a : Attention) :
    a.after (.deed d) = a := by
  cases d <;> first | rfl | cases hd

variable {s s₀ : Session}

/-- The cursor is at the ordinal of what is applied. -/
theorem AtRest.ordinal_cursor (h : s.AtRest) :
    s.desk.journal.timeline.ordinal s.desk.journal.cursor = .ok s.document.applied.length :=
  h.step.traces.cursor

/-- What is shown is the timeline, so no event is in it twice. -/
theorem AtRest.numbered_shown (h : s.AtRest) : s.outline.shown.Numbered :=
  h.moored.abreast.shown ▸ h.moored.numbered

/-! ### Notices -/

theorem Moored.aside {s' : Session} (h : s.Moored) (haside : Aside s s') : s'.Moored := by
  obtain ⟨hattached, htraces, hnumbered, habreast, haligned⟩ := h
  constructor
  case aligned =>
    rw [Aligned, outline, haside.desk]
    exact haligned
  all_goals
    rw [haside.desk]
    assumption

/-- A screen that was told of an update marks the cursor. -/
private theorem Moored.told (h : s.Moored) {j : Journal} {u : CursorUpdate}
    (hnumbered : j.timeline.Numbered) {stack : Stack} (htraces : j.Traces stack)
    (hcurrent : u.current = j.cursor)
    (hreshaped : u.reshaped = false → j.timeline = s.desk.journal.timeline) :
    (Stage.alone.follow j.timeline u).Leaves s.desk.around.screen fun _ screen =>
      (s.told j screen).Moored := by
  have hcontains : j.timeline.contains u.current = true := hcurrent ▸ htraces.contains_cursor
  obtain ⟨answer, -, -, habreast, hdone⟩ := h.abreast.follow hreshaped hcontains
  have hselected := h.abreast.marked_of_pushed hnumbered hreshaped hdone
  exact ⟨h.attached, ⟨stack, htraces⟩, hnumbered, habreast,
    .inl ((Outline.marked_eq hselected).trans hcurrent)⟩

/-- **Every notice is followed by a view that marks the cursor**, if it changes anything. -/
theorem agree_hear_moored (notice : Notice) :
    Agree Moored (onDesk (Desk.hear Surroundings.following notice))
      (onDesk (Desk.hear Surroundings.following notice)) := by
  refine .of_keeps fun s h => ?_
  obtain ⟨stack, htraces⟩ := h.traces
  obtain ⟨r, hr, htraces'⟩ := htraces.hear notice
  have hann := Journal.announces_hear hr
  rw [leaves_hear h.attached, Heard, hr]
  dsimp only
  rcases hu : r.update with _ | u
  · -- what is not announced has changed nothing
    have hsame : s.told r.journal s.desk.around.screen = s := by
      rw [hann.silent hu]
      rfl
    change (s.told r.journal s.desk.around.screen).Moored
    rw [hsame]
    exact h
  · exact (h.told (hann.numbered h.numbered) htraces' (hann.current u hu)
      (hann.reshaped u hu)).mono fun _ _ h' => h'

/-- Steps of the document are heard of in this way. -/
private theorem stepsAlike_moored :
    StepsAlike Surroundings.following Surroundings.following Moored where
  undone _ := agree_hear_moored _
  redone _ := agree_hear_moored _
  aside _ _ haside h := h.aside haside

/-- **Whatever the document does, the view follows.** -/
theorem keeps_moored {d : Deed} (hd : d.ordinary = true) (hm : (Move.deed d).isGesture = false) :
    Action.Keeps Moored (perform d) := by
  have haside : ∀ s s', Aside s s' → Moored s → Moored s' := fun _ _ haside h => h.aside haside
  have hvia : performVia Surroundings.following d = perform d := makeVia_following (.deed d)
  rw [← hvia]
  cases d with
  | commit kind description =>
    exact (agree_quietly (agree_commit haside agree_hear_moored kind description)).keeps
  | undo => exact (agree_quietly stepsAlike_moored.agree_undo).keeps
  | redo => exact (agree_quietly stepsAlike_moored.agree_redo).keeps
  | clearUndo => exact (agree_quietly (agree_clearUndo haside agree_hear_moored)).keeps
  | clearRedo => exact (agree_quietly (agree_clearRedo haside agree_hear_moored)).keeps
  | click row => cases hm
  | expand row => cases hm
  | collapse row => cases hm
  | _ => cases hd

/-! ### Beginnings -/

/-- Wiring a session moors it. -/
private theorem moored_wired (settings : Settings) (o : Outline) : (wired settings o).Moored := by
  have hwire : wire.Leaves (unwired settings o) fun _ s => s.Moored := by
    rw [leaves_wire]
    obtain ⟨answer, -, habreast, hselected⟩ := Screen.Abreast.of_assemble (t := (Journal.empty
      settings).timeline) (u := firstUpdate settings) settings.view {} o rfl
    have hnumbered := Timeline.Numbered.empty settings.grouping
    exact ⟨rfl, ⟨_, Journal.traces_empty settings⟩, hnumbered, habreast,
      .inl (Outline.marked_eq (hselected hnumbered))⟩
  exact hwire

/-- **A session that was just wired is at rest.** -/
theorem atRest_wired (settings : Settings) (o : Outline) : (wired settings o).AtRest where
  step := inStep_wired settings o
  calm := calm_wired settings o
  moored := moored_wired settings o

/-- A session that was walked from one at rest is moored, if its view is aligned. -/
theorem Walked.moored {n : Nat} (h : Walked s₀ n n false s) (h₀ : s₀.Moored) (ha : s.Aligned) :
    s.Moored where
  attached := h.holds.linked.attached
  traces := ⟨_, h.traces⟩
  numbered := h.holds.timeline ▸ h₀.numbered
  abreast := h.holds.timeline ▸ h₀.abreast.since h.holds.good
  aligned := ha

end Session

end UndoJournal
