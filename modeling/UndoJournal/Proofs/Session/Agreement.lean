import UndoJournal.Proofs.Session.Answers
import UndoJournal.Proofs.Session.Deeds

/-!
# Document and journal never disagree

Whatever is done to a session, and in whatever order, as long as no call of its view is planned to
break down: **no deed meets a fault, and after each of them document and journal have the same
events and the same boundary** (`Session.each_deed_agrees`). This is carried by `Session.InStep`,
which every deed comes back to, those of the document (`gives_notice`), of the user
(`gives_attempt`) and those done to the link (`InStep.onScreen`).
-/

namespace UndoJournal

namespace Session

variable {s s₀ : Session}

/-! ### Deeds of the document -/

/-- A change of the document that its journal hears of. -/
theorem gives_notice (h : s.InStep) {d : Document Watcher}
    (hobs : d.observers = s.document.observers) {notice : Notice}
    (hstack : Stack.hear ⟨s.events, s.document.applied.length, false⟩ notice =
      ⟨d.applied ++ d.future, d.applied.length, false⟩) :
    (audience.notify notice).Gives { s with document := d } fun _ s' => Settled s s' := by
  have hl : Linked { s with document := d } := ⟨h.linked.attached, hobs ▸ h.linked.observed⟩
  refine (gives_notify hl (.refl h.tracks) h.traces notice).mono ?_
  rintro _ _ ⟨r, hr, rfl, htr, hs⟩
  refine ⟨⟨hl.told _ _, ?_, hstack ▸ htr, h.navigator⟩, hs.stale⟩
  rw [hs.tracks.disconnected]
  exact hs.tracks

/-- What is applied of the events are the first of them. -/
private theorem take_events (s : Session) :
    s.events.take s.document.applied.length = s.document.applied := by
  rw [events, List.take_left']
  rfl

private theorem gives_commit (h : s.InStep) (kind description : String) :
    (commit kind description).Gives s fun _ s' => Settled s s' := by
  let e : Event := ⟨⟨s.document.nextId⟩, kind, description⟩
  have hstack : Stack.hear ⟨s.events, s.document.applied.length, false⟩ (.committed e) =
      ⟨(s.document.committed e).applied ++ [], (s.document.committed e).applied.length, false⟩ := by
    simp only [Stack.hear, take_events]
    simp [Document.committed, Document.applied]
  simp only [commit, Audience.commit, Audience.look, Audience.change, Action.gives_bind,
    Action.gives_get, Action.gives_pure, Action.gives_modify, Action.gives_note]
  exact gives_notice (d := s.document.committed e) h rfl hstack

private theorem gives_clearUndo (h : s.InStep) : clearUndo.Gives s fun _ s' => Settled s s' := by
  have hstack : Stack.hear ⟨s.events, s.document.applied.length, false⟩ .undoCleared =
      ⟨[] ++ s.document.future, 0, false⟩ := by
    simp [Stack.hear, events]
  simp only [clearUndo, Audience.clearUndo, Audience.change, Action.gives_bind,
    Action.gives_modify]
  exact gives_notice (d := { s.document with past := [] }) h rfl hstack

private theorem gives_clearRedo (h : s.InStep) : clearRedo.Gives s fun _ s' => Settled s s' := by
  have hstack : Stack.hear ⟨s.events, s.document.applied.length, false⟩ .redoCleared =
      ⟨s.document.applied ++ [], s.document.applied.length, false⟩ := by
    simp [Stack.hear, take_events]
  simp only [clearRedo, Audience.clearRedo, Audience.change, Action.gives_bind,
    Action.gives_modify]
  exact gives_notice (d := { s.document with future := [] }) h rfl hstack

private theorem gives_document_undo (h : s.InStep) : undo.Gives s fun _ s' => Settled s s' := by
  rcases hpast : s.document.past with _ | ⟨e, past⟩
  · exact (gives_undo_of_nil hpast).mpr h.settled
  · have hlen : s.document.applied.length = past.length + 1 := by
      simp [Document.applied, hpast]
    have hw := h.walked
    rw [hlen] at hw
    exact (gives_undo hw.guided (fun _ => rfl) fun _ => carries_true _ _).mono
      fun _ _ h' => h'.2.settled h.navigator

private theorem gives_document_redo (h : s.InStep) : redo.Gives s fun _ s' => Settled s s' := by
  rcases hfuture : s.document.future with _ | ⟨e, future⟩
  · exact (gives_redo_of_nil hfuture).mpr h.settled
  · have hlt : s.document.applied.length < s.events.length := by
      simp [events, hfuture]
    exact (gives_redo h.walked.guided hlt (fun _ => rfl) fun _ => carries_true _ _).mono
      fun _ _ h' => h'.2.settled h.navigator

/-! ### Deeds done to the link -/

/-- A change of the screen that is about other things. -/
theorem InStep.onScreen (h : s.InStep) {screen : Screen} {cut : Bool}
    (ht : screen.Tracks cut s.desk.journal.timeline)
    (hstale : screen.link.stale = s.desk.around.screen.link.stale) :
    Settled s (screenLens.set screen s) :=
  ⟨⟨⟨h.linked.attached, h.linked.observed⟩, ht.disconnected ▸ ht, h.traces, h.navigator⟩,
    fun hs => .inl (hstale.symm.trans hs)⟩

private theorem gives_change (h : s.InStep) {f : Screen → Screen}
    (ht : ∀ cut t screen, Screen.Tracks cut t screen → (f screen).Tracks cut t)
    (hstale : ∀ screen, (f screen).link.stale = screen.link.stale) :
    (stage.change f).Gives s fun _ s' => Settled s s' :=
  (Action.gives_modify _).mpr (h.onScreen (ht _ _ _ h.tracks) (hstale _))

theorem gives_disconnect (h : s.InStep) : stage.disconnect.Gives s fun _ s' => Settled s s' := by
  simp only [Stage.disconnect, Action.gives_zoom]
  exact h.tracks.disconnect.mono fun _ screen hs => h.onScreen hs.1 hs.2

/-! ### Any deeds -/

/-- **Each deed comes back to a session in step.** -/
theorem gives_perform (h : s.InStep) {d : Deed} (hd : d.Harmless) :
    (perform d).Gives s fun answer s' =>
      Settled s s' ∧ ∀ e, answer = .error (.history e) → s.Misses e := by
  -- a deed without an answer has no error to account for
  have hquiet : ∀ {α : Type} {x : Action Session α}, (x.Gives s fun _ s' => Settled s s') →
      (quietly x).Gives s fun answer s' =>
        Settled s s' ∧ ∀ e, answer = .error (.history e) → s.Misses e :=
    fun hx => gives_quietly.mpr (hx.mono fun _ _ h' => ⟨h', nofun⟩)
  -- the answer of a gesture is that of the deed
  have hplain : ∀ {α : Type} {x : Action Session (Except SessionError α)},
      (x.Gives s fun answer s' =>
        Settled s s' ∧ ∀ e, answer = .error (.history e) → s.Misses e) →
      (plainly x).Gives s fun answer s' =>
        Settled s s' ∧ ∀ e, answer = .error (.history e) → s.Misses e := by
    refine fun hx => gives_plainly.mpr (hx.mono fun answer _ h' => ⟨h'.1, fun e he => ?_⟩)
    rcases answer with e' | a <;> cases he
    exact h'.2 e rfl
  cases d with
  | commit kind description => exact hquiet (gives_commit h kind description)
  | undo => exact hquiet (gives_document_undo h)
  | redo => exact hquiet (gives_document_redo h)
  | clearUndo => exact hquiet (gives_clearUndo h)
  | clearRedo => exact hquiet (gives_clearRedo h)
  | click row => exact hplain (gives_click h row)
  | expand row => exact hplain (gives_expandRow h row)
  | collapse row => exact hplain (gives_collapseRow h row)
  | pause =>
    exact hquiet (gives_change h (fun _ _ _ ht => ht.onLink rfl rfl rfl) fun _ => rfl)
  | resume =>
    exact hquiet (gives_change h (fun _ _ _ ht => ht.onLink rfl rfl rfl) fun _ => rfl)
  | block blocked =>
    exact hquiet (gives_change h (fun _ _ _ ht => ht.blockListeners blocked) fun _ => rfl)
  | hold =>
    exact hquiet (gives_change h (fun _ _ _ ht => ht.onLink rfl rfl rfl) fun _ => rfl)
  | release =>
    refine hquiet (gives_change h (fun _ _ screen ht => ht.onLink ?_ ?_ ?_) fun screen => ?_)
    · rw [Link.release_eq]
    · rw [Link.release_eq]
    · rw [Link.release_eq]
    · change screen.link.release.2.stale = _
      rw [Link.release_eq]
  | disconnect => exact hquiet (gives_disconnect h)
  | plant op breakage =>
    obtain rfl : breakage = .error := by
      cases breakage with
      | error => rfl
      | collapse => exact absurd rfl (hd op)
    exact hquiet (gives_change h (fun _ _ _ ht => ht.plant op) fun _ => rfl)

/-- Wiring a session brings everything in step, and its view up to date. -/
theorem gives_wire (settings : Settings) (o : Outline) :
    wire.Gives (unwired settings o) fun _ s =>
      s.InStep ∧ s.desk.around.screen.link.stale = false := by
  let s : Session := unwired settings o
  let s₁ : Session := { s with desk := { s.desk with attached := some .screen } }
  let u : CursorUpdate := s.desk.journal.standing .attach
  have hs : Screen.Tracks false s.desk.journal.timeline s.desk.around.screen :=
    .assemble settings.view {} o _
  have htr : s.desk.journal.Traces ⟨s.events, 0, false⟩ := Journal.traces_empty settings
  have hnone : (deskLens.get (unwired settings o)).attached = none := rfl
  simp only [wire, onDesk, Desk.attach, Action.gives_bind, Action.gives_get, Action.gives_report,
    Action.gives_zoom, Action.gives_modify, Action.gives_note, hnone]
  change (onDesk (Desk.tell Surroundings.following u)).Gives s₁ fun _ s' =>
    s'.InStep ∧ s'.desk.around.screen.link.stale = false
  -- the journal is empty and the link still stale, so the first push shows all rows anew
  obtain ⟨answer, hanswer, hs'⟩ := hs.follow (u := u) fun _ => rfl
  obtain ⟨-, -, -, hstale⟩ := Screen.gives_follow_ok (s := s.desk.around.screen)
    (t := s.desk.journal.timeline) (u := u) rfl rfl rfl (fun h => by cases h) rfl
  rw [Action.Gives, leaves_tell rfl]
  refine ⟨(), ?_, ⟨⟨rfl, 0, rfl⟩, ?_, htr, rfl⟩, hstale⟩
  · change Except.map _ ((Stage.alone.follow _ u).run s.desk.around.screen).result = _
    rw [hanswer]
    rfl
  · exact hs'.disconnected ▸ hs'

theorem inStep_wired (settings : Settings) (o : Outline) : (wired settings o).InStep := by
  obtain ⟨-, -, h, -⟩ := gives_wire settings o
  exact h

/-! ### Any run -/

/-- The events of the journal are those of the document, the applied ones first; its cursor is
behind these, and it heeds what the document tells it. -/
structure Agrees (s : Session) : Prop where
  events : s.desk.journal.timeline.toList.map Entry.event =
    s.document.applied ++ s.document.future
  cursor : s.desk.journal.timeline.ordinal s.desk.journal.cursor =
    .ok s.document.applied.length
  heeding : s.desk.journal.muted = false

theorem InStep.agrees (h : s.InStep) : s.Agrees :=
  ⟨h.traces.events, h.traces.cursor, h.traces.muted⟩

/-- A deed with that answer leaves document and journal in agreement, and fails only for a row that
is out of date. -/
structure Concord (s : Session) (answer : Except SessionError Unit) (s' : Session) : Prop where
  agrees : s'.Agrees
  /-- A navigator only fails for a row that is out of date. -/
  misses : ∀ e, answer = .error (.history e) → s.Misses e
  /-- The view only gets out of date by a pause or by a call that is planned to fail. -/
  stale : s'.desk.around.screen.link.stale = true → s.desk.around.screen.link.stale = true ∨
    s.desk.around.screen.link.paused = true ∨ s.desk.around.screen.breakage? ≠ none

/-- No deed of a run meets a fault, and each comes to something good. -/
def Steps (good : Session → Except SessionError Unit → Session → Prop) :
    Session → List Deed → Prop
  | _, [] => True
  | s, d :: ds => (perform d).Gives s fun answer s' => good s answer s' ∧ Steps good s' ds

/-- Every step of a run from a session in step comes back to one. -/
private theorem InStep.steps (h : s.InStep) {ds : List Deed} (hds : ∀ d ∈ ds, d.Harmless) :
    s.Steps Concord ds := by
  induction ds generalizing s with
  | nil => trivial
  | cons d ds ih =>
    refine (gives_perform h (hds d List.mem_cons_self)).mono ?_
    rintro answer s' ⟨hsettled, hmisses⟩
    refine ⟨⟨hsettled.step.agrees, hmisses, hsettled.stale⟩, ?_⟩
    -- the deed came back to a session in step, from which the rest starts
    exact ih hsettled.step fun d' hd' => hds d' (List.mem_cons_of_mem _ hd')

/-- **Document and journal never disagree.** Wiring a session meets no fault and leaves its view up
to date. After that, whatever is done as long as no call of the view is planned to break down, no
deed meets a fault, and after each of them the journal has the events of the document, its cursor is
behind the applied ones, and it heeds undo and redo notices; the navigator fails for no other reason
than that the user meant a row that is out of date. -/
theorem each_deed_agrees (settings : Settings) (o : Outline) (ds : List Deed)
    (hds : ∀ d ∈ ds, d.Harmless) :
    wire.Gives (unwired settings o) fun _ s =>
      s.Agrees ∧ s.desk.around.screen.link.stale = false ∧ s.Steps Concord ds :=
  (gives_wire settings o).mono fun _ _ ⟨h, hstale⟩ => ⟨h.agrees, hstale, h.steps hds⟩

/-- A user collapses the run that the cursor heads, and then clicks a row that was forgotten during
a pause. -/
theorem each_deed_agrees_stale_click :
    let ds : List Deed := [.commit "Edit" "one", .commit "Edit" "two", .click 1, .expand 1,
      .collapse 1, .click 0, .pause, .clearRedo]
    (wire.Gives (unwired {} (.empty {} .unicode 0)) fun _ s =>
      s.Agrees ∧ s.desk.around.screen.link.stale = false ∧ s.Steps Concord (ds ++ [.click 1])) ∧
    ((perform (.click 1)).run ((wired {} (.empty {} .unicode 0)).after ds)).result =
      .ok (.error (.history (.unknownTarget (.on (.ofHead 0))))) := by
  refine ⟨each_deed_agrees {} _ _ ?_, by decide +kernel⟩
  simp [Deed.Harmless]

end Session

end UndoJournal
