import UndoJournal.Proofs.Outline.Commands
import UndoJournal.Proofs.Session.Walks

/-!
# What the user of a session is answered

A gesture on the screen of a session may fire several signals, and the navigator turns each of them
into steps of the document. `Session.InStep` is what this starts from and what it comes back to:
document and journal have the same events and the same boundary, the screen keeps track of the
timeline, and the navigator is free.

* **No gesture meets a fault**, and each leaves the session in step (`gives_click` and its
  companions).
* **The one error that a navigator answers is that a position is unknown** (`Session.Misses`): the
  link is stale, and the view still has a row that the timeline no longer has.
-/

namespace UndoJournal

namespace Session

/-- Document and journal are in step, the screen keeps track, and the navigator is free. -/
structure InStep (s : Session) : Prop where
  linked : s.Linked
  tracks : s.desk.around.screen.Tracks s.desk.around.screen.link.disconnected
    s.desk.journal.timeline
  traces : s.desk.journal.Traces ⟨s.events, s.document.applied.length, false⟩
  navigator : s.desk.around.navigator = .fresh

/-- A navigator cannot get to a row of the view, which is out of date. -/
def Misses (s : Session) (e : HistoryError) : Prop :=
  ∃ row ∈ s.desk.around.screen.widget.outline.rows, e = .unknownTarget row.position ∧
    s.desk.journal.timeline.contains row.position = false ∧
    s.desk.around.screen.link.stale = true

variable {s s₀ : Session}

theorem InStep.walked (h : s.InStep) :
    Walked s s.document.applied.length s.document.applied.length false s where
  holds := ⟨h.linked, rfl, .refl h.tracks⟩
  traces := h.traces
  events := rfl
  applied := rfl
  navigator := rfl

/-- While the link is connected, a row that the timeline does not have is one that is missed. -/
private theorem InStep.misses (h : s.InStep) (hd : s.desk.around.screen.link.disconnected = false)
    {p : Position} (hp : s.desk.around.screen.widget.outline.shown.contains p = true)
    (hc : s.desk.journal.timeline.contains p = false) : s.Misses (.unknownTarget p) := by
  cases p with
  | start => cases hc
  | on a =>
    obtain ⟨row, hrow⟩ := Outline.exists_rowAt? hp
    obtain ⟨hmem, hpos⟩ := Outline.of_rowAt?_eq_some hrow
    refine ⟨row, hmem, by rw [hpos], by rw [hpos]; exact hc, ?_⟩
    rcases hs : s.desk.around.screen.link.stale with _ | _
    · rw [h.tracks.rows hd hs, hc] at hp
      cases hp
    · rfl

/-! ### The navigator -/

/-- Which navigator it is does not matter for where document and journal stand. -/
theorem Walked.withNavigator {applied cursor : Nat} {muted : Bool}
    (h : Walked s₀ applied cursor muted s) (n : Navigator) :
    Walked (navigatorLens.set n s₀) applied cursor muted (navigatorLens.set n s) :=
  ⟨h.holds.of_eq rfl rfl rfl rfl, h.traces, h.events, h.applied, rfl⟩

/-- What signals make of a session: they walk it, and an error is kept only for what is missed. -/
structure Gestured (s₀ s : Session) : Prop where
  walked : ∃ n, Walked (navigatorLens.set s.desk.around.navigator s₀) n n false s
  idle : s.desk.around.navigator.presence = .idle
  error : ∀ e, s.desk.around.navigator.lastError = some e → s₀.Misses e

namespace Gestured

/-- A change that leaves document, journal and navigator as they were. -/
private theorem of_eq (h : Gestured s₀ s) {s' : Session} (hd : s'.document = s.document)
    (hatt : s'.desk.attached = s.desk.attached) (hj : s'.desk.journal = s.desk.journal)
    (hn : s'.desk.around.navigator = s.desk.around.navigator)
    (hs : Screen.TracksSince s₀.desk.around.screen s₀.desk.journal.timeline
      s'.desk.around.screen) : Gestured s₀ s' := by
  obtain ⟨n, hw⟩ := h.walked
  refine ⟨⟨n, ⟨⟨⟨hatt ▸ hw.holds.linked.attached, hd ▸ hw.holds.linked.observed⟩, ?_, hs⟩, ?_,
    ?_, ?_, rfl⟩⟩, hn ▸ h.idle, hn ▸ h.error⟩
  · rw [hj]
    exact hw.holds.timeline
  · rw [hj]
    exact hw.traces
  · rw [events, hd]
    exact hw.events
  · rw [hd]
    exact hw.applied

private theorem screen (h : Gestured s₀ s) :
    Screen.TracksSince s₀.desk.around.screen s₀.desk.journal.timeline s.desk.around.screen := by
  obtain ⟨n, hw⟩ := h.walked
  exact hw.holds.good

end Gestured

/-- A navigator that is free acts, and is free again. -/
private theorem gives_handle (h : Gestured s₀ s) (act : UserAct)
    (hact : ∀ p, act = .select p → s₀.desk.journal.timeline.contains p = false →
      s₀.Misses (.unknownTarget p)) :
    (Navigator.handle navigatorLens controls act).Gives s fun _ s' => Gestured s₀ s' := by
  obtain ⟨n, hw⟩ := h.walked
  have hpresence : (navigatorLens.get s).presence = .idle := h.idle
  let busy : Navigator := { s.desk.around.navigator with presence := .busy }
  simp only [Navigator.handle, Action.gives_bind, Action.gives_get, hpresence, Navigator.acting,
    Action.gives_bracket]
  refine (gives_act (hw.withNavigator busy) act).mono ?_
  rintro answer s₁ ⟨⟨n', hw₁⟩, herr⟩
  have hnav : s₁.desk.around.navigator = busy := hw₁.navigator
  rcases answer with e | ⟨⟩
  · obtain ⟨p, hp, rfl, hc⟩ := herr e rfl
    simp only [Action.gives_bind, Action.gives_note, Action.gives_modify]
    refine ⟨⟨n', hw₁.withNavigator _⟩, rfl, ?_⟩
    rintro _ ⟨⟩
    exact hact p hp hc
  · refine (Action.gives_pure _).mpr ⟨⟨n', hw₁.withNavigator _⟩, rfl, ?_⟩
    change ∀ e, s₁.desk.around.navigator.lastError = some e → _
    rw [hnav]
    exact h.error

/-! ### Signals -/

/-- A signal that only speaks of what the view showed. -/
private theorem gives_call (h₀ : s₀.InStep) (hd : s₀.desk.around.screen.link.disconnected = false)
    {signal : Signal}
    (hsignal : ∀ p, signal = .selectionChanged (some p) →
      s₀.desk.around.screen.widget.outline.shown.contains p = true)
    (h : Gestured s₀ s) (listener : Listener) :
    (stage.call listener signal).Gives s fun _ s' => Gestured s₀ s' := by
  cases listener with
  | other number => exact (Action.gives_pure _).mpr h
  | link =>
    simp only [Stage.call, Stage.change, Stage.look, Action.gives_bind, Action.gives_modify,
      Action.gives_get, Action.gives_pure]
    have h₁ : Gestured s₀ (screenLens.modify (Screen.overhear signal) s) :=
      h.of_eq rfl rfl rfl rfl (h.screen.overhear signal)
    split
    · exact (Action.gives_note ..).mpr h₁
    · split
      · exact (Action.gives_pure _).mpr h₁
      · rename_i act hact
        simp only [stage, Action.gives_bind, Action.gives_zoom, Action.gives_modify]
        have h₂ : Gestured s₀ (aroundLens.modify Surroundings.probe
            (screenLens.modify (Screen.overhear signal) s)) := h₁.of_eq rfl rfl rfl rfl h₁.screen
        refine gives_handle h₂ act ?_
        -- the act names a row of the view; one that the timeline lacks is out of date
        rintro p rfl hc
        refine h₀.misses hd (hsignal p ?_) hc
        cases signal with
        | selectionChanged q =>
          cases q <;> cases hact
          rfl
        | rowExpanded group => cases hact
        | rowCollapsed group => cases hact

/-- An emission of such a signal; where the link is gone, nobody hears it. -/
private theorem gives_emit (h₀ : s₀.InStep) {signal : Signal}
    (hsignal : ∀ p, signal = .selectionChanged (some p) →
      s₀.desk.around.screen.widget.outline.shown.contains p = true) (h : Gestured s₀ s) :
    (Hub.emit (stage.wiring.widget.comp Widget.hubLens) stage.call signal).Gives s
      fun _ s' => Gestured s₀ s' := by
  simp only [Hub.emit, Action.gives_bind, Action.gives_get, Action.gives_note]
  rcases hd : s₀.desk.around.screen.link.disconnected with _ | _
  · exact Action.gives_each (fun listener _ s₁ h₁ => gives_call h₀ hd hsignal h₁ listener) h
  · -- a link that is gone has left no listener behind
    have hslots : s.desk.around.screen.widget.hub.slots = [] :=
      Screen.Tracks.slots_eq_nil (hd ▸ h.screen.tracks)
    change Action.Gives (Action.each _ (s.desk.around.screen.widget.hub.receivers signal)) s _
    rw [Hub.receivers, hslots]
    exact (Action.gives_pure _).mpr h

/-- What a gesture comes to, as long as it stays with what the view shows. -/
private theorem gives_enact (h : s.InStep) {r : Response}
    (hr : r.Stays s.desk.around.screen.widget.outline) :
    (stage.wiring.enact r).Gives s fun _ s' => Gestured s s' := by
  have hstart : Gestured s s := by
    refine ⟨⟨_, h.walked⟩, ?_, ?_⟩ <;> rw [h.navigator]
    · rfl
    · exact nofun
  simp only [Wiring.enact, Action.gives_bind, Action.gives_modify, Action.gives_report]
  refine Action.gives_each (fun signal hsignal s₁ h₁ => gives_emit h (fun p hp => ?_) h₁)
    (hstart.of_eq rfl rfl rfl rfl (hstart.screen.outline hr.shown))
  exact hr.positions p (hp ▸ hsignal)

/-! ### Gestures -/

/-- How a gesture can go: the view refuses it and nothing is done, or it is carried out. -/
def Answered {α : Type} (s : Session) : Except ViewError α → Session → Prop
  | .error _, s' => s' = s
  | .ok _, s' => Gestured s s'

private theorem gives_wiring_click (h : s.InStep) (row : Nat) :
    (stage.wiring.click row).Gives s s.Answered := by
  simp only [Wiring.click, Wiring.outline, Action.gives_bind, Action.gives_get, Action.gives_pure]
  split
  · exact (Action.gives_pure _).mpr rfl
  · rename_i r hr
    rw [Action.gives_bind]
    exact (gives_enact h (Outline.stays_click hr)).mono fun _ s' h' => (Action.gives_pure _).mpr h'

private theorem gives_wiring_use (h : s.InStep)
    {gesture : Outline → Except ViewError (Bool × Response)}
    (hstays : ∀ o changed r, gesture o = .ok (changed, r) → r.Stays o) :
    (stage.wiring.use gesture).Gives s s.Answered := by
  simp only [Wiring.use, Wiring.outline, Action.gives_bind, Action.gives_get, Action.gives_pure]
  split
  · exact (Action.gives_pure _).mpr rfl
  · rename_i changed r hr
    rw [Action.gives_bind]
    exact (gives_enact h (hstays _ _ _ hr)).mono fun _ s' h' => (Action.gives_pure _).mpr h'

/-- What is left where nothing was done, or where the session was only walked: a session in step,
and a link that got stale only if that was to be expected. -/
structure Settled (s₀ s : Session) : Prop where
  step : s.InStep
  stale : s.desk.around.screen.link.stale = true → s₀.desk.around.screen.link.stale = true ∨
    s₀.desk.around.screen.link.paused = true ∨ s₀.desk.around.screen.breakage? ≠ none

theorem InStep.settled (h : s.InStep) : Settled s s := ⟨h, .inl⟩

/-- A session that was walked to an end is in step again. -/
theorem Walked.settled {n : Nat} (h : Walked s₀ n n false s)
    (hn : s₀.desk.around.navigator = .fresh) : Settled s₀ s := by
  have hs := h.holds.good
  refine ⟨⟨h.holds.linked, ?_, ?_, h.navigator.trans hn⟩, hs.stale⟩
  · rw [hs.tracks.disconnected, h.holds.timeline]
    exact hs.tracks
  · rw [h.applied, h.events]
    exact h.traces

/-- Once its error is taken, the navigator is as good as new. -/
private theorem Gestured.settled (h : Gestured s₀ s) : Settled s₀ (navigatorLens.set .fresh s) := by
  obtain ⟨n, hw⟩ := h.walked
  have hsettled := (hw.withNavigator .fresh).settled rfl
  exact ⟨hsettled.step, hsettled.stale⟩

/-- **What the user is answered**: the session is in step, and an error of the navigator is about a
row that the timeline does not have. -/
theorem gives_attempt {α : Type} {x : Action Session (Except ViewError α)} (h : s.InStep)
    (hx : x.Gives s s.Answered) :
    (attempt x).Gives s fun answer s' =>
      Settled s s' ∧ ∀ e, answer = .error (.history e) → s.Misses e := by
  rw [attempt, Action.gives_bind]
  refine hx.mono ?_
  rintro (e | a) s₁ h₁
  · obtain rfl : s₁ = s := h₁
    exact (Action.gives_pure _).mpr ⟨h.settled, by simp⟩
  · have hidle : (navigatorLens.get s₁).presence = .idle := h₁.idle
    have hfresh : navigatorLens.modify (fun n => { n with lastError := none }) s₁ =
        navigatorLens.set .fresh s₁ := by
      simp only [Lens.modify, hidle]
      rfl
    simp only [Navigator.takeError, Action.gives_bind, Action.gives_get, Action.gives_modify,
      Action.gives_pure, hfresh]
    rcases he : (navigatorLens.get s₁).lastError with _ | e
    · exact (Action.gives_pure _).mpr ⟨h₁.settled, by simp⟩
    · refine (Action.gives_pure _).mpr ⟨h₁.settled, ?_⟩
      rintro _ ⟨⟩
      exact h₁.error e he

/-- **A click** walks the session to the row. -/
theorem gives_click (h : s.InStep) (row : Nat) :
    (click row).Gives s fun answer s' =>
      Settled s s' ∧ ∀ e, answer = .error (.history e) → s.Misses e :=
  gives_attempt h (gives_wiring_click h row)

theorem gives_expandRow (h : s.InStep) (row : Nat) :
    (expand row).Gives s fun answer s' =>
      Settled s s' ∧ ∀ e, answer = .error (.history e) → s.Misses e :=
  gives_attempt h (gives_wiring_use h fun _ _ _ => Outline.stays_expandRow)

theorem gives_collapseRow (h : s.InStep) (row : Nat) :
    (collapse row).Gives s fun answer s' =>
      Settled s s' ∧ ∀ e, answer = .error (.history e) → s.Misses e :=
  gives_attempt h (gives_wiring_use h fun _ _ _ => Outline.stays_collapseRow)

end Session

end UndoJournal
