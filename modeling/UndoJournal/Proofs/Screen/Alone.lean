import UndoJournal.Proofs.Action.Confined
import UndoJournal.Screen.Follow

/-!
# A screen alone

While a guard is alive nobody responds to what a view fires, so a push is a matter of the screen
alone: **whatever state the screen is kept in, and whoever responds to its user**, following an
update does to the screen what `Stage.alone` does, and nothing else (`Stage.follow_eq_zoom`).
-/

namespace UndoJournal

/-- Whether what the view fires is not taken for an act of the user. -/
def Screen.Suppressed (s : Screen) : Prop := s.link.suppressed = true

namespace Stage

variable {σ : Type} {st : Stage σ}

/-- The stage of a screen that stands alone: nobody responds to its user. -/
def alone : Stage Screen := ⟨Lens.whole, fun _ => pure ()⟩

/-- An action of the stage that acts on its screen as one of a screen alone, while that is
suppressed. -/
private abbrev OnScreen {α : Type} (st : Stage σ) (x : Action σ α) (y : Action Screen α) : Prop :=
  Action.Confined st.screen Screen.Suppressed Screen.Suppressed x y

variable (hl : st.screen.Lawful)

include hl

omit hl in
/-- A change of what is not the link is confined. -/
private theorem onScreen_modify {f : Screen → Screen} (h : ∀ s, (f s).link = s.link) :
    OnScreen st (Action.modify (st.screen.modify f)) (Action.modify f) :=
  Action.Confined.modify fun s hs => by
    rw [Screen.Suppressed, h]
    exact hs

/-- A signal that reaches the link is written down and goes no further. -/
private theorem onScreen_call (listener : Listener) (signal : Signal) :
    OnScreen st (st.call listener signal) (alone.call listener signal) := by
  cases listener with
  | other number => exact Action.Confined.pure hl ()
  | link =>
    refine Action.Confined.bind hl (onScreen_modify fun _ => rfl) (fun _ h => h) fun _ => ?_
    refine Action.Confined.read_bind (v := id) (fun _ => rfl) (fun _ => rfl) fun s hs => ?_
    have hsup : s.link.suppressed = true := hs
    simp only [id, hsup, if_true]
    exact (Action.Confined.report hl _).mono (fun _ h => h ▸ hs) fun _ h => h

private theorem onScreen_emit (signal : Signal) :
    OnScreen st (Hub.emit (st.wiring.widget.comp Widget.hubLens) st.call signal)
      (Hub.emit (alone.wiring.widget.comp Widget.hubLens) alone.call signal) := by
  refine Action.Confined.get_bind fun s hs => ?_
  refine Action.Confined.mono ?_ (fun _ h => h ▸ hs) fun _ h => h
  exact Action.Confined.bind hl (Action.Confined.report hl _) (fun _ h => h) fun _ =>
    Action.Confined.each hl fun listener => onScreen_call hl listener signal

private theorem onScreen_enact (r : Response) :
    OnScreen st (st.wiring.enact r) (alone.wiring.enact r) := by
  refine Action.Confined.bind hl ?_ (fun _ h => h) fun _ => ?_
  · exact onScreen_modify (f := fun s =>
      Screen.widgetLens.set (Widget.outlineLens.set r.outline (Screen.widgetLens.get s)) s)
      fun _ => rfl
  · exact Action.Confined.bind hl (Action.Confined.report hl _) (fun _ h => h) fun _ =>
      Action.Confined.each hl fun signal => onScreen_emit hl signal

private theorem onScreen_wiring_perform (command : ViewCommand) :
    OnScreen st (st.wiring.perform command) (alone.wiring.perform command) := by
  refine Action.Confined.read_bind (v := fun s : Screen => s.widget.outline) (fun _ => rfl)
    (fun _ => rfl) fun s hs => ?_
  refine Action.Confined.mono ?_ (fun _ h => h ▸ hs) fun _ h => h
  cases s.widget.outline.perform command with
  | error e => exact Action.Confined.pure hl _
  | ok r =>
    exact Action.Confined.bind hl (onScreen_enact hl r) (fun _ h => h) fun _ =>
      Action.Confined.pure hl _

/-- A command acts on the screen alone. -/
private theorem onScreen_perform (command : ViewCommand) :
    OnScreen st (st.perform command) (alone.perform command) := by
  refine Action.Confined.bind hl (onScreen_modify fun _ => rfl) (fun _ h => h) fun _ => ?_
  refine Action.Confined.read_bind (v := id) (fun _ => rfl) (fun _ => rfl) fun s hs => ?_
  refine Action.Confined.mono ?_ (fun _ h => h ▸ hs) fun _ h => h
  refine Action.Confined.bind hl (onScreen_modify fun _ => rfl) (fun _ h => h) fun _ => ?_
  dsimp only [id]
  rcases s.traffic.bind fun t => t.breakageOf command.op with _ | _ | _
  · exact Action.Confined.bracket hl (onScreen_wiring_perform hl command) (fun _ h => h)
      fun _ h => h
  · exact Action.Confined.pure hl _
  · exact Action.Confined.fail hl _

private theorem onScreen_performAll (commands : List ViewCommand) :
    OnScreen st (st.performAll commands) (alone.performAll commands) := by
  induction commands with
  | nil => exact Action.Confined.pure hl _
  | cons command commands ih =>
    refine Action.Confined.bind hl (onScreen_perform hl command) (fun _ h => h) fun answer => ?_
    rcases answer with e | ⟨⟩
    · exact Action.Confined.pure hl _
    · exact ih

private theorem onScreen_refresh (t : Timeline) (update : CursorUpdate) :
    OnScreen st (st.refresh t update) (alone.refresh t update) := by
  refine Action.Confined.read_bind (v := id) (fun _ => rfl) (fun _ => rfl) fun s hs => ?_
  refine Action.Confined.mono ?_ (fun _ h => h ▸ hs) fun _ h => h
  dsimp only [id]
  split
  · refine Action.Confined.bind hl (onScreen_perform hl _) (fun _ h => h) fun answer => ?_
    rcases answer with e | ⟨⟩
    · exact Action.Confined.pure hl _
    · exact Action.Confined.bind hl (Action.Confined.modify fun _ h => h) (fun _ h => h) fun _ =>
        Action.Confined.pure hl _
  · exact Action.Confined.pure hl _

private theorem onScreen_push (t : Timeline) (update : CursorUpdate) :
    OnScreen st (st.push t update) (alone.push t update) := by
  have hplanned : ∀ l : Link, l.planned.suppressed = l.suppressed := fun l => by
    unfold Link.planned
    split <;> rfl
  refine Action.Confined.bind hl (onScreen_refresh hl t update) (fun _ h => h) fun answer => ?_
  rcases answer with e | ⟨⟩
  · exact Action.Confined.pure hl _
  · refine Action.Confined.read_bind (v := id) (fun _ => rfl) (fun _ => rfl) fun s hs => ?_
    refine Action.Confined.mono ?_ (fun _ h => h ▸ hs) fun _ h => h
    exact Action.Confined.bind hl
      (Action.Confined.modify fun s' h => (hplanned s'.link).trans h) (fun _ h => h) fun _ =>
      onScreen_performAll hl _

private theorem onScreen_pushed (t : Timeline) (update : CursorUpdate) :
    OnScreen st (st.pushed t update) (alone.pushed t update) := by
  refine Action.Confined.bind hl (onScreen_push hl t update) (fun _ h => h) fun answer => ?_
  rcases answer with e | ⟨⟩
  · exact Action.Confined.bind hl (Action.Confined.modify fun _ h => h) (fun _ h => h) fun _ =>
      Action.Confined.pure hl _
  · exact Action.Confined.bind hl (Action.Confined.report hl _) (fun _ h => h) fun _ =>
      Action.Confined.pure hl _

/-- **A push is a matter of the screen alone.** -/
theorem follow_eq_zoom (t : Timeline) (update : CursorUpdate) :
    st.follow t update = Action.zoom st.screen (alone.follow t update) := by
  suffices h : Action.Confined st.screen (fun _ => True) (fun _ => True) (st.follow t update)
      (alone.follow t update) from Action.ext fun s => h.run_eq trivial
  refine Action.Confined.read_bind (v := id) (fun _ => rfl) (fun _ => rfl) fun s _ => ?_
  refine Action.Confined.mono ?_ (fun _ _ => trivial) fun _ h => h
  dsimp only [id]
  split
  · exact Action.Confined.pure hl _
  · split
    · exact Action.Confined.bind hl (Action.Confined.modify fun _ h => h) (fun _ h => h) fun _ =>
        Action.Confined.bind hl (Action.Confined.report hl _) (fun _ h => h) fun _ =>
          Action.Confined.pure hl _
    · refine Action.Confined.within _ (Action.Confined.bracket hl (onScreen_pushed hl t update) ?_
        fun _ _ => trivial)
      exact fun s' _ => decide_eq_true (Nat.succ_pos s'.link.depth)

end Stage

end UndoJournal
