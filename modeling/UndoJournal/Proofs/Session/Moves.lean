import UndoJournal.Proofs.Session.Cascade
import UndoJournal.Proofs.Session.Deeds
import UndoJournal.Proofs.Session.Telling

/-!
# Moves

A `Session.Move` is a deed, or one of the things that can be done to a session beside the deeds: a
click on the expander of a row, a notice that somebody else than the document sends to the journal,
and telling the screen the whole state again. Resuming a link and then telling the screen the whole
state is what catches up with a pause at once.

Like deeds, moves go on from whatever state a fault left (`Session.afterMoves`).
-/

namespace UndoJournal

namespace Session

open UndoJournal.Action (Agree)

/-- A deed, a click on an expander, a notice that is not the document's, or a resync. -/
inductive Move where
  /-- Do a deed. -/
  | deed (d : Deed)
  /-- Click the expander of the row at a place. -/
  | toggle (row : Nat)
  /-- Send the journal a notice that is not the document's. -/
  | hear (notice : Notice)
  /-- Tell the follower of the journal the whole state again. -/
  | resync
deriving DecidableEq

/-- Make a move. -/
def make : Move → Action Session (Except SessionError Unit)
  | .deed d => perform d
  | .toggle row => plainly (attempt (stage.wiring.toggleRow row))
  | .hear notice => quietly (deliver .journal notice)
  | .resync => quietly controls.resync

/-- The session after some moves, whichever of them met a fault. -/
def afterMoves (s : Session) : List Move → Session
  | [] => s
  | m :: ms => afterMoves ((make m).run s).state ms

theorem afterMoves_append (s : Session) (ms ms' : List Move) :
    s.afterMoves (ms ++ ms') = (s.afterMoves ms).afterMoves ms' := by
  induction ms generalizing s with
  | nil => rfl
  | cons m ms ih => exact ih _

/-! ### Moves of sessions whose plugs follow in another way -/

section Via

variable (f : Following Plug Surroundings)

/-- Attach the screen to the journal, with plugs that follow in the given way. -/
def wireVia : Action Session Unit := do
  let s ← Action.get
  Action.report [(screenLens.get s).assembledNote]
  onDesk (Desk.attach f .screen)
  Action.note .debug "session wired" []

/-- Do a deed, with plugs that follow in the given way. -/
def performVia : Deed → Action Session (Except SessionError Unit)
  | .commit kind description => quietly ((audienceVia f).commit kind description)
  | .undo => quietly (audienceVia f).undo
  | .redo => quietly (audienceVia f).redo
  | .clearUndo => quietly (audienceVia f).clearUndo
  | .clearRedo => quietly (audienceVia f).clearRedo
  | .click row => plainly (attempt ((stageVia f).wiring.click row))
  | .expand row => plainly (attempt ((stageVia f).wiring.expandRow row))
  | .collapse row => plainly (attempt ((stageVia f).wiring.collapseRow row))
  | d => perform d

/-- Make a move, with plugs that follow in the given way. -/
def makeVia : Move → Action Session (Except SessionError Unit)
  | .deed d => performVia f d
  | .toggle row => plainly (attempt ((stageVia f).wiring.toggleRow row))
  | .hear notice => quietly (onDesk (Desk.hear f notice))
  | .resync => quietly (onDesk (Desk.resync f))

end Via

theorem wireVia_following : wireVia Surroundings.following = wire := rfl

theorem makeVia_following (m : Move) : makeVia Surroundings.following m = make m := by
  cases m with
  | deed d =>
    cases d <;> simp only [makeVia, performVia, audienceVia_following, stageVia_following] <;> rfl
  | toggle row =>
    rw [makeVia, stageVia_following]
    rfl
  | hear notice => rfl
  | resync => rfl

/-! ### Wiring -/

/-- A session whose screen is attached and was told nothing yet. -/
def fitted (settings : Settings) (o : Outline) : Session :=
  { unwired settings o with
    desk := { (unwired settings o).desk with attached := some .screen } }

/-- What the screen is told when it is attached. -/
def firstUpdate (settings : Settings) : CursorUpdate := (Journal.empty settings).standing .attach

/-- Wiring goes alike where the first update is followed alike. -/
theorem run_wireVia_congr {f g : Following Plug Surroundings} {settings : Settings} {o : Outline}
    (h : (f.follow .screen (Journal.empty settings).timeline (firstUpdate settings)).run
        (fitted settings o).desk.around =
      (g.follow .screen (Journal.empty settings).timeline (firstUpdate settings)).run
        (fitted settings o).desk.around) :
    (wireVia f).run (unwired settings o) = (wireVia g).run (unwired settings o) := by
  have htell : (Desk.tell f (firstUpdate settings)).run (fitted settings o).desk =
      (Desk.tell g (firstUpdate settings)).run (fitted settings o).desk := by
    refine Desk.run_tell_congr fun plug hplug => ?_
    obtain rfl : Plug.screen = plug := Option.some.inj hplug
    exact h
  have hdesk : (Desk.attach f .screen).run (deskLens.get (unwired settings o)) =
      (Desk.attach g .screen).run (deskLens.get (unwired settings o)) := by
    rw [Desk.run_attach_of_none rfl, Desk.run_attach_of_none rfl, Action.run_bind, Action.run_bind]
    change Outcome.mk ((Desk.tell f (firstUpdate settings)).run (fitted settings o).desk).result
      ((Desk.tell f (firstUpdate settings)).run (fitted settings o).desk).state
      (_ ++ ((Desk.tell f (firstUpdate settings)).run (fitted settings o).desk).notes) = _
    rw [htell]
    rfl
  simp only [wireVia, onDesk, Action.run_bind, Action.run_get, Action.run_report, Action.run_zoom,
    hdesk]

/-- Wiring leaves what the first update leaves. -/
theorem leaves_wire {settings : Settings} {o : Outline} {p : Session → Prop} :
    (wire.Leaves (unwired settings o) fun _ s => p s) ↔
      (Stage.alone.follow (Journal.empty settings).timeline (firstUpdate settings)).Leaves
        (fitted settings o).desk.around.screen fun _ screen =>
          p ((fitted settings o).told (Journal.empty settings) screen) := by
  have htell : ((onDesk (Desk.tell Surroundings.following (firstUpdate settings))).Leaves
      (fitted settings o) fun _ s => p s) ↔
        (Stage.alone.follow (Journal.empty settings).timeline (firstUpdate settings)).Leaves
          (fitted settings o).desk.around.screen fun _ screen =>
            p ((fitted settings o).told (Journal.empty settings) screen) :=
    leaves_tell rfl _
  refine Iff.trans ?_ htell
  have hnone : (deskLens.get (unwired settings o)).attached = none := rfl
  simp only [wire, onDesk, Desk.attach, Action.leaves_bind, Action.leaves_get,
    Action.leaves_report, Action.leaves_zoom, Action.leaves_modify, Action.leaves_note, hnone]
  refine iff_of_eq (congrArg _ ?_)
  funext result d
  rcases result with fault | ⟨⟩ <;> rfl

/-! ### Agreement -/

variable {f g : Following Plug Surroundings} {p : Session → Prop}

theorem agree_quietly {α : Type} {x y : Action Session α} (h : Agree p x y) :
    Agree p (quietly x) (quietly y) :=
  Agree.bind h fun _ => Agree.pure _

theorem agree_plainly {α : Type} {x y : Action Session (Except SessionError α)}
    (h : Agree p x y) : Agree p (plainly x) (plainly y) :=
  Agree.bind h fun _ => Agree.pure _

/-- What each of some moves keeps, all of them do. -/
theorem afterMoves_induction {ms : List Move}
    (step : ∀ m ∈ ms, ∀ s, p s → p ((make m).run s).state) {s : Session} (h : p s) :
    p (s.afterMoves ms) := by
  induction ms generalizing s with
  | nil => exact h
  | cons m ms ih =>
    exact ih (fun m' hm' => step m' (List.mem_cons_of_mem _ hm')) (step m List.mem_cons_self s h)

end Session

end UndoJournal
