import UndoJournal.Proofs.Screen.Attention
import UndoJournal.Proofs.Session.Watching

/-!
# How a session attends to its user

The `Attention` of a session is that of its screen. It follows from the moves that were made alone
(`Attention.after`).

Pushes come and go without touching it, so whatever the navigator does with the document, nothing is
handled meanwhile, and **each push on the way finds and leaves the guards that are held**
(`Session.endures_attentive`). A response to the user is therefore over with one more act handled
(`Session.confined_respond`), however far it gets.
-/

namespace UndoJournal

open Session (Move)

/-- The attention after a move. -/
def Attention.after (a : Attention) : Move → Attention
  | .deed .hold => a.hold
  | .deed .release => a.release
  | .deed (.block blocked) => a.block blocked
  | .deed .disconnect => a.cutOff
  | _ => a

namespace Surroundings

/-- The guards that are held are all that there are before and after an update, and nothing was
handled in between; other plugs take no guards. -/
def guarded (guards : Nat) (plug : Plug) (_ : Timeline) (_ : CursorUpdate)
    (before after : Surroundings) : Bool :=
  plug != .screen || (before.screen.link.depth == guards && after.screen.link.depth == guards &&
    after.handlerRuns == before.handlerRuns && after.violations == before.violations)

theorem passes_guarded {a : Attention} {w : Surroundings} (h : w.screen.Attends a) (t : Timeline)
    (u : CursorUpdate) : Passes (guarded a.guards) t u w :=
  (Screen.framed_follow t u w.screen).mono fun _ screen hframed => by
    simp [guarded, h.depth, (h.framed hframed).depth]

end Surroundings

namespace Session

open UndoJournal.Action (Agree Confined)
open Surroundings (watched guarded following Passes)

/-- The screen of a session is attached and attends to its user; these signals were fired
unprompted, and so many acts were handled, none of them in a view call. -/
structure Attentive (a : Attention) (signals : List Signal) (n : Nat) (s : Session) : Prop where
  attached : s.desk.attached = some .screen
  poised : s.desk.around.screen.Poised a signals
  runs : s.desk.around.handlerRuns = n
  violations : s.desk.around.violations = 0

variable {a : Attention} {signals : List Signal} {n : Nat} {s : Session}

namespace Attentive

theorem aside {s' : Session} (h : s.Attentive a signals n) (haside : Aside s s') :
    s'.Attentive a signals n := by
  obtain ⟨hattached, hpoised, hruns, hviolations⟩ := h
  constructor <;> rw [haside.desk] <;> assumption

/-- Another screen, and another journal. -/
theorem told (h : s.Attentive a signals n) {j : Journal} {screen : Screen} {a' : Attention}
    {signals' : List Signal} (hpoised : screen.Poised a' signals') :
    (s.told j screen).Attentive a' signals' n :=
  ⟨h.attached, hpoised, h.runs, h.violations⟩

private theorem passes (h : s.Attentive a signals n) (t : Timeline) (u : CursorUpdate) :
    Passes (guarded a.guards) t u s.desk.around :=
  Surroundings.passes_guarded h.poised.attends t u

/-- An act of the user is counted, and no view call is going on then. -/
private theorem probed (h : s.Attentive a signals n) :
    (aroundLens.modify Surroundings.probe s).Attentive a signals (n + 1) := by
  refine ⟨h.attached, h.poised, congrArg Nat.succ h.runs, ?_⟩
  change (if s.desk.around.screen.inCall then _ else _) = 0
  rw [h.poised.inCall]
  exact h.violations

end Attentive

/-! ### Pushes in the middle of things -/

/-- Each update that a notice gives rise to finds and leaves the guards that are held. -/
theorem agree_hear_guarded (notice : Notice) : Agree (Attentive a signals n)
    (onDesk (Desk.hear (watched (guarded a.guards)) notice))
    (onDesk (Desk.hear following notice)) := by
  intro s h
  refine ⟨run_hear_watched h.attached fun _ _ _ _ => h.passes _ _, ?_⟩
  change (onDesk (Desk.hear following notice)).Leaves s fun _ s' => s'.Attentive a signals n
  rw [leaves_hear h.attached, Heard]
  split
  · exact h
  · split
    · exact h.told h.poised
    · exact (h.poised.follow _ _).mono fun _ _ hpoised => h.told hpoised

theorem agree_resync_guarded : Agree (Attentive a signals n)
    (onDesk (Desk.resync (watched (guarded a.guards)))) (onDesk (Desk.resync following)) := by
  intro s h
  refine ⟨run_resync_watched h.attached (h.passes _ _), ?_⟩
  change (onDesk (Desk.resync following)).Leaves s fun _ s' => s'.Attentive a signals n
  refine (leaves_resync h.attached).mpr ?_
  exact (h.poised.follow _ _).mono fun _ _ hpoised => h.told hpoised

/-- **All that the navigator does leaves the attention as it is, and has nothing else handled.** -/
theorem endures_attentive :
    Endures (watched (guarded a.guards)) following (Attentive a signals n) where
  undone _ := agree_hear_guarded _
  redone _ := agree_hear_guarded _
  aside _ _ haside h := h.aside haside
  resync := agree_resync_guarded
  mute _ _ h := ⟨h.attached, h.poised, h.runs, h.violations⟩
  place _ _ _ h _ _ := ⟨h.attached, h.poised, h.runs, h.violations⟩

/-- Responding to the user is handling one act. -/
theorem confined_respond (act : UserAct) :
    Confined Lens.whole (Attentive a signals n) (Attentive a signals (n + 1))
      ((stageVia (watched (guarded a.guards))).respond act) (stage.respond act) := by
  rw [← stageVia_following]
  exact Confined.bind Lens.lawful_whole (.of_leaves fun _ h => h.probed) (fun _ h => h) fun _ =>
    endures_attentive.agree_handle act

end Session

end UndoJournal
