import UndoJournal.Proofs.Session.Moves

/-!
# Sessions whose pushes are watched

Pushes happen in the middle of things, many of them behind one click. To speak of each of them, a
session is taken with plugs that are watched: `Surroundings.watched ok` follows like the plugs of a
session do, complains of an update that was not followed as `ok` wants it, and does nothing else.

A session never gets to hear a complaint as long as the updates of its screen pass the check
(`Surroundings.Passes`), which is a matter of the screen alone.
-/

namespace UndoJournal

variable {ok : Plug → Timeline → CursorUpdate → Surroundings → Surroundings → Bool}

namespace Surroundings

/-- How plugs follow the journal of a session, with a complaint about every update that was not
followed as it should be, given the surroundings before and after it. -/
def watched (ok : Plug → Timeline → CursorUpdate → Surroundings → Surroundings → Bool) :
    Following Plug Surroundings where
  follow plug t u := Action.checked (ok plug t u) (following.follow plug t u)
  detached := following.detached
  dropped := following.dropped

/-- What the screen makes of an update passes the check. -/
def Passes (ok : Plug → Timeline → CursorUpdate → Surroundings → Surroundings → Bool)
    (t : Timeline) (u : CursorUpdate) (w : Surroundings) : Prop :=
  (Stage.alone.follow t u).Leaves w.screen fun _ screen =>
    ok .screen t u w { w with screen := screen } = true

variable {t : Timeline} {u : CursorUpdate} {w : Surroundings}

private theorem run_follow_watched (h : Passes ok t u w) :
    ((watched ok).follow .screen t u).run w = (following.follow .screen t u).run w := by
  change (Action.checked (ok .screen t u) (following.follow .screen t u)).run w = _
  rw [Action.run_checked_eq_iff, follow_screen]
  exact h

end Surroundings

namespace Session

open Surroundings (watched following Passes)

variable {s : Session} {settings : Settings} {o : Outline}

/-- A notice is heard alike if the update that it gives rise to passes. -/
theorem run_hear_watched (hattached : s.desk.attached = some .screen) {notice : Notice}
    (h : ∀ r u, s.desk.journal.hear notice = .ok r → r.update = some u →
      Passes ok r.journal.timeline u s.desk.around) :
    (onDesk (Desk.hear (watched ok) notice)).run s =
      (onDesk (Desk.hear following notice)).run s := by
  have hdesk : (Desk.hear (watched ok) notice).run (deskLens.get s) =
      (Desk.hear following notice).run (deskLens.get s) := by
    rw [Desk.hear, Desk.hear, Action.run_bind_of_ok (Action.run_get _),
      Action.run_bind_of_ok (Action.run_get _)]
    rcases hr : s.desk.journal.hear notice with fault | r
    · simp only [deskLens, hr]
      rfl
    · simp only [deskLens, hr]
      rw [Desk.run_enact_congr]
      intro u plug hu hplug
      obtain rfl : Plug.screen = plug := Option.some.inj (hattached.symm.trans hplug)
      exact Surroundings.run_follow_watched (h r u hr hu)
  rw [onDesk, onDesk, Action.run_zoom, Action.run_zoom, hdesk]

/-- The whole state is told alike if it passes. -/
theorem run_resync_watched (hattached : s.desk.attached = some .screen)
    (h : Passes ok s.desk.journal.timeline (s.desk.journal.standing .resync) s.desk.around) :
    (onDesk (Desk.resync (watched ok))).run s = (onDesk (Desk.resync following)).run s := by
  have hdesk : (Desk.resync (watched ok)).run (deskLens.get s) =
      (Desk.resync following).run (deskLens.get s) := by
    rw [Desk.resync, Desk.resync, Action.run_bind_of_ok (Action.run_get _),
      Action.run_bind_of_ok (Action.run_get _), Desk.run_tell_congr]
    intro plug hplug
    obtain rfl : Plug.screen = plug := Option.some.inj (hattached.symm.trans hplug)
    exact Surroundings.run_follow_watched h
  rw [onDesk, onDesk, Action.run_zoom, Action.run_zoom, hdesk]

/-- A session is wired alike if the first update passes. -/
theorem run_wire_watched (h : Passes ok (Journal.empty settings).timeline (firstUpdate settings)
      (fitted settings o).desk.around) :
    (wireVia (watched ok)).run (unwired settings o) = wire.run (unwired settings o) := by
  rw [← wireVia_following]
  exact run_wireVia_congr (Surroundings.run_follow_watched h)

end Session

end UndoJournal
