import UndoJournal.Proofs.Outline.Selection
import UndoJournal.Proofs.Screen.Abreast

/-!
# Screens that differ in the selection

A user who clicks a row moves the selection before anything else happens. That is forgotten with the
next update: every plan says what is selected, so **two screens that are abreast and differ in
nothing but the selection show the same once they have followed the same update**
(`Screen.Beside.follow`). What was recorded of the traffic is no part of this.
-/

namespace UndoJournal

/-- Every plan says what is selected. -/
private theorem Link.exists_selects_mem_plan (l : Link) (t : Timeline) (u : CursorUpdate) :
    ∃ c ∈ l.plan t u, c.selects = true := by
  rcases hcurrent : u.current with _ | a
  · refine ⟨.clearSelection, ?_, rfl⟩
    simp [plan, following, hcurrent]
  · refine ⟨.select a, ?_, rfl⟩
    simp [plan, following, hcurrent]

namespace Screen

variable {s s' : Screen} {t t' : Timeline} {u : CursorUpdate}

/-- The screens differ in nothing but the selection, the listeners and the record of the traffic. -/
structure Beside (s s' : Screen) : Prop where
  link : s'.link = s.link
  outline : s.widget.outline.Beside s'.widget.outline

/-- Showing the rows anew is no matter of the selection. -/
private theorem Beside.refreshed (h : s.Beside s') (t : Timeline) (u : CursorUpdate) :
    (s.refreshed t u).Beside (s'.refreshed t u) := by
  have hdue : s'.due u = s.due u := by rw [due, due, h.link]
  unfold Screen.refreshed
  rw [hdue]
  split
  · rw [h.outline]
    exact Outline.beside_rebuild _ _ t
  · exact h.outline

/-- **Screens that differ in the selection show the same once both have followed an update.** -/
theorem Beside.follow (h : s.Beside s') (hs : s.Abreast t) (hs' : s'.Abreast t)
    (ht : u.reshaped = false → t' = t) (hc : t'.contains u.current = true) :
    (Stage.alone.follow t' u).Gives s fun _ s₁ => (Stage.alone.follow t' u).Gives s' fun _ s₁' =>
      s₁'.link = s₁.link ∧ s₁'.widget.outline = s₁.widget.outline := by
  obtain ⟨_, hrun, rfl, -, hpushed⟩ := hs.follow ht hc
  obtain ⟨_, hrun', rfl, -, hpushed'⟩ := hs'.follow ht hc
  refine ⟨_, hrun, _, hrun', ?_, ?_⟩
  · rw [link_of_follow hs'.tracks.disconnected hs'.paused hrun',
      link_of_follow hs.tracks.disconnected hs.paused hrun, h.link]
  · have hplan : s'.link.plan t' u = s.link.plan t' u := by rw [h.link]
    exact ((h.refreshed t' u).performAll hpushed.2 (hplan ▸ hpushed'.2)).2
      (s.link.exists_selects_mem_plan t' u)

end Screen

end UndoJournal
