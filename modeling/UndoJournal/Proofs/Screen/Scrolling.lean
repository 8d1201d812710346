import UndoJournal.Proofs.Outline.Scrolling
import UndoJournal.Proofs.Screen.Abreast

/-!
# Where a screen is scrolled to

A push that succeeds scrolls to the cursor if the link is to, and the cursor is on a node. **To the
start it scrolls nothing**, whichever rows it shows anew or hides (`Screen.Pushed.aims`). While a
screen is abreast, that is what every update does (`Screen.Abreast.aims`).
-/

namespace UndoJournal

namespace Screen

variable {s s' : Screen} {t t' : Timeline} {u : CursorUpdate}

/-- What is planned scrolls only to the node that the cursor is on, if at all. -/
private theorem op_of_mem_plan {l : Link} {c : ViewCommand} (hc : c ∈ l.plan t u)
    (hscroll : l.settings.scrollToCurrent = false ∨ u.current = .start) : c.op ≠ .scrollTo := by
  rcases List.mem_append.mp hc with hc | hc
  · obtain ⟨group, -, rfl⟩ := List.mem_map.mp hc
    simp [ViewCommand.op]
  · rcases hcurrent : u.current with _ | a <;> rw [hcurrent, Link.following] at hc
    · obtain rfl := List.mem_singleton.mp hc
      simp [ViewCommand.op]
    · have hoff : l.settings.scrollToCurrent = false := by simpa [hcurrent] using hscroll
      rw [hoff, if_neg Bool.false_ne_true, List.append_nil] at hc
      rcases List.mem_pair.mp hc with rfl | rfl <;> simp [ViewCommand.op]

/-- **What a push that succeeds makes of the offset**, if the rows were right where they were not
shown anew. -/
theorem Pushed.aims (hn : t.Numbered) (hrows : s.due u = false → s.widget.outline.shown = t)
    (h : s.Pushed t u (.ok (.ok ())) s') :
    s.widget.outline.Aims s.link.settings.scrollToCurrent u.current s'.widget.outline := by
  have hshows := h.shows hn hrows
  have hshown := h.shown hrows
  obtain ⟨-, hplan⟩ := h
  have hrefreshed : s.widget.outline.Still (s.refreshed t u) := by
    unfold refreshed
    split
    · exact Outline.still_rebuild _ t
    · exact .refl _
  have hframe := hrefreshed.toSameFrame.trans (Outline.sameFrame_of_performAll hplan)
  refine ⟨hframe, fun hstill => ?_, fun hscroll hstart hroom => ?_,
    fun hscroll hfirst hroom hsentinel => ?_⟩
  · exact (Outline.scrollOffset_of_performAll (fun c hc => op_of_mem_plan hc hstill) hplan).trans
      hrefreshed.scrollOffset
  · rw [hscroll] at hshows
    rcases hcurrent : u.current with _ | a
    · exact absurd hcurrent hstart
    · exact (hcurrent ▸ hshows.toPresents).inRange (hframe.viewport ▸ hroom)
  · rw [hscroll, hfirst] at hshows
    exact hshows.toPresents.near (hshown ▸ hn) (hframe.viewport ▸ hroom)
      (hframe.showSentinel.trans hsentinel)

/-- What an update makes of the offset of a screen whose link keeps its settings. -/
structure Aims (s : Screen) (p : Position) (s' : Screen) : Prop
    extends s.widget.outline.Aims s.link.settings.scrollToCurrent p s'.widget.outline where
  settings : s'.link.settings = s.link.settings

/-- **While a screen is abreast, every update scrolls to the cursor** or leaves the offset as it
is. -/
theorem Abreast.aims (h : s.Abreast t) (hn : t'.Numbered) (ht : u.reshaped = false → t' = t)
    (hc : t'.contains u.current = true) :
    (Stage.alone.follow t' u).Leaves s fun _ s' => s.Aims u.current s' := by
  obtain ⟨answer, -, -, -, hdone⟩ := h.follow ht hc
  refine ⟨hdone.aims hn fun hdue => h.shown.trans (ht (due_eq_false_iff.mp hdue).1).symm, ?_⟩
  have hframed : s.Framed ((Stage.alone.follow t' u).run s).state := framed_follow t' u s
  rw [hframed.link]

end Screen

end UndoJournal
