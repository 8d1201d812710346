import UndoJournal.Proofs.Outline.Gestures
import UndoJournal.Proofs.Screen.Fidelity
import UndoJournal.Proofs.Screen.Tracks

/-!
# A screen that is abreast of a timeline

A screen that is connected, neither paused nor stale, and of which no call is planned to go wrong,
is **abreast** of its timeline (`Screen.Abreast`): it shows the timeline, answers every update well,
and is abreast again afterwards.

What such an update makes of the outline is then known exactly as far as the cursor is concerned
(`Outline.Follows`). The marked position is that of the cursor; and of the run that the cursor is in
nothing is closed, so it is **expanded if it was before or if the cursor is behind its head**.
-/

namespace UndoJournal

/-- An outline followed an update to a position: the rows stay, the position is selected, and what
hid it is expanded. -/
structure Outline.Follows (o : Outline) (p : Position) (o' : Outline) : Prop where
  shown : o'.shown = o.shown
  selected : o'.selectedPosition? = p.address?.map .on
  expanded : ∀ group, p.group? = some group →
    (o'.isExpanded group = true ↔
      o.isExpanded group = true ∨ ∃ i, p = .on (.ofChild group i))

/-- A selection that presents a position marks it. -/
theorem Outline.marked_eq {o : Outline} {p : Position}
    (h : o.selectedPosition? = p.address?.map .on) : o.marked = p := by
  rw [marked, h]
  cases p <;> rfl

/-- The run that the cursor is in is not closed, unless the update says that it was left. -/
private theorem Link.not_mem_collapsing {l : Link} {t : Timeline} {u : CursorUpdate} {group : Nat}
    (hcurrent : u.current.group? = some group) (hleft : u.left ≠ some group) :
    group ∉ l.collapsing t u := by
  unfold collapsing
  split
  · rw [List.mem_append]
    rintro (hmissed | htold)
    · obtain ⟨id, -, hid⟩ := List.mem_filterMap.mp hmissed
      rcases hfind : t.find? id with _ | a <;> rw [hfind] at hid
      · cases hid
      · dsimp only at hid
        split at hid
        · -- what was left during a pause is closed only if the cursor is in another run
          rename_i hcollapse
          obtain rfl : a.group = group := Option.some.inj hid
          simp [toCollapse, hcurrent] at hcollapse
        · cases hid
    · exact hleft (by simpa using (List.mem_filter.mp htold).1)
  · exact List.not_mem_nil

namespace Screen

variable {s s' s₀ : Screen} {t t' : Timeline} {u : CursorUpdate}

/-- **A push closes nothing of the run that the cursor is in**, and opens it for a child. -/
theorem Pushed.isExpanded_iff (hn : t.Numbered) (hshown : s.widget.outline.shown = t)
    (h : s.Pushed t u (.ok (.ok ())) s') {group : Nat}
    (hcurrent : u.current.group? = some group) (hleft : u.left ≠ some group) :
    s'.widget.outline.isExpanded group = true ↔
      s.widget.outline.isExpanded group = true ∨ ∃ i, u.current = .on (.ofChild group i) := by
  have hrefreshed : (s.refreshed t u).isExpanded group = s.widget.outline.isExpanded group := by
    unfold refreshed
    split
    · rw [← hshown]
      exact Outline.isExpanded_rebuild
    · rfl
  have hrows : (s.refreshed t u).shown.Numbered := by
    rw [shown_refreshed_eq fun _ => hshown]
    exact hn
  rw [Outline.isExpanded_of_performAll hrows (fun _ => Link.gentle_of_mem_following) h.2,
    hrefreshed]
  have hkept : group ∉ s.link.collapsing t u := Link.not_mem_collapsing hcurrent hleft
  simp only [hkept, not_false_eq_true, and_true]
  refine or_congr_right ⟨?_, ?_⟩
  · rintro ⟨⟨g, _ | i⟩, hmem, hchild, rfl⟩
    · cases hchild
    · exact ⟨i, Link.expandTo_mem_following.mp hmem⟩
  · rintro ⟨i, hi⟩
    exact ⟨.ofChild group i, Link.expandTo_mem_following.mpr hi, rfl, rfl⟩

/-- The screen shows the timeline and follows every update. -/
structure Abreast (t : Timeline) (s : Screen) : Prop where
  tracks : s.Tracks false t
  paused : s.link.paused = false
  stale : s.link.stale = false
  unplanned : s.breakage? = none

namespace Abreast

theorem shown (h : s.Abreast t) : s.widget.outline.shown = t :=
  h.tracks.rows h.tracks.disconnected h.stale

/-- **A screen that was abreast and has kept track is abreast.** -/
theorem since (h : s₀.Abreast t) (hs : TracksSince s₀ t' s) : s.Abreast t' where
  tracks := h.tracks.disconnected ▸ hs.tracks
  paused := hs.paused.trans h.paused
  stale := by
    -- a link gets stale by a pause or by a call that is planned to fail, and there was neither
    rcases hstale : s.link.stale with _ | _
    · rfl
    · obtain hs | hp | hb := hs.stale hstale
      · exact hs.symm.trans h.stale
      · exact hp.symm.trans h.paused
      · exact absurd h.unplanned hb
  unplanned := hs.plans.eq_none h.unplanned

/-- **Every update is answered well**, if it announces the change of the timeline. -/
theorem follow (h : s.Abreast t) (ht : u.reshaped = false → t' = t)
    (hc : t'.contains u.current = true) :
    (Stage.alone.follow t' u).Gives s fun answer s' =>
      answer = .ok () ∧ s'.Abreast t' ∧ s.Pushed t' u (.ok (.ok ())) s' := by
  have hd := h.tracks.disconnected
  obtain ⟨answer, hanswer, htracks⟩ := h.tracks.follow ht
  obtain ⟨answer', hanswer', rfl, hstale⟩ := gives_follow_ok (t := t') (u := u) hd h.paused
    h.unplanned (fun hdue => h.shown.trans (ht (due_eq_false_iff.mp hdue).1).symm) hc
  obtain ⟨hframed, -, hdone⟩ := leaves_follow (t := t') (u := u) hd h.paused
  rw [hanswer'] at hdone
  refine ⟨.ok (), hanswer', rfl, ⟨htracks, ?_, hstale, ?_⟩, hdone⟩
  · rw [hframed.link]
    exact h.paused
  · exact hframed.plans.eq_none h.unplanned

/-- The cursor is marked afterwards. -/
theorem marked_of_pushed (hn : t'.Numbered) (h : s.Abreast t) (ht : u.reshaped = false → t' = t)
    (hdone : s.Pushed t' u (.ok (.ok ())) s') :
    s'.widget.outline.selectedPosition? = u.current.address?.map .on :=
  (hdone.shows hn fun hdue => h.shown.trans (ht (due_eq_false_iff.mp hdue).1).symm).selected

/-- **What an update makes of the outline** that leaves the timeline as it is. -/
theorem follows (hn : t.Numbered) (h : s.Abreast t) (hc : t.contains u.current = true)
    (hleft : ∀ group, u.left = some group → u.current.group? ≠ some group) :
    (Stage.alone.follow t u).Leaves s fun _ s' =>
      s.widget.outline.Follows u.current s'.widget.outline := by
  obtain ⟨answer, -, -, habreast, hdone⟩ := h.follow (u := u) (fun _ => rfl) hc
  refine ⟨habreast.shown.trans h.shown.symm, h.marked_of_pushed hn (fun _ => rfl) hdone, ?_⟩
  intro group hgroup
  exact hdone.isExpanded_iff hn h.shown hgroup fun hl => hleft group hl hgroup

/-- A fresh screen is abreast once it was told of its timeline. -/
theorem of_assemble (settings : ViewSettings) (handlers : Handlers) (o : Outline)
    (hc : t.contains u.current = true) :
    (Stage.alone.follow t u).Gives (assemble settings handlers (some .quiet) o) fun _ s' =>
      s'.Abreast t ∧
        (t.Numbered → s'.widget.outline.selectedPosition? = u.current.address?.map .on) := by
  obtain ⟨answer, hanswer, rfl, htracks, hstale, hframed, hdone⟩ :=
    gives_follow_assemble (t := t) (u := u) settings handlers o hc
  refine ⟨.ok (), hanswer, ⟨htracks, ?_, hstale, hframed.plans.eq_none rfl⟩, fun hn => ?_⟩
  · rw [hframed.link]
    rfl
  · refine (hdone.shows hn fun hdue => ?_).selected
    exact nomatch hdue.symm.trans (due_assemble settings handlers o)

end Abreast

end Screen

end UndoJournal
