import UndoJournal.Proofs.Screen.Lodging

/-!
# A screen that keeps track of a timeline

`Screen.Tracks` is what holds of a screen of which no call is planned to break down, however it is
treated: **while its link is connected and not stale, it shows the timeline**, and all listeners of
its view are the link's own, so that a link that is disconnected hears nothing of its user any more.

It is kept by following updates of the timeline, including those that announce a change of it
(`Tracks.follow`), and by whatever is done to the link from outside.
-/

namespace UndoJournal

/-- Letting go of a guard from outside touches nothing but the count of guards. -/
theorem Link.release_eq (l : Link) :
    l.release.2 = { l with depth := l.release.2.depth, held := l.release.2.held } := by
  unfold release
  split <;> rfl

namespace Screen

/-- The screen shows the timeline while its link is connected and not stale, and its view has no
other listeners than those of the link; `cut` says whether the link is disconnected. -/
structure Tracks (cut : Bool) (t : Timeline) (s : Screen) : Prop where
  sturdy : s.Sturdy
  rows : s.link.disconnected = false → s.link.stale = false → s.widget.outline.shown = t
  covered : ∀ slot ∈ s.widget.hub.slots, ∃ c ∈ s.link.connections,
    c.linked = true ∧ c.id = slot.id
  disconnected : s.link.disconnected = cut
  free : cut = true → s.link.connections = []

namespace Tracks

variable {cut : Bool} {t t' : Timeline} {s s' : Screen} {u : CursorUpdate}

/-- Where the link is gone, nobody listens to the view. -/
theorem slots_eq_nil (h : s.Tracks true t) : s.widget.hub.slots = [] := by
  refine List.eq_nil_iff_forall_not_mem.mpr fun slot hslot => ?_
  obtain ⟨c, hc, -⟩ := h.covered slot hslot
  rw [h.free rfl] at hc
  exact nomatch hc

/-- What touches neither rows nor staleness nor listeners. -/
private theorem of_eq (h : s.Tracks cut t) (hst : s.Sturdy → s'.Sturdy)
    (hshown : s'.widget.outline.shown = s.widget.outline.shown)
    (hhub : ∀ slot ∈ s'.widget.hub.slots, ∃ slot' ∈ s.widget.hub.slots, slot'.id = slot.id)
    (hstale : s'.link.stale = s.link.stale)
    (hgone : s'.link.disconnected = s.link.disconnected)
    (hconn : s'.link.connections = s.link.connections) : s'.Tracks cut t where
  sturdy := hst h.sturdy
  rows hd hs := by
    rw [hshown]
    exact h.rows (hgone ▸ hd) (hstale ▸ hs)
  covered slot hslot := by
    obtain ⟨slot', hslot', hid⟩ := hhub slot hslot
    rw [hconn, ← hid]
    exact h.covered slot' hslot'
  disconnected := hgone.trans h.disconnected
  free hc := hconn.trans (h.free hc)

/-- **An update that announces the change of the timeline is enough to keep track of it.** -/
theorem follow (h : s.Tracks cut t) (ht : u.reshaped = false → t' = t) :
    (Stage.alone.follow t' u).Gives s fun _ s' => s'.Tracks cut t' := by
  obtain ⟨answer, hanswer, hrows⟩ := gives_follow_rows h.sturdy
    fun hr hd hs => (h.rows hd hs).trans (ht hr).symm
  have hframed := framed_follow t' u s
  refine ⟨answer, hanswer, hframed.plans.sturdy h.sturdy, hrows, ?_, ?_, ?_⟩ <;>
    rw [hframed.link]
  · rw [hframed.hub]
    exact h.covered
  · exact h.disconnected
  · exact h.free

/-- What is written into the record is no matter. -/
private theorem onTraffic (h : s.Tracks cut t) {f : Traffic → Traffic}
    (hf : ∀ t, (f t).breakage = t.breakage) : (Stage.onTraffic f s).Tracks cut t := by
  have hkept := (sameButRecord_onTraffic hf s).kept
  exact h.of_eq hkept.plans.sturdy rfl (fun slot hslot => ⟨slot, hslot, rfl⟩) rfl rfl rfl

theorem overhear (h : s.Tracks cut t) (signal : Signal) : (overhear signal s).Tracks cut t :=
  h.onTraffic (f := fun t => t.overhear signal) fun _ => rfl

theorem outline (h : s.Tracks cut t) {o : Outline} (ho : o.shown = s.widget.outline.shown) :
    Tracks cut t { s with widget := { s.widget with outline := o } } :=
  h.of_eq (fun hst => hst) ho (fun slot hslot => ⟨slot, hslot, rfl⟩) rfl rfl rfl

/-- A change of the link that is about other things. -/
theorem onLink (h : s.Tracks cut t) {f : Link → Link} (hstale : (f s.link).stale = s.link.stale)
    (hgone : (f s.link).disconnected = s.link.disconnected)
    (hconn : (f s.link).connections = s.link.connections) : (s.onLink f).Tracks cut t :=
  h.of_eq (fun hst => hst) rfl (fun slot hslot => ⟨slot, hslot, rfl⟩) hstale hgone hconn

theorem blockListeners (h : s.Tracks cut t) (blocked : Bool) :
    (s.blockListeners blocked).Tracks cut t :=
  h.of_eq (fun hst => hst) rfl (fun _ hslot => Hub.exists_of_mem_foldl_setBlocked hslot) rfl rfl rfl

theorem plant (h : s.Tracks cut t) (op : ViewOp) : (s.plant op .error).Tracks cut t :=
  h.of_eq (fun hst => hst.plant op) rfl (fun slot hslot => ⟨slot, hslot, rfl⟩) rfl rfl rfl

/-- After the link is gone nothing is said of the rows. -/
theorem disconnect (h : s.Tracks cut t) : Screen.disconnect.Gives s fun _ s' =>
    s'.Tracks true t ∧ s'.link.stale = s.link.stale := by
  simp only [Screen.disconnect, Action.gives_bind, Action.gives_get]
  split
  · rename_i hd
    obtain rfl : cut = true := h.disconnected.symm.trans hd
    exact (Action.gives_pure _).mpr ⟨h, rfl⟩
  · simp only [Action.gives_bind, Action.gives_modify, Action.gives_note]
    refine ⟨⟨h.sturdy, (fun hd => by cases hd), fun slot hslot => ?_, rfl, fun _ => rfl⟩, rfl⟩
    change slot ∈ (s.link.connections.foldl Hub.disconnect s.widget.hub).slots at hslot
    rw [Hub.slots_foldl_disconnect] at hslot
    obtain ⟨hmem, hkept⟩ := List.mem_filter.mp hslot
    obtain ⟨c, hc, hl, hid⟩ := h.covered slot hmem
    have hgone : (s.link.connections.any fun c => c.linked && slot.id == c.id) = true :=
      List.any_eq_true.mpr ⟨c, hc, by rw [hl, hid, beq_self_eq_true, Bool.and_self]⟩
    rw [hgone] at hkept
    cases hkept

/-- A screen that was just assembled is stale. -/
theorem assemble (settings : ViewSettings) (handlers : Handlers) (o : Outline) (t : Timeline) :
    (Screen.assemble settings handlers (some .quiet) o).Tracks false t where
  sturdy _ := nofun
  rows _ := nofun
  covered slot hslot := by
    obtain ⟨new, hslots, -, hhandles, -⟩ := exists_connectAll handlers.kinds .empty
    have hmem : slot ∈ new := by
      have hslot' : slot ∈ (connectAll .empty handlers.kinds).2.slots := hslot
      rwa [hslots] at hslot'
    have hconn : (Screen.assemble settings handlers (some .quiet) o).link.connections =
        new.map fun slot => ⟨slot.kind, slot.id, true⟩ := hhandles
    rw [hconn]
    exact ⟨_, List.mem_map_of_mem hmem, rfl, rfl⟩
  disconnected := rfl
  free := nofun

end Tracks

section Assemble

variable {t : Timeline} {u : CursorUpdate}

/-- A fresh screen is to show all rows. -/
theorem due_assemble (settings : ViewSettings) (handlers : Handlers) (o : Outline) :
    (assemble settings handlers (some .quiet) o).due u = true := Bool.or_true _

/-- **The first push onto a fresh screen** is made in full. -/
theorem gives_follow_assemble (settings : ViewSettings) (handlers : Handlers) (o : Outline)
    (hc : t.contains u.current = true) :
    (Stage.alone.follow t u).Gives (assemble settings handlers (some .quiet) o) fun answer s' =>
      answer = .ok () ∧ s'.Tracks false t ∧ s'.link.stale = false ∧
        (assemble settings handlers (some .quiet) o).Framed s' ∧
        (assemble settings handlers (some .quiet) o).Pushed t u (.ok (.ok ())) s' := by
  have h := Tracks.assemble settings handlers o t
  have hrows : (assemble settings handlers (some .quiet) o).due u = false →
      (assemble settings handlers (some .quiet) o).widget.outline.shown = t := fun hdue =>
    nomatch hdue.symm.trans (due_assemble settings handlers o)
  obtain ⟨answer, -, htracks⟩ := h.follow (u := u) fun _ => rfl
  obtain ⟨answer', hanswer', rfl, hstale⟩ := gives_follow_ok (t := t) (u := u) h.disconnected rfl
    rfl hrows hc
  obtain ⟨hframed, -, hdone⟩ := leaves_follow (t := t) (u := u) h.disconnected rfl
  rw [hanswer'] at hdone
  exact ⟨.ok (), hanswer', rfl, htracks, hstale, hframed, hdone⟩

end Assemble

/-- The screen has kept track of a timeline since it was `s₀`, and if its link got stale meanwhile,
it was paused or a call was planned to go wrong. -/
structure TracksSince (s₀ : Screen) (t : Timeline) (s : Screen) : Prop where
  tracks : s.Tracks s₀.link.disconnected t
  paused : s.link.paused = s₀.link.paused
  plans : s₀.PlansNoMore s
  stale : s.link.stale = true →
    s₀.link.stale = true ∨ s₀.link.paused = true ∨ s₀.breakage? ≠ none

namespace TracksSince

variable {s₀ s : Screen} {t t' : Timeline} {u : CursorUpdate}

theorem refl {cut : Bool} (h : s.Tracks cut t) : TracksSince s t s :=
  ⟨h.disconnected ▸ h, rfl, .inl rfl, .inl⟩

theorem follow (h : TracksSince s₀ t s) (ht : u.reshaped = false → t' = t)
    (hc : t'.contains u.current = true) :
    (Stage.alone.follow t' u).Gives s fun _ s' => TracksSince s₀ t' s' := by
  obtain ⟨answer, hanswer, htracks⟩ := h.tracks.follow ht
  have hframed := framed_follow t' u s
  have hstale := stale_of_follow (s := s)
    (fun hr hd hs => (h.tracks.rows hd hs).trans (ht hr).symm) hc
  refine ⟨answer, hanswer, htracks, ?_, h.plans.trans hframed.plans, fun hs => ?_⟩
  · rw [hframed.link]
    exact h.paused
  · obtain hs' | hp | hb := hstale hs
    · exact h.stale hs'
    · exact .inr (.inl (h.paused ▸ hp))
    · exact .inr (.inr fun hnone => hb (h.plans.eq_none hnone))

/-- What is written into the record is no matter. -/
theorem onTraffic (h : TracksSince s₀ t s) {f : Traffic → Traffic}
    (hf : ∀ t, (f t).breakage = t.breakage) : TracksSince s₀ t (Stage.onTraffic f s) :=
  ⟨h.tracks.onTraffic hf, h.paused, h.plans.trans (sameButRecord_onTraffic hf s).kept.plans,
    h.stale⟩

theorem overhear (h : TracksSince s₀ t s) (signal : Signal) :
    TracksSince s₀ t (overhear signal s) :=
  h.onTraffic (f := fun t => t.overhear signal) fun _ => rfl

theorem outline (h : TracksSince s₀ t s) {o : Outline} (ho : o.shown = s.widget.outline.shown) :
    TracksSince s₀ t { s with widget := { s.widget with outline := o } } :=
  ⟨h.tracks.outline ho, h.paused, h.plans, h.stale⟩

end TracksSince

end Screen

end UndoJournal
