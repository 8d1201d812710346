import UndoJournal.Proofs.Journal.Runs
import UndoJournal.Proofs.Outline.Expansion
import UndoJournal.Proofs.Screen.Tracks

/-!
# A screen that closes what the cursor leaves

An outline is **tidy** if no run with entries behind its head is expanded but the one that the
cursor is in (`Outline.Tidy`). A screen that collapses runs when the cursor leaves them is made tidy
by every push (`Screen.Minds.follow`), although it knows expanded runs by the identities of their
heads, is told of one run at most that was left, and misses whatever happens during a pause.

What carries this from push to push is `Screen.Minds`: a head that is marked as expanded and has
entries behind it belongs to the run of the cursor, or **the link keeps it in mind**; and no entry
is marked as expanded that is no head, so that a run which gets a new head starts out collapsed.
-/

namespace UndoJournal

/-- The outline shows the timeline, and of the runs with entries behind their heads at most the one
of the position is expanded. -/
structure Outline.Tidy (o : Outline) (t : Timeline) (p : Position) : Prop where
  shown : o.shown = t
  closed : ∀ group, t.hasChildren group = true → o.isExpanded group = true → p.group? = some group

/-- Only the runs that are there have to be looked at. -/
private theorem Outline.tidy_iff {o : Outline} {t : Timeline} {p : Position} :
    o.Tidy t p ↔ o.shown = t ∧ ∀ group < t.runs.length,
      t.hasChildren group = true → o.isExpanded group = true → p.group? = some group := by
  refine ⟨fun h => ⟨h.shown, fun group _ => h.closed group⟩, fun h => ⟨h.1, fun group hc => ?_⟩⟩
  obtain ⟨run, hrun, -⟩ := Timeline.hasChildren_iff.mp hc
  exact h.2 group (List.getElem?_eq_some_iff.mp hrun).1 hc

instance (o : Outline) (t : Timeline) (p : Position) : Decidable (o.Tidy t p) :=
  decidable_of_iff' _ Outline.tidy_iff

namespace Link

/-- An identity that is put among others is there, and so are the others. -/
private theorem mem_insertId {x id : EntryId} {ids : List EntryId} :
    x ∈ insertId id ids ↔ x = id ∨ x ∈ ids := by
  induction ids with
  | nil => simp [insertId]
  | cons other ids ih =>
    unfold insertId
    split
    · exact List.mem_cons
    · split
      · rename_i heq
        obtain rfl : id = other := by
          cases id
          cases other
          exact congrArg _ heq
        simp
      · rw [List.mem_cons, ih, List.mem_cons]
        exact or_left_comm

variable {l : Link} {t : Timeline} {u : CursorUpdate} {group : Nat}

/-- What is kept in mind of an update that is skipped. -/
theorem mem_left_skip {id : EntryId} :
    id ∈ (l.skip t u).left ↔ id ∈ l.left ∨ ∃ e, u.left.bind t.head? = some e ∧ e.id = id := by
  unfold skip
  cases u.left.bind t.head? with
  | none => simp
  | some e => simp [mem_insertId, or_comm, eq_comm]

/-- A run whose head is kept in mind is collapsed, unless the cursor is in it. -/
theorem mem_collapsing {run : Run} (hs : l.settings.collapseOnLeave = true) (hn : t.Numbered)
    (hrun : t.runs[group]? = some run) (hrest : run.rest ≠ [])
    (hleft : u.left = some group ∨ run.head.id ∈ l.left)
    (hcurrent : u.current.group? ≠ some group) : group ∈ l.collapsing t u := by
  have hlt : group < t.runs.length := (List.getElem?_eq_some_iff.mp hrun).1
  rw [collapsing, if_pos hs, List.mem_append]
  by_cases htold : u.left = some group
  · exact .inr (by simp [htold, hlt])
  · refine .inl (List.mem_filterMap.mpr ⟨run.head.id, hleft.resolve_left htold, ?_⟩)
    have hfind : t.find? run.head.id = some (.ofHead group) :=
      hn.find?_head (by rw [Timeline.head?, hrun, Option.map_some])
    have hc : t.hasChildren group = true := Timeline.hasChildren_iff.mpr ⟨run, hrun, hrest⟩
    simp [hfind, toCollapse, Address.ofHead, Address.isChild, hcurrent, htold, hc]

/-- What follows the collapses of a push takes no mark away. -/
theorem gentle_of_mem_following {p : Position} {c : ViewCommand} (h : c ∈ l.following p) :
    c.Gentle := by
  rcases p with _ | a
  · obtain rfl := List.mem_singleton.mp h
    exact ⟨by simp [ViewCommand.op], by simp⟩
  · simp only [following] at h
    split at h <;>
      simp only [List.cons_append, List.nil_append, List.mem_cons, List.not_mem_nil,
        or_false] at h
    · obtain rfl | rfl | rfl := h <;> exact ⟨by simp [ViewCommand.op], by simp⟩
    · obtain rfl | rfl := h <;> exact ⟨by simp [ViewCommand.op], by simp⟩

/-- It expands to the cursor. -/
theorem expandTo_mem_following {p : Position} {a : Address} :
    .expandTo a ∈ l.following p ↔ p = .on a := by
  rcases p with _ | b
  · simp [following]
  · simp only [following]
    split <;> simp [eq_comm]

end Link

namespace Screen

variable {s s' : Screen} {t t' : Timeline} {p : Position} {u : CursorUpdate}

/-! ### What a push leaves expanded -/

/-- After a push that succeeds, a head is marked as expanded because the cursor is in its run, or
because it was before and the run was not to be collapsed. -/
theorem Pushed.expanded (h : s.Pushed t u (.ok (.ok ())) s')
    (hrows : s.due u = false → s.widget.outline.shown = t) {id : EntryId}
    (hid : id ∈ s'.widget.outline.expanded) :
    (∃ a e, u.current = .on a ∧ t.head? a.group = some e ∧ e.id = id) ∨
      id ∈ (s.refreshed t u).expanded ∧
        ∀ group ∈ s.link.collapsing t u, ∀ e, t.head? group = some e → e.id ≠ id := by
  have hshown : (s.refreshed t u).shown = t := shown_refreshed_eq hrows
  obtain ⟨hmem, hnot⟩ | ⟨a, hmem, -, e, he⟩ :=
    (Outline.mem_expanded_performAll (fun _ => Link.gentle_of_mem_following) h.2).mp hid
  · rw [hshown] at hnot
    exact .inr ⟨hmem, fun group hgroup e he hid => hnot group hgroup ⟨e, he, hid⟩⟩
  · exact .inl ⟨a, e, Link.expandTo_mem_following.mp hmem, hshown ▸ he⟩

/-- A push that succeeds leaves nothing to be kept in mind. -/
theorem left_of_follow (hd : s.link.disconnected = false) (hp : s.link.paused = false)
    (hs : s.link.settings.collapseOnLeave = true) :
    (Stage.alone.follow t u).Leaves s fun result s' =>
      result = .ok (.ok ()) → s'.link.left = [] := by
  refine (link_of_follow hd hp).mono fun _ s' hlink hok => ?_
  rw [hlink hok, Link.planned_eq, if_pos hs]

/-! ### What is kept in mind -/

/-- A screen that collapses runs on leaving, and what it keeps in mind for that: the timeline was
last told as `t` and the cursor as `p`. -/
structure Minds (t : Timeline) (p : Position) (s : Screen) : Prop where
  tracks : s.Tracks false t
  unplanned : s.breakage? = none
  setting : s.link.settings.collapseOnLeave = true
  /-- What is kept in mind is dealt with by the next push. -/
  caughtUp : s.link.stale = false → s.link.left = []
  given : ∀ id ∈ s.widget.outline.expanded, id.raw < t.nextId
  /-- Only heads are marked as expanded. -/
  trailing : ∀ e ∈ t.trailing, e.id ∉ s.widget.outline.expanded
  /-- A run that is open holds the cursor, or is kept in mind. -/
  opened : ∀ group run, t.runs[group]? = some run → run.rest ≠ [] →
    run.head.id ∈ s.widget.outline.expanded → p.group? = some group ∨ run.head.id ∈ s.link.left

namespace Minds

/-- **A screen that is not stale is tidy.** -/
theorem tidy (h : s.Minds t p) (hs : s.link.stale = false) : s.widget.outline.Tidy t p where
  shown := h.tracks.rows h.tracks.disconnected hs
  closed group hc hexp := by
    obtain ⟨e, he, hmem⟩ := Outline.isExpanded_iff.mp hexp
    rw [h.tracks.rows h.tracks.disconnected hs] at he
    obtain ⟨run, hrun, rfl⟩ := Option.map_eq_some_iff.mp he
    obtain ⟨run', hrun', hrest⟩ := Timeline.hasChildren_iff.mp hc
    obtain rfl : run = run' := Option.some.inj (hrun.symm.trans hrun')
    refine (h.opened group run hrun hrest hmem).resolve_right fun hleft => ?_
    rw [h.caughtUp hs] at hleft
    cases hleft

/-- Expanding nothing, and leaving the link alone but for other things. -/
theorem of_expanded (h : s.Minds t p) (ht : s'.Tracks false t) (hb : s'.breakage? = none)
    (hexp : s'.widget.outline.expanded ⊆ s.widget.outline.expanded)
    (hset : s'.link.settings = s.link.settings) (hstale : s'.link.stale = s.link.stale)
    (hleft : s'.link.left = s.link.left) : s'.Minds t p where
  tracks := ht
  unplanned := hb
  setting := hset ▸ h.setting
  caughtUp hs := hleft ▸ h.caughtUp (hstale ▸ hs)
  given id hid := h.given id (hexp hid)
  trailing e he hid := h.trailing e he (hexp hid)
  opened group run hrun hrest hid := hleft ▸ h.opened group run hrun hrest (hexp hid)

/-- A change of the link that is about other things. -/
theorem onLink (h : s.Minds t p) {f : Link → Link}
    (hf : (f s.link).settings = s.link.settings ∧ (f s.link).stale = s.link.stale ∧
      (f s.link).left = s.link.left ∧ (f s.link).disconnected = s.link.disconnected ∧
      (f s.link).connections = s.link.connections) : (s.onLink f).Minds t p :=
  h.of_expanded (h.tracks.onLink hf.2.1 hf.2.2.2.1 hf.2.2.2.2) h.unplanned (fun _ hid => hid)
    hf.1 hf.2.1 hf.2.2.1

/-- The cursor can be put elsewhere in its run. -/
theorem of_group (h : s.Minds t p) {q : Position} (hq : q.group? = p.group?) : s.Minds t q :=
  { h with opened := fun group run hrun hrest hid => hq ▸ h.opened group run hrun hrest hid }

variable (h : s.Minds t p) (hu : u.Accounts t p t')

include h hu

/-- **Every run that is open is accounted for**: the cursor is in it now, or the update says that it
was left, or that was kept in mind. -/
theorem open_cases {group : Nat} {run : Run} (hrun : t'.runs[group]? = some run)
    (hrest : run.rest ≠ []) (hid : run.head.id ∈ s.widget.outline.expanded) :
    u.current.group? = some group ∨ u.left = some group ∨ run.head.id ∈ s.link.left := by
  obtain hcurrent | hleft | htrailing | ⟨group₀, hrun₀, hp⟩ := hu.run group run hrun hrest
  · exact .inl hcurrent
  · exact .inr (.inl hleft)
  · exact absurd hid (h.trailing _ htrailing)
  · exact .inr (.inr ((h.opened group₀ run hrun₀ hrest hid).resolve_left hp))

/-- What trails after an update is not marked as expanded. -/
private theorem trailing_of_accounts {e : Entry} (he : e ∈ t'.trailing) :
    e.id ∉ s.widget.outline.expanded := by
  intro hid
  obtain hbefore | hnew := hu.trailing e he
  · exact h.trailing e hbefore hid
  · exact absurd (h.given _ hid) (Nat.not_lt.mpr hnew)

private theorem rows_of_accounts (hdue : s.due u = false) : s.widget.outline.shown = t' := by
  obtain ⟨hreshaped, hs⟩ := due_eq_false_iff.mp hdue
  rw [hu.reshaped hreshaped]
  exact h.tracks.rows h.tracks.disconnected hs

/-- Skipping an update keeps the run in mind that it says was left. -/
private theorem skip (ht : (s.onLink fun l => l.skip t' u).Tracks false t') :
    (s.onLink fun l => l.skip t' u).Minds t' u.current where
  tracks := ht
  unplanned := h.unplanned
  setting := h.setting
  caughtUp := nofun
  given id hid := Nat.lt_of_lt_of_le (h.given id hid) hu.nextId_le
  trailing e he := h.trailing_of_accounts hu he
  opened group run hrun hrest hid := by
    have hhead : t'.head? group = some run.head := by rw [Timeline.head?, hrun, Option.map_some]
    refine (h.open_cases hu hrun hrest hid).imp_right fun hkept => Link.mem_left_skip.mpr ?_
    obtain hleft | hmem := hkept
    · exact .inr ⟨run.head, by rw [hleft, Option.bind_some, hhead], rfl⟩
    · exact .inl hmem

/-- A push that succeeds closes what the cursor has left. -/
private theorem push (hdone : s.Pushed t' u (.ok (.ok ())) s') (hframed : s.Framed s')
    (ht : s'.Tracks false t') (hleft : s'.link.left = []) : s'.Minds t' u.current := by
  have hrefreshed : ∀ id ∈ (s.refreshed t' u).expanded, id ∈ s.widget.outline.expanded := by
    intro id hid
    unfold refreshed at hid
    split at hid
    · exact (Outline.mem_expanded_rebuild.mp hid).1
    · exact hid
  have hexpanded := fun {id : EntryId} (hid : id ∈ s'.widget.outline.expanded) =>
    (hdone.expanded (h.rows_of_accounts hu) hid).imp_right fun hkept =>
      And.intro (hrefreshed id hkept.1) hkept.2
  refine ⟨ht, hframed.plans.eq_none h.unplanned, ?_, fun _ => hleft, fun id hid => ?_,
    fun e he hid => ?_, fun group run hrun hrest hid => .inl ?_⟩
  · rw [hframed.link]
    exact h.setting
  · obtain ⟨a, e, -, he, rfl⟩ | ⟨hid, -⟩ := hexpanded hid
    · exact hu.numbered.below e (Timeline.mem_toList_of_head? he)
    · exact Nat.lt_of_lt_of_le (h.given id hid) hu.nextId_le
  · obtain ⟨a, x, -, hx, hxe⟩ | ⟨hid, -⟩ := hexpanded hid
    · exact hu.numbered.head_ne_trailing hx he hxe
    · exact h.trailing_of_accounts hu he hid
  · have hhead : t'.head? group = some run.head := by rw [Timeline.head?, hrun, Option.map_some]
    obtain ⟨a, e, hcurrent, he, heid⟩ | ⟨hid, hne⟩ := hexpanded hid
    · rw [hcurrent]
      exact congrArg some (hu.numbered.group_unique he hhead heid)
    · refine Decidable.byContradiction fun hcurrent => ?_
      exact hne group (Link.mem_collapsing h.setting hu.numbered hrun hrest
        ((h.open_cases hu hrun hrest hid).resolve_left hcurrent) hcurrent) _ hhead rfl

/-- **Whether an update is followed or skipped, what has to be kept in mind is**, and an update that
is not skipped leaves the screen tidy. -/
theorem follow : (Stage.alone.follow t' u).Gives s fun answer s' =>
    s'.Minds t' u.current ∧ (s.link.paused = false → answer = .ok () ∧ s'.link.stale = false) := by
  have hd := h.tracks.disconnected
  obtain ⟨answer, hanswer, htracks⟩ := h.tracks.follow (u := u) hu.reshaped
  rcases hp : s.link.paused with _ | _
  · obtain ⟨answer', hanswer', rfl, hstale⟩ := gives_follow_ok (t := t') (u := u) hd hp h.unplanned
      (h.rows_of_accounts hu) hu.contains
    obtain ⟨hframed, -, hdone⟩ := leaves_follow (t := t') (u := u) hd hp
    rw [hanswer'] at hdone
    have hleft := left_of_follow (t := t') (u := u) hd hp h.setting hanswer'
    exact ⟨.ok (), hanswer', h.push hu hdone hframed htracks hleft, fun _ => ⟨rfl, hstale⟩⟩
  · have hskip := leaves_follow_of_paused (t := t') (u := u) hd hp
    refine ⟨answer, hanswer, ?_, nofun⟩
    rw [hskip.2] at htracks ⊢
    exact h.skip hu htracks

end Minds

/-- The first push onto a fresh screen leaves nothing expanded. -/
theorem minds_of_assemble (settings : ViewSettings) (handlers : Handlers) (o : Outline)
    (hs : settings.collapseOnLeave = true) (hempty : t.runs = [])
    (hcurrent : u.current = .start) :
    (Stage.alone.follow t u).Gives (assemble settings handlers (some .quiet) o) fun answer s' =>
      s'.Minds t .start ∧ answer = .ok () ∧ s'.link.stale = false := by
  obtain ⟨answer, hanswer, rfl, htracks, hstale, hframed, hdone⟩ :=
    gives_follow_assemble (t := t) (u := u) settings handlers o (by rw [hcurrent]; rfl)
  have hdue : (assemble settings handlers (some .quiet) o).due u = true :=
    due_assemble settings handlers o
  have hnothing : ∀ id, id ∉ (Action.run (Stage.alone.follow t u)
      (assemble settings handlers (some .quiet) o)).state.widget.outline.expanded := by
    intro id hid
    obtain ⟨a, e, hon, -⟩ | ⟨hid, -⟩ :=
      hdone.expanded (fun hnot => nomatch hdue.symm.trans hnot) hid
    · cases hcurrent.symm.trans hon
    · rw [refreshed, if_pos hdue, Outline.mem_expanded_rebuild] at hid
      obtain ⟨-, e, he, -⟩ := hid
      simp [Timeline.toList, hempty] at he
  refine ⟨.ok (), hanswer, ⟨htracks, hframed.plans.eq_none rfl, ?_, fun _ =>
    left_of_follow rfl rfl hs hanswer, fun id hid => absurd hid (hnothing id),
    fun e _ => hnothing e.id, fun group run hrun => ?_⟩, rfl, hstale⟩
  · rw [hframed.link]
    exact hs
  · simp [hempty] at hrun

end Screen

end UndoJournal
