import UndoJournal.Proofs.Screen.Chronicle

/-!
# What a push opens and closes

A push changes what is expanded in four steps: showing the rows anew forgets heads that are gone,
the runs left during a pause are collapsed, then the run that the update names, and what hides the
cursor is expanded. The steps speak of runs by their indices in a timeline that may just have been
cut, while marks of expansion and the runs kept in mind go by identities.

**A push that is answered well does what was announced to the marks and nothing else**
(`Chronicle.announced_of_after`): what was marked stays so as long as it is there and its run was
not to be collapsed, and what comes is the head of the run that hides the cursor. A run that is
closed was left by the cursor, at this update or during a pause before it.
-/

namespace UndoJournal

/-- What is collapsed by an update: the run that it says was left, and those that are kept in mind,
still have entries behind their heads and do not hold the cursor. -/
private theorem Link.mem_collapsing_iff {l : Link} {t : Timeline} {u : CursorUpdate} {group : Nat}
    {run : Run} (hn : t.Numbered) (hrun : t.runs[group]? = some run) :
    group ∈ l.collapsing t u ↔ l.settings.collapseOnLeave = true ∧ (u.left = some group ∨
      (run.head.id ∈ l.left ∧ run.rest ≠ [] ∧ u.current.group? ≠ some group)) := by
  have hhead := Timeline.head?_of_getElem? hrun
  constructor
  · intro h
    unfold collapsing at h
    split at h
    · rename_i hs
      refine ⟨hs, ?_⟩
      obtain hmissed | hleft := List.mem_append.mp h
      · -- the head that is kept in mind was looked up, and is that of the run
        obtain ⟨id, hid, hfound⟩ := List.mem_filterMap.mp hmissed
        rcases hfind : t.find? id with _ | a <;> rw [hfind] at hfound
        · cases hfound
        · dsimp only at hfound
          split at hfound
          · rename_i hcond
            obtain rfl : a.group = group := Option.some.inj hfound
            obtain ⟨hchild, hcollapse⟩ : a.isChild = false ∧ toCollapse t u a.group = true := by
              simpa using hcond
            obtain ⟨⟨hcurrent, -⟩, hchildren⟩ : (u.current.group? ≠ some a.group ∧
                u.left ≠ some a.group) ∧ t.hasChildren a.group = true := by
              simpa [toCollapse] using hcollapse
            -- an address that is not behind a head is that of one
            have haddress : a = .ofHead a.group := by
              rcases a with ⟨g, _ | i⟩
              · rfl
              · cases hchild
            obtain ⟨i, x, hsits, rfl⟩ := hn.find?_eq_some_iff.mp hfind
            have hx : run.head = x := by
              have hnamed := hsits.named
              rw [haddress] at hnamed
              simpa [Timeline.get?, Address.ofHead, hrun] using hnamed
            obtain ⟨run', hrun', hrest⟩ := Timeline.hasChildren_iff.mp hchildren
            obtain rfl : run = run' := Option.some.inj (hrun.symm.trans hrun')
            exact .inr ⟨hx ▸ hid, hrest, hcurrent⟩
          · cases hfound
      · exact .inl (by simpa using (List.mem_filter.mp hleft).1)
    · cases h
  · rintro ⟨hs, hleft | ⟨hleft, hrest, hcurrent⟩⟩
    · have hlt : group < t.runs.length := (List.getElem?_eq_some_iff.mp hrun).1
      rw [collapsing, if_pos hs, List.mem_append]
      exact .inr (by simp [hleft, hlt])
    · exact mem_collapsing hs hn hrun hrest (.inr hleft) hcurrent

namespace Episode

/-- The run headed by that identity is to be collapsed: the update says that it was left, or it is
kept in mind, still has entries behind its head, and does not hold the cursor. -/
def Owes (x : Episode) (id : EntryId) : Prop :=
  x.before.link.settings.collapseOnLeave = true ∧
    ∃ group run, x.timeline.runs[group]? = some run ∧ run.head.id = id ∧
      (x.update.left = some group ∨
        (id ∈ x.before.link.left ∧ run.rest ≠ [] ∧ x.update.current.group? ≠ some group))

/-- The cursor is behind the head of that identity. -/
def Hides (x : Episode) (id : EntryId) : Prop :=
  ∃ a run, x.update.current = .on a ∧ a.isChild = true ∧ x.timeline.runs[a.group]? = some run ∧
    run.head.id = id

/-- What an update that was followed well made of the marks is what was announced. -/
structure Announced (x : Episode) (older : List Episode) : Prop where
  /-- What is marked afterwards. -/
  expanded : ∀ id, id ∈ x.after.widget.outline.expanded ↔
    (id ∈ x.before.widget.outline.expanded ∧ (∃ e ∈ x.timeline.toList, e.id = id) ∧
      ¬ x.Owes id) ∨ x.Hides id
  /-- A run that is closed was left by the cursor. -/
  closed : ∀ id ∈ x.before.widget.outline.expanded, (∃ e ∈ x.timeline.toList, e.id = id) →
    id ∉ x.after.widget.outline.expanded →
    x.Leaves id ∨ ∃ y ∈ older, y.Skipped ∧ y.Leaves id
  /-- A run that is opened hides the cursor. -/
  opened : ∀ id ∈ x.after.widget.outline.expanded, id ∉ x.before.widget.outline.expanded →
    x.Hides id

variable {x : Episode} {older : List Episode} {id : EntryId}

/-- The runs that a plan collapses are those that are to be collapsed. -/
private theorem owes_iff (hn : x.timeline.Numbered) : x.Owes id ↔
    ∃ group ∈ x.before.link.collapsing x.timeline x.update, x.timeline.HeadedBy group id := by
  constructor
  · rintro ⟨hs, group, run, hrun, rfl, hwhy⟩
    exact ⟨group, (Link.mem_collapsing_iff hn hrun).mpr ⟨hs, hwhy⟩,
      Timeline.headedBy_of_getElem? hrun⟩
  · rintro ⟨group, hgroup, e, he, rfl⟩
    obtain ⟨run, hrun, rfl⟩ := Option.map_eq_some_iff.mp he
    obtain ⟨hs, hwhy⟩ := (Link.mem_collapsing_iff hn hrun).mp hgroup
    exact ⟨hs, group, run, hrun, rfl, hwhy⟩

/-- What hides the cursor is what is expanded to. -/
theorem hides_iff : x.Hides id ↔
    ∃ a, .expandTo a ∈ x.before.link.following x.update.current ∧ a.isChild = true ∧
      x.timeline.HeadedBy a.group id := by
  constructor
  · rintro ⟨a, run, hcurrent, hchild, hrun, rfl⟩
    exact ⟨a, Link.expandTo_mem_following.mpr hcurrent, hchild,
      Timeline.headedBy_of_getElem? hrun⟩
  · rintro ⟨a, hmem, hchild, e, he, rfl⟩
    obtain ⟨run, hrun, rfl⟩ := Option.map_eq_some_iff.mp he
    exact ⟨a, run, Link.expandTo_mem_following.mp hmem, hchild, hrun, rfl⟩

namespace Sound

variable (h : x.Sound older)

include h

/-- Showing the rows anew forgets the marks of what is gone, and where that is not due, nothing that
is marked is gone. -/
theorem mem_expanded_refreshed (hd : x.before.link.disconnected = false) :
    id ∈ (x.before.refreshed x.timeline x.update).expanded ↔
      id ∈ x.before.widget.outline.expanded ∧ x.timeline.Has id := by
  rcases hdue : x.before.due x.update with _ | _
  · rw [Screen.refreshed, hdue, if_neg Bool.false_ne_true]
    refine ⟨fun hid => ⟨hid, ?_⟩, And.left⟩
    rw [← h.rows_of_due hd hdue]
    exact h.live (Screen.due_eq_false_iff.mp hdue).2 id hid
  · rw [Screen.refreshed, hdue, if_pos rfl]
    exact Outline.mem_expanded_rebuild

/-- What carrying out a plan up to some point behind its collapses does to the marks. -/
theorem mem_expanded_performAll (hd : x.before.link.disconnected = false) {cs : List ViewCommand}
    (hcs : ∀ c ∈ cs, c.Gentle) {o : Outline}
    (hperformed : (x.before.refreshed x.timeline x.update).performAll
      ((x.before.link.collapsing x.timeline x.update).map .collapseGroup ++ cs) = .ok o) :
    id ∈ o.expanded ↔
      (id ∈ x.before.widget.outline.expanded ∧ x.timeline.Has id ∧ ¬ x.Owes id) ∨
        ∃ a, .expandTo a ∈ cs ∧ a.isChild = true ∧ x.timeline.HeadedBy a.group id := by
  have hshown : (x.before.refreshed x.timeline x.update).shown = x.timeline :=
    Screen.shown_refreshed_eq (h.rows_of_due hd)
  rw [Outline.mem_expanded_performAll hcs hperformed, h.mem_expanded_refreshed hd, hshown,
    owes_iff h.numbered, and_assoc]
  simp

/-- **An update that is followed well does to the marks what was announced.** -/
theorem announced (hp : x.before.link.paused = false) (hok : x.answer = .ok ()) :
    x.Announced older := by
  obtain ⟨hd, -, -, hplan⟩ :=
    h.of_leaves (Screen.pushed_of_follow_ok hp) (by rw [hok])
  have hexpanded : ∀ id, id ∈ x.after.widget.outline.expanded ↔
      (id ∈ x.before.widget.outline.expanded ∧ x.timeline.Has id ∧ ¬ x.Owes id) ∨
        x.Hides id := fun id => by
    rw [h.mem_expanded_performAll hd (fun c => Link.gentle_of_mem_following) hplan, hides_iff]
  refine ⟨hexpanded, fun id hbefore hlive hafter => ?_, fun id hafter hbefore => ?_⟩
  · have howes : x.Owes id := by
      by_contra hnot
      exact hafter ((hexpanded id).mpr (.inl ⟨hbefore, hlive, hnot⟩))
    obtain ⟨-, group, run, hrun, rfl, hleft | ⟨hkept, -, -⟩⟩ := howes
    · exact .inl (h.leaves_of_head hleft (Timeline.head?_of_getElem? hrun))
    · exact .inr (h.recalled _ hkept)
  · exact ((hexpanded id).mp hafter).resolve_left fun hkept => hbefore hkept.1

end Sound

end Episode

namespace Chronicle

/-- **A push changes what is expanded exactly as announced**, whatever happened before: after an
update that was told to a screen that was not paused, and that it answered well, the marks are those
of before that are still there, without those of the run that was left and of the runs that were
left during a pause, still have entries behind their heads and do not hold the cursor, and with that
of the run that hides the cursor. -/
theorem announced_of_after (settings : Settings) (handlers : Handlers) (recorded : Bool)
    (o : Outline) (reply : UserAct → Desk Unit Chronicle → List Request) (moves : List Move)
    {newer older : List Episode} {x : Episode}
    (h : (after reply (start settings handlers recorded o) moves).around.episodes =
      newer ++ x :: older)
    (hp : x.before.link.paused = false) (hok : x.answer = .ok ()) : x.Announced older :=
  (((inv_start settings handlers recorded o).after moves).orderly newer x older h).announced hp hok

/-- Of three runs the user opens the first, and the second too after it was left during a pause; the
commit behind the pause makes the third one hide the cursor. -/
def leavings : List Move :=
  [.request .reattach, .request (.hear (.committed ⟨⟨0⟩, "Move", "one"⟩)),
    .request (.hear (.committed ⟨⟨1⟩, "Move", "two"⟩)),
    .request (.hear (.committed ⟨⟨2⟩, "Edit", "three"⟩)),
    .request (.hear (.committed ⟨⟨3⟩, "Edit", "four"⟩)),
    .request (.hear (.committed ⟨⟨4⟩, "Move", "five"⟩)), .gesture (.expand 1),
    .request (.control .pause), .request (.hear (.undone ⟨⟨4⟩, "Move", "five"⟩)),
    .request (.hear (.redone ⟨⟨4⟩, "Move", "five"⟩)), .request (.control .resume),
    .gesture (.expand 3), .request (.hear (.committed ⟨⟨5⟩, "Move", "six"⟩))]

/-- Of the two runs that were open, that push closed the one that was kept in mind. -/
theorem announced_of_after_leavings : ∃ (x : Episode) (older : List Episode),
    x.before.link.left = [⟨2⟩] ∧ x.before.widget.outline.expanded = [⟨0⟩, ⟨2⟩] ∧
      x.after.widget.outline.expanded = [⟨0⟩, ⟨4⟩] ∧ x.Announced older := by
  have hannounced := @announced_of_after {} {} true (.empty {} .unicode 2) (fun _ _ => []) leavings
  have hlast : (after (fun _ _ => []) (start {} {} true (.empty {} .unicode 2))
      leavings).around.episodes.head?.map (fun x => (x.before.link.paused, x.answer.isOk,
        x.before.link.left, x.before.widget.outline.expanded,
        x.after.widget.outline.expanded)) =
      some (false, true, [⟨2⟩], [⟨0⟩, ⟨2⟩], [⟨0⟩, ⟨4⟩]) := by
    decide +kernel
  generalize after _ _ _ = d at hannounced hlast
  obtain ⟨x, hx, hfields⟩ := Option.map_eq_some_iff.mp hlast
  obtain ⟨older, hepisodes⟩ := List.head?_eq_some_iff.mp hx
  obtain ⟨hpaused, hok, hleft, hbefore, hafter⟩ : x.before.link.paused = false ∧
      x.answer.isOk = true ∧ x.before.link.left = [⟨2⟩] ∧
      x.before.widget.outline.expanded = [⟨0⟩, ⟨2⟩] ∧
      x.after.widget.outline.expanded = [⟨0⟩, ⟨4⟩] := by
    simpa using hfields
  exact ⟨x, older, hleft, hbefore, hafter,
    @hannounced [] older x hepisodes hpaused (Episode.answer_of_isOk hok)⟩

end Chronicle

end UndoJournal
