import UndoJournal.Proofs.Screen.Unfolding
import UndoJournal.Proofs.Session.Deeds

/-!
# What a push that fails forgets

A push takes the runs that are kept in mind for its plan before it carries the plan out. What
becomes of them depends on the call that fails:

* where showing the rows anew fails, they are still kept in mind;
* where one of the calls behind the collapses fails, they are collapsed;
* **where the first collapse fails, none of them is collapsed or kept in mind**, and nothing that
  happens later closes them, unless the cursor enters them and leaves them again.

So behind a pause a run that was left, still has entries behind its head and does not hold the
cursor is open after a push that succeeds exactly if it was forgotten in that way
(`Chronicle.isExpanded_iff_forgotten`).
-/

namespace UndoJournal

private theorem ViewCommand.Gentle.op_ne {c : ViewCommand} (h : c.Gentle) :
    c.op ≠ .collapseGroup := by
  cases c with
  | collapseGroup group => exact absurd rfl (h.2 group)
  | _ => exact nofun

/-- **A push is stopped before its collapses or behind them**: by the rebuild, with nothing done; by
the first collapse, with nothing done but the rebuild; or by what follows the collapses. -/
theorem Screen.Stopped.cases {s s' : Screen} {t : Timeline} {u : CursorUpdate} {op : ViewOp}
    (h : s.Stopped t u op s') :
    (op = .rebuild ∧ s'.widget.outline = s.widget.outline ∧ s'.link.left = s.link.left) ∨
      (op = .collapseGroup ∧ s'.widget.outline = s.refreshed t u) ∨
      (op ≠ .rebuild ∧ op ≠ .collapseGroup ∧ ∃ cs : List ViewCommand, (∀ c ∈ cs, c.Gentle) ∧
        cs ⊆ s.link.following u.current ∧ (s.refreshed t u).performAll
          ((s.link.collapsing t u).map .collapseGroup ++ cs) = .ok s'.widget.outline) := by
  by_cases hop : op = .rebuild
  · exact .inl ⟨hop, (h.early hop).2⟩
  obtain ⟨-, done, c, rest, hplan, rfl, hops, hdone⟩ := h.late hop
  have hgentle : ∀ c ∈ s.link.following u.current, c.Gentle := fun c => Link.gentle_of_mem_following
  have hcollapses : ∀ c' ∈ (s.link.collapsing t u).map ViewCommand.collapseGroup,
      c'.op = .collapseGroup := by
    intro c' hc'
    obtain ⟨group, -, rfl⟩ := List.mem_map.mp hc'
    rfl
  rw [Link.plan] at hplan
  -- the call that failed stands behind the collapses, or among them
  obtain ⟨cs, rfl, htail⟩ | ⟨front, hfront, htail⟩ := List.append_eq_append_iff.mp hplan
  · have hcs : cs ⊆ s.link.following u.current := htail ▸ List.subset_append_left cs _
    have hc : c ∈ s.link.following u.current := htail ▸ by simp
    exact .inr (.inr ⟨hop, (hgentle c hc).op_ne, cs, fun c' hc' => hgentle c' (hcs hc'), hcs,
      hdone⟩)
  rcases front with _ | ⟨c', front⟩
  · have hc : c ∈ s.link.following u.current := by
      rw [List.nil_append] at htail
      exact htail ▸ List.mem_cons_self
    rw [List.append_nil] at hfront
    refine .inr (.inr ⟨hop, (hgentle c hc).op_ne, [], by simp, List.nil_subset _, ?_⟩)
    rw [hfront, List.append_nil]
    exact hdone
  · -- the call that failed is a collapse, and no other call of that kind stands in front of it
    obtain rfl : c = c' := (List.cons.inj htail).1
    have hc : c.op = .collapseGroup := hcollapses c (hfront ▸ by simp)
    have hnone : done = [] := List.eq_nil_iff_forall_not_mem.mpr fun c' hc' =>
      hops c' hc' ((hcollapses c' (hfront ▸ List.mem_append_left _ hc')).trans hc.symm)
    subst hnone
    exact .inr (.inl ⟨hc, (Except.ok.inj hdone).symm⟩)

namespace Episode

/-! ### Closing and forgetting -/

/-- The push failed at a call of that operation. -/
def FailsAt (x : Episode) (op : ViewOp) : Prop := x.answer = .error (.injected op)

/-- The run headed by that identity was to be collapsed, and the push got past the collapses. -/
def Closes (x : Episode) (id : EntryId) : Prop :=
  x.before.link.paused = false ∧ x.Owes id ∧ ¬ x.FailsAt .rebuild ∧ ¬ x.FailsAt .collapseGroup

/-- The run headed by that identity was open and to be collapsed, but the push failed at the
collapses; or it failed at the rebuild, and it was only the update that said that the run was
left. -/
def Forgets (x : Episode) (id : EntryId) : Prop :=
  x.Owes id ∧ id ∈ x.before.widget.outline.expanded ∧
    (x.FailsAt .collapseGroup ∨ x.FailsAt .rebuild ∧ id ∉ x.before.link.left)

/-- In the episodes, newest first, the run headed by that identity was forgotten, and not closed
since. -/
def Forgotten (id : EntryId) : List Episode → Prop
  | [] => False
  | x :: older => x.Forgets id ∨ (Forgotten id older ∧ ¬ x.Closes id)

variable {x : Episode} {older since : List Episode} {id : EntryId}

private theorem FailsAt.unique {op op' : ViewOp} (h : x.FailsAt op) (h' : x.FailsAt op') :
    op = op' :=
  ViewError.injected_inj.mp (Except.error.inj (h.symm.trans h'))

namespace Sound

variable (h : x.Sound older) (hd : x.before.link.disconnected = false)

include h hd

/-- How far a push got that was not skipped: it failed at the rebuild, with nothing done, or at the
collapses, with nothing else done, or it collapsed all that was to be. -/
private theorem reach (hp : x.before.link.paused = false) :
    (x.FailsAt .rebuild ∧ x.after.widget.outline = x.before.widget.outline ∧
        x.after.link.left = x.before.link.left) ∨
      (x.FailsAt .collapseGroup ∧
        x.after.widget.outline = x.before.refreshed x.timeline x.update) ∨
      (¬ x.FailsAt .rebuild ∧ ¬ x.FailsAt .collapseGroup ∧
        ∃ cs : List ViewCommand, (∀ c ∈ cs, c.Gentle) ∧
          cs ⊆ x.before.link.following x.update.current ∧
          (x.before.refreshed x.timeline x.update).performAll
            ((x.before.link.collapsing x.timeline x.update).map .collapseGroup ++ cs) =
              .ok x.after.widget.outline) := by
  rcases ha : x.answer with e | ⟨⟩
  · obtain ⟨op, rfl, hstop⟩ := h.of_leaves
      (Screen.stopped_of_follow (h.rows_of_due hd) h.contains hd hp) e (by rw [ha])
    have hfails : x.FailsAt op := ha
    obtain ⟨rfl, hsame⟩ | ⟨rfl, hsame⟩ | ⟨hrebuild, hcollapse, hrest⟩ := hstop.cases
    · exact .inl ⟨hfails, hsame⟩
    · exact .inr (.inl ⟨hfails, hsame⟩)
    · exact .inr (.inr ⟨fun h => hrebuild (hfails.unique h), fun h => hcollapse (hfails.unique h),
        hrest⟩)
  · obtain ⟨-, -, -, hplan⟩ := h.of_leaves (Screen.pushed_of_follow_ok hp) (by rw [ha])
    have hnever : ∀ op, ¬ x.FailsAt op := fun op hfails => nomatch hfails.symm.trans ha
    exact .inr (.inr ⟨hnever _, hnever _, _, fun c => Link.gentle_of_mem_following,
      List.Subset.refl _, hplan⟩)

/-- **A mark is there afterwards** if it was before, and its run was not closed; or its run hides
the cursor. -/
theorem mem_expanded_after (hp : x.before.link.paused = false)
    (hid : id ∈ x.after.widget.outline.expanded) :
    (id ∈ x.before.widget.outline.expanded ∧ ¬ x.Closes id) ∨ x.Hides id := by
  obtain ⟨hfails, hsame, -⟩ | ⟨hfails, hsame⟩ | ⟨-, -, cs, hgentle, hcs, hplan⟩ := h.reach hd hp
  · exact .inl ⟨hsame ▸ hid, fun hcloses => hcloses.2.2.1 hfails⟩
  · rw [hsame, h.mem_expanded_refreshed hd] at hid
    exact .inl ⟨hid.1, fun hcloses => hcloses.2.2.2 hfails⟩
  · obtain ⟨hbefore, -, howes⟩ | ⟨a, ha, hhides⟩ :=
      (h.mem_expanded_performAll hd hgentle hplan).mp hid
    · exact .inl ⟨hbefore, fun hcloses => howes hcloses.2.1⟩
    · exact .inr (hides_iff.mpr ⟨a, hcs ha, hhides⟩)

/-- A mark that is there stays, as long as its run is not closed. -/
private theorem mem_expanded_after_of (hp : x.before.link.paused = false)
    (hid : id ∈ x.before.widget.outline.expanded) (hhas : x.timeline.Has id)
    (hcloses : ¬ x.Closes id) : id ∈ x.after.widget.outline.expanded := by
  obtain ⟨-, hsame, -⟩ | ⟨-, hsame⟩ | ⟨hrebuild, hcollapse, cs, hgentle, -, hplan⟩ := h.reach hd hp
  · exact hsame ▸ hid
  · rw [hsame, h.mem_expanded_refreshed hd]
    exact ⟨hid, hhas⟩
  · rw [h.mem_expanded_performAll hd hgentle hplan]
    exact .inl ⟨hid, hhas, fun howes => hcloses ⟨hp, howes, hrebuild, hcollapse⟩⟩

/-- **A run that is open and was to be closed is open because it was forgotten**, unless it is still
kept in mind. -/
theorem forgets_or_mem_left (hp : x.before.link.paused = false) (howes : x.Owes id)
    (hid : id ∈ x.before.widget.outline.expanded) (hcloses : ¬ x.Closes id) :
    x.Forgets id ∨ id ∈ x.after.link.left := by
  obtain ⟨hfails, -, hleft⟩ | ⟨hfails, -⟩ | ⟨hrebuild, hcollapse, -⟩ := h.reach hd hp
  · by_cases hmem : id ∈ x.before.link.left
    · exact .inr (hleft ▸ hmem)
    · exact .inl ⟨howes, hid, .inr ⟨hfails, hmem⟩⟩
  · exact .inl ⟨howes, hid, .inl hfails⟩
  · exact absurd ⟨hp, howes, hrebuild, hcollapse⟩ hcloses

end Sound

/-! ### One run from push to push -/

/-- What is known of the run headed by some identity while the cursor moves only by updates that the
screen is told; the timeline was last told as `t` and the cursor as `p`, and the episodes are those
since the run was kept in mind. -/
structure Awaits (id : EntryId) (since : List Episode) (t : Timeline) (p : Position) (s : Screen) :
    Prop where
  setting : s.link.settings.collapseOnLeave = true
  connected : s.link.disconnected = false
  /-- The identity was given out, to an entry that is a head as long as it is there. -/
  given : id.raw < t.nextId
  trailing : ∀ e ∈ t.trailing, e.id ≠ id
  /-- If the run is open, it holds the cursor, or is kept in mind, or was forgotten. -/
  covered : ∀ group run, t.runs[group]? = some run → run.head.id = id → run.rest ≠ [] →
    id ∈ s.widget.outline.expanded →
      p.group? = some group ∨ id ∈ s.link.left ∨ Forgotten id since
  /-- A run that was forgotten is open. -/
  opened : Forgotten id since → t.Has id → id ∈ s.widget.outline.expanded

namespace Awaits

variable {t t' : Timeline} {p : Position} {s s' : Screen}

/-- Only marks, settings, memory and presence of the link matter. -/
private theorem of_eq (h : Awaits id since t p s)
    (hexpanded : s'.widget.outline.expanded = s.widget.outline.expanded)
    (hsetting : s'.link.settings = s.link.settings) (hleft : s'.link.left = s.link.left)
    (hconnected : s'.link.disconnected = s.link.disconnected) : Awaits id since t p s' where
  setting := hsetting ▸ h.setting
  connected := hconnected ▸ h.connected
  given := h.given
  trailing := h.trailing
  covered group run hrun hid hrest hmem :=
    hleft ▸ h.covered group run hrun hid hrest (hexpanded ▸ hmem)
  opened hforgotten hhas := hexpanded ▸ h.opened hforgotten hhas

/-- **After a push that succeeds a run that does not hold the cursor is open exactly if it was
forgotten.** -/
theorem isExpanded_iff (h : Awaits id since x.timeline x.update.current x.after)
    (hsound : x.Sound older) (hp : x.before.link.paused = false) (hok : x.answer = .ok ())
    {group : Nat} {run : Run} (hrun : x.timeline.runs[group]? = some run) (hid : run.head.id = id)
    (hrest : run.rest ≠ []) (hcurrent : x.update.current.group? ≠ some group) :
    x.after.widget.outline.isExpanded group = true ↔ Forgotten id since := by
  obtain ⟨hd, hframed, hpushed⟩ := hsound.of_leaves (Screen.pushed_of_follow_ok hp) (by rw [hok])
  have hhead := Timeline.head?_of_getElem? hrun
  have hset : x.before.link.settings.collapseOnLeave = true := by
    have hset := h.setting
    rw [hframed.link] at hset
    exact hset
  have hleft : x.after.link.left = [] :=
    hsound.of_leaves (Screen.left_of_follow hd hp hset) (by rw [hok])
  have hmarked : x.after.widget.outline.isExpanded group = true ↔
      id ∈ x.after.widget.outline.expanded := by
    rw [Outline.isExpanded_iff, hpushed.shown (hsound.rows_of_due hd), hhead]
    simp [hid]
  rw [hmarked]
  refine ⟨fun hmem => ?_, fun hforgotten => h.opened hforgotten ⟨run.head, ?_, hid⟩⟩
  · have hcases := (h.covered group run hrun hid hrest hmem).resolve_left hcurrent
    exact hcases.resolve_left (by simp [hleft])
  · exact Timeline.mem_toList_of_head? hhead

/-- A run that is open is accounted for: the cursor is in it now, or the update says that it was
left, or it was kept in mind or forgotten. -/
private theorem open_cases (h : Awaits id since t p x.before)
    (haccounts : x.update.Accounts t p x.timeline)
    {group : Nat} {run : Run} (hrun : x.timeline.runs[group]? = some run) (hid : run.head.id = id)
    (hrest : run.rest ≠ []) (hmem : id ∈ x.before.widget.outline.expanded) :
    x.update.current.group? = some group ∨ x.update.left = some group ∨
      id ∈ x.before.link.left ∨ Forgotten id since := by
  obtain hcurrent | hleft | htrailing | ⟨group₀, hrun₀, hp⟩ := haccounts.run group run hrun hrest
  · exact .inl hcurrent
  · exact .inr (.inl hleft)
  · exact absurd hid (h.trailing _ htrailing)
  · exact .inr (.inr ((h.covered group₀ run hrun₀ hid hrest hmem).resolve_left hp))

variable (h : Awaits id since t p x.before) (hsound : x.Sound older)

include h hsound

/-- What has become of a run that is open after an episode and does not hold the cursor. -/
private theorem covered_after (haccounts : x.update.Accounts t p x.timeline) {group : Nat}
    {run : Run}
    (hrun : x.timeline.runs[group]? = some run) (hid : run.head.id = id) (hrest : run.rest ≠ [])
    (hmem : id ∈ x.after.widget.outline.expanded)
    (hcurrent : x.update.current.group? ≠ some group) :
    id ∈ x.after.link.left ∨ Forgotten id (x :: since) := by
  have hhead : x.timeline.HeadedBy group id := hid ▸ Timeline.headedBy_of_getElem? hrun
  rcases hp : x.before.link.paused with _ | _
  · obtain ⟨hbefore, hcloses⟩ | ⟨a, run', hon, -, hrun', hid'⟩ :=
      hsound.mem_expanded_after h.connected hp hmem
    · obtain hleft | hleft | hforgotten :=
        (h.open_cases haccounts hrun hid hrest hbefore).resolve_left hcurrent
      · have howes : x.Owes id := ⟨h.setting, group, run, hrun, hid, .inl hleft⟩
        exact (hsound.forgets_or_mem_left h.connected hp howes hbefore hcloses).symm.imp_right .inl
      · have howes : x.Owes id := ⟨h.setting, group, run, hrun, hid, .inr ⟨hleft, hrest, hcurrent⟩⟩
        exact (hsound.forgets_or_mem_left h.connected hp howes hbefore hcloses).symm.imp_right .inl
      · exact .inr (.inr ⟨hforgotten, hcloses⟩)
    · -- the run that hides the cursor is this one
      have hsame := hhead.unique hsound.numbered (hid' ▸ Timeline.headedBy_of_getElem? hrun')
      rw [hon] at hcurrent
      exact absurd (congrArg some hsame.symm) hcurrent
  · -- an update that is skipped closes nothing, and keeps in mind what was left
    have hskip := hsound.of_leaves (Screen.leaves_follow_of_paused h.connected hp)
    have hbefore : id ∈ x.before.widget.outline.expanded := by
      rw [hskip.2] at hmem
      exact hmem
    have hcloses : ¬ x.Closes id := fun hcloses => nomatch hcloses.1.symm.trans hp
    obtain hleft | hkept | hforgotten :=
      (h.open_cases haccounts hrun hid hrest hbefore).resolve_left hcurrent
    · have hleaves : x.Leaves id := by
        obtain ⟨e, he, heid⟩ := hhead
        exact heid.trans rfl ▸ hsound.leaves_of_head hleft he
      exact .inl (hsound.mem_left_of_skipped ⟨h.connected, hp⟩ (.inl hleaves))
    · exact .inl (hsound.mem_left_of_skipped ⟨h.connected, hp⟩ (.inr hkept))
    · exact .inr (.inr ⟨hforgotten, hcloses⟩)

/-- A run that was forgotten before or in an episode is open after it. -/
private theorem opened_after
    (hentries : ∀ e ∈ x.timeline.toList, e ∈ t.toList ∨ t.nextId ≤ e.id.raw)
    (hforgotten : Forgotten id (x :: since)) (hhas : x.timeline.Has id) :
    id ∈ x.after.widget.outline.expanded := by
  obtain ⟨howes, hbefore, hfails⟩ | ⟨hforgotten, hcloses⟩ := hforgotten
  · have hp : x.before.link.paused = false := by
      by_contra hpaused
      have hskip := hsound.of_leaves
        (Screen.leaves_follow_of_paused h.connected (by simpa using hpaused))
      have hok : x.answer = .ok () := Except.ok.inj hskip.1
      obtain hfails | ⟨hfails, -⟩ := hfails <;> exact nomatch hfails.symm.trans hok
    refine hsound.mem_expanded_after_of h.connected hp hbefore hhas fun hcloses => ?_
    obtain hfails | ⟨hfails, -⟩ := hfails
    · exact hcloses.2.2.2 hfails
    · exact hcloses.2.2.1 hfails
  · have hbefore : id ∈ x.before.widget.outline.expanded := by
      obtain ⟨e, he, rfl⟩ := hhas
      refine h.opened hforgotten ⟨e, (hentries e he).resolve_right fun hnew => ?_, rfl⟩
      exact absurd h.given (Nat.not_lt.mpr hnew)
    rcases hp : x.before.link.paused with _ | _
    · exact hsound.mem_expanded_after_of h.connected hp hbefore hhas hcloses
    · have hskip := hsound.of_leaves (Screen.leaves_follow_of_paused h.connected hp)
      rw [hskip.2]
      exact hbefore

/-- **One episode keeps what is known of the run.** -/
theorem step (haccounts : x.update.Accounts t p x.timeline)
    (hentries : ∀ e ∈ x.timeline.toList, e ∈ t.toList ∨ t.nextId ≤ e.id.raw) :
    Awaits id (x :: since) x.timeline x.update.current x.after := by
  have hframed := hsound.of_leaves (Screen.framed_follow x.timeline x.update x.before)
  refine ⟨?_, ?_, Nat.lt_of_lt_of_le h.given haccounts.nextId_le, fun e he => ?_,
    fun group run hrun hid hrest hmem => ?_, h.opened_after hsound hentries⟩
  · rw [hframed.link]
    exact h.setting
  · rw [hframed.link]
    exact h.connected
  · obtain hbefore | hnew := haccounts.trailing e he
    · exact h.trailing e hbefore
    · rintro rfl
      exact absurd h.given (Nat.not_lt.mpr hnew)
  · exact or_iff_not_imp_left.mpr (h.covered_after hsound haccounts hrun hid hrest hmem)

end Awaits

end Episode

namespace Chronicle

/-- The cursor is not put anywhere, and the screen stays attached and connected. -/
def Request.Steady : Request → Prop
  | .place _ | .detach | .disconnect => False
  | _ => True

/-- Nothing was told, and neither cursor nor rows nor marks are others. -/
structure Rests (d d' : Desk Unit Chronicle) : Prop where
  timeline : d'.journal.timeline = d.journal.timeline
  cursor : d'.journal.cursor = d.journal.cursor
  attached : d'.attached = d.attached
  episodes : d'.around.episodes = d.around.episodes
  expanded : d'.around.screen.widget.outline.expanded = d.around.screen.widget.outline.expanded
  settings : d'.around.screen.link.settings = d.around.screen.link.settings
  left : d'.around.screen.link.left = d.around.screen.link.left
  disconnected : d'.around.screen.link.disconnected = d.around.screen.link.disconnected

/-- One more episode: the screen was told of the journal as it is now, and no cursor moved and no
run changed without that being accounted for. -/
structure Advances (d : Desk Unit Chronicle) (x : Episode) (d' : Desk Unit Chronicle) : Prop where
  attached : d'.attached = d.attached
  before : x.before = d.around.screen
  around : d'.around = ⟨x.after, x :: d.around.episodes⟩
  timeline : x.timeline = d'.journal.timeline
  cursor : x.update.current = d'.journal.cursor
  sound : x.Sound d.around.episodes
  accounts : x.update.Accounts d.journal.timeline d.journal.cursor x.timeline
  entries : ∀ e ∈ x.timeline.toList,
    e ∈ d.journal.timeline.toList ∨ d.journal.timeline.nextId ≤ e.id.raw

variable {d d' : Desk Unit Chronicle}

/-- **What a steady request does**: nothing that matters, or it lets the screen be told. -/
theorem leaves_grant_of_steady (h : Inv d) (hatt : d.attached = some ()) {r : Request}
    (hr : r.Steady) :
    (grant r).Leaves d fun _ d' => Rests d d' ∨ ∃ x, Advances d x d' := by
  cases r with
  | hear notice =>
    refine (leaves_hear h notice).mono ?_
    rintro _ d' (rfl | ⟨r, u, hr, hu, -, ⟨hnone, -⟩ | ⟨x, -, ht, rfl, hbefore, hsound, rfl⟩⟩)
    · exact .inl ⟨rfl, rfl, rfl, rfl, rfl, rfl, rfl, rfl⟩
    · exact absurd (hnone.symm.trans hatt) (by simp)
    · obtain ⟨hready, haccounts⟩ := h.ready_hear hr hu
      exact .inr ⟨x, rfl, hbefore, rfl, ht, hready.fits.current, hsound, ht ▸ haccounts,
        ht ▸ Journal.entries_hear hr⟩
  | resync =>
    obtain ⟨stack, htraces⟩ := h.traces
    simp only [grant, Desk.resync, Action.leaves_bind, Action.leaves_get]
    refine (gives_tell (h.ready .resync)).leaves ?_
    rintro _ d' ⟨-, ⟨hnone, -⟩ | ⟨x, -, ht, hu, hbefore, hsound, rfl⟩⟩
    · exact absurd (hnone.symm.trans hatt) (by simp)
    · have haccounts := Journal.accounts_standing htraces h.numbered .resync
      exact .inr ⟨x, rfl, hbefore, rfl, ht, hu ▸ rfl, hsound,
        by rw [ht, hu]; exact haccounts, fun e he => .inl (ht ▸ he)⟩
  | reattach =>
    simp only [grant, Action.leaves_bind, Action.leaves_get, hatt]
    exact .inl ⟨rfl, rfl, rfl, rfl, rfl, rfl, rfl, rfl⟩
  | control k =>
    have hlink := k.link_use d.around.screen
    have hexpanded := congrArg Outline.expanded (k.outline_use d.around.screen)
    refine .inl ⟨rfl, rfl, rfl, rfl, hexpanded, ?_, ?_, ?_⟩ <;>
      exact (congrArg _ hlink).trans rfl
  | mute => exact .inl ⟨rfl, rfl, rfl, rfl, rfl, rfl, rfl, rfl⟩
  | place | detach | disconnect => exact hr.elim

/-- What is known of the run headed by some identity, with the episodes that came to `earlier`. -/
structure Awaiting (id : EntryId) (earlier : List Episode) (d : Desk Unit Chronicle) : Prop where
  inv : Inv d
  attached : d.attached = some ()
  run : ∃ since, d.around.episodes = since ++ earlier ∧
    Episode.Awaits id since d.journal.timeline d.journal.cursor d.around.screen ∧
    ∀ newer x older, since = newer ++ x :: older →
      Episode.Awaits id (x :: older) x.timeline x.update.current x.after

/-- What is known of a run when the cursor has left it during a pause. -/
private theorem awaiting_of_leftInPause {id : EntryId} (h : Inv d) (hatt : d.attached = some ())
    (hd : d.around.screen.link.disconnected = false)
    (hset : d.around.screen.link.settings.collapseOnLeave = true)
    (hleft : Episode.LeftInPause id d.around.episodes) : Awaiting id d.around.episodes d := by
  have hmem := h.retained id hleft
  obtain ⟨hgiven, htrailing⟩ := h.heads id hmem
  exact ⟨h, hatt, [], rfl, ⟨hset, hd, hgiven, htrailing, fun _ _ _ _ _ _ => .inr (.inl hmem),
    False.elim⟩, fun newer x older hnil => by simp at hnil⟩

/-- **Steady requests keep what is known of a run.** -/
theorem keeps_awaiting {id : EntryId} {earlier : List Episode} {r : Request} (hr : r.Steady) :
    Action.Keeps (Awaiting id earlier) (grant r) := by
  rintro d ⟨hinv, hatt, since, hepisodes, hawaits, htold⟩
  refine ((leaves_grant_of_steady hinv hatt hr).and (keeps_grant r d hinv)).mono ?_
  rintro _ d' ⟨hrests | ⟨x, hx⟩, hinv'⟩
  · refine ⟨hinv', hrests.attached.trans hatt, since, hrests.episodes.trans hepisodes, ?_, htold⟩
    rw [hrests.timeline, hrests.cursor]
    exact hawaits.of_eq hrests.expanded hrests.settings hrests.left hrests.disconnected
  · rw [← hx.before] at hawaits
    have hstep := hawaits.step hx.sound hx.accounts hx.entries
    refine ⟨hinv', hx.attached.trans hatt, x :: since, ?_, ?_, ?_⟩
    · rw [hx.around, hepisodes, List.cons_append]
    · rw [← hx.timeline, ← hx.cursor, hx.around]
      exact hstep
    · rintro (_ | ⟨y, newer⟩) z older hsplit
      · obtain ⟨rfl, rfl⟩ := List.cons.inj hsplit
        exact hstep
      · exact htold newer z older (List.cons.inj hsplit).2

private theorem Awaiting.after {reply : UserAct → Desk Unit Chronicle → List Request} {id : EntryId}
    {earlier : List Episode} (h : Awaiting id earlier d) {requests : List Request}
    (hsteady : ∀ r ∈ requests, r.Steady) :
    Awaiting id earlier (after reply d (requests.map .request)) := by
  induction requests generalizing d with
  | nil => exact h
  | cons r requests ih =>
    exact ih (keeps_awaiting (hsteady r List.mem_cons_self) d h) fun r' hr' =>
      hsteady r' (List.mem_cons_of_mem _ hr')

/-- **A run that was left during a pause is open after a push that succeeds exactly if an earlier
push forgot it**, whatever happened before the pause ended and however many updates are told and
pushes fail since: the pushes that forget are those that fail at the collapses, and the run stays
open from then on until another push collapses it. -/
theorem isExpanded_iff_forgotten (settings : Settings) (handlers : Handlers) (recorded : Bool)
    (o : Outline) (reply : UserAct → Desk Unit Chronicle → List Request) (moves : List Move)
    {requests : List Request} (hsteady : ∀ r ∈ requests, r.Steady) {d : Desk Unit Chronicle}
    (hstart : d = after reply (start settings handlers recorded o) moves)
    (hatt : d.attached = some ()) (hd : d.around.screen.link.disconnected = false)
    (hset : d.around.screen.link.settings.collapseOnLeave = true) {id : EntryId}
    (hleft : Episode.LeftInPause id d.around.episodes) {newer since : List Episode} {x : Episode}
    (h : (after reply d (requests.map .request)).around.episodes =
      newer ++ x :: since ++ d.around.episodes)
    (hp : x.before.link.paused = false) (hok : x.answer = .ok ()) {group : Nat} {run : Run}
    (hrun : x.timeline.runs[group]? = some run) (hid : run.head.id = id) (hrest : run.rest ≠ [])
    (hcurrent : x.update.current.group? ≠ some group) :
    x.after.widget.outline.isExpanded group = true ↔ Episode.Forgotten id (x :: since) := by
  have hinv : Inv d := hstart ▸ (inv_start settings handlers recorded o).after moves
  have hawaiting : Awaiting id d.around.episodes (after reply d (requests.map .request)) :=
    (awaiting_of_leftInPause hinv hatt hd hset hleft).after hsteady
  obtain ⟨hinv', -, all, hall, -, htold⟩ := hawaiting
  have hsplit : all = newer ++ x :: since := List.append_cancel_right (hall.symm.trans h)
  have hsound : x.Sound (since ++ d.around.episodes) :=
    hinv'.orderly newer x _ (by rw [h, List.append_assoc, List.cons_append])
  exact (htold newer x since hsplit).isExpanded_iff hsound hp hok hrun hid hrest hcurrent

/-- The cursor leaves a run of two during a pause. -/
def departed : List Move :=
  [.request .reattach, .request (.hear (.committed ⟨⟨0⟩, "Move", "one"⟩)),
    .request (.hear (.committed ⟨⟨1⟩, "Move", "two"⟩)), .request (.control .pause),
    .request (.hear (.committed ⟨⟨2⟩, "Edit", "three"⟩))]

/-- The first push behind the pause fails at the collapses, the second one goes well. -/
def stumbling : List Request :=
  [.control .resume, .control (.plant .collapseGroup), .hear (.committed ⟨⟨3⟩, "Edit", "four"⟩),
    .hear (.committed ⟨⟨4⟩, "Edit", "five"⟩)]

/-- The desk when the cursor has left it. -/
def abandoned : Desk Unit Chronicle :=
  after (fun _ _ => []) (start {} {} true (.empty {} .unicode 2)) departed

/-- That run was forgotten, so it is open behind them. -/
theorem isExpanded_iff_forgotten_stumbling : ∃ (x : Episode) (since : List Episode),
    (after (fun _ _ => []) abandoned (stumbling.map .request)).around.episodes =
        x :: since ++ abandoned.around.episodes ∧
      x.after.widget.outline.isExpanded 0 = true ∧
      (x.after.widget.outline.isExpanded 0 = true ↔ Episode.Forgotten ⟨0⟩ (x :: since)) := by
  have hsteady : ∀ r ∈ stumbling, r.Steady := by simp [stumbling, Request.Steady]
  have hinv : Inv abandoned := (inv_start {} {} true (.empty {} .unicode 2)).after departed
  obtain ⟨hatt, hd, hset, hleft⟩ : abandoned.attached = some () ∧
      abandoned.around.screen.link.disconnected = false ∧
      abandoned.around.screen.link.settings.collapseOnLeave = true ∧
      Episode.LeftInPause ⟨0⟩ abandoned.around.episodes := by
    decide +kernel
  have hiff := @isExpanded_iff_forgotten {} {} true (.empty {} .unicode 2) (fun _ _ => []) departed
    stumbling hsteady abandoned rfl hatt hd hset ⟨0⟩ hleft
  have hawaiting : Awaiting ⟨0⟩ abandoned.around.episodes
      (after (fun _ _ => []) abandoned (stumbling.map .request)) :=
    (awaiting_of_leftInPause hinv hatt hd hset hleft).after hsteady
  obtain ⟨-, -, all, hall, -⟩ := hawaiting
  have hlast : (after (fun _ _ => []) abandoned (stumbling.map .request)).around.episodes.head?.map
      (fun x => (x.before.link.paused, x.answer.isOk, x.timeline.runs[0]?,
        x.update.current.group?, x.after.widget.outline.isExpanded 0)) =
      some (false, true, some ⟨⟨⟨0⟩, ⟨⟨0⟩, "Move", "one"⟩⟩, [⟨⟨1⟩, ⟨⟨1⟩, "Move", "two"⟩⟩]⟩,
        some 1, true) := by
    decide +kernel
  have hlength : (after (fun _ _ => []) abandoned (stumbling.map .request)).around.episodes.length ≠
      abandoned.around.episodes.length := by
    decide +kernel
  rcases all with _ | ⟨x, since⟩
  · exact absurd (congrArg List.length hall) hlength
  · rw [hall, List.cons_append, List.head?_cons, Option.map_some] at hlast
    obtain ⟨hpaused, hok, hrun, hgroup, hopen⟩ : x.before.link.paused = false ∧
        x.answer.isOk = true ∧ x.timeline.runs[0]? =
          some ⟨⟨⟨0⟩, ⟨⟨0⟩, "Move", "one"⟩⟩, [⟨⟨1⟩, ⟨⟨1⟩, "Move", "two"⟩⟩]⟩ ∧
        x.update.current.group? = some 1 ∧ x.after.widget.outline.isExpanded 0 = true := by
      simpa using hlast
    exact ⟨x, since, hall, hopen, @hiff [] since x hall hpaused (Episode.answer_of_isOk hok) 0 _
      hrun rfl (by simp) (by simp [hgroup])⟩

end Chronicle

/-- **A run that was left during a pause is open behind a push that succeeds**: the push before it
failed at the collapse of the run, and neither closed it nor kept it in mind. -/
theorem Session.push_leaves_run_open :
    let s := (wired {} (.empty {} .unicode 0)).after
      [.commit "a" "A", .commit "a" "B", .pause, .commit "b" "C"]
    let s₁ := s.after [.resume, .plant .collapseGroup .error, .commit "c" "D"]
    let s₂ := s₁.after [.commit "d" "E"]
    s.desk.around.screen.link.left = [⟨0⟩] ∧
      s.desk.around.screen.link.settings.collapseOnLeave = true ∧
      s₁.desk.around.screen.link.stale = true ∧
      s₂.desk.around.screen.link.paused = false ∧ s₂.desk.around.screen.link.stale = false ∧
      s₂.desk.journal.timeline.hasChildren 0 = true ∧
      s₂.desk.journal.cursor.group? ≠ some 0 ∧
      s₂.desk.around.screen.widget.outline.isExpanded 0 = true := by
  decide +kernel

end UndoJournal
