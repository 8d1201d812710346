import UndoJournal.Proofs.Screen.Misled
import UndoJournal.Proofs.Session.Agreement

/-!
# Recovering from a view that breaks down

A call of a view that fails makes the link stale, so the next push shows the rows anew. **A call
that breaks down does not**: whether the view recovers depends on which call it was. Only a rebuild
matters, and only where the link was not stale and the timeline has changed
(`Session.misled_after_iff`); then the view is misled, and a push can succeed without showing the
entries that it lacks (`Session.undo_lacks_row`).

Whatever broke down before, `Screen.mirrors_of_follow_iff` says which pushes leave the rows of the
timeline.
-/

namespace UndoJournal

/-- A lasting property also lasts as the consequence of an assumption. -/
private theorem Screen.Lasts.imp {good : Timeline → Screen → Prop} (h : Screen.Lasts good)
    (p : Prop) :
    Screen.Lasts fun t s => p → good t s where
  follow t u s hs := by
    by_cases hp : p
    · exact (h.follow t u s (hs hp)).mono fun _ _ h' _ => h'
    · exact fun h' => absurd h' hp
  overhear t s signal hs hp := h.overhear t s signal (hs hp)
  outline t s o hs ho hp := h.outline t s o (hs hp) ho

namespace Session

/-- The screen is misled about the timeline of the journal. -/
def Misled (s : Session) : Prop := s.desk.around.screen.Misled s.desk.journal.timeline

instance (s : Session) : Decidable s.Misled := inferInstanceAs (Decidable (Screen.Misled _ _))

/-- The next rebuild of the screen breaks down, and its link is not stale. -/
def Undermined (s : Session) : Prop := s.desk.around.screen.Undermined

/-- The entries of the journal as rows speak of them. -/
def listing (s : Session) : List (RowKey × Position × String) := s.desk.journal.timeline.listing

variable {s s' : Session}

/-- What is true of a deed, also if it meets a fault: it misleads the screen exactly if it changes
the entries of a session that is undermined. -/
structure Turned (s s' : Session) : Prop where
  linked : s'.Linked
  misled : ¬ s.Misled → (s'.Misled ↔ s.Undermined ∧ s'.listing ≠ s.listing)

/-- Where the timeline stays, nothing is lost. -/
private theorem Turned.of_timeline (hl : s'.Linked)
    (ht : s'.desk.journal.timeline = s.desk.journal.timeline) (hm : ¬ s.Misled → ¬ s'.Misled) :
    Turned s s' where
  linked := hl
  misled hs := by
    refine ⟨fun h => absurd h (hm hs), fun h => absurd ?_ h.2⟩
    rw [listing, ht]
    rfl

/-! ### Deeds that change the entries -/

/-- A change of the document that its journal hears of. -/
private theorem leaves_notice (hl : s.Linked) {d : Document Watcher}
    (hobs : d.observers = s.document.observers) (notice : Notice) :
    (audience.notify notice).Leaves { s with document := d } fun _ s' => Turned s s' := by
  have hl' : Linked { s with document := d } := ⟨hl.attached, hobs ▸ hl.observed⟩
  rw [leaves_notify hl', Heard]
  rcases hr : s.desk.journal.hear notice with fault | r
  · exact .of_timeline hl' rfl id
  · have hann := Journal.announces_hear hr
    dsimp only
    rcases hu : r.update with _ | u
    · exact .of_timeline (hl'.told _ _) (congrArg _ (hann.silent hu))
        fun h => by rw [hann.silent hu]; exact h
    · have hfollow : (Stage.alone.follow r.journal.timeline u).Leaves s.desk.around.screen
          fun _ screen => ¬ s.Misled → (screen.Misled r.journal.timeline ↔
            s.Undermined ∧ r.journal.timeline.listing ≠ s.listing) :=
        fun hs => Screen.misled_iff_undermined hs (hann.reshaped u hu)
      exact hfollow.mono fun _ screen h => ⟨hl'.told _ _, h⟩

private theorem leaves_commit (hl : s.Linked) (kind description : String) :
    (commit kind description).Leaves s fun _ s' => Turned s s' := by
  let e : Event := ⟨⟨s.document.nextId⟩, kind, description⟩
  simp only [commit, Audience.commit, Audience.look, Audience.change, Action.leaves_bind,
    Action.leaves_get, Action.leaves_pure, Action.leaves_modify, Action.leaves_note]
  refine (leaves_notice (d := s.document.committed e) hl rfl _).mono ?_
  rintro (fault | ⟨⟩) s' h <;> exact h

private theorem leaves_clearUndo (hl : s.Linked) : clearUndo.Leaves s fun _ s' => Turned s s' := by
  simp only [clearUndo, Audience.clearUndo, Audience.change, Action.leaves_bind,
    Action.leaves_modify]
  refine (leaves_notice (d := { s.document with past := [] }) hl rfl .undoCleared).mono ?_
  rintro (fault | ⟨⟩) s' h <;> exact h

private theorem leaves_clearRedo (hl : s.Linked) : clearRedo.Leaves s fun _ s' => Turned s s' := by
  simp only [clearRedo, Audience.clearRedo, Audience.change, Action.leaves_bind,
    Action.leaves_modify]
  refine (leaves_notice (d := { s.document with future := [] }) hl rfl .redoCleared).mono ?_
  rintro (fault | ⟨⟩) s' h <;> exact h

/-! ### Deeds that do not -/

/-- An action that keeps the timeline, and every lasting property of the screen. -/
private theorem leaves_walk {α : Type} {x : Action Session α} (hl : s.Linked)
    (hx : ∀ {good t}, Screen.Lasts good → Action.Keeps (Holds good t) x) :
    x.Leaves s fun _ s' => Turned s s' := by
  have h : Holds (fun t screen => ¬ s.Misled → ¬ screen.Misled t) s.desk.journal.timeline s :=
    ⟨hl, rfl, id⟩
  refine (hx (Screen.lasts_not_misled.imp _) s h).mono fun _ s' h' => ?_
  refine .of_timeline h'.linked h'.timeline fun hs => ?_
  rw [Misled, h'.timeline]
  exact h'.good hs

/-- A change of the screen that touches neither rows nor staleness. -/
private theorem leaves_change (hl : s.Linked) {f : Screen → Screen}
    (hd : ∀ screen, (f screen).link.disconnected = screen.link.disconnected)
    (hs : ∀ screen, (f screen).link.stale = screen.link.stale)
    (ho : ∀ screen, (f screen).widget.outline = screen.widget.outline) :
    (stage.change f).Leaves s fun _ s' => Turned s s' := by
  refine (Action.leaves_modify _).mpr (.of_timeline ⟨hl.attached, hl.observed⟩ rfl fun h => ?_)
  change ¬ (f s.desk.around.screen).Misled _
  rw [Screen.Misled, hd, hs, ho]
  exact h

private theorem leaves_disconnect (hl : s.Linked) :
    stage.disconnect.Leaves s fun _ s' => Turned s s' := by
  simp only [Stage.disconnect, Screen.disconnect, Action.leaves_zoom, Action.leaves_bind,
    Action.leaves_get]
  split
  · exact .of_timeline hl rfl id
  · exact .of_timeline ⟨hl.attached, hl.observed⟩ rfl fun _ h => by cases h.1

/-! ### Any deeds -/

/-- **Each deed**, whether or not it meets a fault. -/
theorem leaves_deed (hl : s.Linked) (d : Deed) :
    (perform d).Leaves s fun _ s' => Turned s s' := by
  cases d with
  | commit kind description => exact leaves_quietly (leaves_commit hl kind description)
  | undo => exact leaves_quietly (leaves_walk hl keeps_undo)
  | redo => exact leaves_quietly (leaves_walk hl keeps_redo)
  | clearUndo => exact leaves_quietly (leaves_clearUndo hl)
  | clearRedo => exact leaves_quietly (leaves_clearRedo hl)
  | click row => exact leaves_plainly (leaves_walk hl fun hg => keeps_click hg row)
  | expand row => exact leaves_plainly (leaves_walk hl fun hg => keeps_expand hg row)
  | collapse row => exact leaves_plainly (leaves_walk hl fun hg => keeps_collapse hg row)
  | pause => exact leaves_quietly (leaves_change hl (fun _ => rfl) (fun _ => rfl) fun _ => rfl)
  | resume => exact leaves_quietly (leaves_change hl (fun _ => rfl) (fun _ => rfl) fun _ => rfl)
  | block blocked =>
    exact leaves_quietly (leaves_change hl (fun _ => rfl) (fun _ => rfl) fun _ => rfl)
  | hold => exact leaves_quietly (leaves_change hl (fun _ => rfl) (fun _ => rfl) fun _ => rfl)
  | release =>
    refine leaves_quietly (leaves_change hl (fun screen => ?_) (fun screen => ?_) fun _ => rfl)
    · change screen.link.release.2.disconnected = _
      rw [Link.release_eq]
    · change screen.link.release.2.stale = _
      rw [Link.release_eq]
  | disconnect => exact leaves_quietly (leaves_disconnect hl)
  | plant op breakage =>
    exact leaves_quietly (leaves_change hl (fun _ => rfl) (fun _ => rfl) fun _ => rfl)

/-! ### Any run -/

/-- A deed is done to a session that is undermined, and changes its entries. -/
def Loses (s : Session) (d : Deed) : Prop := s.Undermined ∧ (s.after [d]).listing ≠ s.listing

private theorem Linked.after (h : s.Linked) (ds : List Deed) : (s.after ds).Linked := by
  induction ds generalizing s with
  | nil => exact h
  | cons d ds ih => exact ih (leaves_deed h d).linked

/-- A session that is in step has no view that is misled. -/
private theorem InStep.not_misled (h : s.InStep) : ¬ s.Misled := by
  rintro ⟨hd, hs, hnot⟩
  exact hnot (Outline.mirrors_iff.mpr (congrArg _ (h.tracks.rows hd hs)))

/-- A run in which no entries are lost misleads nobody. -/
private theorem not_misled_after (hl : s.Linked) (hm : ¬ s.Misled) {ds : List Deed}
    (hds : ∀ pre d post, ds = pre ++ d :: post → ¬ (s.after pre).Loses d) :
    ¬ (s.after ds).Misled := by
  induction ds generalizing s with
  | nil => exact hm
  | cons d ds ih =>
    -- the first deed that misled the screen would be one that loses entries
    have hturned : Turned s (s.after [d]) := leaves_deed hl d
    refine ih hturned.linked (fun h => hds [] d ds rfl ((hturned.misled hm).mp h)) ?_
    exact fun pre d' post h => hds (d :: pre) d' post (congrArg _ h)

/-- **When a view recovers**, whatever is done to a session and whichever calls of its view fail or
break down.

* The rows of a link that is connected and not stale are those of the journal, unless a deed has
  changed the entries while the link was undermined.
* Each such deed misleads the view.
* A push that is not skipped and succeeds leaves the rows of the timeline that was pushed, unless it
  finds a misled view and is not to show the rows anew. -/
theorem misled_after_iff (settings : Settings) (o : Outline) (ds : List Deed) :
    ((∀ pre d post, ds = pre ++ d :: post → ¬ ((wired settings o).after pre).Loses d) →
      ¬ ((wired settings o).after ds).Misled) ∧
    (¬ ((wired settings o).after ds).Misled → ∀ d,
      ((wired settings o).after (ds ++ [d])).Misled ↔ ((wired settings o).after ds).Loses d) ∧
    ∀ t u screen, (Stage.alone.follow t u).Leaves screen fun result screen' =>
      screen.link.paused = false → result = .ok (.ok ()) →
        (screen'.widget.outline.Mirrors t ↔ u.reshaped = true ∨ ¬ screen.Misled t) := by
  have hwired := inStep_wired settings o
  refine ⟨not_misled_after hwired.linked hwired.not_misled, fun hm d => ?_,
    Screen.mirrors_of_follow_iff⟩
  rw [after_append]
  exact (leaves_deed (hwired.linked.after ds) d).misled hm

/-- A commit that breaks down in a rebuild misleads the view. -/
theorem misled_after_iff_broken_commit :
    let ds : List Deed := [.commit "Edit" "one", .plant .rebuild .collapse]
    let d : Deed := .commit "Edit" "two"
    ((wired {} (.empty {} .unicode 0)).after (ds ++ [d])).Misled ∧
      ((wired {} (.empty {} .unicode 0)).after ds).Loses d := by
  intro ds d
  have hm : ¬ ((wired {} (.empty {} .unicode 0)).after ds).Misled := by decide +kernel
  have hloses : ((wired {} (.empty {} .unicode 0)).after ds).Loses d :=
    ⟨⟨by decide +kernel, by decide +kernel, by decide +kernel, by decide +kernel⟩,
      by decide +kernel⟩
  exact ⟨((misled_after_iff {} _ ds).2.1 hm d).mpr hloses, hloses⟩

/-- **A push can succeed and lack an entry**: after a commit broke down in a rebuild, an undo is
pushed well, and the view has no row for what was committed. -/
theorem undo_lacks_row :
    let s := (wired {} (.empty {} .unicode 0)).after
      [.commit "Edit" "one", .plant .rebuild .collapse, .commit "Edit" "two"]
    let s' := ((perform .undo).run s).state
    ((perform .undo).run s).result = .ok (.ok ()) ∧ s'.desk.around.screen.link.paused = false ∧
      s'.desk.around.screen.link.disconnected = false ∧
      s'.desk.around.screen.link.stale = false ∧
      ¬ s'.desk.around.screen.widget.outline.Mirrors s'.desk.journal.timeline := by
  decide +kernel

end Session

end UndoJournal
