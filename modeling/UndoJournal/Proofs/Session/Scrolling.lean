import UndoJournal.Proofs.Session.Window

/-!
# Whether the window is empty

The first row on the screen of a session should be one of the rows that can be seen. The offset is
changed by scrolling to the cursor and by nothing else, while rows also go without that. So **a deed
that scrolls leaves the first row on the screen in range, and any other leaves the offset as it
was**, in range or not (`Session.inRange_iff`), where `Session.Scrolls` says which deeds scroll.
Only those that forget entries and those that close a run can leave the window empty
(`Session.Shrinks`), and one that forgets what was applied does
(`Session.clearUndo_empties_window`).
-/

namespace UndoJournal

namespace Session

/-- Whether a deed has the view scroll to the cursor: the cursor gets to a node, or the view is told
again that it is on one. -/
def Scrolls (s : Session) (d : Deed) : Prop :=
  s.scrolling = true ∧
    match d with
    | .commit _ _ => True
    | .undo => 2 ≤ s.document.applied.length
    | .redo => s.document.future ≠ []
    | .clearRedo => s.document.applied ≠ []
    | .click row => ∃ seen, s.outline.visible[row]? = some seen ∧
        s.outline.selected ≠ some seen.key ∧ seen.position ≠ s.desk.journal.cursor ∧
          (seen.position = .start → 2 ≤ s.document.applied.length)
    | .expand row => ∃ group run, s.outline.Heads row group run ∧
        s.outline.isExpanded group = false ∧ s.desk.journal.cursor.group? = some group
    | .collapse row => ∃ group run i, s.outline.Heads row group run ∧
        s.outline.isExpanded group = true ∧
          s.outline.selectedPosition? = some (.on (.ofChild group i))
    | _ => False

/-- Whether a deed may take rows away without scrolling. -/
def Shrinks (s : Session) : Deed → Prop
  | .clearUndo | .collapse _ => True
  | .clearRedo => s.document.applied = []
  | _ => False

variable {s s' s₀ : Session} {m n q : Nat} {scrolls shrinks : Prop}

/-! ### Deeds of the document -/

/-- A notice that is heeded whatever it says has the screen told where the cursor is. -/
private theorem AtRest.gives_told (h : s.AtRest) {d : Document Watcher}
    (hobs : d.observers = s.document.observers) (notice : Notice)
    (hheeds : s.desk.journal.heeds notice = true) :
    (audience.notify notice).Gives { s with document := d } fun _ s' =>
      s'.desk.journal.Traces
          (Stack.hear ⟨s.events, s.document.applied.length, false⟩ notice) ∧
        s.desk.around.screen.Aims s'.desk.journal.cursor s'.desk.around.screen := by
  have hl : Linked { s with document := d } :=
    ⟨h.step.linked.attached, hobs ▸ h.step.linked.observed⟩
  refine (gives_notify hl (.refl h.step.tracks) h.step.traces notice).mono ?_
  rintro _ _ ⟨r, hr, rfl, htr, -⟩
  refine ⟨htr, ?_⟩
  have hann := Journal.announces_hear hr
  have htold := (Journal.hear_tells h.step.traces.contains_cursor hr).1.trans hheeds
  obtain ⟨u, hu⟩ := Option.isSome_iff_exists.mp htold
  have hcurrent : u.current = r.journal.cursor := hann.current u hu
  have haims := h.moored.abreast.aims (u := u) (hann.numbered h.moored.numbered)
    (hann.reshaped u hu) (hcurrent ▸ htr.contains_cursor)
  change s.desk.around.screen.Aims r.journal.cursor
    (s.desk.around.screen.told r.journal.timeline r.update)
  rw [hu, ← hcurrent]
  exact haims

/-- A cursor is at the start exactly if nothing is applied. -/
private theorem cursor_eq_start_iff {stack : Stack} (h : s.desk.journal.Traces stack) :
    s.desk.journal.cursor = .start ↔ stack.applied = 0 := by
  have hstart := h.isStart_eq
  rcases hcursor : s.desk.journal.cursor with _ | a <;> rw [hcursor] at hstart
  · simpa [Position.isStart, eq_comm] using hstart
  · simpa [Position.isStart, eq_comm] using hstart

private theorem Windowed.gives_commit (h : s.Windowed) (hrest : s.AtRest)
    (kind description : String) :
    (commit kind description).Gives s fun _ s' =>
      s.Scrolled (s.Scrolls (.commit kind description)) (s.Shrinks (.commit kind description))
        s' := by
  let e : Event := ⟨⟨s.document.nextId⟩, kind, description⟩
  simp only [commit, Audience.commit, Audience.look, Audience.change, Action.gives_bind,
    Action.gives_get, Action.gives_pure, Action.gives_modify, Action.gives_note]
  refine (hrest.gives_told (d := s.document.committed e) rfl (.committed e) rfl).mono ?_
  rintro _ s' ⟨htraces, haims⟩
  have hnot : s'.desk.journal.cursor ≠ .start := fun hstart =>
    absurd ((cursor_eq_start_iff htraces).mp hstart) (Nat.succ_ne_zero _)
  exact h.scrolled_of_aims rfl (.refl _) haims (by simp [Scrolls, hnot])
    fun hstart => absurd hstart hnot

private theorem Windowed.gives_clearUndo (h : s.Windowed) (hrest : s.AtRest) :
    clearUndo.Gives s fun _ s' => s.Scrolled (s.Scrolls .clearUndo) (s.Shrinks .clearUndo) s' := by
  simp only [clearUndo, Audience.clearUndo, Audience.change, Action.gives_bind,
    Action.gives_modify]
  refine (hrest.gives_told (d := { s.document with past := [] }) rfl .undoCleared rfl).mono ?_
  rintro _ s' ⟨htraces, haims⟩
  have hstart : s'.desk.journal.cursor = .start := (cursor_eq_start_iff htraces).mpr rfl
  exact h.scrolled_of_aims rfl (.refl _) haims (by simp [Scrolls, hstart]) fun _ => trivial

private theorem Windowed.gives_clearRedo (h : s.Windowed) (hrest : s.AtRest) :
    clearRedo.Gives s fun _ s' => s.Scrolled (s.Scrolls .clearRedo) (s.Shrinks .clearRedo) s' := by
  simp only [clearRedo, Audience.clearRedo, Audience.change, Action.gives_bind,
    Action.gives_modify]
  refine (hrest.gives_told (d := { s.document with future := [] }) rfl .redoCleared rfl).mono ?_
  rintro _ s' ⟨htraces, haims⟩
  have hstart : s'.desk.journal.cursor = .start ↔ s.document.applied = [] :=
    (cursor_eq_start_iff htraces).trans List.length_eq_zero_iff
  exact h.scrolled_of_aims rfl (.refl _) haims
    (and_congr_right fun _ => (not_congr hstart).symm) hstart.mp

/-- What is said of a walk is carried along wherever it goes. -/
private theorem AtRest.carriesAlong_roams (hrest : s.AtRest) (h : s.Windowed) (m q : Nat) :
    CarriesAlong s (fun k screen => s.desk.around.screen.Roams m k screen) m q := by
  have hstep : ∀ k k', k' ≠ m → (k' = 0 → k = 1) →
      Carries s (fun k screen => s.desk.around.screen.Roams m k screen) k k' := by
    intro k k' hne hback screen u hs hu hk
    have hcontains := Timeline.contains_iff_exists_ordinal.mpr ⟨k', hu.current⟩
    exact ((hrest.moored.abreast.since hs).aims hrest.moored.numbered (fun _ => rfl)
      hcontains).mono fun _ screen' ha => hk.step hu.current ha h.room h.sentinel hne hback
  exact ⟨fun k _ hlt => hstep _ _ (Nat.ne_of_lt hlt) fun h0 => by rw [h0],
    fun k hle _ => hstep _ _ (Nat.ne_of_gt (Nat.lt_succ_of_le hle)) fun h0 => by cases h0⟩

private theorem Windowed.gives_undo (h : s.Windowed) (hrest : s.AtRest) :
    undo.Gives s fun _ s' => s.Scrolled (s.Scrolls .undo) (s.Shrinks .undo) s' := by
  rcases hpast : s.document.past with _ | ⟨e, past⟩
  · refine (gives_undo_of_nil hpast).mpr (h.scrolled_unmoved fun hscrolls => ?_)
    simp [Scrolls, Document.applied, hpast] at hscrolls
  · have hlen : s.document.applied.length = past.length + 1 := by
      simp [Document.applied, hpast]
    have hguided : Guided s (fun k screen => s.desk.around.screen.Roams (past.length + 1) k screen)
        (past.length + 1) (past.length + 1) false s :=
      ⟨hlen ▸ hrest.step.walked, .start rfl (.refl _) _⟩
    have hcarry := (hrest.carriesAlong_roams h (past.length + 1) past.length).1 past.length
      (Nat.le_refl _) (Nat.lt_succ_self _)
    refine (Session.gives_undo hguided (fun _ => rfl) fun _ => hcarry).mono ?_
    rintro _ s' ⟨-, h'⟩
    refine h.scrolled_of_roams hrest h'.toWalked h'.guide hlen
      (Nat.ne_of_lt (Nat.lt_succ_self _)) ?_
    rw [Scrolls, hlen]
    exact and_congr_right fun _ => by omega

private theorem Windowed.gives_redo (h : s.Windowed) (hrest : s.AtRest) :
    redo.Gives s fun _ s' => s.Scrolled (s.Scrolls .redo) (s.Shrinks .redo) s' := by
  rcases hfuture : s.document.future with _ | ⟨e, future⟩
  · exact (gives_redo_of_nil hfuture).mpr (h.scrolled_unmoved fun hscrolls => hscrolls.2 hfuture)
  · have hlt : s.document.applied.length < s.events.length := by
      simp [events, hfuture]
    have hguided : Guided s
        (fun k screen => s.desk.around.screen.Roams s.document.applied.length k screen)
        s.document.applied.length s.document.applied.length false s :=
      ⟨hrest.step.walked, .start rfl (.refl _) _⟩
    have hcarry := (hrest.carriesAlong_roams h s.document.applied.length
      (s.document.applied.length + 1)).2 s.document.applied.length (Nat.le_refl _)
      (Nat.lt_succ_self _)
    refine (Session.gives_redo hguided hlt (fun _ => rfl) fun _ => hcarry).mono ?_
    rintro _ s' ⟨-, h'⟩
    refine h.scrolled_of_roams hrest h'.toWalked h'.guide rfl (Nat.ne_of_gt (Nat.lt_succ_self _)) ?_
    simp [Scrolls, hfuture]

/-! ### Gestures -/

/-- **A selection walks the session to the position**, as far as that is away. -/
theorem Windowed.gives_attend_select (h : s.Windowed) (hrest : s.AtRest) {o : Outline}
    (hstill : s.outline.Still o) (hshown : o.shown = s.outline.shown) {p : Position}
    (hp : s.desk.journal.timeline.ordinal p = .ok q) :
    (stage.attend (.full {}) (.selectionChanged (some p))).Gives (s.withOutline o) fun _ s' =>
      Walked s q q false s' ∧
        s.desk.around.screen.Roams s.document.applied.length q s'.desk.around.screen := by
  let told : Screen := ((s.withOutline o).acting (.selectionChanged (some p))).desk.around.screen
  have hsettings : told.link.settings = s.desk.around.screen.link.settings := rfl
  have hstart := Screen.Roams.start (s := told) hsettings hstill s.document.applied.length
  exact gives_attend_walk hrest (hrest.step.walked.withOutline hshown) hp hstart
    (hrest.carriesAlong_roams h _ q)

/-- A selection of the position that the cursor is at walks nowhere. -/
private theorem AtRest.gives_attend_select_cursor (hrest : s.AtRest) {o : Outline}
    (hshown : o.shown = s.outline.shown) :
    (stage.attend (.full {}) (.selectionChanged (some s.desk.journal.cursor))).Gives
      (s.withOutline o) fun _ s' => (∃ n, Walked s n n false s') ∧
        s'.desk.journal.cursor = s.desk.journal.cursor ∧ s'.outline = o ∧
          s'.desk.around.screen.link = s.desk.around.screen.link := by
  let told : Screen :=
    ((s.withOutline o).acting (.selectionChanged (some s.desk.journal.cursor))).desk.around.screen
  have hcursor := hrest.ordinal_cursor
  refine (gives_attend_walk (K := fun _ screen => screen = told) hrest
    (hrest.step.walked.withOutline hshown) hcursor rfl
    ⟨fun k hle hlt => by omega, fun k hle hlt => by omega⟩).mono ?_
  rintro _ s' ⟨h', hscreen⟩
  exact ⟨⟨_, h'⟩, h'.cursor_eq hcursor, congrArg (fun screen => screen.widget.outline) hscreen,
    by rw [hscreen]; rfl⟩

private theorem Windowed.gives_click (h : s.Windowed) (hrest : s.AtRest) (row : Nat) :
    (click row).Gives s fun _ s' =>
      s.Scrolled (s.Scrolls (.click row)) (s.Shrinks (.click row)) s' := by
  have hcursor := hrest.ordinal_cursor
  refine hrest.gives_click_of (fun e he => h.scrolled_unmoved ?_) fun r hr => ?_
  · rintro ⟨-, seen, hrow, -⟩
    obtain ⟨r, hr, -⟩ := Outline.click_of_visible hrow
    cases he.symm.trans hr
  rcases hrow : s.outline.visible[row]? with _ | seen
  · simp only [Outline.click, hrow] at hr
    cases hr
  obtain ⟨r', hr', houtline, hsignals⟩ := Outline.click_of_visible hrow
  obtain rfl : r = r' := Except.ok.inj (hr.symm.trans hr')
  have hscrolls : s.Scrolls (.click row) ↔ s.scrolling = true ∧
      s.outline.selected ≠ some seen.key ∧ seen.position ≠ s.desk.journal.cursor ∧
        (seen.position = .start → 2 ≤ s.document.applied.length) := by
    simp only [Scrolls, hrow, Option.some.injEq, exists_eq_left']
  -- a click on the row that is selected fires nothing
  by_cases hselected : s.outline.selected = some seen.key
  · rw [hsignals, if_pos hselected, houtline, ← hselected]
    exact (Action.gives_pure _).mpr ⟨hrest.step.navigator,
      h.scrolled_unmoved fun hyes => (hscrolls.mp hyes).2.1 hselected⟩
  rw [hsignals, if_neg hselected, Action.each_singleton]
  have hshown : r.outline.shown = s.outline.shown := by rw [houtline]
  have hstill : s.outline.Still r.outline := by
    rw [houtline]
    exact ⟨⟨rfl, rfl⟩, rfl⟩
  -- a row at the cursor is selected without a walk, so nothing scrolls
  by_cases hat : seen.position = s.desk.journal.cursor
  · rw [hat]
    refine (hrest.gives_attend_select_cursor hshown).mono ?_
    rintro _ s' ⟨⟨n, h'⟩, hsame, ho, hlink⟩
    refine ⟨h'.navigator.trans hrest.step.navigator, h.scrolled_still (congrArg Link.settings hlink)
      (ho ▸ hstill) hsame.symm.trans (fun hyes => (hscrolls.mp hyes).2.2.1 hat) fun _ => ?_⟩
    rw [ho, houtline]
    exact Nat.le_refl _
  · have hmem : seen ∈ s.outline.rows := (List.mem_filter.mp (List.mem_of_getElem? hrow)).1
    obtain ⟨q, hq⟩ := Timeline.contains_iff_exists_ordinal.mp
      (hrest.moored.abreast.shown ▸ Outline.contains_of_mem_rows hmem)
    have hne : q ≠ s.document.applied.length := fun heq =>
      hat (Timeline.eq_of_ordinal_eq (heq ▸ hq) hcursor)
    have hstart : seen.position = .start ↔ q = 0 :=
      ⟨fun hs => (Except.ok.inj (hs ▸ hq)).symm, fun h0 => Timeline.eq_of_ordinal_eq (h0 ▸ hq) rfl⟩
    refine (h.gives_attend_select hrest hstill hshown hq).mono ?_
    rintro _ s' ⟨h', hroams⟩
    refine ⟨h'.navigator.trans hrest.step.navigator, h.scrolled_of_roams hrest h' hroams rfl hne ?_⟩
    rw [hscrolls]
    refine and_congr_right fun _ => ?_
    rw [hstart]
    constructor
    · rintro ⟨-, -, hlong⟩ h0
      exact Nat.ne_of_gt (hlong h0)
    · exact fun hlong => ⟨hselected, hat, fun h0 => by have := hlong h0; omega⟩

/-- Only an expander that changes something need be looked at. -/
private theorem Windowed.gives_use (h : s.Windowed) (hrest : s.AtRest) {row : Nat}
    {gesture : Outline → Except ViewError (Bool × Response)}
    {became : Nat → Run → Response → Prop}
    (hused : s.outline.Used row (gesture s.outline) became)
    (hscrolls : scrolls → ∃ r, gesture s.outline = .ok (true, r))
    (hchanged : ∀ group run r, s.outline.Heads row group run →
      gesture s.outline = .ok (true, r) → became group run r →
        (Action.each (stage.attend (.full {})) r.signals).Gives (s.withOutline r.outline)
          fun _ s' => (∃ n, Walked s n n false s') ∧ s.Scrolled scrolls shrinks s') :
    (attempt (stage.wiring.use gesture)).Gives s fun _ s' => s.Scrolled scrolls shrinks s' := by
  refine hrest.gives_use_of (fun e he => h.scrolled_unmoved fun hyes => ?_) fun changed r hr => ?_
  · obtain ⟨r, hr⟩ := hscrolls hyes
    cases he.symm.trans hr
  obtain ⟨-, herror⟩ | ⟨-, ⟨r', hr', houtline, hsignals⟩ |
    ⟨group, run, r', hheads, hr', hbecame⟩⟩ := hused
  · cases hr.symm.trans herror
  · obtain ⟨rfl, rfl⟩ : changed = false ∧ r = r' := by simpa using hr.symm.trans hr'
    rw [hsignals, houtline]
    refine (Action.gives_pure _).mpr ⟨hrest.step.navigator, h.scrolled_unmoved fun hyes => ?_⟩
    obtain ⟨r', hr'⟩ := hscrolls hyes
    cases hr.symm.trans hr'
  · obtain ⟨rfl, rfl⟩ : changed = true ∧ r = r' := by simpa using hr.symm.trans hr'
    refine (hchanged group run r hheads hr hbecame).mono ?_
    rintro _ s' ⟨⟨n, h'⟩, hscrolled⟩
    exact ⟨h'.navigator.trans hrest.step.navigator, hscrolled⟩

/-- What is opened has the screen told where the cursor is, if that is in the run. -/
private theorem Windowed.gives_open (h : s.Windowed) (hrest : s.AtRest) {o : Outline}
    (hstill : s.outline.Still o) (hshown : o.shown = s.outline.shown) {group : Nat}
    (hle : s.outline.visible.length ≤ o.visible.length)
    (hscrolls : scrolls ↔ s.scrolling = true ∧ s.desk.journal.cursor.group? = some group) :
    (stage.attend (.full {}) (.rowExpanded group)).Gives (s.withOutline o) fun _ s' =>
      (∃ n, Walked s n n false s') ∧ s.Scrolled scrolls shrinks s' := by
  have hstart : Walked s _ _ false (s.withOutline o) := hrest.step.walked.withOutline hshown
  let told : Screen := ((s.withOutline o).acting (.rowExpanded group)).desk.around.screen
  refine (gives_attend_expand_told hrest hstart group).mono ?_
  rintro _ s' ⟨h', hjournal, -, hscreen⟩
  refine ⟨⟨_, h'⟩, ?_⟩
  have hsame : s'.desk.journal.cursor = s.desk.journal.cursor := congrArg Journal.cursor hjournal
  change s'.desk.around.screen = if s.desk.journal.cursor.group? = some group then
    told.told s.desk.journal.timeline (some (s.desk.journal.standing .resync)) else told at hscreen
  by_cases hin : s.desk.journal.cursor.group? = some group
  · rw [if_pos hin] at hscreen
    have habreast := hrest.moored.abreast.since (hstart.acting (.rowExpanded group)).holds.good
    have haims : told.Aims s.desk.journal.cursor
        (told.told s.desk.journal.timeline (some (s.desk.journal.standing .resync))) :=
      habreast.aims (u := s.desk.journal.standing .resync) hrest.moored.numbered (fun _ => rfl)
        hrest.step.traces.contains_cursor
    have hnot : s'.desk.journal.cursor ≠ .start := by
      rw [hsame]
      rintro hstart
      rw [hstart] at hin
      cases hin
    have hsettings : told.link.settings = s.desk.around.screen.link.settings := rfl
    rw [← hscreen, ← hsame] at haims
    exact h.scrolled_of_aims hsettings hstill haims
      (hscrolls.trans (and_congr_right fun _ => iff_of_true hin hnot))
      fun hstart => absurd hstart hnot
  · rw [if_neg hin] at hscreen
    have ho : s'.outline = o := congrArg (fun screen => screen.widget.outline) hscreen
    exact h.scrolled_still (congrArg (fun screen => screen.link.settings) hscreen) (ho ▸ hstill)
      hsame.symm.trans (fun hyes => hin (hscrolls.mp hyes).2) fun _ => ho ▸ hle

/-- **Opening a run** scrolls to the cursor if that is in the run. -/
theorem Windowed.gives_expand (h : s.Windowed) (hrest : s.AtRest) (row : Nat) :
    (expand row).Gives s fun _ s' =>
      s.Scrolled (s.Scrolls (.expand row)) (s.Shrinks (.expand row)) s' := by
  refine h.gives_use hrest (Outline.expandRow_cases hrest.numbered_shown row) ?_
    fun group run r hheads hr hopened => ?_
  · rintro ⟨-, group, run, hheads, hclosed, -⟩
    obtain ⟨r, hr⟩ := hheads.expandRow
    exact ⟨r, by rw [hr, hclosed]; rfl⟩
  · have hclosed : s.outline.isExpanded group = false := by
      obtain ⟨r', hr'⟩ := hheads.expandRow
      simpa using congrArg Prod.fst (Except.ok.inj (hr.symm.trans hr'))
    rw [hopened.signals, Action.each_singleton]
    refine h.gives_open hrest (Outline.still_expandRow hr) (by rw [hopened.outline])
      (Outline.length_visible_le hopened.outline fun g hg => (hopened.expanded g).mpr (.inl hg)) ?_
    refine and_congr_right fun _ => ⟨?_, fun hin => ⟨group, run, hheads, hclosed, hin⟩⟩
    rintro ⟨group', run', hheads', -, hin⟩
    exact hheads'.group_eq hheads ▸ hin

/-- What is closed without a selection behind the head scrolls nothing. -/
private theorem Windowed.gives_close_plainly (h : s.Windowed) (hrest : s.AtRest) {o : Outline}
    (hstill : s.outline.Still o) (hshown : o.shown = s.outline.shown) {group : Nat} {run : Run}
    (hrun : s.desk.journal.timeline.runs[group]? = some run) (hmore : run.rest ≠ [])
    (hnot : ¬ scrolls) :
    (stage.attend (.full {}) (.rowCollapsed group)).Gives (s.withOutline o) fun _ s' =>
      (∃ n, Walked s n n false s') ∧ s.Scrolled scrolls True s' := by
  have hcursor := hrest.ordinal_cursor
  refine (gives_attend_collapse_untold hrest (hrest.step.walked.withOutline hshown) hrun
    rfl).mono ?_
  rintro _ s' ⟨h', hscreen⟩
  have ho : s'.outline = o := congrArg (fun screen => screen.widget.outline) hscreen
  refine ⟨⟨_, h'⟩, h.scrolled_still (congrArg (fun screen => screen.link.settings) hscreen)
    (ho ▸ hstill) (fun hat => ?_) hnot fun hno => absurd trivial hno⟩
  have hone := (Timeline.eq_first_iff h'.traces.cursor).mp hat
  change (if s.desk.journal.cursor = .on (.ofHead group) then _ else _) = 1 at hone
  split at hone
  · -- a cursor on the head of the run has gone to its end
    rename_i hhead
    have hpos : 0 < run.rest.length := List.length_pos_iff.mpr hmore
    rw [hhead, Timeline.ordinal_ofHead hrun] at hcursor
    have hm := Except.ok.inj hcursor
    omega
  · exact (Timeline.eq_first_iff hcursor).mpr hone

/-- What is closed around the selection scrolls to the head. -/
private theorem Windowed.gives_close_around (h : s.Windowed) (hrest : s.AtRest) {o : Outline}
    (hstill : s.outline.Still o) (hshown : o.shown = s.outline.shown) {group i : Nat} {run : Run}
    (hrun : s.desk.journal.timeline.runs[group]? = some run) (hmore : run.rest ≠ [])
    (hinside : s.outline.selectedPosition? = some (.on (.ofChild group i)))
    (hscrolls : scrolls ↔ s.scrolling = true) :
    (Action.each (stage.attend (.full {}))
      [.selectionChanged (some (.on (.ofHead group))), .rowCollapsed group]).Gives
        (s.withOutline o) fun _ s' =>
          (∃ n, Walked s n n false s') ∧ s.Scrolled scrolls shrinks s' := by
  have hcursor := hrest.ordinal_cursor
  -- what is selected behind a head is the cursor
  have hon : s.desk.journal.cursor = .on (.ofChild group i) :=
    hrest.moored.aligned.cursor_eq_child hinside
  have hm := (Timeline.of_ordinal_ofChild hrun (hon ▸ hcursor)).2
  rw [Action.each_cons, Action.gives_bind]
  refine (h.gives_attend_select hrest hstill hshown (Timeline.ordinal_ofHead hrun)).mono ?_
  rintro _ s₁ ⟨h₁, hroams⟩
  have hscrolled : s.Scrolled scrolls shrinks s₁ := h.scrolled_of_roams hrest h₁ hroams rfl
    (by omega) (hscrolls.trans (and_iff_left fun h0 => by omega).symm)
  have hhead := h₁.cursor_eq (Timeline.ordinal_ofHead hrun)
  rw [Action.each_singleton]
  refine (gives_attend_collapse_untold hrest h₁ hrun rfl).mono ?_
  rintro _ s' ⟨h', hscreen⟩
  rw [if_pos hhead] at h'
  refine ⟨⟨_, h'⟩, hscrolled.of_outline (congrArg (fun screen => screen.link.settings) hscreen)
    (congrArg (fun screen => screen.widget.outline) hscreen) fun hat => ?_⟩
  have hone : s.desk.journal.timeline.sizeBefore group + 1 + run.rest.length = 1 :=
    (Timeline.eq_first_iff h'.traces.cursor).mp hat
  have hpos : 0 < run.rest.length := List.length_pos_iff.mpr hmore
  omega

/-- **Closing a run** scrolls to its head if the selection is behind that. -/
theorem Windowed.gives_collapse (h : s.Windowed) (hrest : s.AtRest) (row : Nat) :
    (collapse row).Gives s fun _ s' =>
      s.Scrolled (s.Scrolls (.collapse row)) (s.Shrinks (.collapse row)) s' := by
  have hshown := hrest.moored.abreast.shown
  refine h.gives_use hrest (Outline.collapseRow_cases hrest.numbered_shown row) ?_
    fun group run r hheads hr hclosed => ?_
  · rintro ⟨-, group, run, i, hheads, hopen, -⟩
    obtain ⟨r, hr⟩ := hheads.collapseRow
    exact ⟨r, by rw [hr, hopen]⟩
  · have hopen : s.outline.isExpanded group = true := by
      obtain ⟨r', hr'⟩ := hheads.collapseRow
      simpa using congrArg Prod.fst (Except.ok.inj (hr.symm.trans hr'))
    have hscrolls : s.Scrolls (.collapse row) ↔ s.scrolling = true ∧
        ∃ i, s.outline.selectedPosition? = some (.on (.ofChild group i)) := by
      refine and_congr_right fun _ => ⟨?_, fun ⟨i, hi⟩ => ⟨group, run, i, hheads, hopen, hi⟩⟩
      rintro ⟨group', run', i, hheads', -, hi⟩
      exact ⟨i, hheads'.group_eq hheads ▸ hi⟩
    have hstill := Outline.still_collapseRow hr
    obtain ⟨i, hinside, -, hsignals⟩ | ⟨hnot, -, hsignals⟩ := hclosed.told
    · rw [hsignals]
      exact h.gives_close_around hrest hstill hclosed.shown (hshown ▸ hheads.listed) hheads.more
        hinside (hscrolls.trans (and_iff_left ⟨i, hinside⟩))
    · rw [hsignals, Action.each_singleton]
      refine h.gives_close_plainly hrest hstill hclosed.shown (hshown ▸ hheads.listed) hheads.more
        fun hyes => ?_
      obtain ⟨-, i, hinside⟩ := hscrolls.mp hyes
      exact hnot i hinside

/-! ### Any deeds -/

/-- **What each deed makes of the window.** -/
theorem Windowed.gives_perform (h : s.Windowed) (hrest : s.AtRest) {d : Deed}
    (hd : d.ordinary = true) :
    (perform d).Gives s fun _ s' => s.Scrolled (s.Scrolls d) (s.Shrinks d) s' := by
  cases d with
  | commit kind description => exact gives_quietly.mpr (h.gives_commit hrest kind description)
  | undo => exact gives_quietly.mpr (h.gives_undo hrest)
  | redo => exact gives_quietly.mpr (h.gives_redo hrest)
  | clearUndo => exact gives_quietly.mpr (h.gives_clearUndo hrest)
  | clearRedo => exact gives_quietly.mpr (h.gives_clearRedo hrest)
  | click row => exact gives_plainly.mpr (h.gives_click hrest row)
  | expand row => exact gives_plainly.mpr (h.gives_expand hrest row)
  | collapse row => exact gives_plainly.mpr (h.gives_collapse hrest row)
  | _ => cases hd

/-- The session after some deeds is a window if it was before. -/
private theorem Windowed.after (h : s.Windowed) (hrest : s.AtRest) {ds : List Deed}
    (hds : ∀ d ∈ ds, d.ordinary = true) : (s.after ds).Windowed := by
  induction ds generalizing s with
  | nil => exact h
  | cons d ds ih =>
    have hd := hds d List.mem_cons_self
    obtain ⟨_, -, hscrolled⟩ := h.gives_perform hrest hd
    obtain ⟨_, -, hrest'⟩ := hrest.gives_perform hd
    exact ih hscrolled.windowed hrest' fun d' hd' => hds d' (List.mem_cons_of_mem _ hd')

/-- **A window that is filled stays so** while no deed may take rows away without scrolling. -/
theorem Windowed.inRange_after (h : s.Windowed) (hrest : s.AtRest) (hin : s.outline.InRange)
    {ds : List Deed} (hds : ∀ d ∈ ds, d.ordinary = true)
    (hkept : ∀ before d rest, ds = before ++ d :: rest → ¬ (s.after before).Shrinks d) :
    (s.after ds).outline.InRange := by
  -- the deeds behind the first are judged from the session that it leaves
  induction ds generalizing s with
  | nil => exact hin
  | cons d ds ih =>
    have hd := hds d List.mem_cons_self
    obtain ⟨_, -, hscrolled⟩ := h.gives_perform hrest hd
    obtain ⟨_, -, hrest'⟩ := hrest.gives_perform hd
    refine ih hscrolled.windowed hrest' (hscrolled.kept (hkept [] d ds rfl) hin)
      (fun d' hd' => hds d' (List.mem_cons_of_mem _ hd')) fun before d' rest heq => ?_
    exact hkept (d :: before) d' rest (congrArg (d :: ·) heq)

/-- A session that was just wired is scrolled nowhere. -/
private theorem scrollOffset_wired (settings : Settings) (o : Outline) :
    (wired settings o).outline.scrollOffset = o.scrollOffset ∧
      o.SameFrame (wired settings o).outline := by
  have hwire : wire.Leaves (unwired settings o) fun _ s =>
      s.outline.scrollOffset = o.scrollOffset ∧ o.SameFrame s.outline := by
    rw [leaves_wire]
    obtain ⟨_, -, -, -, -, -, hdone⟩ := Screen.gives_follow_assemble
      (t := (Journal.empty settings).timeline) (u := firstUpdate settings) settings.view {} o rfl
    have haims := hdone.aims (Timeline.Numbered.empty settings.grouping) fun hdue =>
      nomatch hdue.symm.trans (Screen.due_assemble settings.view {} _)
    exact ⟨haims.still (.inr rfl), haims.toSameFrame⟩
  exact hwire

/-- **A session that was just wired is a window**, if there is room and the sentinel is wanted. -/
theorem windowed_wired (settings : Settings) (guides : Guides) {viewport : Nat}
    (hsentinel : settings.view.showSentinel = true) (hroom : 0 < viewport) :
    (wired settings (.empty settings guides viewport)).Windowed := by
  obtain ⟨hoffset, hframe⟩ := scrollOffset_wired settings (.empty settings guides viewport)
  exact ⟨hframe.viewport.symm ▸ hroom, hframe.showSentinel.trans hsentinel, fun _ => hoffset,
    fun _ => hoffset.symm ▸ Nat.zero_le _⟩

/-- **Whether the window is filled**, after any deeds of the document and of the user. It is, as
long as no deed forgot entries or closed a run. After one more deed, the first row on the screen is
one that can be seen exactly if the deed has the view scroll to the cursor, or the offset as it was
is still that of a row that can be seen. A deed that does not scroll leaves the offset alone, and if
one empties the window, then by forgetting entries or closing a run. -/
theorem inRange_iff (settings : Settings) (guides : Guides) {viewport : Nat}
    (hsentinel : settings.view.showSentinel = true) (hroom : 0 < viewport) {ds : List Deed}
    (hds : ∀ d ∈ ds, d.ordinary = true) :
    let s₀ := wired settings (.empty settings guides viewport)
    ((∀ before d rest, ds = before ++ d :: rest → ¬ (s₀.after before).Shrinks d) →
        (s₀.after ds).outline.InRange) ∧
      ∀ d : Deed, d.ordinary = true → (perform d).Gives (s₀.after ds) fun _ s' =>
        (s'.outline.InRange ↔ (s₀.after ds).Scrolls d ∨
          (s₀.after ds).outline.scrollOffset < s'.outline.visible.length) ∧
        (¬ (s₀.after ds).Scrolls d →
          s'.outline.scrollOffset = (s₀.after ds).outline.scrollOffset) ∧
        ((s₀.after ds).outline.InRange → ¬ s'.outline.InRange → (s₀.after ds).Shrinks d) := by
  intro s₀
  have hwindowed : s₀.Windowed := windowed_wired settings guides hsentinel hroom
  have hrest : s₀.AtRest := atRest_wired settings _
  -- the sentinel can always be seen, so the window starts out filled
  have hin : s₀.outline.InRange := by
    rw [Outline.InRange, (scrollOffset_wired settings _).1]
    exact Outline.visible_pos hwindowed.sentinel
  refine ⟨hwindowed.inRange_after hrest hin hds, fun d hd => ?_⟩
  refine ((hwindowed.after hrest hds).gives_perform (hrest.after hds) hd).mono fun _ s' h => ?_
  refine ⟨⟨fun hin' => ?_, ?_⟩, h.still, fun hin' hout => ?_⟩
  · by_cases hyes : (s₀.after ds).Scrolls d
    · exact .inl hyes
    · exact .inr (h.still hyes ▸ hin')
  · rintro (hyes | hlt)
    · exact h.inRange hyes
    · by_cases hyes : (s₀.after ds).Scrolls d
      · exact h.inRange hyes
      · rw [Outline.InRange, h.still hyes]
        exact hlt
  · by_contra hno
    exact hout (h.kept hno hin')

/-- Two events of different kinds are committed. -/
def drawn : List Deed := [.commit "Edit" "one", .commit "Draw" "two"]

/-- On a screen with room for one row, the window is filled then; forgetting what was applied leaves
the offset as it is. -/
theorem inRange_iff_drawn :
    let s := (wired {} (.empty {} .unicode 1)).after drawn
    s.outline.InRange ∧ (perform .clearUndo).Gives s fun _ s' => s'.outline.scrollOffset = 2 := by
  have hwindow := inRange_iff {} .unicode rfl Nat.one_pos
    (show ∀ d ∈ drawn, d.ordinary = true by decide)
  refine ⟨hwindow.1 fun before d rest hds => ?_, ?_⟩
  · have hmem : d ∈ drawn := hds ▸ List.mem_append_right before List.mem_cons_self
    obtain rfl | rfl := List.mem_pair.mp hmem <;> exact id
  · refine (hwindow.2 .clearUndo rfl).mono fun _ s' h => (h.2.1 And.right).trans ?_
    decide +kernel

/-- **Then one row can be seen, and the first row on the screen is to be the third.** -/
theorem clearUndo_empties_window :
    let s := (wired {} (.empty {} .unicode 1)).after (drawn ++ [.clearUndo])
    s.outline.scrollOffset = 2 ∧ s.outline.visible.length = 1 ∧ ¬ s.outline.InRange := by
  decide +kernel

end Session

end UndoJournal
