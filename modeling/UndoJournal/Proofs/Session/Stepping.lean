import UndoJournal.Proofs.Navigator.Ways
import UndoJournal.Proofs.Screen.Beside
import UndoJournal.Proofs.Session.Gestures
import UndoJournal.Session.Snapshot

/-!
# Clicking a row is stepping there

A user who clicks a row sets off a walk that starts with the selection already moved. Every step of
that walk is a step of the document as any program makes it, and from the first one on the selection
is that of the last update, so **the click ends where so many calls of undo or redo end**
(`Session.click_is_stepping`).

Two runs are compared, one of which the navigator makes. Before the first step they stand beside
each other (`Session.Beside`), and after it they are level (`Session.Level`): the document, the
journal and all that is shown are the same.
-/

namespace UndoJournal

namespace Session

/-- The document makes a step. -/
def step : Direction → Action Session Bool
  | .undo => undo
  | .redo => redo

/-- So many calls of the document, all of which made a step, lead from one session to another. -/
def Stepped (d : Direction) : Nat → Session → Session → Prop
  | 0, s, t => t = s
  | k + 1, s, t => (step d).Gives s fun moved s' => moved = true ∧ Stepped d k s' t

/-- The sessions differ in nothing but the selection and what the navigator has been through. -/
structure Beside (s s' : Session) : Prop where
  document : s'.document = s.document
  journal : s'.desk.journal = s.desk.journal
  screen : s.desk.around.screen.Beside s'.desk.around.screen

/-- The document, the journal and all that is shown are the same. -/
structure Level (s s' : Session) : Prop where
  document : s'.document = s.document
  journal : s'.desk.journal = s.desk.journal
  link : s'.desk.around.screen.link = s.desk.around.screen.link
  outline : s'.outline = s.outline

variable {s s' s₀ s₀' : Session} {m : Nat} {d : Direction}

private theorem controls_step (d : Direction) : controls.step d = step d := by cases d <;> rfl

namespace Level

private theorem beside (h : s.Level s') : s.Beside s' :=
  ⟨h.document, h.journal, h.link, Outline.beside_of_eq h.outline⟩

/-- Sessions that are level look the same. -/
theorem snapshot (h : s.Level s') : s'.snapshot = s.snapshot := by
  have houtline : s'.screen.widget.outline = s.screen.widget.outline := h.outline
  simp only [Session.snapshot, Session.journal, h.document, h.journal, houtline]

end Level

/-! ### Steps -/

/-- A notice, heard beside another session: nothing has happened, or both are level. -/
private theorem Beside.gives_notify (h : s.Beside s') (hl : s.Linked) (hl' : s'.Linked)
    (hs : s.desk.around.screen.Abreast s.desk.journal.timeline)
    (hs' : s'.desk.around.screen.Abreast s'.desk.journal.timeline) {stack : Stack}
    (htr : s.desk.journal.Traces stack) (notice : Notice) :
    (audience.notify notice).Gives s fun _ t => (audience.notify notice).Gives s' fun _ t' =>
      t.desk.journal = s.desk.journal ∨ t.Level t' := by
  obtain ⟨_, hrun, r, hr, heq, htr₁, -⟩ := Session.gives_notify hl (.refl hs.tracks) htr notice
  obtain ⟨_, hrun', r', hr', heq', -⟩ :=
    Session.gives_notify hl' (.refl hs'.tracks) (h.journal ▸ htr) notice
  obtain rfl : r = r' := Except.ok.inj (hr.symm.trans (h.journal ▸ hr'))
  have hann := Journal.announces_hear hr
  refine ⟨_, hrun, _, hrun', ?_⟩
  rw [heq, heq']
  rcases hu : r.update with _ | u
  · exact .inl (hann.silent hu)
  · have hcontains : r.journal.timeline.contains u.current = true :=
      hann.current u hu ▸ htr₁.contains_cursor
    obtain ⟨-, -, -, -, hlink, houtline⟩ :=
      h.screen.follow hs (h.journal ▸ hs') (hann.reshaped u hu) hcontains
    exact .inr ⟨h.document, rfl, hlink, houtline⟩

/-- **A step of both documents**: nothing has happened to the journal, or the sessions are level. -/
theorem Beside.gives_step (h : s.Beside s') (hl : s.Linked) (hl' : s'.Linked)
    (hs : s.desk.around.screen.Abreast s.desk.journal.timeline)
    (hs' : s'.desk.around.screen.Abreast s'.desk.journal.timeline) {stack : Stack}
    (htr : s.desk.journal.Traces stack) (d : Direction) :
    (controls.step d).Gives s fun _ t => (controls.step d).Gives s' fun _ t' =>
      t.desk.journal = s.desk.journal ∨ t.Level t' := by
  -- between the two changes of the document, the notice is heard
  have hnotify : ∀ (f g : Document Watcher → Document Watcher) (notice : Notice),
      (∀ d, (f d).observers = d.observers) →
      (audience.notify notice).Gives (audience.document.modify f s) fun _ t =>
        (audience.notify notice).Gives (audience.document.modify f s') fun _ t' =>
          t.desk.journal = s.desk.journal ∨
            (audience.document.modify g t).Level (audience.document.modify g t') := by
    intro f g notice hf
    have hbeside : Beside (audience.document.modify f s) (audience.document.modify f s') :=
      ⟨congrArg f h.document, h.journal, h.screen⟩
    refine (hbeside.gives_notify ⟨hl.attached, (hf s.document).symm ▸ hl.observed⟩
      ⟨hl'.attached, (hf s'.document).symm ▸ hl'.observed⟩ hs hs' htr notice).mono fun _ t ht => ?_
    refine ht.mono fun _ t' ht' => ht'.imp_right fun hlevel => ?_
    exact ⟨congrArg g hlevel.document, hlevel.journal, hlevel.link, hlevel.outline⟩
  have hstay : (pure false : Action Session Bool).Gives s fun _ t =>
      (pure false : Action Session Bool).Gives s' fun _ t' =>
        t.desk.journal = s.desk.journal ∨ t.Level t' :=
    (Action.gives_pure _).mpr ((Action.gives_pure _).mpr (.inl rfl))
  have hdocument : audience.document.get s' = audience.document.get s := h.document
  cases d with
  | undo =>
    simp only [Controls.step, controls, Audience.undo, Audience.look, Audience.change,
      Action.gives_bind, Action.gives_get, Action.gives_pure]
    rw [hdocument]
    rcases (audience.document.get s).past with _ | ⟨e, past⟩
    · exact hstay
    · simp only [Action.gives_bind, Action.gives_modify, Action.gives_pure]
      exact hnotify _ (fun d => { d with future := e :: d.future }) (.undone e) fun _ => rfl
  | redo =>
    simp only [Controls.step, controls, Audience.redo, Audience.look, Audience.change,
      Action.gives_bind, Action.gives_get, Action.gives_pure]
    rw [hdocument]
    rcases (audience.document.get s).future with _ | ⟨e, future⟩
    · exact hstay
    · simp only [Action.gives_bind, Action.gives_modify, Action.gives_pure]
      exact hnotify _ (fun d => { d with past := e :: d.past }) (.redone e) fun _ => rfl

/-- A step that there is an event for is made. -/
private theorem Walked.gives_step (h : Walked s₀ m m false s) (hundo : d = .undo → 0 < m)
    (hredo : d = .redo → m < s₀.events.length) :
    (controls.step d).Gives s fun moved s' =>
      moved = true ∧ Walked s₀ (d.reach m 1) (d.reach m 1) false s' := by
  cases d with
  | undo =>
    obtain ⟨n, rfl⟩ := Nat.exists_eq_succ_of_ne_zero (Nat.ne_of_gt (hundo rfl))
    exact (gives_undo h.guided (fun _ => rfl) fun _ => carries_true _ _).mono
      fun _ _ h' => ⟨h'.1, h'.2.toWalked⟩
  | redo =>
    exact (gives_redo h.guided (hredo rfl) (fun _ => rfl) fun _ => carries_true _ _).mono
      fun _ _ h' => ⟨h'.1, h'.2.toWalked⟩

/-- **After one step, sessions that stood beside each other are level.** -/
theorem Beside.gives_step_level (h : s.Beside s')
    (h₀ : s₀.desk.around.screen.Abreast s₀.desk.journal.timeline)
    (h₀' : s₀'.desk.around.screen.Abreast s₀'.desk.journal.timeline)
    (hs : Walked s₀ m m false s) (hs' : Walked s₀' m m false s') (hundo : d = .undo → 0 < m)
    (hredo : d = .redo → m < s₀.events.length) :
    (controls.step d).Gives s fun moved t => moved = true ∧
      Walked s₀ (d.reach m 1) (d.reach m 1) false t ∧
        (controls.step d).Gives s' fun moved' t' => moved' = true ∧
          Walked s₀' (d.reach m 1) (d.reach m 1) false t' ∧ t.Level t' := by
  have hevents : s₀'.events = s₀.events := by
    rw [← hs'.events, ← hs.events, events, events, h.document]
  have habreast : s.desk.around.screen.Abreast s.desk.journal.timeline :=
    hs.holds.timeline.symm ▸ h₀.since hs.holds.good
  have habreast' : s'.desk.around.screen.Abreast s'.desk.journal.timeline :=
    hs'.holds.timeline.symm ▸ h₀'.since hs'.holds.good
  have hboth := h.gives_step hs.holds.linked hs'.holds.linked habreast habreast' hs.traces d
  refine ((hs.gives_step hundo hredo).and hboth).mono ?_
  rintro moved t ⟨⟨rfl, ht⟩, hboth⟩
  refine ⟨rfl, ht, ((hs'.gives_step hundo (hevents ▸ hredo)).and hboth).mono ?_⟩
  rintro moved' t' ⟨⟨rfl, ht'⟩, hlevel⟩
  refine ⟨rfl, ht', hlevel.resolve_left fun hsame => ?_⟩
  -- the cursor has moved, so something has happened
  have hcursor := ht.traces.cursor
  rw [hsame, hs.traces.cursor] at hcursor
  have hm : m = d.reach m 1 := Except.ok.inj hcursor
  cases d with
  | undo =>
    have hpos := hundo rfl
    simp only [Direction.reach] at hm
    omega
  | redo =>
    simp only [Direction.reach] at hm
    omega

/-! ### Marches -/

/-- **The march of a navigator is so many calls of the document**, and where there is a step, the
two end level. -/
theorem Beside.gives_march {requested done k : Nat} (h : s.Beside s')
    (h₀ : s₀.desk.around.screen.Abreast s₀.desk.journal.timeline)
    (h₀' : s₀'.desk.around.screen.Abreast s₀'.desk.journal.timeline)
    (hs : Walked s₀ m m false s) (hs' : Walked s₀' m m false s')
    (hundo : d = .undo → k ≤ m) (hredo : d = .redo → m + k ≤ s₀.events.length) :
    (controls.march d requested done k).Gives s' fun _ t' => ∃ t,
      Stepped d k s t ∧ (0 < k ∨ s.Level s' → t.Level t') := by
  -- after one step the two are level, which the next steps keep up
  induction k generalizing s s' m done with
  | zero =>
    exact (Action.gives_pure _).mpr ⟨s, rfl, fun hor => hor.resolve_left (Nat.lt_irrefl 0)⟩
  | succ k ih =>
    obtain ⟨moved, hrun, rfl, ht, moved', hrun', rfl, ht', hlevel⟩ :=
      h.gives_step_level (d := d) h₀ h₀' hs hs' (fun hd => Nat.lt_of_lt_of_le k.succ_pos (hundo hd))
        fun hd => by have := hredo hd; omega
    rw [Controls.march, Action.gives_bind]
    refine ⟨true, hrun', (Action.gives_bind _ _).mpr ((Action.gives_note ..).mpr ?_)⟩
    have hundo' : d = .undo → k ≤ d.reach m 1 := by
      rintro rfl
      have := hundo rfl
      simp only [Direction.reach]
      omega
    have hredo' : d = .redo → d.reach m 1 + k ≤ s₀.events.length := by
      rintro rfl
      have := hredo rfl
      simp only [Direction.reach]
      omega
    refine (ih hlevel.beside ht ht' hundo' hredo').mono ?_
    rintro _ t' ⟨t, hstepped, hend⟩
    exact ⟨t, ⟨true, controls_step d ▸ hrun, rfl, controls_step d ▸ hstepped⟩,
      fun _ => hend (.inr hlevel)⟩

/-! ### Clicks -/

/-- **A click on a row that is not selected** goes to the row, and ends level with so many calls of
the document, if it is not there already. -/
theorem AtRest.gives_click_stepping (h : s.AtRest) {row : Nat} {seen : Row}
    (hrow : s.outline.visible[row]? = some seen) (hnew : s.outline.selected ≠ some seen.key)
    {n : Nat} (hm : s.document.applied.length = m)
    (hn : s.desk.journal.timeline.ordinal seen.position = .ok n) :
    (click row).Gives s fun answer s' => answer = .ok () ∧
      s'.desk.journal.cursor = seen.position ∧
        ∃ t, s.Stepped (.toward ((n : Int) - m)) ((n : Int) - m).natAbs t ∧
          (0 < ((n : Int) - m).natAbs → t.Level s') := by
  subst hm
  obtain ⟨r, hclick, houtline, hsignals⟩ := Outline.click_of_visible hrow
  let signal : Signal := .selectionChanged (some seen.position)
  have hstart : Walked s _ _ false (s.withOutline r.outline) :=
    h.step.walked.withOutline (by rw [houtline])
  have hacting := hstart.acting signal
  have habreast : (navigatorLens.set ⟨.busy, none⟩ s).desk.around.screen.Abreast
    (navigatorLens.set ⟨.busy, none⟩ s).desk.journal.timeline := h.moored.abreast
  have hselected : s.outline.Beside r.outline := by
    rw [houtline]
    rfl
  have hbeside : s.Beside ((s.withOutline r.outline).acting signal) := ⟨rfl, rfl, rfl, hselected⟩
  have hcursor := h.ordinal_cursor
  have hsize : n ≤ s.events.length := h.step.traces.size_eq ▸ Timeline.ordinal_le_size hn
  -- the calls that the click makes are made beside the steps, one by one
  have hmarch : (controls.select seen.position).Gives ((s.withOutline r.outline).acting signal)
      fun _ s' => ∃ t, s.Stepped (.toward ((n : Int) - s.document.applied.length))
        ((n : Int) - s.document.applied.length).natAbs t ∧
          (0 < ((n : Int) - s.document.applied.length).natAbs → t.Level s') := by
    refine Controls.gives_select (s := (s.withOutline r.outline).acting signal) hcursor hn
      (Journal.stepsTo_eq hcursor hn) ?_
    refine (hbeside.gives_march h.moored.abreast habreast h.step.walked hacting ?_ ?_).mono ?_
    · rw [Direction.toward_eq_undo_iff]
      omega
    · rw [Direction.toward_eq_redo_iff]
      omega
    · rintro _ s' ⟨t, hstepped, hlevel⟩
      exact ⟨t, hstepped, fun hpos => hlevel (.inl hpos)⟩
  refine h.gives_click_of (fun e he => by cases he.symm.trans hclick) fun r' hr' => ?_
  obtain rfl : r = r' := Except.ok.inj (hclick.symm.trans hr')
  rw [hsignals, if_neg hnew, Action.each_singleton]
  refine gives_attend h.step.navigator hstart (.select seen.position) rfl ?_
  simp only [Controls.act, Action.gives_bind, Action.gives_pure]
  refine ((gives_select hacting.guided seen.position fun _ _ => carriesAlong_true _ _).and
    hmarch).mono ?_
  rintro answer s' ⟨⟨hout, -, -⟩ | ⟨n', hn', ⟨walk, rfl⟩, h'⟩, t, hstepped, hlevel⟩
  · cases hout.symm.trans (Timeline.contains_iff_exists_ordinal.mpr ⟨n, hn⟩)
  · refine ⟨rfl, n', h'.toWalked, rfl, trivial, h'.cursor_eq hn', t, hstepped, fun hpos => ?_⟩
    exact ⟨(hlevel hpos).document, (hlevel hpos).journal, (hlevel hpos).link,
      (hlevel hpos).outline⟩

/-- **Clicking a row is stepping there**, after any deeds of the document and of the user. The row
that is selected already is clicked without any effect. Any other row that the cursor is not on
takes the document there: the click answers well, the cursor is at the row, and the session is
level with what as many calls of undo or redo lead to as the row is away, all of which make a step.
So it looks the same. -/
theorem click_is_stepping (settings : Settings) (o : Outline) {ds : List Deed}
    (hds : ∀ d ∈ ds, d.ordinary = true) {row : Nat} {seen : Row}
    (hrow : ((wired settings o).after ds).outline.visible[row]? = some seen) :
    let s := (wired settings o).after ds
    (s.outline.selected = some seen.key →
      (click row).Gives s fun answer s' => answer = .ok () ∧ s' = s) ∧
    (s.outline.selected ≠ some seen.key → seen.position ≠ s.desk.journal.cursor →
      ∃ δ, s.desk.journal.timeline.distance s.desk.journal.cursor seen.position = .ok δ ∧
        (click row).Gives s fun answer s' => answer = .ok () ∧
          s'.desk.journal.cursor = seen.position ∧
            ∃ t, s.Stepped (.toward δ) δ.natAbs t ∧ t.Level s' ∧ s'.snapshot = t.snapshot) := by
  intro s
  have h : s.AtRest := (atRest_wired settings o).after hds
  refine ⟨fun hselected => ?_, fun hnew hnot => ?_⟩
  · obtain ⟨r, hclick, houtline, hsignals⟩ := Outline.click_of_visible hrow
    refine h.gives_click_of (fun e he => by cases he.symm.trans hclick) fun r' hr' => ?_
    obtain rfl : r = r' := Except.ok.inj (hclick.symm.trans hr')
    have hsame : r.outline = s.outline := by rw [houtline, ← hselected]
    rw [hsignals, if_pos hselected, hsame]
    exact (Action.gives_pure _).mpr ⟨h.step.navigator, rfl, rfl⟩
  · have hmem : seen ∈ s.outline.rows := (List.mem_filter.mp (List.mem_of_getElem? hrow)).1
    obtain ⟨n, hn⟩ := Timeline.contains_iff_exists_ordinal.mp
      (h.moored.abreast.shown ▸ Outline.contains_of_mem_rows hmem)
    have hcursor : s.desk.journal.timeline.ordinal s.desk.journal.cursor =
      .ok s.document.applied.length := h.step.traces.cursor
    refine ⟨_, Timeline.distance_of_ordinal hcursor hn,
      (h.gives_click_stepping hrow hnew rfl hn).mono ?_⟩
    rintro answer s' ⟨hanswer, hat, t, hstepped, hlevel⟩
    have haway : 0 < ((n : Int) - s.document.applied.length).natAbs := by
      refine Int.natAbs_pos.mpr fun hzero => hnot ?_
      obtain rfl : n = s.document.applied.length := by omega
      exact Timeline.eq_of_ordinal_eq hn hcursor
    exact ⟨hanswer, hat, t, hstepped, hlevel haway, (hlevel haway).snapshot⟩

/-- Two runs, and the cursor is at the end of the second. -/
def typed : List Deed :=
  [.commit "Move" "one", .commit "Move" "two", .commit "Move" "three", .commit "Edit" "four",
    .commit "Edit" "five"]

/-- On a screen with room for two rows, a click on the head of the first run is four calls of
undo. -/
theorem click_is_stepping_typed :
    let s := (wired {} (.empty {} .unicode 2)).after typed
    (click 1).Gives s fun answer s' => answer = .ok () ∧
      s'.desk.journal.cursor = .on (.ofHead 0) ∧
        ∃ t, s.Stepped .undo 4 t ∧ t.Level s' ∧ s'.snapshot = t.snapshot := by
  have hrow : ((wired {} (.empty {} .unicode 2)).after typed).outline.visible[1]? =
      some ⟨.entry ⟨0⟩, .on (.ofHead 0), "one", 1, 2, false⟩ := by decide +kernel
  have hwalk := (click_is_stepping {} (.empty {} .unicode 2) (by decide) hrow).2 (by decide +kernel)
    (by decide +kernel)
  have hplaces :
      ((wired {} (.empty {} .unicode 2)).after typed).desk.journal.timeline.positionAt? 5 =
        some ((wired {} (.empty {} .unicode 2)).after typed).desk.journal.cursor ∧
      ((wired {} (.empty {} .unicode 2)).after typed).desk.journal.timeline.positionAt? 1 =
        some (.on (.ofHead 0)) := by decide +kernel
  generalize (wired {} (.empty {} .unicode 2)).after typed = s at hwalk hplaces ⊢
  obtain ⟨δ, hδ, hgives⟩ := hwalk
  obtain rfl : -4 = δ := Except.ok.inj ((Timeline.distance_of_ordinal
    (Timeline.positionAt?_eq_some_iff.mp hplaces.1)
    (Timeline.positionAt?_eq_some_iff.mp hplaces.2)).symm.trans hδ)
  exact hgives

end Session

end UndoJournal
